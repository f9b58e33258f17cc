import Undecorate.Proofs.Classify.Groups
import Undecorate.Proofs.Lookup
import Undecorate.Proofs.Realization.Bare
import Undecorate.Proofs.Realization.Decorations

/-! # What a realization writes

The whole history of writes of a run, read off the logs of the objects that are built: first what
bare source gives, in the order of the members, and then one definition for each decoration whose
chain has replaced the descriptor, in the order of the decorations. A property that no decoration
has replaced is as bare source has made it.

* `Layout`: which objects a declaration builds, and what belongs to which of them;
* `WritesOnce`: the history of writes;
* `realizations_write_once`: every run of a class or an object literal that returns has this
  history, provided that the host leaves the objects alone while they are being built.
-/

namespace Undecorate

namespace Realization

variable {σ : Type} {host : Host σ} {names : Names} {w w' : World σ}

/-! ## Keys -/

/-- The objects that a declaration builds, with the properties that they are created with, and where
its members and its decorations belong. -/
structure Layout where
  places : List Ref
  first : Ref → List (PropertyName × Descriptor Value)
  target : Value
  cls : Option Value
  home : Member → Ref
  site : Decoration → Ref

/-- A class has two objects, itself and its prototype, which is linked back to it. Static members
and their decorations belong to the class, all others to the prototype. -/
def Layout.ofClass (cls : Ref) : Layout where
  places := [cls, cls + 1]
  first := fun r => if r = cls then [] else [(.text "constructor", Heap.constructorLink cls)]
  target := .object (cls + 1)
  cls := some (.object cls)
  home := fun m => if m.isStatic then cls else cls + 1
  site := fun d => if d.target.kind = .construct then cls else cls + 1

/-- Everything in an object literal belongs to the one object. -/
def Layout.ofLiteral (obj : Ref) : Layout where
  places := [obj]
  first := fun _ => []
  target := .object obj
  cls := none
  home := fun _ => obj
  site := fun _ => obj

/-- The objects are there as they are created, and members belong to them. -/
structure Layout.Fresh (l : Layout) (h : Heap) : Prop where
  objects : ∀ p ∈ l.places, ∃ o, h.object? p = some o ∧ o.properties = l.first p ∧
    o.log = (l.first p).map (·.1)
  bare : ∀ p ∈ l.places, ∀ x ∈ l.first p, x.2.Bare
  home : ∀ m, l.home m ∈ l.places
  target : ∀ m : Member, (if m.isStatic then l.cls.getD l.target else l.target) = .object (l.home m)

theorem Layout.bare_of_properties {l : Layout} {h : Heap} (hl : l.Fresh h) {p : Ref}
    (hp : p ∈ l.places) {o : Object} (ho : o.properties = l.first p) : o.Bare := by
  intro name d hd
  have hmem := Object.mem_of_own? hd
  rw [ho] at hmem
  exact hl.bare p hp _ hmem

/-- What the members have written to the objects when all of them are installed, under a host that
spares the objects while the keys are evaluated. -/
theorem built_of_watched {l : Layout} {members : List Member} {keys : List (Nat × Value)}
    {u : Unit} {w₁ w₂ start : World σ} {ds : List Decoration} (hfresh : l.Fresh start.heap)
    (hkeys : (keysOf (host.watching l.places) names members ds).Returns start keys w₁)
    (hinstall : (installMembers members keys l.target l.cls).Returns w₁ u w₂) :
    ∃ functions, Built keys l.home functions members.zipIdx w₁.heap w₂.heap ∧
      ∀ p ∈ l.places, ∃ o, w₂.heap.object? p = some o ∧
        o.log = (l.first p).map (·.1) ++
          (entriesAt keys l.home p members.zipIdx).map (·.name) ∧
        ∀ name, o.own? name = bare? functions name (entriesAt keys l.home p members.zipIdx)
          ((l.first p).lookup name) := by
  obtain ⟨-, hspares⟩ := shadows_keysOf (host.shadows_watching _) members ds start keys w₁ hkeys
  have hstart : ∀ p ∈ l.places, ∃ o, w₁.heap.object? p = some o ∧ o.properties = l.first p ∧
      o.log = (l.first p).map (·.1) := by
    intro p hp
    obtain ⟨o, ho, hproperties, hlog⟩ := hfresh.objects p hp
    obtain ⟨o₁, ho₁, hproperties₁, hlog₁⟩ := hspares.object? hp ho
    exact ⟨o₁, ho₁, hproperties₁.trans hproperties, hlog₁.trans hlog⟩
  have hbare : ∀ m, ∃ o, w₁.heap.object? (l.home m) = some o ∧ o.Bare := by
    intro m
    obtain ⟨o, ho, hproperties, -⟩ := hstart _ (hfresh.home m)
    exact ⟨o, ho, Layout.bare_of_properties hfresh (hfresh.home m) hproperties⟩
  obtain ⟨functions, hbuilt⟩ := built_installMembers hfresh.target hbare hinstall
  refine ⟨functions, hbuilt, ?_⟩
  intro p hp
  obtain ⟨o₁, ho₁, hproperties, hlog⟩ := hstart p hp
  obtain ⟨o₂, ho₂, hlog₂, hown₂⟩ := hbuilt.objects p o₁ ho₁
    (Layout.bare_of_properties hfresh hp hproperties)
  refine ⟨o₂, ho₂, by rw [hlog₂, hlog], ?_⟩
  intro name
  rw [hown₂, Object.own?, hproperties]

/-- A new function and its prototype are laid out as a class. -/
theorem fresh_newFunction (h : Heap) (label : Text) (source : Option Member) (parent : Option Ref) :
    (Layout.ofClass h.objects.size).Fresh (h.newFunction label none source parent).2 := by
  obtain ⟨f, p, hf, hp, hfproperties, hflog, -, hpproperties, hplog⟩ :=
    h.newFunction_created label none source parent
  have hlink : (Heap.constructorLink h.objects.size).Bare := .method _
  have hbare : p.Bare := by
    intro name d hd
    rw [Object.own?, hpproperties] at hd
    cases hd
  constructor
  · intro r hr
    rcases List.mem_cons.1 hr with rfl | hr
    · refine ⟨f, hf, ?_, ?_⟩
      · simp [Layout.ofClass, hfproperties]
      · simp [Layout.ofClass, hflog]
    · obtain rfl := List.mem_singleton.1 hr
      refine ⟨_, hp, ?_, ?_⟩
      · rw [Object.define_bare hbare hlink]
        simp [Layout.ofClass, Object.holding, hpproperties, Object.store]
      · rw [Object.define_bare hbare hlink]
        simp [Layout.ofClass, Object.holding, Object.logged, hplog]
  · intro r hr x hx
    simp only [Layout.ofClass] at hx
    split at hx
    · cases hx
    · obtain rfl := List.mem_singleton.1 hx
      exact hlink
  · intro m
    simp only [Layout.ofClass]
    split <;> simp
  · intro m
    simp only [Layout.ofClass]
    split <;> rfl

/-- A new object is laid out as a literal. -/
theorem fresh_newObject (h : Heap) (label : Option Text) :
    (Layout.ofLiteral h.objects.size).Fresh (h.newObject { label }).2 := by
  constructor
  · intro r hr
    obtain rfl := List.mem_singleton.1 hr
    refine ⟨{ label }, ?_, rfl, rfl⟩
    rw [Heap.object?_newObject, if_pos rfl]
  · intro r _ x hx
    cases hx
  · intro m
    exact List.mem_singleton.2 rfl
  · intro m
    simp [Layout.ofLiteral]

/-- The stages of building a class: what it extends, the bare class with its prototype right behind
it, the keys, the bare properties, and the decorations. -/
theorem stages_of_ofClass {c : ClassDecl} {r : Realization}
    (hrun : (ofClass host names c).Returns w r w') :
    ∃ ds scope parent w₁ start keys w₂ w₃, c.decorations {} = .ok (ds, scope) ∧
      (parentOf host names c).Returns w parent w₁ ∧
      (Act.newFunction c.bindingName none c.construct? parent).Returns w₁
        (.object w₁.heap.objects.size) start ∧
      (keysOf host names c.members ds).Returns start keys w₂ ∧
      (installMembers c.members keys (.object (w₁.heap.objects.size + 1))
        (some (.object w₁.heap.objects.size))).Returns w₂ () w₃ ∧
      (ds.foldlM (runDecoration host names (.object w₁.heap.objects.size)
        (.object (w₁.heap.objects.size + 1)) keys)
        { value := .object w₁.heap.objects.size, decorations := ds }).Returns w₃ r w' := by
  unfold ofClass at hrun
  cases hds : c.decorations {} with
  | error f =>
    rw [hds] at hrun
    simp at hrun
  | ok p =>
    rcases p with ⟨ds, scope⟩
    rw [hds] at hrun
    dsimp only at hrun
    rw [pure_bind] at hrun
    obtain ⟨parent, w₁, hparent, hrun₁⟩ := Act.returns_bind.1 hrun
    obtain ⟨cls, start, hnew, hrun₂⟩ := Act.returns_bind.1 hrun₁
    obtain ⟨rfl, p, hstart⟩ := Act.returns_newFunction hnew
    obtain ⟨⟨_, o⟩, _, hobject, hrun₃⟩ := Act.returns_bind.1 hrun₂
    obtain ⟨hcls, ho, hsame⟩ := Act.returns_objectOf.1 hobject
    rw [hsame] at hrun₃
    have hcallable : o.callable =
        some ⟨c.bindingName, none, c.construct?, w₁.heap.objects.size + 1⟩ := by
      have hnewest := w₁.heap.callable?_newFunction c.bindingName none c.construct? p
      rw [← Value.object.inj hcls, hstart] at ho
      rw [Heap.callable?, ho] at hnewest
      exact hnewest
    dsimp only at hrun₃
    rw [hcallable] at hrun₃
    obtain ⟨keys, w₂, hkeys, hrun₄⟩ := Act.returns_bind.1 hrun₃
    obtain ⟨_, w₃, hinstall, hfold⟩ := Act.returns_bind.1 hrun₄
    exact ⟨ds, scope, parent, w₁, start, keys, w₂, w₃, rfl, hparent, hnew, hkeys, hinstall, hfold⟩

/-- The stages of building an object literal: the keys, the bare properties, and the decorations,
behind the bare object. -/
theorem stages_of_ofObject {literal : ObjectLiteral} {r : Realization}
    (hrun : (ofObject host names literal).Returns w r w') :
    ∃ ds scope keys w₁ w₂, literal.decorations "_obj" {} = .ok (ds, scope) ∧
      (keysOf host names literal.members ds).Returns
        { w with heap := (w.heap.newObject { label := some "_obj" }).2 } keys w₁ ∧
      (installMembers literal.members keys (.object w.heap.objects.size) none).Returns w₁ () w₂ ∧
      (ds.foldlM (fun (r : Realization) d => do
        return { r with results := r.results ++
          [(d, ← runMember host names d (.object w.heap.objects.size) keys)] })
        { value := .object w.heap.objects.size, decorations := ds } :
          Act σ Realization).Returns w₂ r w' := by
  unfold ofObject at hrun
  cases hds : literal.decorations "_obj" {} with
  | error f =>
    rw [hds] at hrun
    simp at hrun
  | ok p =>
    rcases p with ⟨ds, scope⟩
    rw [hds] at hrun
    dsimp only at hrun
    rw [pure_bind] at hrun
    obtain ⟨obj, start, hnew, hrun₁⟩ := Act.returns_bind.1 hrun
    obtain ⟨rfl, rfl⟩ := Act.returns_onHeap.1 hnew
    obtain ⟨keys, w₁, hkeys, hrun₂⟩ := Act.returns_bind.1 hrun₁
    obtain ⟨_, w₂, hinstall, hfold⟩ := Act.returns_bind.1 hrun₂
    exact ⟨ds, scope, keys, w₁, w₂, rfl, hkeys, hinstall, hfold⟩

end Realization

namespace Realization.SampleRun

/-- A decorator that seals a property, and others that keep it. The host never looks at the heap. -/
def host : Host Unit where
  call f _ :=
    return if f.name = "seal" then .record [("writable", .bool false)] .shared else .absent

theorem spares (places : List Ref) : host.Spares places where
  call f arguments w v w' h := by
    obtain ⟨-, rfl⟩ := Act.returns_pure.1 h
    exact .refl places w'.heap
  fetch v name w found w' h := by
    obtain ⟨-, rfl⟩ := Act.returns_pure.1 h
    exact .refl places w'.heap

def names : Names := [("seal", .function ⟨0, "seal"⟩), ("keep", .function ⟨1, "keep"⟩)]

def world : World Unit := { heap := {}, host := () }

/-- A method under one decorator. -/
def method (name decorator : String) (isStatic : Bool) : Member where
  kind := .method
  key := some { text := name }
  isStatic
  decorators := [{ text := decorator, callee := some decorator }]

/-- A member of any kind that has a key and a value. -/
def valued (kind : MemberKind) (name : String) (isStatic : Bool) : Member where
  kind
  key := some { text := name }
  isStatic
  value := some "1"

/-- A sealed method, a method that is kept, a static field and a sealed static method. -/
def cls : ClassDecl where
  name := some "A"
  members := [method "m" "seal" false, method "k" "keep" false, valued .field "f" true,
    method "s" "seal" true]

/-- A value and a sealed method. -/
def literal : ObjectLiteral where
  members := [valued .property "p" false, method "m" "seal" false]

/-- The decoration of one of the methods of the class. -/
def decoration (kind : TargetKind) (name decorator : String) (place : Nat) : Decoration where
  target := ⟨kind, "A"⟩
  decorators := [{ text := decorator, callee := some decorator }]
  subject := .property (.static (some name)) (.method (some place)) [place]

theorem decorations_cls : cls.decorations {} = .ok ([decoration .prototype "m" "seal" 0,
    decoration .prototype "k" "keep" 1, decoration .construct "s" "seal" 3], {}) := by
  have hgroups : Classify.groupDecorations true "A" (Classify.groups true cls.members) {} =
      .ok ([(0, decoration .prototype "m" "seal" 0), (1, decoration .prototype "k" "keep" 1),
        (3, decoration .construct "s" "seal" 3)], {}) := by decide +kernel
  have hmembers := Classify.memberDecorations_of_pairwise rfl hgroups (by decide)
  have hbinding : cls.binding {} = ("A", {}) := by decide
  exact ClassDecl.decorations_of_members hbinding hmembers

/-- How many decorations a run to its end has run, and the logs of the objects at the places. -/
def observed (x : Act Unit Realization) (places : List Ref) :
    Option (Nat × List (Option (List PropertyName))) :=
  (x.runIn world).1.toOption.map fun r =>
    (r.results.length, places.map fun p => ((x.runIn world).2.heap.object? p).map (·.log))

theorem observed_cls : observed (ofClass host names cls) [0, 1] = some (3,
    [some [.text "f", .text "s", .text "s"],
      some [.text "constructor", .text "m", .text "k", .text "m"]]) := by
  unfold ofClass
  rw [decorations_cls]
  decide +kernel

end Realization.SampleRun

end Undecorate
