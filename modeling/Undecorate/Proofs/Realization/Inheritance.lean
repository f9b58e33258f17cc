import Mathlib.Logic.Relation
import Mathlib.Tactic.SplitIfs
import Undecorate.Proofs.Realization.Lasting

/-! # Inheritance

An object inherits only from what was there before it, and so does the prototype of a function: a
class that extends another one gets both its lines from the other one's. So no line of prototypes
runs in a circle, whatever is built, defined or realized, and reading a property comes to an end. It
is decided by the first object on the line that has the property.

* `Heap.Ordered`, `lasting_ordered`: what keeps the lines straight, and that it lasts;
* `Heap.Line`: the objects along a line of prototypes, up to its end;
* `Ordered.line_chain`: the line of every object ends, and it is what reading goes along;
* `nearest_holder_decides`: what reading a property comes to, in every heap that can be reached.
-/

namespace Undecorate

/-! ## What an object inherits -/

/-- What an object inherits from, and what makes it a function. -/
def Object.kin (o : Object) : Option Value × Option Callable := (o.proto, o.callable)

/-- A definition changes nothing that an object inherits. -/
theorem Object.kin_define (o : Object) (name : PropertyName) (d : Descriptor Value) :
    (o.define name d).1.kin = o.kin := by
  have hdefined := o.defined name d
  generalize o.define name d = result at hdefined ⊢
  cases hdefined <;> rfl

namespace Heap

/-- An object that can stand behind `older` objects in a heap of `size` objects: it inherits from an
older one or from nothing, and has a prototype if it is a function. -/
structure Fits (older size : Nat) (o : Object) : Prop where
  proto : o.proto = none ∨ ∃ p, o.proto = some (.object p) ∧ p < older
  prototype : ∀ c, o.callable = some c → c.prototype < size

/-- The objects inherit from older ones only, and every function has a prototype. -/
def Ordered (h : Heap) : Prop := ∀ r o, h.object? r = some o → Fits r h.objects.size o

variable {h h' : Heap} {r p q : Ref} {o o' : Object} {older older' size size' : Nat}

theorem Fits.mono (hfits : Fits older size o) (holder : older ≤ older') (hsize : size ≤ size') :
    Fits older' size' o where
  proto := by
    rcases hfits.proto with hnone | ⟨p, hp, hlt⟩
    · exact .inl hnone
    · exact .inr ⟨p, hp, Nat.lt_of_lt_of_le hlt holder⟩
  prototype c hc := Nat.lt_of_lt_of_le (hfits.prototype c hc) hsize

theorem Fits.of_kin (hfits : Fits older size o) (hkin : o'.kin = o.kin) : Fits older size o' := by
  obtain ⟨hproto, hcallable⟩ := Prod.mk.inj hkin
  exact ⟨hproto ▸ hfits.proto, hcallable ▸ hfits.prototype⟩

/-- A change that leaves every object where it is, with what it inherits. -/
theorem Ordered.of_kin (hordered : h.Ordered) (hsize : h'.objects.size = h.objects.size)
    (hkin : ∀ r, (h'.object? r).map (·.kin) = (h.object? r).map (·.kin)) : h'.Ordered := by
  intro r o' ho'
  have hr := hkin r
  rw [ho', Option.map_some] at hr
  obtain ⟨o, ho, hsame⟩ := Option.map_eq_some_iff.1 hr.symm
  rw [hsize]
  exact (hordered r o ho).of_kin hsame.symm

/-- A new object that fits. The heap may be meant to grow further. -/
theorem fits_newObject (hfits : ∀ r o, h.object? r = some o → Fits r size o)
    (ho : Fits h.objects.size size o) :
    ∀ r o', (h.newObject o).2.object? r = some o' → Fits r size o' := by
  intro r o' ho'
  rw [object?_newObject] at ho'
  split_ifs at ho' with hnew
  · obtain rfl := Option.some.inj ho'
    rwa [hnew]
  · exact hfits r o' ho'

theorem Ordered.grown (hordered : h.Ordered) (hsize : h.objects.size ≤ size) :
    ∀ r o, h.object? r = some o → Fits r size o :=
  fun r o ho => (hordered r o ho).mono (Nat.le_refl r) hsize

theorem Ordered.newObject (hordered : h.Ordered) {proto : Option Value} (label : Option Text)
    (hoffers : h.Offers proto) : (h.newObject { proto, label }).2.Ordered := by
  have hsize : (h.newObject { proto, label }).2.objects.size = h.objects.size + 1 :=
    Array.size_push _
  intro r o ho
  rw [hsize]
  have hfits : Fits h.objects.size (h.objects.size + 1) { proto, label } :=
    ⟨hoffers, fun c hc => by cases hc⟩
  exact fits_newObject (hordered.grown (Nat.le_succ _)) hfits r o ho

/-- A function that is there has a prototype that is there. -/
theorem Ordered.lt_of_callable? (hordered : h.Ordered) {c : Callable}
    (hc : h.callable? r = some c) : c.prototype < h.objects.size := by
  obtain ⟨o, ho, hcallable⟩ := Option.bind_eq_some_iff.1 hc
  exact (hordered r o ho).prototype c hcallable

/-- A new function inherits from its parent, and its prototype from that of the parent. -/
theorem newFunction_kin (h : Heap) (name : Text) (implementation : Option Function)
    (source : Option Member) (parent : Option Ref) :
    ∃ function prototype : Object,
      (h.newFunction name implementation source parent).2 =
        ((h.newObject function).2.newObject prototype).2 ∧
      function.kin = (parent.map .object,
        some ⟨name, implementation, source, h.objects.size + 1⟩) ∧
      prototype.kin =
        (parent.bind fun p => (h.callable? p).map fun c => .object c.prototype, none) :=
  ⟨_, _, rfl, rfl, Object.kin_define _ _ _⟩

theorem Ordered.newFunction (hordered : h.Ordered) (name : Text) (implementation : Option Function)
    (source : Option Member) {parent : Option Ref}
    (hparent : ∀ p ∈ parent, (h.callable? p).isSome) :
    (h.newFunction name implementation source parent).2.Ordered := by
  obtain ⟨function, prototype, heq, hfunction, hprototype⟩ :=
    h.newFunction_kin name implementation source parent
  obtain ⟨hproto, hcallable⟩ := Prod.mk.inj hfunction
  obtain ⟨hproto', hcallable'⟩ := Prod.mk.inj hprototype
  -- the function stands behind all that was there, and its prototype right behind the function
  have hfits : Fits h.objects.size (h.objects.size + 2) function := by
    refine ⟨?_, fun c hc => ?_⟩
    · rw [hproto]
      cases parent with
      | none => exact .inl rfl
      | some p =>
        obtain ⟨c, hc⟩ := Option.isSome_iff_exists.1 (hparent p rfl)
        obtain ⟨o, ho, -⟩ := Option.bind_eq_some_iff.1 hc
        exact .inr ⟨p, rfl, (Array.getElem?_eq_some_iff.1 ho).1⟩
    · rw [hcallable] at hc
      obtain rfl := Option.some.inj hc
      exact Nat.lt_succ_self _
  have hfits' : Fits (h.objects.size + 1) (h.objects.size + 2) prototype := by
    refine ⟨?_, fun c hc => ?_⟩
    · rw [hproto']
      cases parent with
      | none => exact .inl rfl
      | some p =>
        obtain ⟨c, hc⟩ := Option.isSome_iff_exists.1 (hparent p rfl)
        refine .inr ⟨c.prototype, ?_, Nat.lt_succ_of_lt (hordered.lt_of_callable? hc)⟩
        rw [Option.bind_some, hc, Option.map_some]
    · rw [hcallable'] at hc
      cases hc
  have hsize : (h.newObject function).2.objects.size = h.objects.size + 1 := Array.size_push _
  intro r o ho
  rw [size_newFunction]
  rw [heq] at ho
  refine fits_newObject (fits_newObject (hordered.grown (Nat.le_add_right _ 2)) hfits) ?_ r o ho
  rwa [hsize]

/-- The order of the objects is there to stay. -/
theorem lasting_ordered : Lasting Ordered where
  newDescriptor hordered d := hordered
  setDescriptor hordered r d := hordered
  define hordered r name d := by
    refine hordered.of_kin size_define fun s => ?_
    rw [object?_define]
    split_ifs with hs
    · rw [hs, Option.map_map]
      exact Option.map_congr fun o _ => o.kin_define name d
    · rfl
  logged hordered r name := by
    refine hordered.of_kin Array.size_modify fun s => ?_
    dsimp only [object?]
    rw [Array.getElem?_modify]
    split_ifs
    · rw [Option.map_map]
      rfl
    · rfl
  newObject hordered proto label hoffers := hordered.newObject label hoffers
  newFunction hordered name implementation source parent hparent :=
    hordered.newFunction name implementation source hparent

/-! ## Lines -/

/-- The first object inherits from the second one. -/
def Inherits (h : Heap) (r p : Ref) : Prop :=
  ∃ o, h.object? r = some o ∧ o.proto = some (.object p)

/-- The objects from one on, each of which inherits from the next one, up to one that inherits from
nothing. -/
inductive Line (h : Heap) : Ref → List Ref → Prop
  | last {r : Ref} {o : Object} (ho : h.object? r = some o) (hlast : o.proto = none) : Line h r [r]
  | next {r p : Ref} {o : Object} {rs : List Ref} (ho : h.object? r = some o)
      (hproto : o.proto = some (.object p)) (rest : Line h p rs) : Line h r (r :: rs)

theorem Ordered.lt_of_inherits (hordered : h.Ordered) (hi : h.Inherits r p) : p < r := by
  obtain ⟨o, ho, hproto⟩ := hi
  rcases (hordered r o ho).proto with hnone | ⟨p', hp, hlt⟩
  · rw [hproto] at hnone
    cases hnone
  · rw [hproto] at hp
    cases hp
    exact hlt

theorem Ordered.lt_of_transGen (hordered : h.Ordered) (hpath : Relation.TransGen h.Inherits r p) :
    p < r := by
  induction hpath with
  | single hi => exact hordered.lt_of_inherits hi
  | tail _ hi ih => exact Nat.lt_trans (hordered.lt_of_inherits hi) ih

theorem Ordered.acyclic (hordered : h.Ordered) (r : Ref) :
    ¬ Relation.TransGen h.Inherits r r :=
  fun hcycle => Nat.lt_irrefl r (hordered.lt_of_transGen hcycle)

/-- An object has one line at most. -/
theorem Line.unique {rs rs' : List Ref} (hline : h.Line r rs) (hline' : h.Line r rs') :
    rs = rs' := by
  induction hline generalizing rs' with
  | last ho hlast =>
    cases hline' with
    | last => rfl
    | next ho' hproto =>
      rw [Option.some.inj (ho'.symm.trans ho), hlast] at hproto
      cases hproto
  | next ho hproto _ ih =>
    cases hline' with
    | last ho' hlast =>
      rw [Option.some.inj (ho'.symm.trans ho), hproto] at hlast
      cases hlast
    | next ho' hproto' rest =>
      rw [Option.some.inj (ho'.symm.trans ho), hproto] at hproto'
      cases hproto'
      rw [ih rest]

/-- The line of every object comes to an end, and it is what reading goes along. -/
theorem Ordered.line_chain (hordered : h.Ordered) (ho : h.object? r = some o) :
    h.Line r (h.chain r) := by
  induction r using Nat.strongRecOn generalizing o with
  | ind r ih =>
    rw [chain, ho, Option.bind_some]
    rcases (hordered r o ho).proto with hnone | ⟨p, hp, hlt⟩
    · rw [Object.parent?, hnone]
      exact .last ho hnone
    · have hsize : p < h.objects.size :=
        Nat.lt_trans hlt (Array.getElem?_eq_some_iff.1 ho).1
      rw [Object.parent?, hp]
      dsimp only
      rw [if_pos hlt]
      exact .next ho hp (ih p hlt (Array.getElem?_eq_getElem hsize))

/-- Nothing stands at the end of a line. -/
theorem Line.getLast? {rs : List Ref} (hline : h.Line r rs) :
    ∃ o, rs.getLast?.bind h.object? = some o ∧ o.proto = none := by
  induction hline with
  | @last r o ho hlast => exact ⟨o, ho, hlast⟩
  | next ho hproto rest ih =>
    obtain ⟨o, hlast, hnone⟩ := ih
    refine ⟨o, ?_, hnone⟩
    cases rest <;> exact hlast

theorem strayParent?_eq_none (hline : h.Line r (h.chain r)) : h.strayParent? r = none := by
  obtain ⟨o, hlast, hnone⟩ := hline.getLast?
  rw [strayParent?, hlast, Option.bind_some, Object.strayParent?, hnone]

/-! ## Reading -/

/-- The own property of the object at a place. -/
def property? (h : Heap) (r : Ref) (name : PropertyName) : Option (Descriptor Value) :=
  (h.object? r).bind (·.own? name)

/-- What reading a property of the object at the head of a line comes to, with any host in any state
and whatever the key and the receiver are. -/
inductive ReadsAlong (h : Heap) (r : Ref) (rs : List Ref) {σ : Type} (host : Host σ) (w : World σ)
    (key receiver : Value) : Except Fault Value × World σ → Prop
  /-- The key names no property. -/
  | nameless {f : Fault} (hkey : ∀ name, key.propertyName ≠ .ok name)
      (hf : (Act.nameOf key : Act σ PropertyName).Fails w f w) :
      ReadsAlong h r rs host w key receiver (.error f, w)
  /-- No object on the line has the property. -/
  | missing {name : PropertyName} (hkey : key.propertyName = .ok name)
      (hnone : ∀ q ∈ rs, h.property? q name = none) :
      ReadsAlong h r rs host w key receiver (.ok .absent, w)
  /-- The first object that has it has a value there. -/
  | value {name : PropertyName} {before after : List Ref} {q : Ref} {d : Descriptor Value}
      (hkey : key.propertyName = .ok name) (hline : rs = before ++ q :: after)
      (hfirst : ∀ p ∈ before, h.property? p name = none) (hq : h.property? q name = some d)
      (hkind : d.kind = .data) :
      ReadsAlong h r rs host w key receiver (.ok (.ofOption d.value), w)
  /-- The first object that has it has an accessor without a getter there. -/
  | getterless {name : PropertyName} {before after : List Ref} {q : Ref} {d : Descriptor Value}
      (hkey : key.propertyName = .ok name) (hline : rs = before ++ q :: after)
      (hfirst : ∀ p ∈ before, h.property? p name = none) (hq : h.property? q name = some d)
      (hkind : d.kind = .accessor) (hgetter : d.getter = none) :
      ReadsAlong h r rs host w key receiver (.ok .absent, w)
  /-- The first object that has it has a getter there: all that is done is one call of it. -/
  | getter {name : PropertyName} {before after : List Ref} {q : Ref} {d : Descriptor Value}
      {getter : Value} (hkey : key.propertyName = .ok name) (hline : rs = before ++ q :: after)
      (hfirst : ∀ p ∈ before, h.property? p name = none) (hq : h.property? q name = some d)
      (hkind : d.kind = .accessor) (hgetter : d.getter = some getter) :
      ReadsAlong h r rs host w key receiver
        ((Act.call host getter [(receiver.present?).getD (.object r)]).runIn w)

theorem Ordered.readsAlong {σ : Type} {w : World σ} (hordered : w.heap.Ordered)
    (ho : w.heap.object? r = some o) (host : Host σ) (key receiver : Value) :
    ReadsAlong w.heap r (w.heap.chain r) host w key receiver
      ((Act.getProperty host (.object r) key receiver).runIn w) := by
  have hobject : (Act.objectOf (.object r) "get" : Act σ (Ref × Object)).Returns w (r, o) w :=
    Act.returns_objectOf.2 ⟨rfl, ho, rfl⟩
  have hheap : (Act.heap : Act σ Heap).Returns w w.heap w := Act.returns_heap.2 ⟨rfl, rfl⟩
  unfold Act.getProperty
  rw [hobject.runIn_bind]
  rcases Act.returns_or_fails (Act.nameOf key) w with ⟨name, w', hname⟩ | ⟨f, w', hf⟩
  · obtain ⟨hkey, rfl⟩ := Act.returns_nameOf.1 hname
    rw [hname.runIn_bind, hheap.runIn_bind]
    cases hlookup : w'.heap.lookup? r name with
    | none =>
      -- the line has come to its end, and not to a parent that is no object
      dsimp only
      rw [hheap.runIn_bind, strayParent?_eq_none (hordered.line_chain ho)]
      exact .missing hkey fun q hq => List.findSome?_eq_none_iff.1 hlookup q hq
    | some d =>
      obtain ⟨before, q, after, hline, hq, hfirst⟩ := List.findSome?_eq_some_iff.1 hlookup
      dsimp only
      cases hkind : d.kind with
      | data => exact .value hkey hline hfirst hq hkind
      | accessor =>
        dsimp only
        cases hgetter : d.getter with
        | none => exact .getterless hkey hline hfirst hq hkind hgetter
        | some getter => exact .getter hkey hline hfirst hq hkind hgetter
  · obtain rfl : w' = w := by
      have hreads := Act.reads_nameOf key w
      rwa [hf] at hreads
    rw [hf.bind]
    refine .nameless (fun name hkey => ?_) hf
    exact hf.not_returns (Act.returns_nameOf.2 ⟨hkey, rfl⟩)

end Heap

/-- Wherever constructions, definitions and realizations lead, with a host that does nothing else:
nothing inherits from itself, not even over others, and the prototype of every function is an
object. Every object has a line of prototypes, which ends, and reading a property of the object is
decided by the first object on the line that has the property. -/
theorem nearest_holder_decides {h : Heap} (hreached : Heap.Leads {} h) :
    (∀ r, ¬ Relation.TransGen h.Inherits r r) ∧
    (∀ r c, h.callable? r = some c → ∃ o, h.object? c.prototype = some o) ∧
    ∀ r o, h.object? r = some o → ∃ rs, h.Line r rs ∧
      ∀ (σ : Type) (host : Host σ) (state : σ) (key receiver : Value),
        h.ReadsAlong r rs host { heap := h, host := state } key receiver
          ((Act.getProperty host (.object r) key receiver).runIn { heap := h, host := state }) := by
  have hordered : h.Ordered := Heap.lasting_ordered.leads hreached fun r o ho => by
    cases Array.getElem?_eq_some_iff.1 ho with
    | intro hlt _ => exact absurd hlt (Nat.not_lt_zero r)
  refine ⟨hordered.acyclic, fun r c hc => ?_, fun r o ho => ?_⟩
  · exact ⟨_, Array.getElem?_eq_getElem (hordered.lt_of_callable? hc)⟩
  · exact ⟨h.chain r, hordered.line_chain ho, fun σ host state key receiver =>
      Heap.Ordered.readsAlong (w := { heap := h, host := state }) hordered ho host key receiver⟩

namespace Heap.SampleLine

/-- A class whose instances have a getter. -/
def withGetter : List Operation :=
  [.newFunction "A" none none .absent, .mapping [("get", .function ⟨0, "g"⟩)],
    .define (.object 1) (.text "x" .shared) (.descriptor 0)]

/-- A host whose functions give nothing. -/
def host : Host Unit where
  call _ _ := return .absent

/-- A class that extends it. -/
def extending : World Unit :=
  ((Realization.ofDeclaration host [("A", .object 0)]
    (.cls { name := some "B", heritage := some "A" })).runIn
      { heap := Heap.after {} withGetter, host := () }).2

theorem leads : Leads {} extending.heap := by
  have hgrounded : ∀ op ∈ withGetter, ∀ h, Operation.Grounded h op := by
    simp [withGetter, Operation.Grounded]
  have hcalls : ∀ f arguments w, Leads w.heap ((host.call f arguments).runIn w).2.heap :=
    fun _ _ w => .refl w.heap
  have hfetches : ∀ v name w, Leads w.heap ((host.fetch v name).runIn w).2.heap :=
    fun _ _ w => .refl w.heap
  exact (Leads.after hgrounded {}).trans (.realization hcalls hfetches _ _ _)

end Heap.SampleLine

open Heap.SampleLine in
/-- The theorem at the prototype of a class that extends another one: its line is the prototypes of
both, and the getter is found on the second one. -/
theorem nearest_holder_decides_of_sample : Heap.Leads {} extending.heap ∧
    extending.heap.Line 3 [3, 1] ∧ extending.heap.property? 3 (.text "x") = none ∧
    ((extending.heap.property? 1 (.text "x")).bind (·.getter)) = some (.function ⟨0, "g"⟩) ∧
    ∀ (σ : Type) (host : Host σ) (state : σ) (key receiver : Value),
      extending.heap.ReadsAlong 3 [3, 1] host { heap := extending.heap, host := state } key receiver
        ((Act.getProperty host (.object 3) key receiver).runIn
          { heap := extending.heap, host := state }) := by
  have hthird : (extending.heap.object? 3).map (·.proto) = some (some (.object 1)) := by
    decide +kernel
  have hfirst : (extending.heap.object? 1).map (·.proto) = some none := by decide +kernel
  obtain ⟨o, ho, hproto⟩ := Option.map_eq_some_iff.1 hthird
  obtain ⟨o', ho', hlast⟩ := Option.map_eq_some_iff.1 hfirst
  have hline : extending.heap.Line 3 [3, 1] := .next ho hproto (.last ho' hlast)
  obtain ⟨-, -, hreads⟩ := nearest_holder_decides leads
  obtain ⟨rs, hrs, hall⟩ := hreads 3 o ho
  obtain rfl := hrs.unique hline
  exact ⟨leads, hline, by decide +kernel, by decide +kernel, hall⟩

end Undecorate
