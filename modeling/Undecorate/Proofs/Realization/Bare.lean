import Undecorate.Proofs.Object.Actions
import Undecorate.Realization

/-! # Bare properties

What bare source makes of an object: every member that gives a property adds one, in the order of
the members, and the two halves of an accessor meet in one property.

* `bareProperty`: the property that one member makes of an existing one;
* `Object.define_bare`: a bare property is stored as it is;
* `wrote_installMember`: one member writes one property and leaves everything else alone;
* `built_installMembers`: what all members together have written.
-/

namespace Undecorate

namespace Descriptor

variable {d e : Descriptor Value}

/-- The descriptors of bare source. -/
inductive Bare : Descriptor Value → Prop
  | method (function : Option Value) : Bare (.method function)
  | plain (value : Option Value) : Bare (.plain value)
  | accessor (getter setter : Option Value) (h : getter ≠ none ∨ setter ≠ none) :
      Bare (.accessor getter setter)

theorem Bare.configurable (hd : d.Bare) : d.configurable = true := by
  cases hd <;> rfl

/-- A bare descriptor gives all of its fields, so nothing is taken from the existing property. -/
theorem Bare.mergedOnto (hd : d.Bare) (existing : Option (Descriptor Value)) :
    d.mergedOnto existing = .ok d := by
  cases hd with
  | method function => exact mergedOnto_data rfl
  | plain value => exact mergedOnto_data rfl
  | accessor getter setter h =>
    rw [mergedOnto_accessor rfl]
    dsimp only
    rw [if_neg]
    · rfl
    · change ¬ (getter.isNone && setter.isNone) = true
      rw [Bool.and_eq_true, Option.isNone_iff_eq_none, Option.isNone_iff_eq_none]
      exact Decidable.not_and_iff_not_or_not.2 h

end Descriptor

namespace Object

variable {o : Object} {name : PropertyName} {d : Descriptor Value}

/-- Every property is as bare source has made it. -/
def Bare (o : Object) : Prop := ∀ name d, o.own? name = some d → d.Bare

/-- A bare property is stored as it is, since those that are there are all configurable. -/
theorem define_bare (ho : o.Bare) (hd : d.Bare) : o.define name d = (o.holding name d, none) := by
  refine define_eq_holding ?_ (hd.mergedOnto _)
  unfold refusal?
  cases he : o.own? name with
  | none => rfl
  | some e =>
    dsimp only
    rw [if_pos (ho name e he).configurable]

theorem Bare.holding (ho : o.Bare) (hd : d.Bare) : (o.holding name d).Bare := by
  intro other e he
  rw [own?_holding] at he
  split at he
  · obtain rfl := Option.some.inj he
    exact hd
  · exact ho other e he

end Object

namespace Realization

/-- The property that a member makes of an existing one: a method or a value takes its place, and
half of an accessor keeps the other half. `function` is the function of the member, or else the
descriptor that its value is made for. -/
def bareProperty (function : Ref) (m : Member) (existing : Option (Descriptor Value)) :
    Descriptor Value :=
  let paired := existing.filter (·.isAccessor)
  match m.kind with
  | .method => .method (some (.object function))
  | .getter => .accessor (some (.object function)) (paired.bind (·.setter))
  | .setter => .accessor (paired.bind (·.getter)) (some (.object function))
  | _ => .plain (m.value.map (.source · (.made function)))

theorem bare_bareProperty (function : Ref) (m : Member) (existing : Option (Descriptor Value)) :
    (bareProperty function m existing).Bare := by
  unfold bareProperty
  cases m.kind with
  | method => exact .method _
  | getter => exact .accessor _ _ (.inl nofun)
  | setter => exact .accessor _ _ (.inr nofun)
  | _ => exact .plain _

end Realization

/-- The object at a place takes one definition, and no other object that was there changes. -/
structure Heap.Wrote (h h' : Heap) (t : Ref) (name : PropertyName) (d : Descriptor Value) :
    Prop where
  target : ∀ o, h.object? t = some o → h'.object? t = some (o.holding name d)
  others : ∀ s, s < h.objects.size → s ≠ t → h'.object? s = h.object? s
  grows : h.objects.size ≤ h'.objects.size

theorem Heap.Wrote.of_objects_eq {h h₁ h' : Heap} {t : Ref} {name : PropertyName}
    {d : Descriptor Value} (heq : h₁.objects = h.objects) (hw : h₁.Wrote h' t name d) :
    h.Wrote h' t name d := by
  obtain ⟨htarget, hothers, hgrows⟩ := hw
  unfold object? at htarget hothers
  rw [heq] at htarget hothers hgrows
  exact ⟨htarget, hothers, hgrows⟩

/-- Creating a function first changes no object that was there, and a definition of another object
leaves the function alone. -/
theorem Heap.Wrote.after_newFunction {h h' : Heap} {t : Ref} {name : PropertyName}
    {d : Descriptor Value} {label : Text} {source : Option Member} {parent : Option Ref}
    (ht : t < h.objects.size) (hw : (h.newFunction label none source parent).2.Wrote h' t name d) :
    h.Wrote h' t name d ∧ (h'.callable? h.objects.size).bind (·.source) = source := by
  have hsize := h.size_newFunction label none source parent
  have hnew : h'.object? h.objects.size =
      (h.newFunction label none source parent).2.object? h.objects.size := by
    refine hw.others _ ?_ (Nat.ne_of_gt ht)
    rw [hsize]
    exact Nat.lt_add_of_pos_right Nat.zero_lt_two
  refine ⟨⟨?_, ?_, ?_⟩, ?_⟩
  · intro o ho
    refine hw.target o ?_
    rw [object?_newFunction_of_lt ht]
    exact ho
  · intro s hs hne
    rw [hw.others s (by rw [hsize]; exact Nat.lt_add_right 2 hs) hne, object?_newFunction_of_lt hs]
  · refine Nat.le_trans ?_ hw.grows
    rw [hsize]
    exact Nat.le_add_right _ 2
  · have hcallable := h.callable?_newFunction label none source parent
    rw [callable?] at hcallable ⊢
    rw [hnew, hcallable]
    rfl

namespace Realization

variable {σ : Type} {w w' : World σ} {t : Ref} {o : Object} {key : Value} {m : Member} {u : Unit}

/-! ## One member -/

theorem wrote_define {q : Ref} {d : Descriptor Value}
    (h : (Act.define (.object t) key (.descriptor q)).Returns w u w')
    (ho : w.heap.object? t = some o) (hbare : o.Bare) (hq : w.heap.descriptor? q = some d)
    (hd : d.Bare) :
    ∃ name, key.propertyName = .ok name ∧ w.heap.Wrote w'.heap t name d := by
  obtain ⟨r, o', name, q', d', htarget, ho', hname, hgiven, hd', -, rfl, -⟩ :=
    Act.returns_define.1 h
  obtain rfl := Value.object.inj htarget
  obtain rfl := Value.descriptor.inj hgiven
  obtain rfl := Option.some.inj (hq.symm.trans hd')
  refine ⟨name, hname, ?_, ?_, ?_⟩
  · intro o₁ ho₁
    obtain rfl := Option.some.inj (ho.symm.trans ho₁)
    rw [Heap.object?_define, if_pos rfl, ho, Option.map_some, Object.define_bare hbare hd]
  · intro s _ hs
    rw [Heap.object?_define, if_neg hs]
  · exact Nat.le_of_eq Heap.size_define.symm

theorem wrote_defineNew {d : Descriptor Value}
    (h : (do Act.define (.object t) key (← Act.newDescriptor d) : Act σ Unit).Returns w u w')
    (ho : w.heap.object? t = some o) (hbare : o.Bare) (hd : d.Bare) :
    ∃ name, key.propertyName = .ok name ∧ w.heap.Wrote w'.heap t name d := by
  obtain ⟨_, w₁, hnew, hdefine⟩ := Act.returns_bind.1 h
  obtain ⟨rfl, rfl⟩ := Act.returns_newDescriptor.1 hnew
  have hq : (w.heap.newDescriptor d).2.descriptor? w.heap.descriptors.size = some d := by
    simp [Heap.newDescriptor, Heap.descriptor?]
  obtain ⟨name, hname, hwrote⟩ := wrote_define hdefine ho hbare hq hd
  have hobjects : (w.heap.newDescriptor d).2.objects = w.heap.objects := rfl
  exact ⟨name, hname, hwrote.of_objects_eq hobjects⟩

/-- A value that is known by its text only is made for the descriptor that holds it. -/
theorem runIn_newPlain (value : Option String) (w : World σ) : (newPlain value).runIn w =
    (Act.newDescriptor (.plain (value.map (.source · (.made w.heap.descriptors.size))))).runIn w :=
  rfl

/-- The function of a member is new, and the member is its source. -/
theorem returns_memberFunction {v : Value}
    (h : (memberFunction key m : Act σ Value).Returns w v w') :
    ∃ label parent, v = .object w.heap.objects.size ∧
      w' = { w with heap := (w.heap.newFunction label none (some m) parent).2 } := by
  unfold memberFunction at h
  simp only [Act.returns_bind, Act.returns_checkQuotable, Act.returns_view] at h
  obtain ⟨_, _, ⟨-, rfl⟩, _, _, ⟨rfl, rfl⟩, hnew⟩ := h
  obtain ⟨rfl, parent, rfl⟩ := Act.returns_newFunction hnew
  exact ⟨_, parent, rfl, rfl⟩

/-- The first half of an accessor makes a property of its own. -/
theorem wrote_firstHalf {f : Ref} (hm : m.isAccessor = true)
    (h : (if m.kind = .getter then
        do Act.define (.object t) key (← Act.newDescriptor (.accessor (some (.object f)) none))
      else do Act.define (.object t) key (← Act.newDescriptor (.accessor none (some (.object f)))) :
        Act σ Unit).Returns w u w')
    (ho : w.heap.object? t = some o) (hbare : o.Bare) :
    ∃ name, key.propertyName = .ok name ∧ w.heap.Wrote w'.heap t name (bareProperty f m none) := by
  unfold bareProperty
  cases hk : m.kind with
  | getter =>
    rw [if_pos hk] at h
    exact wrote_defineNew h ho hbare (.accessor _ _ (.inl nofun))
  | setter =>
    rw [if_neg (by simp [hk])] at h
    exact wrote_defineNew h ho hbare (.accessor _ _ (.inr nofun))
  | _ => simp [Member.isAccessor, MemberKind.isAccessor, hk] at hm

/-- The second half of an accessor is assigned to a copy of the property, which is then defined
again. -/
theorem wrote_secondHalf {f q : Ref} {getter setter : Option Value} (hm : m.isAccessor = true)
    (h : (do
        Act.assign (.descriptor q) (if m.kind = .getter then "getter" else "setter") (.object f)
        Act.define (.object t) key (.descriptor q) : Act σ Unit).Returns w u w')
    (ho : w.heap.object? t = some o) (hbare : o.Bare)
    (hq : w.heap.descriptor? q = some (.accessor getter setter)) :
    ∃ name, key.propertyName = .ok name ∧
      w.heap.Wrote w'.heap t name (bareProperty f m (some (.accessor getter setter))) := by
  obtain ⟨_, w₁, hassign, hdefine⟩ := Act.returns_bind.1 h
  obtain ⟨-, hw₁⟩ := (Act.returns_assign hq).1 hassign
  -- what is assigned makes the copy the property that is wanted
  have hassigned : ((Descriptor.accessor getter setter).assign
      (if m.kind = .getter then "getter" else "setter") (.object f)).1 =
        bareProperty f m (some (.accessor getter setter)) := by
    unfold bareProperty
    cases hk : m.kind with
    | getter => rfl
    | setter => rfl
    | _ => simp [Member.isAccessor, MemberKind.isAccessor, hk] at hm
  have hlt : q < w.heap.descriptors.size := (Array.getElem?_eq_some_iff.1 hq).1
  have hset : w₁.heap.descriptor? q =
      some (bareProperty f m (some (.accessor getter setter))) := by
    rw [hw₁, ← hassigned]
    simp [Heap.setDescriptor, Heap.descriptor?, hlt]
  have hobjects : w₁.heap.objects = w.heap.objects := by
    rw [hw₁]
    rfl
  have ho₁ : w₁.heap.object? t = some o := by
    rw [Heap.object?, hobjects]
    exact ho
  obtain ⟨name, hname, hwrote⟩ := wrote_define hdefine ho₁ hbare hset (bare_bareProperty f m _)
  exact ⟨name, hname, hwrote.of_objects_eq hobjects⟩

theorem wrote_installAccessor {f : Ref} (hm : m.isAccessor = true)
    (h : (installAccessor (.object t) key m (.object f) : Act σ Unit).Returns w u w')
    (ho : w.heap.object? t = some o) (hbare : o.Bare) :
    ∃ name, key.propertyName = .ok name ∧
      w.heap.Wrote w'.heap t name (bareProperty f m (o.own? name)) := by
  unfold installAccessor at h
  obtain ⟨existing, w₁, hown, hrest⟩ := Act.returns_bind.1 h
  obtain ⟨r, o', name, htarget, ho', hname, hcopy⟩ := Act.returns_ownDescriptor.1 hown
  obtain rfl := Value.object.inj htarget
  obtain rfl := Option.some.inj (ho.symm.trans ho')
  cases he : o.own? name with
  | none =>
    rw [he] at hcopy
    obtain ⟨rfl, rfl⟩ := Act.returns_pure.1 hcopy
    obtain ⟨name', hname', hwrote⟩ := wrote_firstHalf hm hrest ho hbare
    obtain rfl := Except.ok.inj (hname.symm.trans hname')
    rw [← he] at hwrote
    exact ⟨name, hname, hwrote⟩
  | some e =>
    rw [he] at hcopy
    obtain ⟨rfl, rfl⟩ := Act.returns_newDescriptor.1 hcopy
    have hq : (w.heap.newDescriptor e).2.descriptor? w.heap.descriptors.size = some e := by
      simp [Heap.newDescriptor, Heap.descriptor?]
    simp only [Act.returns_bind, Act.returns_heap] at hrest
    obtain ⟨_, _, ⟨rfl, rfl⟩, hrest⟩ := hrest
    rw [hq] at hrest
    have hobjects : (w.heap.newDescriptor e).2.objects = w.heap.objects := rfl
    have hwrote : ∃ name', key.propertyName = .ok name' ∧
        (w.heap.newDescriptor e).2.Wrote w'.heap t name' (bareProperty f m (some e)) := by
      have hpaired := hbare name e he
      cases hpaired with
      | accessor getter setter hsome => exact wrote_secondHalf hm hrest ho hbare hq
      | method function => exact wrote_firstHalf hm hrest ho hbare
      | plain value => exact wrote_firstHalf hm hrest ho hbare
    obtain ⟨name', hname', hwrote⟩ := hwrote
    obtain rfl := Except.ok.inj (hname.symm.trans hname')
    rw [← he] at hwrote
    exact ⟨name, hname, hwrote.of_objects_eq hobjects⟩

/-- One member writes one property and leaves everything else alone. The function of a method or of
half of an accessor is new. -/
theorem wrote_installMember (h : (installMember (.object t) key m : Act σ Unit).Returns w u w')
    (ho : w.heap.object? t = some o) (hbare : o.Bare) :
    ∃ name f, key.propertyName = .ok name ∧
      w.heap.Wrote w'.heap t name (bareProperty f m (o.own? name)) ∧
      (m.isFunction = true → w.heap.objects.size ≤ f ∧
        (w'.heap.callable? f).bind (·.source) = some m) := by
  have ht : t < w.heap.objects.size := (Array.getElem?_eq_some_iff.1 ho).1
  have hkept : ∀ label parent,
      (w.heap.newFunction label none (some m) parent).2.object? t = some o := by
    intro label parent
    rw [Heap.object?_newFunction_of_lt ht]
    exact ho
  unfold installMember at h
  cases hk : m.kind with
  | method =>
    rw [hk] at h
    obtain ⟨function, w₁, hnew, hdefine⟩ := Act.returns_bind.1 h
    obtain ⟨label, parent, rfl, rfl⟩ := returns_memberFunction hnew
    obtain ⟨name, hname, hwrote⟩ := wrote_defineNew hdefine (hkept label parent) hbare (.method _)
    obtain ⟨hwrote, hsource⟩ := hwrote.after_newFunction ht
    refine ⟨name, w.heap.objects.size, hname, ?_, fun _ => ⟨Nat.le_refl _, hsource⟩⟩
    unfold bareProperty
    rw [hk]
    exact hwrote
  | getter | setter =>
    have haccessor : m.isAccessor = true := by rw [Member.isAccessor, hk]; rfl
    rw [hk] at h
    obtain ⟨function, w₁, hnew, hinstall⟩ := Act.returns_bind.1 h
    obtain ⟨label, parent, rfl, rfl⟩ := returns_memberFunction hnew
    obtain ⟨name, hname, hwrote⟩ :=
      wrote_installAccessor haccessor hinstall (hkept label parent) hbare
    obtain ⟨hwrote, hsource⟩ := hwrote.after_newFunction ht
    exact ⟨name, w.heap.objects.size, hname, hwrote, fun _ => ⟨Nat.le_refl _, hsource⟩⟩
  | _ =>
    rw [hk] at h
    change (newPlain m.value >>= Act.define (.object t) key).Returns w u w' at h
    rw [Act.Returns, Act.runIn_bind, runIn_newPlain, ← Act.runIn_bind] at h
    obtain ⟨name, hname, hwrote⟩ := wrote_defineNew h ho hbare (.plain _)
    refine ⟨name, w.heap.descriptors.size, hname, ?_, ?_⟩
    · unfold bareProperty
      rw [hk]
      exact hwrote
    · intro hfunction
      rw [Member.isFunction, hk] at hfunction
      cases hfunction

/-! ## All members -/

/-- Whether bare source gives a member a property: to methods and accessors, to static fields, and
to whatever stands for a value in a literal. -/
def givesProperty (m : Member) : Bool :=
  m.isFunction || (m.kind = .field && m.isStatic) ||
    [.property, .shorthand, .spread, .staticBlock].contains m.kind

theorem isInstalled_eq_givesProperty (m : Member) : isInstalled m = givesProperty m := by
  unfold isInstalled givesProperty Member.isFunction
  cases m.kind with
  | field => cases m.isStatic <;> rfl
  | _ => rfl

/-- A property that a member gives: where the member stands, and the name that its key gives. -/
structure Entry where
  place : Nat
  member : Member
  name : PropertyName

/-- The property that a member gives, by the keys of the members. -/
def entryOf? (keys : List (Nat × Value)) (p : Member × Nat) : Option Entry :=
  if givesProperty p.1 then
    ((keys.lookup p.2).bind (·.propertyName.toOption)).map fun name => ⟨p.2, p.1, name⟩
  else none

/-- The properties that members give the object at a place, in the order of the members. -/
def entriesAt (keys : List (Nat × Value)) (home : Member → Ref) (r : Ref)
    (items : List (Member × Nat)) : List Entry :=
  (items.filterMap (entryOf? keys)).filter fun e => home e.member = r

/-- What entries make of the property with a name. -/
def bare? (functions : Nat → Ref) (name : PropertyName) (entries : List Entry)
    (start : Option (Descriptor Value)) : Option (Descriptor Value) :=
  (entries.filter (·.name = name)).foldl
    (fun existing e => some (bareProperty (functions e.place) e.member existing)) start

/-- What the members make of the heap: every object takes the properties that are given to it, in
their order, and the function of a member is there. Every member with a key has its entry. -/
structure Built (keys : List (Nat × Value)) (home : Member → Ref) (functions : Nat → Ref)
    (items : List (Member × Nat)) (h h' : Heap) : Prop where
  entries : (items.filterMap (entryOf? keys)).map (fun e => (e.member, e.place)) =
    items.filter fun p => (keys.lookup p.2).isSome && givesProperty p.1
  objects : ∀ r o, h.object? r = some o → o.Bare → ∃ o', h'.object? r = some o' ∧
    o'.log = o.log ++ (entriesAt keys home r items).map (·.name) ∧
    ∀ name, o'.own? name = bare? functions name (entriesAt keys home r items) (o.own? name)
  sources : ∀ e ∈ items.filterMap (entryOf? keys), e.member.isFunction = true →
    (h'.callable? (functions e.place)).bind (·.source) = some e.member
  others : ∀ s, s < h.objects.size → (∀ m, s ≠ home m) → h'.object? s = h.object? s

variable {keys : List (Nat × Value)} {home : Member → Ref} {functions : Nat → Ref}
  {items : List (Member × Nat)} {h h₁ h' : Heap}

theorem built_nil (h : Heap) : Built keys home functions [] h h where
  entries := rfl
  objects := by
    intro r o ho _
    exact ⟨o, ho, by simp [entriesAt], fun _ => rfl⟩
  sources := by simp
  others := fun _ _ _ => rfl

theorem entryOf?_eq_none {p : Member × Nat}
    (h : keys.lookup p.2 = none ∨ givesProperty p.1 = false) : entryOf? keys p = none := by
  unfold entryOf?
  rcases h with h | h
  · simp [h]
  · simp [h]

/-- A member without a property of its own changes nothing. -/
theorem Built.cons_none {p : Member × Nat}
    (hp : keys.lookup p.2 = none ∨ givesProperty p.1 = false)
    (hb : Built keys home functions items h h') : Built keys home functions (p :: items) h h' := by
  have hentries : (p :: items).filterMap (entryOf? keys) = items.filterMap (entryOf? keys) :=
    List.filterMap_cons_none (entryOf?_eq_none hp)
  constructor
  · rw [hentries, hb.entries, List.filter_cons_of_neg]
    rcases hp with h | h
    · simp [h]
    · simp [h]
  · intro r o ho hbare
    unfold entriesAt
    rw [hentries]
    exact hb.objects r o ho hbare
  · rw [hentries]
    exact hb.sources
  · exact hb.others

theorem entryOf?_eq_some {p : Member × Nat} {e : Entry} (h : entryOf? keys p = some e) :
    (keys.lookup p.2).isSome = true ∧ givesProperty p.1 = true ∧ e.place = p.2 ∧
      e.member = p.1 := by
  unfold entryOf? at h
  split at h
  · rename_i hgives
    obtain ⟨name, hname, rfl⟩ := Option.map_eq_some_iff.1 h
    obtain ⟨key, hkey, -⟩ := Option.bind_eq_some_iff.1 hname
    exact ⟨by rw [hkey]; rfl, hgives, rfl, rfl⟩
  · cases h

theorem place_mem_of_mem {e : Entry} (h : e ∈ items.filterMap (entryOf? keys)) :
    e.place ∈ items.map (·.2) := by
  obtain ⟨p, hp, he⟩ := List.mem_filterMap.1 h
  obtain ⟨-, -, hplace, -⟩ := entryOf?_eq_some he
  rw [hplace]
  exact List.mem_map_of_mem hp

theorem bare?_cons {name : PropertyName} {e : Entry} {entries : List Entry}
    {start : Option (Descriptor Value)} : bare? functions name (e :: entries) start =
      bare? functions name entries
        (if e.name = name then some (bareProperty (functions e.place) e.member start)
          else start) := by
  unfold bare?
  by_cases he : e.name = name
  · rw [List.filter_cons_of_pos (by simp [he]), List.foldl_cons, if_pos he]
  · rw [List.filter_cons_of_neg (by simp [he]), if_neg he]

/-- Only the functions of the entries matter. -/
theorem bare?_congr {functions' : Nat → Ref} {name : PropertyName} {entries : List Entry}
    (h : ∀ e ∈ entries, functions' e.place = functions e.place)
    (start : Option (Descriptor Value)) :
    bare? functions' name entries start = bare? functions name entries start := by
  induction entries generalizing start with
  | nil => rfl
  | cons e entries ih =>
    rw [bare?_cons, bare?_cons, h e List.mem_cons_self,
      ih fun e' he' => h e' (List.mem_cons_of_mem e he')]

/-- An entry of the object itself comes first. -/
theorem entriesAt_cons_here {p : Member × Nat} {e : Entry} (hp : entryOf? keys p = some e) :
    entriesAt keys home (home e.member) (p :: items) =
      e :: entriesAt keys home (home e.member) items := by
  unfold entriesAt
  rw [List.filterMap_cons_some hp, List.filter_cons_of_pos (by simp)]

theorem entriesAt_cons_there {p : Member × Nat} {e : Entry} {r : Ref}
    (hp : entryOf? keys p = some e) (hr : home e.member ≠ r) :
    entriesAt keys home r (p :: items) = entriesAt keys home r items := by
  unfold entriesAt
  rw [List.filterMap_cons_some hp, List.filter_cons_of_neg (by simp [hr])]

/-- A function that is there already, and is no object that members are written to, stays. -/
theorem Built.source_kept {f : Ref} {m : Member} (hb : Built keys home functions items h₁ h')
    (hf : ∀ m, f ≠ home m) (hsource : (h₁.callable? f).bind (·.source) = some m) :
    (h'.callable? f).bind (·.source) = some m := by
  have hlt : f < h₁.objects.size := by
    obtain ⟨c, hc, -⟩ := Option.bind_eq_some_iff.1 hsource
    obtain ⟨o₁, ho₁, -⟩ := Option.bind_eq_some_iff.1 hc
    exact (Array.getElem?_eq_some_iff.1 ho₁).1
  rw [Heap.callable?, hb.others f hlt hf]
  exact hsource

/-- A member with a property writes it before the others write theirs. -/
theorem Built.cons_some {p : Member × Nat} {name : PropertyName} {f : Ref} {o : Object}
    (hp : entryOf? keys p = some ⟨p.2, p.1, name⟩) (hfresh : p.2 ∉ items.map (·.2))
    (ho : h.object? (home p.1) = some o) (hbare : o.Bare)
    (hw : h.Wrote h₁ (home p.1) name (bareProperty f p.1 (o.own? name)))
    (hf : p.1.isFunction = true → h.objects.size ≤ f ∧
      (h₁.callable? f).bind (·.source) = some p.1)
    (htargets : ∀ m, home m < h.objects.size)
    (hb : Built keys home functions items h₁ h') :
    Built keys home (fun i => if i = p.2 then f else functions i) (p :: items) h h' := by
  have hentries : (p :: items).filterMap (entryOf? keys) =
      ⟨p.2, p.1, name⟩ :: items.filterMap (entryOf? keys) := List.filterMap_cons_some hp
  have hplace : ∀ e ∈ items.filterMap (entryOf? keys), e.place ≠ p.2 := by
    intro e he heq
    exact hfresh (heq ▸ place_mem_of_mem he)
  obtain ⟨hkey, hgives, -, -⟩ := entryOf?_eq_some hp
  constructor
  · rw [hentries, List.map_cons, hb.entries, List.filter_cons_of_pos (by simp [hkey, hgives])]
  · intro r o' ho' hbare'
    have hcongr : ∀ n start, bare? (fun i => if i = p.2 then f else functions i) n
        (entriesAt keys home r items) start =
          bare? functions n (entriesAt keys home r items) start := by
      intro n start
      refine bare?_congr ?_ start
      intro e he
      exact if_neg (hplace e (List.mem_filter.1 he).1)
    by_cases hr : home p.1 = r
    · subst hr
      obtain rfl := Option.some.inj (ho.symm.trans ho')
      obtain ⟨o₂, ho₂, hlog, hown⟩ := hb.objects _ _ (hw.target o ho)
        (hbare.holding (bare_bareProperty f p.1 _))
      refine ⟨o₂, ho₂, ?_, ?_⟩
      · rw [hlog, entriesAt_cons_here hp, List.map_cons]
        exact List.append_assoc o.log [name] _
      · intro n
        rw [hown, entriesAt_cons_here hp, bare?_cons, hcongr, Object.own?_holding]
        by_cases hn : name = n
        · subst hn
          simp
        · rw [if_neg hn, if_neg (Ne.symm hn)]
    · have hlt : r < h.objects.size := (Array.getElem?_eq_some_iff.1 ho').1
      obtain ⟨o₂, ho₂, hlog, hown⟩ :=
        hb.objects r o' ((hw.others r hlt (Ne.symm hr)).trans ho') hbare'
      refine ⟨o₂, ho₂, by rw [hlog, entriesAt_cons_there hp hr], ?_⟩
      intro n
      rw [hown, entriesAt_cons_there hp hr, hcongr]
  · intro e he hfunction
    rw [hentries] at he
    rcases List.mem_cons.1 he with rfl | he
    · obtain ⟨hnew, hsource⟩ := hf hfunction
      dsimp only
      rw [if_pos rfl]
      exact hb.source_kept (fun m => Nat.ne_of_gt (Nat.lt_of_lt_of_le (htargets m) hnew)) hsource
    · rw [if_neg (hplace e he)]
      exact hb.sources e he hfunction
  · intro s hs hne
    rw [hb.others s (Nat.lt_of_lt_of_le hs hw.grows) hne, hw.others s hs (hne p.1)]

theorem entryOf?_of_propertyName {m : Member} {i : Nat} {key : Value} {name : PropertyName}
    (hkey : keys.lookup i = some key) (hm : isInstalled m = true)
    (hname : key.propertyName = .ok name) : entryOf? keys (m, i) = some ⟨i, m, name⟩ := by
  rw [isInstalled_eq_givesProperty] at hm
  simp [entryOf?, hm, hkey, hname, Except.toOption]

/-- A definition of a bare property leaves all objects bare. -/
theorem bare_of_wrote {f : Ref} {name : PropertyName}
    (hstart : ∀ m, ∃ o, h.object? (home m) = some o ∧ o.Bare) (ho : h.object? (home m) = some o)
    (hw : h.Wrote h₁ (home m) name (bareProperty f m (o.own? name))) (m' : Member) :
    ∃ o', h₁.object? (home m') = some o' ∧ o'.Bare := by
  obtain ⟨o', ho', hbare'⟩ := hstart m'
  by_cases hm : home m' = home m
  · rw [hm] at ho' ⊢
    obtain rfl := Option.some.inj (ho.symm.trans ho')
    exact ⟨_, hw.target o ho, hbare'.holding (bare_bareProperty f m _)⟩
  · have hlt : home m' < h.objects.size := (Array.getElem?_eq_some_iff.1 ho').1
    exact ⟨o', (hw.others _ hlt hm).trans ho', hbare'⟩

/-- What the members have written when all of them are installed. -/
theorem built_installMembers {members : List Member} {target : Value} {cls : Option Value}
    (hhome : ∀ m : Member, (if m.isStatic then cls.getD target else target) = .object (home m))
    (hstart : ∀ m, ∃ o, w.heap.object? (home m) = some o ∧ o.Bare)
    (h : (installMembers members keys target cls : Act σ Unit).Returns w u w') :
    ∃ functions, Built keys home functions members.zipIdx w.heap w'.heap := by
  have hfresh : (members.zipIdx.map (·.2)).Nodup := by
    rw [List.zipIdx_map_snd]
    exact List.nodup_range'
  unfold installMembers at h
  generalize members.zipIdx = items at h hfresh
  induction items generalizing w with
  | nil =>
    obtain ⟨-, rfl⟩ := Act.returns_pure.1 h
    exact ⟨fun _ => 0, built_nil _⟩
  | cons p items ih =>
    rcases p with ⟨m, i⟩
    obtain ⟨hi, hitems⟩ := List.nodup_cons.1 hfresh
    obtain ⟨_, w₁, hone, hrest⟩ := Act.returns_bind.1 h
    dsimp only at hone
    have hidle : w₁ = w → keys.lookup i = none ∨ givesProperty m = false →
        ∃ functions, Built keys home functions ((m, i) :: items) w.heap w'.heap := by
      rintro rfl hnone
      obtain ⟨functions, hbuilt⟩ := ih hstart hrest hitems
      exact ⟨functions, hbuilt.cons_none hnone⟩
    cases hkey : keys.lookup i with
    | none =>
      rw [hkey] at hone
      exact hidle (Act.returns_pure.1 hone).2 (.inl hkey)
    | some key =>
      rw [hkey] at hone
      cases hm : isInstalled m with
      | false =>
        simp only [hm] at hone
        rw [isInstalled_eq_givesProperty] at hm
        exact hidle (Act.returns_pure.1 hone).2 (.inr hm)
      | true =>
        simp only [hm, hhome m] at hone
        obtain ⟨o, ho, hbare⟩ := hstart m
        obtain ⟨name, f, hname, hwrote, hf⟩ := wrote_installMember hone ho hbare
        obtain ⟨functions, hbuilt⟩ := ih (bare_of_wrote hstart ho hwrote) hrest hitems
        have htargets : ∀ m', home m' < w.heap.objects.size := by
          intro m'
          obtain ⟨o', ho', -⟩ := hstart m'
          exact (Array.getElem?_eq_some_iff.1 ho').1
        exact ⟨_, hbuilt.cons_some (entryOf?_of_propertyName hkey hm hname) hi ho hbare hwrote hf
          htargets⟩

end Realization

end Undecorate
