import Mathlib.Data.List.Forall2
import Undecorate.Proofs.Classify.Refusals
import Undecorate.Proofs.Scope

/-! # What a declaration is classified into

Every decorated member owns one decoration, and the decorations come in the order of their owners.
A decoration takes up all members of its owner's property, starts from the descriptor that bare
source gives them, and writes to the side they live on; no two decorations write to one property.
The decoration of a class itself comes last.

* `Decorates`: what a decoration owes to its owner;
* `Makes.decorates`: the decoration of a group is that of its decorated member;
* `MakesAll.nodup_slots`, `MakesAll.fresh_snapshots`: properties and temporaries are kept apart;
* `classification_structure`: the decorations of classes and object literals.
-/

namespace Undecorate

/-! ## What a decoration owes to its owner -/

/-- The property that a decoration writes, if its name is known without evaluating anything. -/
def Decoration.slot? (u : Decoration) : Option (Target × Text) :=
  (u.key?.bind (·.name?)).map (u.target, ·)

/-- The temporary that holds the computed key of a decorated property. -/
def Decoration.snapshot? (u : Decoration) : Option String := u.key?.bind (·.snapshot?)

/-- The descriptor that bare source gives the members of a property: the default of a single method,
or the default of an accessor with exactly the getter and the setter that there are. -/
def Describes (property : List (Member × Nat)) (initial : Descriptor Nat) : Prop :=
  (∃ e, property = [e] ∧ e.1.kind = .method ∧ initial = .method (some e.2)) ∨
  ∃ getter setter, initial = .accessor getter setter ∧
    (∀ e ∈ property, e.1.kind = .getter ∧ getter = some e.2 ∨
      e.1.kind = .setter ∧ setter = some e.2) ∧
    (∀ i, getter = some i → ∃ m, (m, i) ∈ property ∧ m.kind = .getter) ∧
    ∀ i, setter = some i → ∃ m, (m, i) ∈ property ∧ m.kind = .setter

namespace Declaration

/-- The decorated members with their places, in source order. -/
def owners (d : Declaration) : List (Member × Nat) := d.members.zipIdx.filter (·.1.isDecorated)

/-- The members that define one property with a member, with their places in source order. -/
abbrev sharers (d : Declaration) (m : Member) : List (Member × Nat) :=
  Classify.sharers d.isClass d.members m

/-- What the decoration of a member writes to. -/
def targetKind (d : Declaration) (m : Member) : TargetKind :=
  match d with
  | .cls _ => if m.isStatic then .construct else .prototype
  | .object _ => .objectLiteral

/-- A decoration is that of a decorated member, its owner. -/
structure Decorates (d : Declaration) (binding : String) (owner : Member × Nat)
    (u : Decoration) : Prop where
  decorators : u.decorators = owner.1.decorators
  range : u.range = owner.1.range
  target : u.target = ⟨d.targetKind owner.1, binding⟩
  /-- It takes up all members of the property; the owner is the only decorated one. -/
  members : u.members = (d.sharers owner.1).map (·.2)
  alone : ∀ e ∈ d.sharers owner.1, e.1.isDecorated = true → e = owner
  initial : ∃ initial, u.initial? = some initial ∧ Describes (d.sharers owner.1) initial
  /-- Its key is the owner's: a name, or an expression that is captured. -/
  key : ∃ k, owner.1.key = some k ∧
    ((k.isComputed = true ∧ ∃ snapshot, u.key? = some (.computed k.text (some snapshot))) ∨
      (k.isComputed = false ∧ ∃ name, k.staticName? = some name ∧
        u.key? = some (.static (some name))))

/-- The decoration of the class itself, if it is decorated. -/
def ownDecoration (d : Declaration) (binding : String) : List Decoration :=
  match d with
  | .cls c => if c.decorators.isEmpty then [] else
    [{ target := ⟨.cls, binding⟩, decorators := c.decorators, subject := .whole, range := c.range }]
  | .object _ => []

/-- The name that a declaration is bound to. -/
def bindingIn (d : Declaration) (s : Scope) : String :=
  match d with
  | .cls c => (c.binding s).1
  | .object _ => (s.shared "obj").1

/-- What a declaration that is bound to a name is classified into, starting from a scope. -/
structure Classified (d : Declaration) (binding : String) (s : Scope) (units : List Decoration) :
    Prop where
  /-- One decoration for each decorated member, in source order, and the class's own last. -/
  owned : ∃ found, units = found ++ d.ownDecoration binding ∧
    List.Forall₂ (d.Decorates binding) d.owners found
  /-- No member is in two decorations. -/
  apart : (units.flatMap (·.members)).Nodup
  /-- No two decorations write to one property. -/
  slots : (units.filterMap (·.slot?)).Nodup
  /-- No two decorations share a temporary. -/
  snapshots : (units.filterMap (·.snapshot?)).Nodup
  /-- The temporaries are new. -/
  fresh : ∀ name ∈ units.filterMap (·.snapshot?), name ∉ s.taken

end Declaration

namespace Classify

variable {isClass : Bool} {binding : String} {d : Declaration} {g : Group} {gs : List Group}
  {s s' : Scope} {found : List (Nat × Decoration)}

/-! ## One group -/

theorem described_eq_sharers (hg : g ∈ groups d.isClass d.members) {e : Nat × Member}
    (he : e ∈ g.members) :
    described g = (d.sharers e.2).map fun x => (x.1, some x.2) := by
  unfold described
  rw [members_eq_sharers hg he, List.map_map]
  rfl

/-- The getter or the setter of members of which no two overlap. -/
theorem find?_half {property : List (Member × Nat)} (kind : MemberKind)
    (hkind : kind = .getter ∨ kind = .setter)
    (hapart : ¬ ∃ a b, [a, b].Sublist property ∧ a.1.Overlaps b.1) (i : Nat) :
    (((property.map fun x => (x.1, some x.2)).find? (·.1.kind = kind)).bind (·.2)) = some i ↔
      ∃ m, (m, i) ∈ property ∧ m.kind = kind := by
  rw [List.find?_map]
  constructor
  · intro h
    cases hfind : property.find? ((fun x => decide (x.1.kind = kind)) ∘ fun x : Member × Nat =>
        (x.1, some x.2)) with
    | none =>
      rw [hfind] at h
      cases h
    | some e =>
      rw [hfind] at h
      obtain rfl : e.2 = i := Option.some.inj h
      exact ⟨e.1, List.mem_of_find?_eq_some hfind, by simpa using List.find?_some hfind⟩
  · rintro ⟨m, hmem, hm⟩
    cases hfind : property.find? ((fun x => decide (x.1.kind = kind)) ∘ fun x : Member × Nat =>
        (x.1, some x.2)) with
    | none =>
      have hnot := List.find?_eq_none.1 hfind (m, i) hmem
      simp [hm] at hnot
    | some e =>
      -- what was found is the member: two of a kind would overlap
      have he := List.mem_of_find?_eq_some hfind
      have hke : e.1.kind = kind := by simpa using List.find?_some hfind
      have hover : e.1.Overlaps m ∧ m.Overlaps e.1 := by
        rcases hkind with rfl | rfl
        · exact ⟨.inr (.inr (.inl ⟨hke, hm⟩)), .inr (.inr (.inl ⟨hm, hke⟩))⟩
        · exact ⟨.inr (.inr (.inr ⟨hke, hm⟩)), .inr (.inr (.inr ⟨hm, hke⟩))⟩
      obtain rfl : e = (m, i) := by
        by_contra hne
        rcases pair_sublist he hmem hne with hsub | hsub
        · exact hapart ⟨e, (m, i), hsub, hover.1⟩
        · exact hapart ⟨(m, i), e, hsub, hover.2⟩
      rfl

/-- The descriptor of a group describes its members. -/
theorem describes_ofMembers (hg : g ∈ groups d.isClass d.members) {e : Nat × Member}
    (he : e ∈ g.members) {initial : Descriptor Nat}
    (h : Descriptor.ofMembers (described g) = .ok initial) :
    Describes (d.sharers e.2) initial := by
  have hapart : ¬ ∃ a b, [a, b].Sublist (described g) ∧ a.1.Overlaps b.1 := by
    intro hover
    rw [Descriptor.ofMembers_of_overlap (isFunction_of_mem_described hg) hover] at h
    cases h
  have hfun := isFunction_of_mem_described hg
  have hcases := ofMembers_described hg hapart
  rw [h] at hcases
  rw [described_eq_sharers hg he] at hcases hapart hfun
  have hpairs : ¬ ∃ a b, [a, b].Sublist (d.sharers e.2) ∧ a.1.Overlaps b.1 :=
    fun hover => hapart (pair_sublist_map.2 hover)
  rcases hcases with ⟨x, hone, hkind, hok⟩ | ⟨hnone, hok⟩
  · obtain ⟨y, hy, rfl⟩ := List.map_eq_singleton_iff.1 hone
    exact .inl ⟨y, hy, hkind, Except.ok.inj hok⟩
  · have hgetter := find?_half .getter (.inl rfl) hpairs
    have hsetter := find?_half .setter (.inr rfl) hpairs
    refine .inr ⟨_, _, Except.ok.inj hok, ?_, fun i => (hgetter i).1, fun i => (hsetter i).1⟩
    intro x hx
    have hmem := List.mem_map_of_mem (f := fun x : Member × Nat => (x.1, some x.2)) hx
    rcases Member.kind_of_isFunction (hfun _ hmem) with hk | hk | hk
    · exact absurd hk (hnone _ hmem)
    · exact .inl ⟨hk, (hgetter x.2).2 ⟨x.1, hx, hk⟩⟩
    · exact .inr ⟨hk, (hsetter x.2).2 ⟨x.1, hx, hk⟩⟩

/-- The side of a group is that of its members. -/
theorem target_eq (hg : g ∈ groups d.isClass d.members) {e : Nat × Member} (he : e ∈ g.members) :
    target d.isClass binding g = ⟨d.targetKind e.2, binding⟩ := by
  have hkey := (mem_groups hg).key e he
  obtain ⟨hfun, k, hk, -⟩ := groupKey?_eq_some hkey
  rw [groupKey?, if_pos hfun, hk, Option.map_some, Option.some.injEq] at hkey
  unfold target
  rw [← hkey]
  cases d with
  | cls c => cases hs : e.2.isStatic <;> simp [Declaration.isClass, Declaration.targetKind, hs]
  | object o => rfl

theorem key_of_propertyKey {k : Key} {key : PropertyKey} (h : propertyKey k s = (key, s')) :
    (k.isComputed = true ∧ ∃ snapshot, key = .computed k.text (some snapshot)) ∨
      (k.isComputed = false ∧ ∃ name, k.staticName? = some name ∧ key = .static (some name)) := by
  unfold propertyKey at h
  cases hk : k.isComputed with
  | true =>
    rw [hk, if_pos rfl] at h
    obtain ⟨rfl, -⟩ := Prod.mk.inj h
    exact .inl ⟨rfl, _, rfl⟩
  | false =>
    rw [hk, if_neg Bool.false_ne_true] at h
    obtain ⟨rfl, -⟩ := Prod.mk.inj h
    cases hname : k.staticName? with
    | none =>
      rw [Key.staticName?_eq_none_iff, hk] at hname
      cases hname
    | some name => exact .inr ⟨rfl, name, rfl, rfl⟩

theorem Makes.mem_owner {place : Nat} {u : Decoration}
    (h : Makes isClass binding g s place u s') :
    ∃ m, (place, m) ∈ g.members ∧ m.isDecorated = true := by
  obtain ⟨m, -, -, howner, -⟩ := h.owner
  have hmem : (place, m) ∈ g.members.filter (·.2.isDecorated) := by rw [howner]; simp
  exact ⟨m, List.mem_filter.1 hmem⟩

/-- The decoration of a group is that of its decorated member. -/
theorem Makes.decorates {place : Nat} {u : Decoration} {m : Member}
    (h : Makes d.isClass binding g s place u s') (hg : g ∈ groups d.isClass d.members)
    (hm : d.members[place]? = some m) : d.Decorates binding (m, place) u := by
  obtain ⟨o, key, initial, howner, hkey, hdecorators, hsubject⟩ := h.owner
  have hfilter : (place, o) ∈ g.members.filter (·.2.isDecorated) := by rw [howner]; simp
  obtain ⟨ho, -⟩ := List.mem_filter.1 hfilter
  -- the member at the place is the owner
  obtain rfl : o = m := Option.some.inj ((getElem?_of_mem_groups hg ho).symm.trans hm)
  have hsharers := members_eq_sharers hg ho
  obtain ⟨-, k, hk, -⟩ := groupKey?_eq_some ((mem_groups hg).key _ ho)
  refine ⟨hdecorators, ?_, ?_, ?_, ?_, ?_, k, hk, ?_⟩
  · obtain ⟨x, hx, hrange⟩ := h.range
    obtain rfl : x = o := Option.some.inj ((getElem?_of_mem_groups hg hx).symm.trans hm)
    exact hrange
  · rw [h.target, target_eq hg ho]
  · rw [Decoration.members, hsubject]
    dsimp only
    rw [hsharers, List.map_map]
    rfl
  · intro e he hdecorated
    have hmem : e.swap ∈ g.members.filter (·.2.isDecorated) := by
      refine List.mem_filter.2 ⟨?_, hdecorated⟩
      rw [hsharers]
      exact List.mem_map_of_mem he
    rw [howner, List.mem_singleton] at hmem
    rw [← Prod.swap_swap e, hmem]
    rfl
  · obtain ⟨initial, hinitial, hok⟩ := h.initial
    exact ⟨initial, hinitial, describes_ofMembers hg ho hok⟩
  · rw [hk, Option.getD_some] at hkey
    rw [Decoration.key?, hsubject]
    dsimp only
    rcases key_of_propertyKey hkey with ⟨hc, snapshot, rfl⟩ | ⟨hc, name, hname, rfl⟩
    · exact .inl ⟨hc, snapshot, rfl⟩
    · exact .inr ⟨hc, name, hname, rfl⟩

/-! ## All groups -/

/-- The owners of the decorations of groups are the decorated members of the groups. -/
theorem MakesAll.places (h : MakesAll isClass binding gs s found s') :
    found.map (·.1) = ((gs.flatMap (·.members)).filter (·.2.isDecorated)).map (·.1) := by
  induction h with
  | nil => rfl
  | skip hnone _ ih => rw [List.flatMap_cons, List.filter_append, hnone, ih, List.nil_append]
  | make hfirst _ ih =>
    obtain ⟨m, -, -, howner, -⟩ := hfirst.owner
    rw [List.flatMap_cons, List.filter_append, howner, List.map_cons, ih]
    rfl

/-- The temporaries of computed keys are new, each one after the other. -/
theorem MakesAll.fresh_snapshots (h : MakesAll isClass binding gs s found s') :
    ((found.map (·.2)).filterMap (·.snapshot?)).Nodup ∧
      ∀ name ∈ (found.map (·.2)).filterMap (·.snapshot?), name ∉ s.taken := by
  induction h with
  | nil => exact ⟨List.nodup_nil, by simp⟩
  | skip _ _ ih => exact ih
  | @make g gs s s₁ s' place u found hfirst _ ih =>
    obtain ⟨m, key, initial, -, hkey, -, hsubject⟩ := hfirst.owner
    have hsnapshot : u.snapshot? = key.snapshot? := by
      rw [Decoration.snapshot?, Decoration.key?, hsubject]
      rfl
    rw [List.map_cons]
    unfold propertyKey at hkey
    split at hkey
    · obtain ⟨rfl, rfl⟩ := Prod.mk.inj hkey
      rw [List.filterMap_cons_some hsnapshot, List.nodup_cons]
      refine ⟨⟨?_, ih.1⟩, ?_⟩
      · intro hmem
        exact ih.2 _ hmem (Scope.mem_taken_fresh.2 (.inr rfl))
      · intro name hname
        rcases List.mem_cons.1 hname with rfl | hname
        · exact Scope.unique_not_mem s "key"
        · exact fun htaken => ih.2 name hname (Scope.mem_taken_fresh.2 (.inl htaken))
    · obtain ⟨rfl, rfl⟩ := Prod.mk.inj hkey
      rw [List.filterMap_cons_none hsnapshot]
      exact ih

/-- A decoration that writes to a property with a known name tells the key of its group. -/
theorem Makes.key_of_slot {place : Nat} {u : Decoration} {slot : Target × Text}
    (h : Makes d.isClass binding g s place u s') (hg : g ∈ groups d.isClass d.members)
    (hbarred : ∀ m ∈ d.members, ¬ m.Barred) (hslot : u.slot? = some slot) :
    g.key = (decide (slot.1.kind = .construct), KeyIdentity.name slot.2) := by
  obtain ⟨m, hm, hdecorated⟩ := h.mem_owner
  have hget := getElem?_of_mem_groups hg hm
  have hdecorates := h.decorates hg hget
  have hkey := (mem_groups hg).key _ hm
  obtain ⟨hfun, -⟩ := groupKey?_eq_some hkey
  obtain ⟨k, hk, ⟨-, snapshot, hcomputed⟩ | ⟨hc, name, hname, hstatic⟩⟩ := hdecorates.key
  · simp [Decoration.slot?, hcomputed, PropertyKey.name?] at hslot
  · have hprivate : k.isPrivate = false := by
      by_contra hp
      refine hbarred m (List.mem_of_getElem? hget) ⟨hdecorated, .inr ?_⟩
      rw [hk, Option.any_some]
      simpa using hp
    have hidentity : k.identity = .name name := by
      simp [Key.identity, hc, hprivate, hname]
    obtain rfl : (u.target, name) = slot := by
      simpa [Decoration.slot?, hstatic, PropertyKey.name?] using hslot
    rw [groupKey?, if_pos hfun, hk, Option.map_some, hidentity, Option.some.injEq] at hkey
    rw [← hkey, hdecorates.target]
    cases d with
    | cls c => cases hs : m.isStatic <;> simp [Declaration.isClass, Declaration.targetKind, hs]
    | object o => simp [Declaration.isClass, Declaration.targetKind]

/-- No two decorations write to one property. -/
theorem MakesAll.nodup_slots (h : MakesAll d.isClass binding gs s found s')
    (hgs : ∀ g ∈ gs, g ∈ groups d.isClass d.members) (hkeys : (gs.map (·.key)).Nodup)
    (hbarred : ∀ m ∈ d.members, ¬ m.Barred) :
    ((found.map (·.2)).filterMap (·.slot?)).Nodup := by
  induction h with
  | nil => exact List.nodup_nil
  | skip _ _ ih =>
    exact ih (fun x hx => hgs x (List.mem_cons_of_mem _ hx)) (List.nodup_cons.1 hkeys).2
  | @make g gs s s₁ s' place u found hfirst hrest ih =>
    obtain ⟨hnew, hlater⟩ := List.nodup_cons.1 hkeys
    have hgs' : ∀ x ∈ gs, x ∈ groups d.isClass d.members :=
      fun x hx => hgs x (List.mem_cons_of_mem _ hx)
    rw [List.map_cons]
    cases hslot : u.slot? with
    | none =>
      rw [List.filterMap_cons_none hslot]
      exact ih hgs' hlater
    | some slot =>
      rw [List.filterMap_cons_some hslot, List.nodup_cons]
      refine ⟨?_, ih hgs' hlater⟩
      intro hmem
      -- another group with this property would have the key of this one
      obtain ⟨v, hv, hslot'⟩ := List.mem_filterMap.1 hmem
      obtain ⟨p, hp, rfl⟩ := List.mem_map.1 hv
      obtain ⟨x, hx, _, _, hmakes⟩ := hrest.makes p hp
      have hkey := hfirst.key_of_slot (hgs g List.mem_cons_self) hbarred hslot
      have hkey' := hmakes.key_of_slot (hgs' x hx) hbarred hslot'
      exact hnew (List.mem_map.2 ⟨x, hx, hkey'.trans hkey.symm⟩)

theorem not_barred_of_firstIneligible?_eq_none {members : List Member}
    (h : firstIneligible? members = none) : ∀ m ∈ members, ¬ m.Barred := by
  intro m hm hbarred
  obtain ⟨before, x, after, rfl, hbefore, hx⟩ := exists_first ⟨m, hm, hbarred⟩
  rw [firstIneligible?_append hbefore hx] at h
  cases h

/-- The owners of all decorations are the decorated members. -/
theorem mem_places_iff (hkeyed : d.Keyed) (hbarred : ∀ m ∈ d.members, ¬ m.Barred) (i : Nat) :
    i ∈ (((groups d.isClass d.members).flatMap (·.members)).filter (·.2.isDecorated)).map (·.1) ↔
      i ∈ d.owners.map (·.2) := by
  constructor
  · intro hi
    obtain ⟨e, he, rfl⟩ := List.mem_map.1 hi
    obtain ⟨hmem, hdecorated⟩ := List.mem_filter.1 he
    obtain ⟨g, hg, hmem⟩ := List.mem_flatMap.1 hmem
    refine List.mem_map.2 ⟨e.swap, List.mem_filter.2 ⟨?_, hdecorated⟩, rfl⟩
    exact List.mem_zipIdx_iff_getElem?.2 (getElem?_of_mem_groups hg hmem)
  · intro hi
    obtain ⟨⟨m, i⟩, he, rfl⟩ := List.mem_map.1 hi
    obtain ⟨hmem, hdecorated⟩ := List.mem_filter.1 he
    have hget : d.members[i]? = some m := List.mem_zipIdx_iff_getElem?.1 hmem
    have hm := List.mem_of_getElem? hget
    -- a decorated member is a function under a key, so it has a group
    have hfun : m.isFunction = true := by
      by_contra hfun
      exact hbarred m hm ⟨hdecorated, .inl (by simpa using hfun)⟩
    obtain ⟨k, hk⟩ := Option.isSome_iff_exists.1 (hkeyed m hm hfun)
    have hkey : groupKey? d.isClass m = some (m.isStatic && d.isClass, k.identity) := by
      simp [groupKey?, hfun, hk]
    obtain ⟨g, hg, -, hmg⟩ := exists_group hget hkey
    exact List.mem_map.2 ⟨(i, m),
      List.mem_filter.2 ⟨List.mem_flatMap.2 ⟨g, hg, hmg⟩, hdecorated⟩, rfl⟩

theorem increasing_owners (d : Declaration) : (d.owners.map (·.2)).Pairwise (· < ·) := by
  have hplaces : (d.members.zipIdx.map Prod.snd).Pairwise (· < ·) := by
    rw [List.zipIdx_map_snd]
    exact List.pairwise_lt_range'
  exact hplaces.sublist (List.filter_sublist.map _)

/-- Sorted by the places of their owners, the decorations of groups come in the order of the
decorated members. -/
theorem map_fst_mergeSort (h : MakesAll d.isClass binding (groups d.isClass d.members) s found s')
    (hkeyed : d.Keyed) (hbarred : ∀ m ∈ d.members, ¬ m.Barred) :
    (found.mergeSort fun p q => p.1 ≤ q.1).map (·.1) = d.owners.map (·.2) := by
  have hperm : (found.mergeSort fun p q => p.1 ≤ q.1).Perm found := List.mergeSort_perm _ _
  have hnodup : ((found.mergeSort fun p q => p.1 ≤ q.1).map (·.1)).Nodup := by
    have hplaces := nodup_places d.isClass d.members
    rw [← List.map_flatMap] at hplaces
    rw [(hperm.map _).nodup_iff, h.places]
    exact hplaces.sublist (List.filter_sublist.map _)
  have hsorted : (found.mergeSort fun p q => p.1 ≤ q.1).Pairwise fun p q => p.1 ≤ q.1 := by
    refine (List.pairwise_mergeSort ?_ ?_ found).imp of_decide_eq_true
    · intro a b c hab hbc
      simp only [decide_eq_true_eq] at hab hbc ⊢
      exact Nat.le_trans hab hbc
    · intro a b
      simpa using Nat.le_total a.1 b.1
  have hincreasing : ((found.mergeSort fun p q => p.1 ≤ q.1).map (·.1)).Pairwise (· < ·) :=
    ((List.pairwise_map.2 hsorted).and hnodup).imp fun ⟨hle, hne⟩ => Nat.lt_of_le_of_ne hle hne
  refine eq_of_increasing id hincreasing (increasing_owners d) ?_
  intro i
  rw [(hperm.map _).mem_iff, h.places, mem_places_iff hkeyed hbarred]

/-- The decorations of the members of a declaration. -/
theorem memberDecorations_structure {units : List Decoration} (hkeyed : d.Keyed)
    (h : memberDecorations d.isClass binding d.members s = .ok (units, s')) :
    List.Forall₂ (d.Decorates binding) d.owners units ∧ (units.filterMap (·.slot?)).Nodup ∧
      (units.filterMap (·.snapshot?)).Nodup ∧
      ∀ name ∈ units.filterMap (·.snapshot?), name ∉ s.taken := by
  obtain ⟨hfirst, found, hfound, rfl⟩ := memberDecorations_eq_ok_iff.1 h
  have hbarred := not_barred_of_firstIneligible?_eq_none hfirst
  have hmade := groupDecorations_makes hfound
  have hperm : ((found.mergeSort fun p q => p.1 ≤ q.1).map (·.2)).Perm (found.map (·.2)) :=
    (List.mergeSort_perm _ _).map _
  obtain ⟨hnodup, hfresh⟩ := hmade.fresh_snapshots
  refine ⟨?_, ?_, ?_, ?_⟩
  · -- owners and decorations are in one order, so each stands beside the other
    have hplaces := map_fst_mergeSort hmade hkeyed hbarred
    rw [eq_comm, ← List.forall₂_eq_eq_eq, List.forall₂_map_left_iff,
      List.forall₂_map_right_iff, List.forall₂_iff_zip] at hplaces
    rw [List.forall₂_map_right_iff, List.forall₂_iff_zip]
    refine ⟨hplaces.1, ?_⟩
    rintro ⟨m, i⟩ p hzip
    obtain rfl : i = p.1 := hplaces.2 hzip
    obtain ⟨howner, hp⟩ := List.of_mem_zip hzip
    obtain ⟨g, hg, _, _, hmakes⟩ := hmade.makes p ((List.mergeSort_perm _ _).subset hp)
    exact hmakes.decorates hg (List.mem_zipIdx_iff_getElem?.1 (List.mem_filter.1 howner).1)
  · rw [(hperm.filterMap _).nodup_iff]
    exact hmade.nodup_slots (fun _ hg => hg) (nodup_keys d.isClass d.members) hbarred
  · rw [(hperm.filterMap _).nodup_iff]
    exact hnodup
  · intro name hname
    exact hfresh name ((hperm.filterMap _).subset hname)

end Classify

/-! ## Declarations -/

theorem Scope.taken_reserve_subset (s : Scope) (base : String) :
    s.taken ⊆ (s.reserve base).2.taken := by
  intro name hname
  rcases s.reserve_cases base with ⟨-, hs⟩ | ⟨-, -, hs⟩
  · rwa [hs]
  · rw [hs, unique_snd]
    exact mem_taken_take.2 (.inl hname)

theorem ClassDecl.taken_binding_subset (c : ClassDecl) (s : Scope) :
    s.taken ⊆ (c.binding s).2.taken := by
  unfold ClassDecl.binding
  split
  · exact List.Subset.refl _
  · exact s.taken_reserve_subset "class"

theorem Declaration.whole_of_mem_ownDecoration {d : Declaration} {binding : String}
    {u : Decoration} (hu : u ∈ d.ownDecoration binding) : u.subject = .whole := by
  unfold ownDecoration at hu
  cases d with
  | cls c =>
    dsimp only at hu
    split at hu
    · cases hu
    · rw [List.mem_singleton.1 hu]
  | object o => cases hu

/-- The decorations of the members make up those of the declaration, since the decoration of a class
writes no property and uses no temporary. -/
theorem Declaration.classified {d : Declaration} {binding : String} {s s₁ s' : Scope}
    {found : List Decoration} (hkeyed : d.Keyed) (htaken : s.taken ⊆ s₁.taken)
    (h : Classify.memberDecorations d.isClass binding d.members s₁ = .ok (found, s')) :
    d.Classified binding s (found ++ d.ownDecoration binding) := by
  obtain ⟨howned, hslots, hsnapshots, hfresh⟩ := Classify.memberDecorations_structure hkeyed h
  have hwhole : ∀ u ∈ d.ownDecoration binding, u.subject = .whole :=
    fun u hu => whole_of_mem_ownDecoration hu
  have hunits : d.Units (found ++ d.ownDecoration binding) :=
    ⟨binding, s₁, s', found, _, h, rfl, hwhole⟩
  have hslot : (d.ownDecoration binding).filterMap (·.slot?) = [] := by
    rw [List.filterMap_eq_nil_iff]
    intro u hu
    simp [Decoration.slot?, Decoration.key?, hwhole u hu]
  have hsnapshot : (d.ownDecoration binding).filterMap (·.snapshot?) = [] := by
    rw [List.filterMap_eq_nil_iff]
    intro u hu
    simp [Decoration.snapshot?, Decoration.key?, hwhole u hu]
  refine ⟨⟨found, rfl, howned⟩, hunits.planned.2, ?_, ?_, ?_⟩
  · rwa [List.filterMap_append, hslot, List.append_nil]
  · rwa [List.filterMap_append, hsnapshot, List.append_nil]
  · rw [List.filterMap_append, hsnapshot, List.append_nil]
    intro name hname hmem
    exact hfresh name hname (htaken hmem)

theorem ObjectLiteral.classified {o : ObjectLiteral} {binding : String} {s s₁ s' : Scope}
    {units : List Decoration} (hkeyed : (Declaration.object o).Keyed) (htaken : s.taken ⊆ s₁.taken)
    (h : o.decorations binding s₁ = .ok (units, s')) :
    (Declaration.object o).Classified binding s units := by
  have hclassified := Declaration.classified hkeyed htaken h
  rwa [Declaration.ownDecoration, List.append_nil] at hclassified

/-- What a successful classification gives, for every class and object literal whose functions have
keys and for every scope: each decorated member owns one decoration, in source order, and the class
comes last; a decoration takes up all members of its owner's property with the descriptor and the
target of bare source; and neither properties nor temporaries are shared. -/
theorem classification_structure :
    (∀ (d : Declaration) (s s' : Scope) (units : List Decoration), d.Keyed →
      d.decorations s = .ok (units, s') → d.Classified (d.bindingIn s) s units) ∧
    ∀ (o : ObjectLiteral) (binding : String) (s s' : Scope) (units : List Decoration),
      (Declaration.object o).Keyed → o.decorations binding s = .ok (units, s') →
      (Declaration.object o).Classified binding s units := by
  refine ⟨?_, fun o binding s s' units hkeyed =>
    ObjectLiteral.classified hkeyed (List.Subset.refl _)⟩
  intro d s s' units hkeyed h
  cases d with
  | cls c =>
    simp only [Declaration.decorations, ClassDecl.decorations, bind_eq_ok, pure_eq_ok,
      Prod.mk.injEq] at h
    obtain ⟨⟨found, s₁⟩, hfound, rfl, rfl⟩ := h
    exact Declaration.classified hkeyed (c.taken_binding_subset s) hfound
  | object o =>
    have htaken : s.taken ⊆ (s.shared "obj").2.taken := by
      intro name hname
      rw [Scope.shared_snd]
      exact Scope.mem_taken_declare.2 (.inl (s.taken_reserve_subset "obj" hname))
    exact ObjectLiteral.classified hkeyed htaken h

/-! A class whose decorated setter comes after a decorated method, and shares a computed key with a
getter before that; and an object literal with the two halves of the accessor only. -/

namespace Classify.Sample

def getter : Member := { kind := .getter, key := some { text := "side", isComputed := true } }

def method : Member where
  kind := .method
  key := some { text := "label" }
  decorators := [{ text := "memo", callee := some "memo" }]

def setter : Member where
  kind := .setter
  key := some { text := " side", isComputed := true }
  decorators := [{ text := "bound", callee := some "bound" }]

def panel : ClassDecl where
  name := some "Panel"
  members := [getter, method, setter, { method with isStatic := true }]
  decorators := [{ text := "final", callee := some "final" }]

def literal : ObjectLiteral where
  members := [getter, setter]

/-- The decoration of the accessor, whose halves stand at the places. -/
def ofAccessor (kind : TargetKind) (binding : String) (get set : Nat) : Decoration where
  target := ⟨kind, binding⟩
  decorators := setter.decorators
  subject :=
    .property (.computed " side" (some "_key")) (.accessor (some get) (some set)) [get, set]

/-- The decoration of a method at a place. -/
def ofMethod (kind : TargetKind) (place : Nat) : Decoration where
  target := ⟨kind, "Panel"⟩
  decorators := method.decorators
  subject := .property (.static (some "label")) (.method (some place)) [place]

/-- The scope after the computed key was captured. -/
def captured : Scope := { taken := ["_key"], declared := ["_key"] }

theorem memberDecorations_panel : memberDecorations true "Panel" panel.members {} =
    .ok ([ofMethod .prototype 1, ofAccessor .prototype "Panel" 0 2, ofMethod .construct 3],
      captured) := by
  have hgroups : groupDecorations true "Panel" (groups true panel.members) {} =
      .ok ([(2, ofAccessor .prototype "Panel" 0 2), (1, ofMethod .prototype 1),
        (3, ofMethod .construct 3)], captured) := by decide +kernel
  exact memberDecorations_eq_ok_iff.2 ⟨rfl, _, hgroups, by simp [List.mergeSort]⟩

theorem decorations_literal : literal.decorations "obj" {} =
    .ok ([ofAccessor .objectLiteral "obj" 0 1], captured) := by
  have hgroups : groupDecorations false "obj" (groups false literal.members) {} =
      .ok ([(1, ofAccessor .objectLiteral "obj" 0 1)], captured) := by decide +kernel
  exact memberDecorations_of_pairwise rfl hgroups (List.pairwise_singleton _ _)

end Classify.Sample

open Classify.Sample in
theorem classification_structure_of_samples :
    (∃ units s', (Declaration.cls panel).decorations {} = .ok (units, s') ∧
      units.map (·.members) = [[1], [0, 2], [3], []] ∧
      (Declaration.cls panel).Classified "Panel" {} units) ∧
    ∃ units s', literal.decorations "obj" {} = .ok (units, s') ∧
      units.map (·.members) = [[0, 1]] ∧
      (Declaration.object literal).Classified "obj" {} units := by
  have hpanel : (Declaration.cls panel).decorations {} = _ :=
    ClassDecl.decorations_of_members (c := panel) rfl memberDecorations_panel
  exact ⟨⟨_, _, hpanel, rfl, classification_structure.1 _ _ _ _ (by decide) hpanel⟩,
    _, _, decorations_literal, rfl,
    classification_structure.2 _ _ _ _ _ (by decide) decorations_literal⟩

end Undecorate
