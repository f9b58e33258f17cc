import Mathlib.Data.List.Induction
import Mathlib.Data.List.TakeWhile
import Undecorate.Proofs.Classify.Sharing
import Undecorate.Proofs.Realization.Bare

/-! # The traits of bare properties

A property that bare source gives is told by the kinds of the members that it is made of: its shape,
its attributes, and which of the two functions of an accessor it has. The members of a decorated
property are grouped by their keys as written, while a bare property is made by whatever has come to
stand under one name, so the two need not have the same traits.

* `standing`: the members that are left of those under one name;
* `traits_leave`: the traits of what members leave, by their kinds;
* `traits_of_ofMembers`: the traits of a decorated property, by the kinds of its members;
* `ofKinds_standing_eq_iff`: the two are the same iff the kinds are.
-/

namespace Undecorate

/-- What a descriptor says about a property besides its value and its functions. -/
structure Traits where
  kind : Shape
  enumerable : Bool
  configurable : Bool
  writable : Option Bool
  hasGetter : Bool
  hasSetter : Bool
deriving DecidableEq, Repr

/-- The traits of a descriptor. -/
def Descriptor.traits {α : Type} (d : Descriptor α) : Traits where
  kind := d.kind
  enumerable := d.enumerable
  configurable := d.configurable
  writable := d.writable
  hasGetter := d.getter.isSome
  hasSetter := d.setter.isSome

/-- The traits of the property that members of these kinds make: an accessor, a method, or else a
property as assignments create it. -/
def Traits.ofKinds (kinds : List MemberKind) : Traits :=
  if kinds.any (·.isAccessor) then
    ⟨.accessor, true, true, none, kinds.contains .getter, kinds.contains .setter⟩
  else ⟨.data, !kinds.contains .method, true, some true, false, false⟩

/-- Traits depend on which kinds there are, not on their order or number. -/
theorem Traits.ofKinds_congr {kinds kinds' : List MemberKind}
    (h : ∀ kind, kind ∈ kinds ↔ kind ∈ kinds') : ofKinds kinds = ofKinds kinds' := by
  have hcontains : ∀ kind, kinds.contains kind = kinds'.contains kind := by
    intro kind
    rw [Bool.eq_iff_iff, List.contains_iff_mem, List.contains_iff_mem]
    exact h kind
  have hany : kinds.any (·.isAccessor) = kinds'.any (·.isAccessor) := by
    rw [Bool.eq_iff_iff, List.any_eq_true, List.any_eq_true]
    simp only [h]
  unfold ofKinds
  rw [hany, hcontains, hcontains, hcontains]

theorem Traits.ofKinds_of_accessors {kinds : List MemberKind} (hkinds : kinds ≠ [])
    (h : ∀ k ∈ kinds, k.isAccessor = true) : ofKinds kinds =
      ⟨.accessor, true, true, none, kinds.contains .getter, kinds.contains .setter⟩ := by
  obtain ⟨k, hk⟩ := List.exists_mem_of_ne_nil kinds hkinds
  exact if_pos (List.any_eq_true.2 ⟨k, hk, h k hk⟩)

theorem Traits.ofKinds_of_not_accessors {kinds : List MemberKind}
    (h : ∀ k ∈ kinds, k.isAccessor = false) :
    ofKinds kinds = ⟨.data, !kinds.contains .method, true, some true, false, false⟩ := by
  refine if_neg ?_
  rw [Bool.not_eq_true, List.any_eq_false]
  intro k hk
  rw [h k hk]
  exact Bool.false_ne_true

/-- Accessors of the same traits have the same halves. -/
theorem Traits.mem_iff_of_accessors {kinds kinds' : List MemberKind} (hkinds : kinds ≠ [])
    (hkinds' : kinds' ≠ []) (h : ∀ k ∈ kinds, k.isAccessor = true)
    (h' : ∀ k ∈ kinds', k.isAccessor = true) (heq : ofKinds kinds = ofKinds kinds')
    (kind : MemberKind) : kind ∈ kinds ↔ kind ∈ kinds' := by
  rw [ofKinds_of_accessors hkinds h, ofKinds_of_accessors hkinds' h'] at heq
  have hgetter := congrArg Traits.hasGetter heq
  have hsetter := congrArg Traits.hasSetter heq
  dsimp only at hgetter hsetter
  rw [Bool.eq_iff_iff, List.contains_iff_mem, List.contains_iff_mem] at hgetter hsetter
  cases kind with
  | getter => exact hgetter
  | setter => exact hsetter
  | _ => exact iff_of_false (fun hk => nomatch h _ hk) (fun hk => nomatch h' _ hk)

/-- An accessor never has the traits of another member. -/
theorem Traits.ofKinds_accessors_ne {kinds kinds' : List MemberKind} (hkinds : kinds ≠ [])
    (h : ∀ k ∈ kinds, k.isAccessor = true) (h' : ∀ k ∈ kinds', k.isAccessor = false) :
    ofKinds kinds ≠ ofKinds kinds' := by
  rw [ofKinds_of_accessors hkinds h, ofKinds_of_not_accessors h']
  intro heq
  cases congrArg Traits.kind heq

/-- Among members that are no halves of an accessor, the traits tell whether there is a method. -/
theorem Traits.method_mem_iff_of_not_accessors {kinds kinds' : List MemberKind}
    (h : ∀ k ∈ kinds, k.isAccessor = false) (h' : ∀ k ∈ kinds', k.isAccessor = false)
    (heq : ofKinds kinds = ofKinds kinds') : .method ∈ kinds ↔ .method ∈ kinds' := by
  rw [ofKinds_of_not_accessors h, ofKinds_of_not_accessors h'] at heq
  have henumerable := congrArg Traits.enumerable heq
  dsimp only at henumerable
  rw [Bool.not_inj_iff, Bool.eq_iff_iff, List.contains_iff_mem, List.contains_iff_mem]
    at henumerable
  exact henumerable

namespace Realization

/-! ## What is left standing -/

/-- The halves of an accessor at the end of members, the last one first. -/
def halves (kinds : List MemberKind) : List MemberKind := kinds.reverse.takeWhile (·.isAccessor)

/-- The kinds of the members that a property is made of in the end: the halves of an accessor behind
the last member of another kind, or else that member. -/
def standing (kinds : List MemberKind) : List MemberKind :=
  if halves kinds = [] then kinds.getLast?.toList else halves kinds

variable {kinds : List MemberKind} {kind : MemberKind}

theorem halves_concat (kinds : List MemberKind) (kind : MemberKind) :
    halves (kinds ++ [kind]) = if kind.isAccessor then kind :: halves kinds else [] := by
  unfold halves
  rw [List.reverse_append, List.reverse_singleton, List.singleton_append, List.takeWhile_cons]

theorem standing_concat (kinds : List MemberKind) (kind : MemberKind) :
    standing (kinds ++ [kind]) = if kind.isAccessor then kind :: halves kinds else [kind] := by
  unfold standing
  rw [halves_concat]
  cases kind.isAccessor with
  | true => simp
  | false => simp

theorem isAccessor_of_mem_halves (h : kind ∈ halves kinds) : kind.isAccessor = true :=
  List.mem_takeWhile_imp h

/-- Members of one sort all count. -/
theorem mem_standing_of_alike
    (h : (∀ k ∈ kinds, k = .method) ∨ ∀ k ∈ kinds, k.isAccessor = true) :
    kind ∈ standing kinds ↔ kind ∈ kinds := by
  rcases List.eq_nil_or_concat kinds with rfl | ⟨front, last, rfl⟩
  · rfl
  rw [List.concat_eq_append] at h ⊢
  rw [standing_concat]
  rcases h with h | h
  · have hlast := h last (by simp)
    subst hlast
    constructor
    · intro hkind
      rw [List.mem_singleton.1 hkind]
      simp
    · intro hkind
      rw [h kind hkind]
      exact List.mem_singleton.2 rfl
  · have hfront : halves front = front.reverse := by
      refine List.takeWhile_eq_self_iff.2 ?_
      intro k hk
      exact h k (List.mem_append_left _ (List.mem_reverse.1 hk))
    rw [if_pos (h last (by simp)), hfront]
    simp [or_comm]

/-! ## Bare properties -/

section Bare

variable {functions : Nat → Ref} {start : Option (Descriptor Value)}

/-- The property that members leave, one after the other. -/
def leave (functions : Nat → Ref) (entries : List Entry) (start : Option (Descriptor Value)) :
    Option (Descriptor Value) :=
  entries.foldl (fun existing e => some (bareProperty (functions e.place) e.member existing)) start

theorem leave_concat (entries : List Entry) (e : Entry) :
    leave functions (entries ++ [e]) start =
      some (bareProperty (functions e.place) e.member (leave functions entries start)) :=
  List.foldl_append

/-- The part of an accessor that another half would keep. -/
def kept? (part : Descriptor Value → Option Value) (existing : Option (Descriptor Value)) :
    Option Value :=
  (existing.filter (·.isAccessor)).bind part

/-- Another half would keep the halves at the end. -/
theorem isSome_kept?_leave (hstart : start.filter (·.isAccessor) = none) (entries : List Entry) :
    (kept? (·.getter) (leave functions entries start)).isSome =
        (halves (entries.map (·.member.kind))).contains .getter ∧
      (kept? (·.setter) (leave functions entries start)).isSome =
        (halves (entries.map (·.member.kind))).contains .setter := by
  induction entries using List.reverseRecOn with
  | nil =>
    unfold kept? leave
    rw [List.foldl_nil, hstart]
    exact ⟨rfl, rfl⟩
  | append_singleton entries e ih =>
    obtain ⟨hgetter, hsetter⟩ := ih
    rw [leave_concat, List.map_append, List.map_singleton, halves_concat]
    unfold bareProperty
    cases e.member.kind with
    | getter =>
      refine ⟨rfl, ?_⟩
      change (kept? (·.setter) (leave functions entries start)).isSome = _
      rw [hsetter]
      rfl
    | setter =>
      refine ⟨?_, rfl⟩
      change (kept? (·.getter) (leave functions entries start)).isSome = _
      rw [hgetter]
      rfl
    | _ => exact ⟨rfl, rfl⟩

/-- What members leave has the traits of those of them that are left standing. -/
theorem traits_leave (functions : Nat → Ref) (hstart : start.filter (·.isAccessor) = none)
    {entries : List Entry} (hentries : entries ≠ []) :
    ∃ d, leave functions entries start = some d ∧
      d.traits = .ofKinds (standing (entries.map (·.member.kind))) := by
  obtain ⟨front, last, rfl⟩ := (List.eq_nil_or_concat entries).resolve_left hentries
  rw [List.concat_eq_append, leave_concat, List.map_append, List.map_singleton, standing_concat]
  refine ⟨_, rfl, ?_⟩
  obtain ⟨hgetter, hsetter⟩ := isSome_kept?_leave hstart front
  unfold bareProperty
  cases last.member.kind with
  | getter =>
    change Traits.mk .accessor true true none true
      (kept? (·.setter) (leave functions front start)).isSome = _
    rw [hsetter]
    rfl
  | setter =>
    change Traits.mk .accessor true true none
      (kept? (·.getter) (leave functions front start)).isSome true = _
    rw [hgetter]
    rfl
  | _ => rfl

end Bare

/-! ## Decorated properties -/

section Decorated

variable {α : Type} {members : List (Member × Option α)}

/-- A decorated property has a function of a kind iff it has a member of that kind. -/
theorem isSome_function? (hsome : ∀ p ∈ members, p.2.isSome = true) (kind : MemberKind) :
    ((members.find? (·.1.kind = kind)).bind (·.2)).isSome =
      (members.map (·.1.kind)).contains kind := by
  rw [Bool.eq_iff_iff, Descriptor.isSome_find? hsome, List.contains_iff_mem, List.mem_map]

/-- The members of a decorated property are methods or halves of an accessor, and its first
descriptor has the traits of their kinds. Every member has the function that it stands for. -/
theorem traits_of_ofMembers {initial : Descriptor α}
    (hfunctions : ∀ p ∈ members, p.1.isFunction = true)
    (hsome : ∀ p ∈ members, p.2.isSome = true) (h : Descriptor.ofMembers members = .ok initial) :
    initial.traits = .ofKinds (members.map (·.1.kind)) ∧
      ((∀ k ∈ members.map (·.1.kind), k = .method) ∨
        ∀ k ∈ members.map (·.1.kind), k.isAccessor = true) := by
  have hne : members ≠ [] := by
    rintro rfl
    cases h
  have hapart : ¬ ∃ a b, [a, b].Sublist members ∧ a.1.Overlaps b.1 := by
    intro hover
    rw [Descriptor.ofMembers_of_overlap hfunctions hover] at h
    cases h
  rcases Descriptor.ofMembers_of_apart hfunctions hne hsome hapart with
    ⟨e, rfl, hkind, hmethod⟩ | ⟨hnone, haccessor⟩
  · cases hmethod.symm.trans h
    have hkinds : ([e].map (·.1.kind)) = [.method] := congrArg (fun kind => [kind]) hkind
    obtain ⟨function, hfunction⟩ := Option.isSome_iff_exists.1 (hsome e List.mem_cons_self)
    rw [hkinds, hfunction]
    exact ⟨rfl, .inl fun k hk => List.mem_singleton.1 hk⟩
  · cases haccessor.symm.trans h
    have hhalves : ∀ k ∈ members.map (·.1.kind), k.isAccessor = true := by
      intro k hk
      obtain ⟨p, hp, rfl⟩ := List.mem_map.1 hk
      rcases Member.kind_of_isFunction (hfunctions p hp) with hk | hk | hk
      · exact absurd hk (hnone p hp)
      · rw [hk]
        rfl
      · rw [hk]
        rfl
    rw [Traits.ofKinds_of_accessors (fun hnil => hne (List.map_eq_nil_iff.1 hnil)) hhalves,
      ← isSome_function? hsome, ← isSome_function? hsome]
    exact ⟨rfl, .inr hhalves⟩

end Decorated

/-- The members that are left standing give the traits of a decorated property iff they are of the
same kinds as its own members. -/
theorem ofKinds_standing_eq_iff {own : List MemberKind} (hkinds : kinds ≠ []) (hown : own ≠ [])
    (halike : (∀ k ∈ own, k = .method) ∨ ∀ k ∈ own, k.isAccessor = true) :
    Traits.ofKinds (standing kinds) = .ofKinds own ↔
      ∀ kind, kind ∈ standing kinds ↔ kind ∈ own := by
  refine ⟨?_, Traits.ofKinds_congr⟩
  obtain ⟨front, last, rfl⟩ := (List.eq_nil_or_concat kinds).resolve_left hkinds
  have hmethods : (∀ k ∈ own, k = .method) → ∀ k ∈ own, k.isAccessor = false := by
    intro h k hk
    rw [h k hk]
    rfl
  rw [List.concat_eq_append, standing_concat]
  intro heq
  cases hlast : last.isAccessor with
  | true =>
    have hleft : ∀ k ∈ last :: halves front, k.isAccessor = true := by
      intro k hk
      rcases List.mem_cons.1 hk with rfl | hk
      · exact hlast
      · exact isAccessor_of_mem_halves hk
    rw [if_pos hlast] at heq
    rcases halike with halike | halike
    · exact absurd heq
        (Traits.ofKinds_accessors_ne (List.cons_ne_nil _ _) hleft (hmethods halike))
    · exact Traits.mem_iff_of_accessors (List.cons_ne_nil _ _) hown hleft halike heq
  | false =>
    have hleft : ∀ k ∈ [last], k.isAccessor = false := by
      intro k hk
      rw [List.mem_singleton.1 hk]
      exact hlast
    rw [if_neg (by rw [hlast]; exact Bool.false_ne_true)] at heq
    rcases halike with halike | halike
    · -- all of `own` are methods, so what is left is one
      obtain ⟨first, hfirst⟩ := List.exists_mem_of_ne_nil own hown
      have hmethod : .method ∈ own := halike first hfirst ▸ hfirst
      obtain rfl := List.mem_singleton.1
        ((Traits.method_mem_iff_of_not_accessors hleft (hmethods halike) heq).2 hmethod)
      intro kind
      refine ⟨fun hk => List.mem_singleton.1 hk ▸ hmethod, fun hk => ?_⟩
      exact List.mem_singleton.2 (halike kind hk)
    · exact absurd heq.symm (Traits.ofKinds_accessors_ne hown halike hleft)

end Realization

end Undecorate
