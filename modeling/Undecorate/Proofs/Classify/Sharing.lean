import Mathlib.Data.List.Pairwise
import Undecorate.Proofs.Classify.Plans

/-! # Members that share a property

Functions under keys of one identity define one property; in a class, static members and others are
kept apart. Grouping finds exactly these properties, in the order of their first members, and a
property can be described by one descriptor unless two of its members conflict.

* `members_eq_sharers`: a group has all members that share a property, in source order;
* `exists_group`: every function under a key has its group, and no two groups share a key;
* `pairwise_precedes`: groups come in the order of their first members;
* `ofMembers_of_apart`: the descriptor of members of which no two conflict.
-/

namespace Undecorate

/-- Two members define one property: both are functions, on one side of a class, and their keys have
one identity. An object literal has one side only. -/
def Member.SharesWith (isClass : Bool) (m m' : Member) : Prop :=
  m.isFunction = true ∧ m'.isFunction = true ∧ (isClass = true → m.isStatic = m'.isStatic) ∧
    m.key.isSome = true ∧ m.key.map (·.identity) = m'.key.map (·.identity)

instance (isClass : Bool) (m m' : Member) : Decidable (m.SharesWith isClass m') :=
  inferInstanceAs (Decidable (_ ∧ _ ∧ _ ∧ _ ∧ _))

namespace Classify

variable {isClass : Bool} {members : List Member} {m m' : Member} {g : Group} {gs : List Group}

theorem sharesWith_iff : m.SharesWith isClass m' ↔
    ∃ key, groupKey? isClass m = some key ∧ groupKey? isClass m' = some key := by
  unfold Member.SharesWith groupKey?
  constructor
  · rintro ⟨hm, hm', hside, hkey, hidentity⟩
    obtain ⟨k, hk⟩ := Option.isSome_iff_exists.1 hkey
    rw [hk, Option.map_some, eq_comm, Option.map_eq_some_iff] at hidentity
    obtain ⟨k', hk', hidentity⟩ := hidentity
    refine ⟨(m.isStatic && isClass, k.identity), by simp [hm, hk], ?_⟩
    simp only [hm', hk', hidentity, if_true, Option.map_some, Option.some.injEq, Prod.mk.injEq,
      and_true]
    cases isClass with
    | true => rw [hside rfl]
    | false => simp
  · rintro ⟨key, h, h'⟩
    split at h
    · split at h'
      · rename_i hm hm'
        obtain ⟨k, hk, rfl⟩ := Option.map_eq_some_iff.1 h
        obtain ⟨k', hk', heq⟩ := Option.map_eq_some_iff.1 h'
        rw [Prod.mk.injEq] at heq
        refine ⟨hm, hm', ?_, by simp [hk], by simp [hk, hk', heq.2]⟩
        rintro rfl
        simpa using heq.1.symm
      · cases h'
    · cases h

/-! ## Groups -/

/-- The entries whose members belong under a key, with their places in front. -/
def under (isClass : Bool) (key : GroupKey) (entries : List (Member × Nat)) : List (Nat × Member) :=
  (entries.filter fun e => groupKey? isClass e.1 = some key).map Prod.swap

theorem mem_under {key : GroupKey} {i : Nat} :
    (i, m) ∈ under isClass key members.zipIdx ↔
      members[i]? = some m ∧ groupKey? isClass m = some key := by
  unfold under
  rw [List.mem_map]
  constructor
  · rintro ⟨⟨m', i'⟩, hmem, heq⟩
    obtain ⟨rfl, rfl⟩ := Prod.mk.inj heq
    obtain ⟨hzip, hkey⟩ := List.mem_filter.1 hmem
    exact ⟨List.mem_zipIdx_iff_getElem?.1 hzip, by simpa using hkey⟩
  · rintro ⟨hget, hkey⟩
    exact ⟨(m, i),
      List.mem_filter.2 ⟨List.mem_zipIdx_iff_getElem?.2 hget, by simpa using hkey⟩, rfl⟩

theorem increasing_under (isClass : Bool) (key : GroupKey) (members : List Member) :
    (under isClass key members.zipIdx).Pairwise (·.1 < ·.1) := by
  have hplaces : (members.zipIdx.map Prod.snd).Pairwise (· < ·) := by
    rw [List.zipIdx_map_snd]
    exact List.pairwise_lt_range'
  unfold under
  rw [List.pairwise_map]
  exact (List.pairwise_map.1 hplaces).filter _

/-- A member goes into the group with its key, or into a new one at the end. -/
theorem map_key_addTo (key : GroupKey) (entry : Nat × Member) (gs : List Group) :
    (addTo key entry gs).map (·.key) =
      if key ∈ gs.map (·.key) then gs.map (·.key) else gs.map (·.key) ++ [key] := by
  induction gs with
  | nil => rfl
  | cons g gs ih =>
    unfold addTo
    by_cases hkey : g.key = key
    · simp [hkey]
    · rw [if_neg hkey, List.map_cons, ih, List.map_cons]
      by_cases hmem : key ∈ gs.map (·.key)
      · rw [if_pos hmem, if_pos (List.mem_cons_of_mem _ hmem)]
      · have hnew : key ∉ g.key :: gs.map (·.key) := by
          rw [List.mem_cons, not_or]
          exact ⟨Ne.symm hkey, hmem⟩
        rw [if_neg hmem, if_neg hnew, List.cons_append]

/-- No two groups share a key. -/
theorem nodup_keys (isClass : Bool) (members : List Member) :
    ((groups isClass members).map (·.key)).Nodup := by
  -- the fold is generalized over the groups that there are already
  suffices hfold : ∀ (entries : List (Member × Nat)) (gs : List Group), (gs.map (·.key)).Nodup →
      ((entries.foldl (join isClass) gs).map (·.key)).Nodup from hfold members.zipIdx [] List.nodup_nil
  intro entries
  induction entries with
  | nil => exact fun gs hgs => hgs
  | cons e entries ih =>
    intro gs hgs
    rw [List.foldl_cons]
    refine ih _ ?_
    unfold join
    split
    · rename_i key hkey
      rw [map_key_addTo]
      split
      · exact hgs
      · rename_i hnew
        exact List.nodup_append.2 ⟨hgs, by simp, by
          intro a ha b hb
          rw [List.mem_singleton.1 hb]
          exact fun heq => hnew (heq ▸ ha)⟩
    · exact hgs

/-- Every function under a key has its group. -/
theorem exists_group {i : Nat} {key : GroupKey} (hm : members[i]? = some m)
    (hkey : groupKey? isClass m = some key) :
    ∃ g ∈ groups isClass members, g.key = key ∧ (i, m) ∈ g.members := by
  have hkeyed : (i, m) ∈ keyed isClass members.zipIdx := by
    refine List.mem_map.2 ⟨(m, i), List.mem_filter.2 ⟨?_, ?_⟩, rfl⟩
    · exact List.mem_zipIdx_iff_getElem?.2 hm
    · simp [hkey]
  obtain ⟨g, hg, hmem⟩ :=
    List.mem_flatMap.1 ((groups_perm isClass members).symm.subset hkeyed)
  have hkey' := (mem_groups hg).key _ hmem
  exact ⟨g, hg, Option.some.inj (hkey'.symm.trans hkey), hmem⟩

/-- Lists in the order of their places are told by what is in them. -/
theorem eq_of_increasing {α : Type} (place : α → Nat) {xs ys : List α}
    (hx : xs.Pairwise fun a b => place a < place b) (hy : ys.Pairwise fun a b => place a < place b)
    (h : ∀ a, a ∈ xs ↔ a ∈ ys) : xs = ys := by
  have hnodup : ∀ {zs : List α}, zs.Pairwise (fun a b => place a < place b) → zs.Nodup := by
    intro zs hz
    refine hz.imp ?_
    rintro a _ hlt rfl
    exact Nat.lt_irrefl _ hlt
  refine List.Perm.eq_of_pairwise (fun _ _ _ _ hlt hgt => absurd hlt (Nat.lt_asymm hgt)) hx hy ?_
  exact (List.perm_ext_iff_of_nodup (hnodup hx) (hnodup hy)).2 h

/-- A group has exactly the members under its key, in source order. -/
theorem members_eq_under (hg : g ∈ groups isClass members) :
    g.members = under isClass g.key members.zipIdx := by
  have hordered := mem_groups hg
  refine eq_of_increasing Prod.fst (List.pairwise_map.1 hordered.increasing)
    (increasing_under isClass g.key members) ?_
  rintro ⟨i, m⟩
  rw [mem_under]
  constructor
  · intro hmem
    exact ⟨getElem?_of_mem_groups hg hmem, hordered.key _ hmem⟩
  · rintro ⟨hget, hkey⟩
    -- the member has a group, and that is the group with its key
    obtain ⟨g', hg', hkey', hmem⟩ := exists_group hget hkey
    obtain rfl : g' = g := List.inj_on_of_nodup_map (nodup_keys isClass members) hg' hg hkey'
    exact hmem

/-- The members that define one property with a member, with their places in source order. -/
def sharers (isClass : Bool) (members : List Member) (m : Member) : List (Member × Nat) :=
  members.zipIdx.filter fun e => m.SharesWith isClass e.1

theorem map_fst_sharers (isClass : Bool) (members : List Member) (m : Member) :
    (sharers isClass members m).map (·.1) = members.filter fun m' => m.SharesWith isClass m' := by
  have hfst : members.zipIdx.map Prod.fst = members := List.zipIdx_map_fst 0 members
  calc (sharers isClass members m).map (·.1)
      = (members.zipIdx.filter ((fun m' => decide (m.SharesWith isClass m')) ∘ Prod.fst)).map
          Prod.fst := rfl
    _ = _ := by rw [← List.filter_map, hfst]

/-- The members of a group are those that share a property with any of them. -/
theorem members_eq_sharers (hg : g ∈ groups isClass members) {e : Nat × Member}
    (he : e ∈ g.members) : g.members = (sharers isClass members e.2).map Prod.swap := by
  have hkey := (mem_groups hg).key e he
  rw [members_eq_under hg]
  unfold under sharers
  congr 1
  refine List.filter_congr fun x _ => ?_
  rw [decide_eq_decide, sharesWith_iff]
  constructor
  · intro hx
    exact ⟨g.key, hkey, hx⟩
  · rintro ⟨key, he', hx⟩
    rwa [Option.some.inj (hkey.symm.trans he')]

theorem map_snd_members (hg : g ∈ groups isClass members) {e : Nat × Member}
    (he : e ∈ g.members) :
    g.members.map (·.2) = members.filter fun m => e.2.SharesWith isClass m := by
  rw [members_eq_sharers hg he, List.map_map]
  exact map_fst_sharers isClass members e.2

/-- The first member of one group stands before all members of another. -/
def Group.Precedes (g h : Group) : Prop :=
  ∀ e ∈ g.members.head?, ∀ e' ∈ h.members, e.1 < e'.1

theorem precedes_addTo {key : GroupKey} {i : Nat} (hgs : ∀ g ∈ gs, g.Ordered isClass i)
    (h : gs.Pairwise Group.Precedes) : (addTo key (i, m) gs).Pairwise Group.Precedes := by
  induction gs with
  | nil => exact List.pairwise_singleton _ _
  | cons g gs ih =>
    obtain ⟨hfirst, hrest⟩ := List.pairwise_cons.1 h
    have hg := hgs g List.mem_cons_self
    unfold addTo
    split
    · -- the group grows at its end, so its first member stays
      refine List.pairwise_cons.2 ⟨?_, hrest⟩
      intro x hx e he
      rw [List.head?_append_of_ne_nil _ hg.nonempty] at he
      exact hfirst x hx e he
    · refine List.pairwise_cons.2 ⟨?_, ih (fun x hx => hgs x (List.mem_cons_of_mem g hx)) hrest⟩
      intro x hx e he e' he'
      have hmem := (addTo_perm key (i, m) gs).subset (List.mem_flatMap.2 ⟨x, hx, he'⟩)
      rcases List.mem_cons.1 hmem with rfl | hmem
      · exact hg.before e (List.mem_of_mem_head? he)
      · obtain ⟨y, hy, hey⟩ := List.mem_flatMap.1 hmem
        exact hfirst y hy e he e' hey

/-- Groups come in the order of their first members. -/
theorem pairwise_precedes (isClass : Bool) (members : List Member) :
    (groups isClass members).Pairwise Group.Precedes := by
  suffices hfold : ∀ (members : List Member) (n : Nat) (gs : List Group),
      (∀ g ∈ gs, g.Ordered isClass n) → gs.Pairwise Group.Precedes →
      ((members.zipIdx n).foldl (join isClass) gs).Pairwise Group.Precedes from
    hfold members 0 [] (List.forall_mem_nil _) .nil
  intro members
  induction members with
  | nil => exact fun n gs _ h => h
  | cons m members ih =>
    intro n gs hgs h
    rw [List.zipIdx_cons, List.foldl_cons]
    unfold join
    split
    · rename_i key hkey
      exact ih (n + 1) _ (ordered_addTo hkey hgs) (precedes_addTo hgs h)
    · exact ih (n + 1) gs (fun x hx => (hgs x hx).mono (Nat.le_succ n)) h

end Classify

/-! ## Descriptors of members -/

/-- A function under a key is a method or one half of an accessor. -/
theorem Member.kind_of_isFunction {m : Member} (h : m.isFunction = true) :
    m.kind = .method ∨ m.kind = .getter ∨ m.kind = .setter := by
  unfold Member.isFunction at h
  cases hk : m.kind with
  | method => exact .inl rfl
  | getter => exact .inr (.inl rfl)
  | setter => exact .inr (.inr rfl)
  | _ =>
    rw [hk] at h
    cases h

/-- Two members of which only one can define a property: one of them is a method, or they are two
getters or two setters. -/
def Member.Overlaps (m m' : Member) : Prop :=
  m.kind = .method ∨ m'.kind = .method ∨ (m.kind = .getter ∧ m'.kind = .getter) ∨
    (m.kind = .setter ∧ m'.kind = .setter)

section Pairs

variable {α : Type} {l : List α} {a b : α}

/-- Of two things in a list one stands before the other. -/
theorem pair_sublist (ha : a ∈ l) (hb : b ∈ l) (hne : a ≠ b) :
    [a, b].Sublist l ∨ [b, a].Sublist l := by
  obtain ⟨before, after, rfl⟩ := List.append_of_mem ha
  rcases List.mem_append.1 hb with hb | hb
  · exact .inr ((List.singleton_sublist.2 hb).append (List.singleton_sublist.2 List.mem_cons_self))
  · rcases List.mem_cons.1 hb with rfl | hb
    · exact absurd rfl hne
    · exact .inl ((List.cons_sublist_cons.2 (List.singleton_sublist.2 hb)).trans
        (List.sublist_append_right before _))

theorem mem_of_pair_sublist (h : [a, b].Sublist l) : a ∈ l ∧ b ∈ l :=
  ⟨h.subset List.mem_cons_self, h.subset (List.mem_cons_of_mem a List.mem_cons_self)⟩

theorem one_lt_length_filter {p : α → Bool} :
    1 < (l.filter p).length ↔ ∃ a b, [a, b].Sublist l ∧ p a = true ∧ p b = true := by
  constructor
  · intro h
    match hf : l.filter p, h with
    | a :: b :: rest, _ =>
      have hsub : [a, b].Sublist (l.filter p) := by
        rw [hf]
        exact List.sublist_append_left [a, b] rest
      obtain ⟨ha, hb⟩ := mem_of_pair_sublist hsub
      exact ⟨a, b, hsub.trans List.filter_sublist, (List.mem_filter.1 ha).2,
        (List.mem_filter.1 hb).2⟩
  · rintro ⟨a, b, hsub, ha, hb⟩
    have hpair := hsub.filter p
    rw [List.filter_cons_of_pos ha, List.filter_cons_of_pos hb] at hpair
    exact hpair.length_le

end Pairs

namespace Descriptor

variable {α : Type} {entries : List (Member × Option α)}

/-- The members of a property of a kind. -/
abbrev ofKind (kind : MemberKind) (entries : List (Member × Option α)) : List (Member × Option α) :=
  entries.filter (·.1.kind = kind)

theorem mem_ofKind {kind : MemberKind} {e : Member × Option α} :
    e ∈ ofKind kind entries ↔ e ∈ entries ∧ e.1.kind = kind := by
  simp [ofKind, List.mem_filter]

theorem isEmpty_ofKind {kind : MemberKind} :
    (!(ofKind kind entries).isEmpty) = true ↔ ∃ e ∈ entries, e.1.kind = kind := by
  rw [Bool.not_eq_true', List.isEmpty_eq_false_iff_exists_mem]
  exact exists_congr fun e => mem_ofKind

/-- A method overlaps with a member of any other kind. -/
theorem exists_overlap {x y : Member × Option α} (hx : x ∈ entries) (hy : y ∈ entries)
    (hkx : x.1.kind = .method) (hky : y.1.kind ≠ .method) :
    ∃ a b, [a, b].Sublist entries ∧ a.1.Overlaps b.1 := by
  have hne : x ≠ y := by
    rintro rfl
    exact hky hkx
  rcases pair_sublist hx hy hne with hsub | hsub
  · exact ⟨x, y, hsub, .inl hkx⟩
  · exact ⟨y, x, hsub, .inr (.inl hkx)⟩

/-- The members of a property are mixed up iff two of them overlap. -/
theorem mixed_iff (hf : ∀ e ∈ entries, e.1.isFunction = true) :
    ((!(ofKind .method entries).isEmpty &&
        (!(ofKind .getter entries).isEmpty || !(ofKind .setter entries).isEmpty)) ||
      decide (1 < (ofKind .method entries).length) || decide (1 < (ofKind .getter entries).length) ||
      decide (1 < (ofKind .setter entries).length)) = true ↔
      ∃ a b, [a, b].Sublist entries ∧ a.1.Overlaps b.1 := by
  simp only [Bool.or_eq_true, Bool.and_eq_true, decide_eq_true_eq, isEmpty_ofKind,
    one_lt_length_filter]
  constructor
  · -- a method and an accessor are two members, and so are two of a kind
    rintro (((⟨⟨a, ha, hka⟩, ⟨b, hb, hkb⟩ | ⟨b, hb, hkb⟩⟩ | ⟨a, b, hsub, hka, -⟩) |
      ⟨a, b, hsub, hka, hkb⟩) | ⟨a, b, hsub, hka, hkb⟩)
    · exact exists_overlap ha hb hka (by rw [hkb]; nofun)
    · exact exists_overlap ha hb hka (by rw [hkb]; nofun)
    · exact ⟨a, b, hsub, .inl hka⟩
    · exact ⟨a, b, hsub, .inr (.inr (.inl ⟨hka, hkb⟩))⟩
    · exact ⟨a, b, hsub, .inr (.inr (.inr ⟨hka, hkb⟩))⟩
  · rintro ⟨a, b, hsub, hover⟩
    obtain ⟨ha, hb⟩ := mem_of_pair_sublist hsub
    -- whichever of the two is the method, the other one is a second method or an accessor
    have hmethod : ∀ x ∈ entries, ∀ y ∈ entries, x.1.kind = .method → y.1.kind ≠ .method →
        (∃ e ∈ entries, e.1.kind = .method) ∧
          ((∃ e ∈ entries, e.1.kind = .getter) ∨ ∃ e ∈ entries, e.1.kind = .setter) := by
      intro x hx y hy hkx hky
      refine ⟨⟨x, hx, hkx⟩, ?_⟩
      rcases Member.kind_of_isFunction (hf y hy) with hk | hk | hk
      · exact absurd hk hky
      · exact .inl ⟨y, hy, hk⟩
      · exact .inr ⟨y, hy, hk⟩
    by_cases hka : a.1.kind = .method
    · by_cases hkb : b.1.kind = .method
      · exact .inl (.inl (.inr ⟨a, b, hsub, hka, hkb⟩))
      · exact .inl (.inl (.inl (hmethod a ha b hb hka hkb)))
    · rcases hover with h | hkb | ⟨hka, hkb⟩ | ⟨hka, hkb⟩
      · exact absurd h hka
      · exact .inl (.inl (.inl (hmethod b hb a ha hkb hka)))
      · exact .inl (.inr ⟨a, b, hsub, hka, hkb⟩)
      · exact .inr ⟨a, b, hsub, hka, hkb⟩

/-- Members of which two overlap have no descriptor. -/
theorem ofMembers_of_overlap (hf : ∀ e ∈ entries, e.1.isFunction = true)
    (h : ∃ a b, [a, b].Sublist entries ∧ a.1.Overlaps b.1) :
    ofMembers entries = .error (.mixed (entries.head?.bind (·.1.range))) := by
  unfold ofMembers
  exact if_pos ((mixed_iff hf).2 h)

theorem ofMembers_of_not_mixed (hf : ∀ e ∈ entries, e.1.isFunction = true)
    (h : ¬ ∃ a b, [a, b].Sublist entries ∧ a.1.Overlaps b.1) :
    ofMembers entries =
      match ofKind .method entries, ofKind .getter entries, ofKind .setter entries with
      | m :: _, _, _ => .ok (.method m.2)
      | [], [], [] => .error .empty
      | [], gs, ss => accessor? (gs.head?.bind (·.2)) (ss.head?.bind (·.2)) := by
  unfold ofMembers
  exact if_neg fun hmixed => h ((mixed_iff hf).1 hmixed)

/-- A property has a function of a kind iff it has a member of that kind. -/
theorem isSome_find? (hsome : ∀ e ∈ entries, e.2.isSome = true) (kind : MemberKind) :
    ((entries.find? (·.1.kind = kind)).bind (·.2)).isSome = true ↔
      ∃ e ∈ entries, e.1.kind = kind := by
  cases hfind : entries.find? (·.1.kind = kind) with
  | none =>
    refine iff_of_false nofun ?_
    rintro ⟨e, he, hk⟩
    exact List.find?_eq_none.1 hfind e he (decide_eq_true hk)
  | some e =>
    have he := List.mem_of_find?_eq_some hfind
    exact iff_of_true (hsome e he) ⟨e, he, by simpa using List.find?_some hfind⟩

theorem accessor?_eq_ok {getter setter : Option α}
    (h : getter.isSome = true ∨ setter.isSome = true) :
    accessor? getter setter = .ok (.accessor getter setter) := by
  refine if_neg ?_
  rw [Bool.and_eq_true, Option.isNone_iff_eq_none, Option.isNone_iff_eq_none]
  rintro ⟨rfl, rfl⟩
  rcases h with h | h
  · cases h
  · cases h

/-- The descriptor of members of which no two overlap: a single method's, or that of the getter and
the setter, as far as they are there. -/
theorem ofMembers_of_apart (hf : ∀ e ∈ entries, e.1.isFunction = true) (hne : entries ≠ [])
    (hsome : ∀ e ∈ entries, e.2.isSome = true)
    (h : ¬ ∃ a b, [a, b].Sublist entries ∧ a.1.Overlaps b.1) :
    (∃ e, entries = [e] ∧ e.1.kind = .method ∧ ofMembers entries = .ok (.method e.2)) ∨
      ((∀ e ∈ entries, e.1.kind ≠ .method) ∧
        ofMembers entries = .ok (.accessor ((entries.find? (·.1.kind = .getter)).bind (·.2))
          ((entries.find? (·.1.kind = .setter)).bind (·.2)))) := by
  have hread := ofMembers_of_not_mixed hf h
  by_cases hmethod : ∃ e ∈ entries, e.1.kind = .method
  · -- a method overlaps with every other member, so it is the only one
    obtain ⟨e, he, hk⟩ := hmethod
    obtain ⟨before, after, rfl⟩ := List.append_of_mem he
    obtain rfl : before = [] := by
      refine List.eq_nil_iff_forall_not_mem.2 fun x hx => h ⟨x, e, ?_, .inr (.inl hk)⟩
      exact (List.singleton_sublist.2 hx).append (List.singleton_sublist.2 List.mem_cons_self)
    obtain rfl : after = [] := by
      refine List.eq_nil_iff_forall_not_mem.2 fun x hx => h ⟨e, x, ?_, .inl hk⟩
      exact List.cons_sublist_cons.2 (List.singleton_sublist.2 hx)
    have hkinds : ofKind .method [e] = [e] := List.filter_cons_of_pos (by simpa using hk)
    refine .inl ⟨e, rfl, hk, ?_⟩
    rw [List.nil_append, hkinds] at hread
    exact hread
  · have hnone : ∀ e ∈ entries, e.1.kind ≠ .method := fun e he hk => hmethod ⟨e, he, hk⟩
    have hmethods : ofKind .method entries = [] :=
      List.filter_eq_nil_iff.2 fun e he => by simpa using hnone e he
    refine .inr ⟨hnone, ?_⟩
    rw [hread, hmethods, ← List.head?_filter, ← List.head?_filter]
    -- one of the members is there, and it is a getter or a setter
    have hfound : ((ofKind .getter entries).head?.bind (·.2)).isSome = true ∨
        ((ofKind .setter entries).head?.bind (·.2)).isSome = true := by
      rw [List.head?_filter, List.head?_filter, isSome_find? hsome, isSome_find? hsome]
      obtain ⟨e, he⟩ := List.exists_mem_of_ne_nil _ hne
      rcases Member.kind_of_isFunction (hf e he) with hk | hk | hk
      · exact absurd hk (hnone e he)
      · exact .inl ⟨e, he, hk⟩
      · exact .inr ⟨e, he, hk⟩
    change _ = Except.ok (accessor ((ofKind .getter entries).head?.bind (·.2))
      ((ofKind .setter entries).head?.bind (·.2)))
    rw [← accessor?_eq_ok hfound]
    generalize ofKind .getter entries = gs at hfound ⊢
    generalize ofKind .setter entries = ss at hfound ⊢
    cases gs with
    | cons first rest => rfl
    | nil =>
      cases ss with
      | cons first rest => rfl
      | nil => simp at hfound

end Descriptor

end Undecorate
