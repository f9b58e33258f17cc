import Undecorate.Proofs.Classify.Sharing

/-! # What cannot be classified

Classification refuses two things: a decorated member that may not be decorated, and a decorated
property two members of which conflict. Barred members come first, in source order; then the
properties are looked at in the order of their first members. What is not decorated, and shares no
property with what is, has no say in it.

* `firstIneligible?_append`: the first barred member is reported;
* `groupDecoration_of_clashing`, `groupDecoration_of_peaceful`: when a group is refused;
* `memberDecorations_of_clashing`: the first clashing property is reported;
* `classification_fails_exactly`: the exact condition, with the report and what has no say.
-/

namespace Undecorate

/-! ## What is refused -/

/-- A decorated member that may not be decorated: it is no function, or its name is private. -/
def Member.Barred (m : Member) : Prop :=
  m.isDecorated = true ∧ (m.isFunction = false ∨ m.key.any (·.isPrivate) = true)

instance (m : Member) : Decidable m.Barred := inferInstanceAs (Decidable (_ ∧ (_ ∨ _)))

/-- Two members that cannot both define a decorated property: both are decorated, or only one of
them can define a property at all. -/
def Member.ConflictsWith (m m' : Member) : Prop :=
  (m.isDecorated = true ∧ m'.isDecorated = true) ∨ m.Overlaps m'

/-- The members of a property clash: one of them is decorated, and two of them conflict. -/
def Clashing (property : List Member) : Prop :=
  (∃ m ∈ property, m.isDecorated = true) ∧
    ∃ m m', [m, m'].Sublist property ∧ m.ConflictsWith m'

/-- What is reported about a barred member. -/
def Member.barFault (m : Member) : ClassifyFault :=
  if m.isFunction then .hidden ((m.key.map (·.text)).getD "") m.range
  else .ineligible m.kind m.displayName m.range

/-- What is reported about members that clash: the second decorated one, or else the first of
all. -/
def clashFault (property : List Member) : ClassifyFault :=
  match property.filter (·.isDecorated) with
  | first :: second :: _ => .decoratedTwice first.displayName second.range
  | _ => .group (.mixed (property.head?.bind (·.range)))

/-- The place in the source that a fault points to. -/
def ClassifyFault.location : ClassifyFault → Option SourceRange
  | .ineligible _ _ range | .hidden _ range | .decoratedTwice _ range
  | .group (.mixed range) => range
  | .group .empty | .group .noFunction => none

/-- What clashes among some members clashes among more. -/
theorem Clashing.mono {property property' : List Member} (h : Clashing property)
    (hsub : property.Sublist property') : Clashing property' := by
  obtain ⟨⟨o, ho, hd⟩, m, m', hpair, hconflict⟩ := h
  exact ⟨⟨o, hsub.subset ho, hd⟩, m, m', hpair.trans hsub, hconflict⟩

theorem not_clashing_singleton (m : Member) : ¬ Clashing [m] := by
  rintro ⟨-, x, y, hpair, -⟩
  have hlength := hpair.length_le
  simp at hlength

namespace Classify

variable {isClass : Bool} {binding : String} {members : List Member} {g : Group} {s s' : Scope}

/-! ## Barred members -/

theorem isSome_ineligible? (kind : MemberKind) :
    kind.ineligible?.isSome = !kind.isFunction := by
  cases kind <;> rfl

theorem ineligible?_of_barred {m : Member} (h : m.Barred) : ineligible? m = some m.barFault := by
  unfold ineligible? Member.barFault Member.isFunction
  rw [isSome_ineligible?]
  cases hf : m.kind.isFunction with
  | false => rfl
  | true =>
    obtain ⟨-, hfun | hprivate⟩ := h
    · rw [Member.isFunction, hf] at hfun
      cases hfun
    · obtain ⟨k, hk, hp⟩ := (Option.any_eq_true _ _).1 hprivate
      simp [hk, hp]

theorem ineligible?_of_not_barred {m : Member} (hd : m.isDecorated = true) (h : ¬ m.Barred) :
    ineligible? m = none := by
  have hfun : m.kind.isFunction = true := by
    by_contra hfun
    exact h ⟨hd, .inl (by simpa [Member.isFunction] using hfun)⟩
  unfold ineligible?
  rw [isSome_ineligible?, hfun]
  cases hk : m.key with
  | none => rfl
  | some k =>
    have hp : ¬ k.isPrivate = true := fun hp => h ⟨hd, .inr (by simp [hk, hp])⟩
    simp [hp]

/-- No barred member stops classification. -/
theorem firstIneligible?_eq_none (h : ∀ m ∈ members, ¬ m.Barred) :
    firstIneligible? members = none := by
  unfold firstIneligible?
  rw [List.findSome?_eq_none_iff]
  intro m hm
  obtain ⟨hmem, hd⟩ := List.mem_filter.1 hm
  exact ineligible?_of_not_barred hd (h m hmem)

/-- The first barred member is reported. -/
theorem firstIneligible?_append {before after : List Member} {m : Member}
    (hbefore : ∀ b ∈ before, ¬ b.Barred) (hm : m.Barred) :
    firstIneligible? (before ++ m :: after) = some m.barFault := by
  have hnone := firstIneligible?_eq_none hbefore
  unfold firstIneligible? at hnone ⊢
  rw [List.filter_append, List.findSome?_append, hnone, Option.none_or,
    List.filter_cons_of_pos hm.1, List.findSome?_cons, ineligible?_of_barred hm]

/-! ## Groups -/

theorem pair_sublist_map {α β : Type} {l : List α} {f : α → β} {R : β → β → Prop} :
    (∃ a b, [a, b].Sublist (l.map f) ∧ R a b) ↔
      ∃ a b, [a, b].Sublist l ∧ R (f a) (f b) := by
  constructor
  · rintro ⟨a, b, hsub, hR⟩
    obtain ⟨pair, hpair, heq⟩ := List.sublist_map_iff.1 hsub
    obtain ⟨x, rest, rfl, rfl, hrest⟩ := List.map_eq_cons_iff.1 heq.symm
    obtain ⟨y, rest, rfl, rfl, hnil⟩ := List.map_eq_cons_iff.1 hrest
    obtain rfl := List.map_eq_nil_iff.1 hnil
    exact ⟨x, y, hpair, hR⟩
  · rintro ⟨a, b, hsub, hR⟩
    exact ⟨f a, f b, hsub.map f, hR⟩

/-- The members of a group that are decorated, without their places. -/
theorem filter_isDecorated_map (entries : List (Nat × Member)) :
    (entries.map (·.2)).filter (·.isDecorated) =
      (entries.filter (·.2.isDecorated)).map (·.2) := by
  rw [List.filter_map]
  rfl

theorem isFunction_of_mem_groups (hg : g ∈ groups isClass members) {e : Nat × Member}
    (he : e ∈ g.members) : e.2.isFunction = true :=
  (groupKey?_eq_some ((mem_groups hg).key e he)).1

/-- The members of a group as they are described: each with its place. -/
abbrev described (g : Group) : List (Member × Option Nat) :=
  g.members.map fun (i, m) => (m, some i)

theorem isFunction_of_mem_described (hg : g ∈ groups isClass members) :
    ∀ e ∈ described g, e.1.isFunction = true := by
  intro e he
  obtain ⟨x, hx, rfl⟩ := List.mem_map.1 he
  exact isFunction_of_mem_groups hg hx

/-- The descriptor of a group of which no two members overlap. -/
theorem ofMembers_described (hg : g ∈ groups isClass members)
    (h : ¬ ∃ a b, [a, b].Sublist (described g) ∧ a.1.Overlaps b.1) :
    (∃ e, described g = [e] ∧ e.1.kind = .method ∧
      Descriptor.ofMembers (described g) = .ok (.method e.2)) ∨
      ((∀ e ∈ described g, e.1.kind ≠ .method) ∧ Descriptor.ofMembers (described g) =
        .ok (.accessor (((described g).find? (·.1.kind = .getter)).bind (·.2))
          (((described g).find? (·.1.kind = .setter)).bind (·.2)))) := by
  refine Descriptor.ofMembers_of_apart (isFunction_of_mem_described hg) ?_ ?_ h
  · simpa using (mem_groups hg).nonempty
  · intro e he
    obtain ⟨x, -, rfl⟩ := List.mem_map.1 he
    rfl

/-- A group whose members clash is refused. -/
theorem groupDecoration_of_clashing (hg : g ∈ groups isClass members)
    (h : Clashing (g.members.map (·.2))) (s : Scope) :
    groupDecoration isClass binding g s = .error (clashFault (g.members.map (·.2))) := by
  obtain ⟨⟨o, ho, hd⟩, hpair⟩ := h
  have hdecorated := filter_isDecorated_map g.members
  unfold groupDecoration clashFault
  match hf : g.members.filter (·.2.isDecorated) with
  | [] =>
    rw [hf] at hdecorated
    have hmem := List.mem_filter.2 ⟨ho, hd⟩
    rw [hdecorated] at hmem
    cases hmem
  | (_, first) :: (_, second) :: rest =>
    rw [hdecorated, hf]
    rfl
  | [(place, owner)] =>
    -- only one member is decorated, so the conflict is one of kinds
    have hoverlap : ∃ a b, [a, b].Sublist g.members ∧ a.2.Overlaps b.2 := by
      obtain ⟨m, m', hsub, ⟨hm, hm'⟩ | hover⟩ := hpair
      · have htwo := one_lt_length_filter.2 ⟨m, m', hsub, hm, hm'⟩
        rw [hdecorated, hf] at htwo
        simp at htwo
      · exact pair_sublist_map.1 ⟨m, m', hsub, hover⟩
    have hmixed := Descriptor.ofMembers_of_overlap (isFunction_of_mem_described hg)
      (pair_sublist_map.2 hoverlap)
    have hhead : (described g).head?.bind (·.1.range) =
        (g.members.map (·.2)).head?.bind (·.range) := by
      unfold described
      cases g.members <;> rfl
    rw [hhead] at hmixed
    rw [hdecorated, hf]
    dsimp only
    rw [hmixed]
    rfl

/-- A group whose members do not clash is accepted. -/
theorem groupDecoration_of_peaceful (hg : g ∈ groups isClass members)
    (h : ¬ Clashing (g.members.map (·.2))) (s : Scope) :
    ∃ found s', groupDecoration isClass binding g s = .ok (found, s') := by
  have hdecorated := filter_isDecorated_map g.members
  unfold groupDecoration
  match hf : g.members.filter (·.2.isDecorated) with
  | [] =>
    rw [hf]
    exact ⟨_, _, rfl⟩
  | first :: second :: rest =>
    -- two decorated members clash
    have htwo : 1 < ((g.members.map (·.2)).filter (·.isDecorated)).length := by
      rw [hdecorated, hf]
      simp
    obtain ⟨m, m', hsub, hm, hm'⟩ := one_lt_length_filter.1 htwo
    exact absurd ⟨⟨m, (mem_of_pair_sublist hsub).1, hm⟩, m, m', hsub, .inl ⟨hm, hm'⟩⟩ h
  | [(place, owner)] =>
    have howner : owner ∈ (g.members.map (·.2)).filter (·.isDecorated) := by
      rw [hdecorated, hf]
      simp
    obtain ⟨hmem, hd⟩ := List.mem_filter.1 howner
    -- the owner is decorated, so no two members overlap
    have hapart : ¬ ∃ a b, [a, b].Sublist (described g) ∧ a.1.Overlaps b.1 := by
      intro hover
      obtain ⟨m, m', hsub, hmm'⟩ :=
        pair_sublist_map.2 (pair_sublist_map.1 hover : ∃ a b, [a, b].Sublist g.members ∧ _)
      exact h ⟨⟨owner, hmem, hd⟩, m, m', hsub, .inr hmm'⟩
    have hdescriptor : ∃ d, Descriptor.ofMembers (described g) = .ok d := by
      rcases ofMembers_described hg hapart with ⟨_, -, -, hok⟩ | ⟨-, hok⟩
      · exact ⟨_, hok⟩
      · exact ⟨_, hok⟩
    obtain ⟨d, hok⟩ := hdescriptor
    rw [hf]
    dsimp only
    rw [hok]
    exact ⟨_, _, rfl⟩

/-! ## All groups -/

/-- Groups are decorated one after the other; the first one that is refused is reported. -/
theorem groupDecorations_append {gs gs' : List Group} {f : ClassifyFault}
    (hgs : ∀ x ∈ gs, ∀ s, ∃ found s', groupDecoration isClass binding x s = .ok (found, s'))
    (hg : ∀ s, groupDecoration isClass binding g s = .error f) (s : Scope) :
    groupDecorations isClass binding (gs ++ g :: gs') s = .error f := by
  induction gs generalizing s with
  | nil =>
    rw [List.nil_append, groupDecorations, hg s]
    rfl
  | cons x gs ih =>
    obtain ⟨found, s₁, hx⟩ := hgs x List.mem_cons_self s
    rw [List.cons_append, groupDecorations, hx, ok_bind]
    dsimp only
    rw [ih (fun y hy => hgs y (List.mem_cons_of_mem x hy)) s₁]
    rfl

theorem exists_groupDecorations {gs : List Group}
    (hgs : ∀ x ∈ gs, ∀ s, ∃ found s', groupDecoration isClass binding x s = .ok (found, s'))
    (s : Scope) : ∃ found s', groupDecorations isClass binding gs s = .ok (found, s') := by
  induction gs generalizing s with
  | nil => exact ⟨[], s, rfl⟩
  | cons x gs ih =>
    obtain ⟨found, s₁, hx⟩ := hgs x List.mem_cons_self s
    obtain ⟨rest, s₂, hrest⟩ := ih (fun y hy => hgs y (List.mem_cons_of_mem x hy)) s₁
    rw [groupDecorations, hx, ok_bind]
    dsimp only
    rw [hrest]
    exact ⟨_, _, rfl⟩

/-- The members that define one property with a member, in source order. -/
abbrev sharing (isClass : Bool) (members : List Member) (m : Member) : List Member :=
  members.filter fun m' => m.SharesWith isClass m'

/-- Where nothing is barred and nothing clashes, classification succeeds. -/
theorem exists_memberDecorations (binding : String) (hbarred : ∀ m ∈ members, ¬ m.Barred)
    (hclash : ∀ m ∈ members, ¬ Clashing (sharing isClass members m)) (s : Scope) :
    ∃ ds s', memberDecorations isClass binding members s = .ok (ds, s') := by
  have hgs : ∀ g ∈ groups isClass members, ∀ s, ∃ found s',
      groupDecoration isClass binding g s = .ok (found, s') := by
    intro g hg
    obtain ⟨e, he⟩ := List.exists_mem_of_ne_nil _ (mem_groups hg).nonempty
    refine groupDecoration_of_peaceful hg ?_
    rw [map_snd_members hg he]
    exact hclash e.2 (List.mem_of_getElem? (getElem?_of_mem_groups hg he))
  obtain ⟨found, s', hfound⟩ := exists_groupDecorations hgs s
  exact ⟨_, s',
    memberDecorations_eq_ok_iff.2 ⟨firstIneligible?_eq_none hbarred, found, hfound, rfl⟩⟩

/-- Where nothing is barred, the property that clashes and begins first is reported. -/
theorem memberDecorations_of_clashing {before after : List Member} {m : Member}
    (hmembers : members = before ++ m :: after) (hbarred : ∀ x ∈ members, ¬ x.Barred)
    (hbefore : ∀ b ∈ before, ¬ Clashing (sharing isClass members b))
    (hm : Clashing (sharing isClass members m)) (s : Scope) :
    memberDecorations isClass binding members s =
      .error (clashFault (sharing isClass members m)) := by
  have hplace : members[before.length]? = some m := by simp [hmembers]
  have ⟨⟨o, ho, _⟩, _⟩ := hm
  obtain ⟨key, hkey, -⟩ := sharesWith_iff.1 (of_decide_eq_true (List.mem_filter.1 ho).2)
  obtain ⟨g, hg, -, hentry⟩ := exists_group hplace hkey
  have hproperty : g.members.map (·.2) = sharing isClass members m := map_snd_members hg hentry
  obtain ⟨gs, gs', hgs⟩ := List.append_of_mem hg
  -- a group before this one begins among the members before this member
  have hearlier : ∀ x ∈ gs, ∀ s, ∃ found s',
      groupDecoration isClass binding x s = .ok (found, s') := by
    intro x hx
    have hxg : x ∈ groups isClass members := by
      rw [hgs]
      exact List.mem_append_left _ hx
    have hprecedes : x.Precedes g := by
      have hpairwise := pairwise_precedes isClass members
      rw [hgs] at hpairwise
      exact (List.pairwise_append.1 hpairwise).2.2 x hx g List.mem_cons_self
    obtain ⟨e, rest, hfirst⟩ := List.exists_cons_of_ne_nil (mem_groups hxg).nonempty
    have hlt : e.1 < before.length := hprecedes e (by rw [hfirst]; rfl) _ hentry
    have he : e ∈ x.members := by
      rw [hfirst]
      exact List.mem_cons_self
    have hget := getElem?_of_mem_groups hxg he
    rw [hmembers, List.getElem?_append_left hlt] at hget
    refine groupDecoration_of_peaceful hxg ?_
    rw [map_snd_members hxg he]
    exact hbefore e.2 (List.mem_of_getElem? hget)
  have hclash : Clashing (g.members.map (·.2)) := by
    rw [hproperty]
    exact hm
  unfold memberDecorations
  rw [firstIneligible?_eq_none hbarred, hgs]
  dsimp only
  rw [groupDecorations_append hearlier (groupDecoration_of_clashing hg hclash), hproperty]
  rfl

end Classify

/-! ## Declarations -/

/-- Every function among the members has a key. -/
def Declaration.Keyed (d : Declaration) : Prop :=
  ∀ m ∈ d.members, m.isFunction = true → m.key.isSome = true

instance (d : Declaration) : Decidable d.Keyed := inferInstanceAs (Decidable (∀ m ∈ _, _ → _))

/-- The members that define one property with a member of a declaration, in source order. -/
abbrev Declaration.propertyOf (d : Declaration) (m : Member) : List Member :=
  Classify.sharing d.isClass d.members m

/-- When classification of a declaration fails, and what it reports. -/
structure Declaration.RefusedExactly (d : Declaration)
    (outcome : Except ClassifyFault (List Decoration × Scope)) : Prop where
  /-- It fails iff a member is barred or the members of a property clash. -/
  fails_iff : (∃ f, outcome = .error f) ↔
    (∃ m ∈ d.members, m.Barred) ∨ ∃ m ∈ d.members, Clashing (d.propertyOf m)
  /-- It fails with a classification error at the place that the fault points to. -/
  reported : ∀ f, outcome = .error f →
    ∃ message, f.fault = .refused (.classification message f.location)
  /-- The first barred member is reported, whatever clashes. -/
  barred : ∀ before m after, d.members = before ++ m :: after → (∀ b ∈ before, ¬ b.Barred) →
    m.Barred → outcome = .error m.barFault ∧ m.barFault.location = m.range
  /-- If no member is barred, the clashing property whose first member comes first is reported. -/
  clashing : (∀ m ∈ d.members, ¬ m.Barred) → ∀ before m after, d.members = before ++ m :: after →
    (∀ b ∈ before, ¬ Clashing (d.propertyOf b)) → Clashing (d.propertyOf m) →
    outcome = .error (clashFault (d.propertyOf m))

/-- The first member of a list that satisfies a condition. -/
theorem exists_first {α : Type} {p : α → Prop} {l : List α} (h : ∃ x ∈ l, p x) :
    ∃ before x after, l = before ++ x :: after ∧ (∀ b ∈ before, ¬ p b) ∧ p x := by
  induction l with
  | nil =>
    obtain ⟨x, hx, -⟩ := h
    cases hx
  | cons a l ih =>
    by_cases ha : p a
    · exact ⟨[], a, l, rfl, by simp, ha⟩
    · have hrest : ∃ x ∈ l, p x := by
        obtain ⟨x, hx, hpx⟩ := h
        rcases List.mem_cons.1 hx with rfl | hx
        · exact absurd hpx ha
        · exact ⟨x, hx, hpx⟩
      obtain ⟨before, x, after, rfl, hbefore, hx⟩ := ih hrest
      refine ⟨a :: before, x, after, rfl, ?_, hx⟩
      intro b hb
      rcases List.mem_cons.1 hb with rfl | hb
      · exact ha
      · exact hbefore b hb

theorem Member.reported_barFault (m : Member) :
    (∃ message, m.barFault.fault = .refused (.classification message m.barFault.location)) ∧
      m.barFault.location = m.range := by
  unfold Member.barFault
  split <;> exact ⟨⟨_, rfl⟩, rfl⟩

theorem reported_clashFault (property : List Member) :
    ∃ message, (clashFault property).fault =
      .refused (.classification message (clashFault property).location) := by
  unfold clashFault
  split <;> exact ⟨_, rfl⟩

/-- What fails as the classification of the members does is refused exactly. -/
theorem Declaration.refusedExactly {d : Declaration} {binding : String} {s : Scope}
    {outcome : Except ClassifyFault (List Decoration × Scope)}
    (h : ∀ f, outcome = .error f ↔
      Classify.memberDecorations d.isClass binding d.members s = .error f) :
    d.RefusedExactly outcome := by
  have hbarred : ∀ before m after, d.members = before ++ m :: after →
      (∀ b ∈ before, ¬ b.Barred) → m.Barred → outcome = .error m.barFault := by
    intro before m after hmembers hbefore hm
    rw [h]
    unfold Classify.memberDecorations
    rw [hmembers, Classify.firstIneligible?_append hbefore hm]
  have hclashing : (∀ m ∈ d.members, ¬ m.Barred) → ∀ before m after,
      d.members = before ++ m :: after → (∀ b ∈ before, ¬ Clashing (d.propertyOf b)) →
      Clashing (d.propertyOf m) → outcome = .error (clashFault (d.propertyOf m)) := by
    intro hnone before m after hmembers hbefore hm
    rw [h]
    exact Classify.memberDecorations_of_clashing hmembers hnone hbefore hm s
  -- one of three things happens: a first barred member, a first clash, or success
  have hcases : (∃ m ∈ d.members, m.Barred ∧ outcome = .error m.barFault) ∨
      (∃ m ∈ d.members, Clashing (d.propertyOf m) ∧
        outcome = .error (clashFault (d.propertyOf m))) ∨
      ((∀ m ∈ d.members, ¬ m.Barred) ∧ (∀ m ∈ d.members, ¬ Clashing (d.propertyOf m)) ∧
        ∀ f, outcome ≠ .error f) := by
    by_cases hb : ∃ m ∈ d.members, m.Barred
    · obtain ⟨before, m, after, hmembers, hbefore, hm⟩ := exists_first hb
      exact .inl ⟨m, by rw [hmembers]; simp, hm, hbarred before m after hmembers hbefore hm⟩
    · have hnone : ∀ m ∈ d.members, ¬ m.Barred := fun m hm hbar => hb ⟨m, hm, hbar⟩
      by_cases hc : ∃ m ∈ d.members, Clashing (d.propertyOf m)
      · obtain ⟨before, m, after, hmembers, hbefore, hm⟩ := exists_first hc
        exact .inr (.inl ⟨m, by rw [hmembers]; simp, hm,
          hclashing hnone before m after hmembers hbefore hm⟩)
      · have hpeace : ∀ m ∈ d.members, ¬ Clashing (d.propertyOf m) :=
          fun m hm hclash => hc ⟨m, hm, hclash⟩
        obtain ⟨ds, s', hok⟩ := Classify.exists_memberDecorations binding hnone hpeace s
        refine .inr (.inr ⟨hnone, hpeace, ?_⟩)
        intro f hf
        rw [h, hok] at hf
        cases hf
  refine ⟨?_, ?_, ?_, hclashing⟩
  · constructor
    · rintro ⟨f, hf⟩
      rcases hcases with ⟨m, hm, hbar, -⟩ | ⟨m, hm, hclash, -⟩ | ⟨-, -, hok⟩
      · exact .inl ⟨m, hm, hbar⟩
      · exact .inr ⟨m, hm, hclash⟩
      · exact absurd hf (hok f)
    · intro hfault
      rcases hcases with ⟨m, -, -, hf⟩ | ⟨m, -, -, hf⟩ | ⟨hnone, hpeace, -⟩
      · exact ⟨_, hf⟩
      · exact ⟨_, hf⟩
      · rcases hfault with ⟨m, hm, hbar⟩ | ⟨m, hm, hclash⟩
        · exact absurd hbar (hnone m hm)
        · exact absurd hclash (hpeace m hm)
  · intro f hf
    rcases hcases with ⟨m, -, -, hf'⟩ | ⟨m, -, -, hf'⟩ | ⟨-, -, hok⟩
    · obtain rfl := Except.error.inj (hf.symm.trans hf')
      exact m.reported_barFault.1
    · obtain rfl := Except.error.inj (hf.symm.trans hf')
      exact reported_clashFault _
    · exact absurd hf (hok f)
  · intro before m after hmembers hbefore hm
    exact ⟨hbarred before m after hmembers hbefore hm, m.reported_barFault.2⟩

theorem Declaration.decorations_refusedExactly (d : Declaration) (s : Scope) :
    d.RefusedExactly (d.decorations s) := by
  cases d with
  | cls c =>
    rcases hbinding : c.binding s with ⟨binding, s₁⟩
    have hmembers : ∀ f, c.decorations s = .error f ↔
        Classify.memberDecorations true binding c.members s₁ = .error f := by
      intro f
      unfold ClassDecl.decorations
      rw [hbinding]
      dsimp only
      cases Classify.memberDecorations true binding c.members s₁ with
      | error e => exact Iff.rfl
      | ok found => exact ⟨nofun, nofun⟩
    exact Declaration.refusedExactly hmembers
  | object o => exact Declaration.refusedExactly fun _ => Iff.rfl

theorem ObjectLiteral.decorations_refusedExactly (o : ObjectLiteral) (binding : String)
    (s : Scope) : (Declaration.object o).RefusedExactly (o.decorations binding s) :=
  Declaration.refusedExactly fun _ => Iff.rfl

/-! ## Members that have no say -/

/-- An undecorated member that has no say in classification: its name is private, or no member of
its property is decorated. -/
def Declaration.Idle (d : Declaration) (m : Member) : Prop :=
  m.isDecorated = false ∧ (m.key.any (fun k => k.isPrivate && !k.isComputed) = true ∨
    ∀ o ∈ d.propertyOf m, o.isDecorated = false)

/-- One declaration is another one without some of its idle members. -/
def Declaration.Trims (d d' : Declaration) : Prop :=
  d'.isClass = d.isClass ∧ ∃ keep : Member → Bool, d'.members = d.members.filter keep ∧
    ∀ m ∈ d.members, keep m = false → d.Idle m

theorem Key.isPrivate_of_identity {k k' : Key} (h : k.identity = k'.identity)
    (hk : (k.isPrivate && !k.isComputed) = true) : k'.isPrivate = true := by
  rw [Bool.and_eq_true, Bool.not_eq_true'] at hk
  have hhidden : k.identity = .hidden k.text := by simp [Key.identity, hk.1, hk.2]
  rw [hhidden] at h
  unfold Key.identity at h
  split at h
  · cases h
  · split at h
    · assumption
    · cases h

namespace Declaration

variable {d d' : Declaration} {m o : Member}

/-- Members of one property have the same property. -/
theorem propertyOf_congr (h : m.SharesWith d.isClass o) : d.propertyOf o = d.propertyOf m := by
  obtain ⟨key, hm, ho⟩ := Classify.sharesWith_iff.1 h
  refine List.filter_congr fun x _ => ?_
  rw [decide_eq_decide, Classify.sharesWith_iff, Classify.sharesWith_iff, hm, ho]

/-- An idle member shares no property with a decorated one that is not barred. -/
theorem Idle.not_isDecorated (h : d.Idle m) (ho : o ∈ d.propertyOf m) (hbar : ¬ o.Barred) :
    o.isDecorated = false := by
  obtain ⟨-, hprivate | hnone⟩ := h
  · -- the other name is private as well
    obtain ⟨hfun, hfun', -, -, hidentity⟩ := of_decide_eq_true (List.mem_filter.1 ho).2
    obtain ⟨k, hk, hkp⟩ := (Option.any_eq_true _ _).1 hprivate
    rw [hk, Option.map_some, eq_comm, Option.map_eq_some_iff] at hidentity
    obtain ⟨k', hk', hidentity⟩ := hidentity
    by_contra hd
    refine hbar ⟨by simpa using hd, .inr ?_⟩
    rw [hk', Option.any_some]
    exact Key.isPrivate_of_identity hidentity.symm hkp
  · exact hnone o ho

/-- Idle members make no difference. -/
theorem Trims.refused_iff (h : d.Trims d') :
    ((∃ m ∈ d.members, m.Barred) ∨ ∃ m ∈ d.members, Clashing (d.propertyOf m)) ↔
      ((∃ m ∈ d'.members, m.Barred) ∨ ∃ m ∈ d'.members, Clashing (d'.propertyOf m)) := by
  obtain ⟨hclass, keep, hmembers, hidle⟩ := h
  have hproperty : ∀ m, d'.propertyOf m = (d.propertyOf m).filter keep := by
    intro m
    unfold propertyOf Classify.sharing
    rw [hclass, hmembers, List.filter_filter, List.filter_filter]
    exact List.filter_congr fun x _ => Bool.and_comm _ _
  have hkept : ∀ m ∈ d.members, m.isDecorated = true → keep m = true := by
    intro m hm hd
    by_contra hkeep
    have hnot := (hidle m hm (by simpa using hkeep)).1
    rw [hd] at hnot
    cases hnot
  constructor
  · intro hfault
    by_cases hbar : ∃ m ∈ d.members, m.Barred
    · obtain ⟨m, hm, hb⟩ := hbar
      refine .inl ⟨m, ?_, hb⟩
      rw [hmembers]
      exact List.mem_filter.2 ⟨hm, hkept m hm hb.1⟩
    · obtain ⟨m, hm, hclash⟩ := hfault.resolve_left hbar
      -- all members of the clashing property are kept, since one of them is decorated
      have ⟨⟨o, ho, hd⟩, _⟩ := hclash
      obtain ⟨homem, hshares⟩ := List.mem_filter.1 ho
      have hall : ∀ x ∈ d.propertyOf m, keep x = true := by
        intro x hx
        obtain ⟨hxmem, hxshares⟩ := List.mem_filter.1 hx
        by_contra hkeep
        have hxidle := hidle x hxmem (by simpa using hkeep)
        rw [← propertyOf_congr (of_decide_eq_true hxshares)] at ho
        have hnot := hxidle.not_isDecorated ho fun hb => hbar ⟨o, homem, hb⟩
        rw [hd] at hnot
        cases hnot
      have hsame : d'.propertyOf o = d.propertyOf m := by
        rw [hproperty, propertyOf_congr (of_decide_eq_true hshares)]
        exact List.filter_eq_self.2 hall
      refine .inr ⟨o, ?_, by rwa [hsame]⟩
      rw [hmembers]
      exact List.mem_filter.2 ⟨homem, hall o ho⟩
  · have hsub : ∀ m ∈ d'.members, m ∈ d.members := by
      intro m hm
      rw [hmembers] at hm
      exact (List.mem_filter.1 hm).1
    rintro (⟨m, hm, hb⟩ | ⟨m, hm, hclash⟩)
    · exact .inl ⟨m, hsub m hm, hb⟩
    · refine .inr ⟨m, hsub m hm, hclash.mono ?_⟩
      rw [hproperty]
      exact List.filter_sublist

end Declaration

/-- Classification fails exactly on barred members and clashing properties, whichever scope is used
and whatever a literal is bound to; it reports the first barred member, or else the clashing
property that begins first; and members that are not decorated and share no property with one that
is, or have a private name, never make it fail. -/
theorem classification_fails_exactly :
    (∀ (d : Declaration) (s : Scope), d.RefusedExactly (d.decorations s)) ∧
    (∀ (o : ObjectLiteral) (binding : String) (s : Scope),
      (Declaration.object o).RefusedExactly (o.decorations binding s)) ∧
    ∀ (d d' : Declaration) (s s' : Scope), d.Trims d' →
      ((∃ f, d.decorations s = .error f) ↔ ∃ f, d'.decorations s' = .error f) := by
  refine ⟨Declaration.decorations_refusedExactly, ObjectLiteral.decorations_refusedExactly, ?_⟩
  intro d d' s s' h
  rw [(d.decorations_refusedExactly s).fails_iff, (d'.decorations_refusedExactly s').fails_iff]
  exact h.refused_iff

/-- A decorated method with the mark of a static one. -/
def markedMethod : Member where
  kind := .method
  key := some { text := "m" }
  isStatic := true
  body := some "\x7b\x7d"
  decorators := [{ text := "d", callee := some "d" }]

/-- A method that is not decorated. -/
def spareMethod : Member where
  kind := .method
  key := some { text := "n" }
  body := some "\x7b\x7d"

/-- A class in which that method stands twice beside a decorated one does not fail, since it does
not fail without them. -/
theorem spare_methods_never_fail :
    (Declaration.cls { members := [spareMethod, markedMethod, spareMethod] }).Trims
      (.cls { members := [markedMethod] }) ∧
    ¬ ∃ f, (Declaration.cls
      { members := [spareMethod, markedMethod, spareMethod] }).decorations {} = .error f := by
  have htrims : (Declaration.cls { members := [spareMethod, markedMethod, spareMethod] }).Trims
      (.cls { members := [markedMethod] }) := by
    have hidle : ∀ m ∈ [spareMethod, markedMethod, spareMethod], m.isDecorated = false →
        ∀ o ∈ Classify.sharing true [spareMethod, markedMethod, spareMethod] m,
          o.isDecorated = false := by decide
    exact ⟨rfl, fun m => m.isDecorated, by decide, fun m hm hd => ⟨hd, .inr (hidle m hm hd)⟩⟩
  refine ⟨htrims, ?_⟩
  rw [classification_fails_exactly.2.2 _ _ {} {} htrims,
    (classification_fails_exactly.1 _ _).fails_iff]
  have hnone : ∀ m ∈ [markedMethod], ¬ m.Barred := by decide
  have halone : ∀ m ∈ [markedMethod], Classify.sharing true [markedMethod] m = [m] := by decide
  rintro (⟨m, hm, hbarred⟩ | ⟨m, hm, hclash⟩)
  · exact hnone m hm hbarred
  · refine not_clashing_singleton m ?_
    rw [← halone m hm]
    exact hclash

/-- An object literal with that method and another one of its name without the mark. -/
def markedLiteral : ObjectLiteral where
  members := [markedMethod, { markedMethod with isStatic := false, decorators := [] }]

/-- The mark of a static member does not keep members of a literal apart: nothing is barred, and
among members with the same mark nothing clashes, but classification fails. -/
theorem static_mark_in_literal_is_ignored :
    (Declaration.object markedLiteral).Keyed ∧
    (∃ f, (Declaration.object markedLiteral).decorations {} = .error f) ∧
    (∀ m ∈ markedLiteral.members, ¬ m.Barred) ∧
    ∀ m ∈ markedLiteral.members, ¬ Clashing (Classify.sharing true markedLiteral.members m) := by
  refine ⟨by decide, ?_, by decide, ?_⟩
  · rw [(Declaration.decorations_refusedExactly _ _).fails_iff]
    refine .inr ⟨markedMethod, by decide, ⟨markedMethod, by decide, by decide⟩, markedMethod,
      { markedMethod with isStatic := false, decorators := [] }, by decide, .inr (.inl rfl)⟩
  · -- with the mark counted, every member is alone
    have halone : ∀ m ∈ markedLiteral.members,
        Classify.sharing true markedLiteral.members m = [m] := by decide
    intro m hm
    rw [halone m hm]
    exact not_clashing_singleton m

end Undecorate
