import Undecorate.Proofs.Classify

/-! # The decorations of groups

What a group of members and its decoration look like: the members of a group share a side and the
identity of their keys and stand in source order, and the decoration has their places, the target of
their side, and the key of the decorated one.

* `mem_groups`: what the members of a group have in common;
* `memberDecorations_made`: how the decorations of members are made, group by group.
-/

namespace Undecorate

namespace Classify

variable {isClass : Bool} {binding : String} {s s' : Scope} {members : List Member}

/-! ## Groups -/

/-- A group with members under its key, in source order and all before `bound`. -/
structure Group.Ordered (isClass : Bool) (bound : Nat) (g : Group) : Prop where
  nonempty : g.members ≠ []
  increasing : (g.members.map (·.1)).Pairwise (· < ·)
  before : ∀ e ∈ g.members, e.1 < bound
  key : ∀ e ∈ g.members, groupKey? isClass e.2 = some g.key

theorem Group.Ordered.mono {g : Group} {bound bound' : Nat} (h : g.Ordered isClass bound)
    (hle : bound ≤ bound') : g.Ordered isClass bound' :=
  { h with before := fun e he => Nat.lt_of_lt_of_le (h.before e he) hle }

/-- A member goes to the end of its group, or into a new one. -/
theorem ordered_addTo {key : GroupKey} {i : Nat} {m : Member} {gs : List Group}
    (hm : groupKey? isClass m = some key) (hgs : ∀ g ∈ gs, g.Ordered isClass i) :
    ∀ g ∈ addTo key (i, m) gs, g.Ordered isClass (i + 1) := by
  induction gs with
  | nil =>
    intro g hg
    rw [addTo, List.mem_singleton] at hg
    subst hg
    exact ⟨by simp, by simp, by simp, by simpa using hm⟩
  | cons g gs ih =>
    have hfirst := hgs g List.mem_cons_self
    have hrest := fun x hx => hgs x (List.mem_cons_of_mem g hx)
    unfold addTo
    split
    · rename_i hkey
      intro x hx
      rcases List.mem_cons.1 hx with rfl | hx
      · refine ⟨by simp, ?_, ?_, ?_⟩
        · rw [List.map_append, List.pairwise_append]
          refine ⟨hfirst.increasing, by simp, ?_⟩
          intro a ha b hb
          obtain ⟨e, he, rfl⟩ := List.mem_map.1 ha
          simp only [List.map_cons, List.map_nil, List.mem_singleton] at hb
          rw [hb]
          exact hfirst.before e he
        · intro e he
          rcases List.mem_append.1 he with he | he
          · exact Nat.lt_succ_of_lt (hfirst.before e he)
          · rw [List.mem_singleton.1 he]
            exact Nat.lt_succ_self i
        · intro e he
          rcases List.mem_append.1 he with he | he
          · exact hfirst.key e he
          · rw [List.mem_singleton.1 he, hkey]
            exact hm
      · exact (hrest x hx).mono (Nat.le_succ i)
    · intro x hx
      rcases List.mem_cons.1 hx with rfl | hx
      · exact hfirst.mono (Nat.le_succ i)
      · exact ih hrest x hx

/-- Joining from place `n` on, where the groups that there are already are in order. -/
theorem ordered_foldl (members : List Member) {n : Nat} {gs : List Group}
    (hgs : ∀ g ∈ gs, g.Ordered isClass n) :
    ∀ g ∈ (members.zipIdx n).foldl (join isClass) gs, g.Ordered isClass (n + members.length) := by
  induction members generalizing n gs with
  | nil => exact hgs
  | cons m members ih =>
    rw [List.zipIdx_cons, List.foldl_cons, List.length_cons, Nat.add_comm members.length,
      ← Nat.add_assoc]
    refine ih ?_
    unfold join
    split
    · rename_i key hkey
      exact ordered_addTo hkey hgs
    · exact fun x hx => (hgs x hx).mono (Nat.le_succ n)

/-- The members of a group share a side and the identity of their keys, and stand in source
order. -/
theorem mem_groups {g : Group} (hg : g ∈ groups isClass members) :
    g.Ordered isClass members.length := by
  have hordered : g.Ordered isClass (0 + members.length) :=
    ordered_foldl members (List.forall_mem_nil _) g hg
  rwa [Nat.zero_add] at hordered

/-! ## Decorations -/

/-- How the decoration of a group is made: by its only decorated member, the owner, whose key it
has; it starts from the descriptor of all members. -/
structure Makes (isClass : Bool) (binding : String) (g : Group) (s : Scope) (place : Nat)
    (d : Decoration) (s' : Scope) : Prop where
  owner : ∃ m key initial, g.members.filter (·.2.isDecorated) = [(place, m)] ∧
    propertyKey (m.key.getD default) s = (key, s') ∧ d.decorators = m.decorators ∧
    d.subject = .property key initial (g.members.map (·.1))
  target : d.target = Classify.target isClass binding g
  initial : ∃ initial, d.initial? = some initial ∧
    Descriptor.ofMembers (g.members.map fun (i, m) => (m, some i)) = .ok initial
  range : ∃ m, (place, m) ∈ g.members ∧ d.range = m.range

/-- How the decorations of groups are made, one after the other. -/
inductive MakesAll (isClass : Bool) (binding : String) :
    List Group → Scope → List (Nat × Decoration) → Scope → Prop
  | nil {s : Scope} : MakesAll isClass binding [] s [] s
  | skip {g : Group} {gs : List Group} {s s' : Scope} {found : List (Nat × Decoration)}
      (undecorated : g.members.filter (·.2.isDecorated) = [])
      (rest : MakesAll isClass binding gs s found s') :
      MakesAll isClass binding (g :: gs) s found s'
  | make {g : Group} {gs : List Group} {s s₁ s' : Scope} {place : Nat} {d : Decoration}
      {found : List (Nat × Decoration)} (first : Makes isClass binding g s place d s₁)
      (rest : MakesAll isClass binding gs s₁ found s') :
      MakesAll isClass binding (g :: gs) s ((place, d) :: found) s'

theorem groupDecoration_makes {g : Group} {found : Option (Nat × Decoration)}
    (h : groupDecoration isClass binding g s = .ok (found, s')) :
    (found = none ∧ s' = s ∧ g.members.filter (·.2.isDecorated) = []) ∨
      ∃ place d, found = some (place, d) ∧ Makes isClass binding g s place d s' := by
  unfold groupDecoration at h
  split at h
  · rename_i hnone
    cases h
    exact .inl ⟨rfl, rfl, hnone⟩
  · cases h
  · rename_i place owner hone
    dsimp only at h
    split at h
    · cases h
    · rename_i initial hinitial
      cases h
      have howner : (place, owner) ∈ g.members := by
        have hmem : (place, owner) ∈ g.members.filter (·.2.isDecorated) := by rw [hone]; simp
        exact (List.mem_filter.1 hmem).1
      exact .inr ⟨_, _, rfl, ⟨owner, _, initial, hone, rfl, rfl, rfl⟩, rfl, ⟨initial, rfl, hinitial⟩,
        owner, howner, rfl⟩

theorem groupDecorations_makes {gs : List Group} {found : List (Nat × Decoration)}
    (h : groupDecorations isClass binding gs s = .ok (found, s')) :
    MakesAll isClass binding gs s found s' := by
  induction gs generalizing s found with
  | nil =>
    cases h
    exact .nil
  | cons g gs ih =>
    simp only [groupDecorations, bind_eq_ok, pure_eq_ok] at h
    obtain ⟨⟨head, s₁⟩, hg, ⟨rest, s₂⟩, hgs, heq⟩ := h
    obtain ⟨rfl, rfl⟩ := Prod.mk.inj heq
    rcases groupDecoration_makes hg with ⟨rfl, rfl, hnone⟩ | ⟨place, d, rfl, hmakes⟩
    · exact .skip hnone (ih hgs)
    · exact .make hmakes (ih hgs)

theorem MakesAll.makes {gs : List Group} {found : List (Nat × Decoration)}
    (h : MakesAll isClass binding gs s found s') :
    ∀ p ∈ found, ∃ g ∈ gs, ∃ s₁ s₂, Makes isClass binding g s₁ p.1 p.2 s₂ := by
  induction h with
  | nil => simp
  | skip _ _ ih =>
    intro p hp
    obtain ⟨g, hg, hmakes⟩ := ih p hp
    exact ⟨g, List.mem_cons_of_mem _ hg, hmakes⟩
  | make hfirst _ ih =>
    intro p hp
    rcases List.mem_cons.1 hp with rfl | hp
    · exact ⟨_, List.mem_cons_self, _, _, hfirst⟩
    · obtain ⟨g, hg, hmakes⟩ := ih p hp
      exact ⟨g, List.mem_cons_of_mem _ hg, hmakes⟩

/-- The decorations of members are those of the groups, in the order of the decorated members. -/
theorem memberDecorations_made {ds : List Decoration}
    (h : memberDecorations isClass binding members s = .ok (ds, s')) :
    ∃ found, MakesAll isClass binding (groups isClass members) s found s' ∧
      ds.Perm (found.map (·.2)) := by
  obtain ⟨-, found, hfound, rfl⟩ := memberDecorations_eq_ok_iff.1 h
  exact ⟨found, groupDecorations_makes hfound, (List.mergeSort_perm _ _).map _⟩

/-- Where the groups come in the order of their decorated members, nothing is sorted. -/
theorem memberDecorations_of_pairwise {found : List (Nat × Decoration)}
    (hfirst : firstIneligible? members = none)
    (hfound : groupDecorations isClass binding (groups isClass members) s = .ok (found, s'))
    (hsorted : found.Pairwise fun p q => p.1 ≤ q.1) :
    memberDecorations isClass binding members s = .ok (found.map (·.2), s') := by
  have hsort : (found.mergeSort fun p q => p.1 ≤ q.1) = found :=
    List.mergeSort_of_pairwise (hsorted.imp decide_eq_true)
  exact memberDecorations_eq_ok_iff.2 ⟨hfirst, found, hfound, by rw [hsort]⟩

end Classify

/-- The decorations of a class are those of its members, then its own. -/
theorem ClassDecl.decorations_of_members {c : ClassDecl} {s s₁ s' : Scope} {binding : String}
    {found : List Decoration} (hbinding : c.binding s = (binding, s₁))
    (hfound : Classify.memberDecorations true binding c.members s₁ = .ok (found, s')) :
    c.decorations s = .ok (found ++ if c.decorators.isEmpty then []
      else [{ target := ⟨.cls, binding⟩, decorators := c.decorators, subject := .whole,
              range := c.range }], s') := by
  unfold ClassDecl.decorations
  rw [hbinding]
  dsimp only
  rw [hfound]
  rfl

end Undecorate
