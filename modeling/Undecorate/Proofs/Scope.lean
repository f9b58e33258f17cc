import Undecorate.Scope

/-! # Names that a scope hands out

A scope finds a name that is not taken, because there are more candidates than taken names. Every
scope that is reached by its own operations remembers which names it has handed out for good.

* `unique_not_mem`: a new name is not taken;
* `Reached.sound`: in a reached scope the reserved names are taken and distinct, and each one was
  made from its base.
-/

namespace Undecorate.Scope

variable {lead base name : String} {taken : List String} {s : Scope}

/-! ## Candidates -/

theorem toString_injective {m n : Nat} (h : toString m = toString n) : m = n := by
  have hdigits : Nat.toDigits 10 m = Nat.toDigits 10 n := by
    rw [← Nat.toList_repr, ← Nat.toList_repr]
    exact congrArg String.toList h
  calc m = Nat.ofDigitChars 10 (Nat.toDigits 10 m) 0 :=
        (Nat.ofDigitChars_toDigits (by decide) (by decide)).symm
    _ = Nat.ofDigitChars 10 (Nat.toDigits 10 n) 0 := by rw [hdigits]
    _ = n := Nat.ofDigitChars_toDigits (by decide) (by decide)

theorem candidate_injective {m n : Nat}
    (h : candidate lead base m = candidate lead base n) : m = n := by
  have hnonempty : ∀ k : Nat, lead ++ base ≠ lead ++ base ++ toString k := by
    intro k hk
    have hempty : "" = toString k := by
      rw [← String.append_right_inj (lead ++ base), String.append_empty]
      exact hk
    exact Nat.repr_ne_empty hempty.symm
  unfold candidate at h
  -- the first candidate has no number; the others differ by theirs
  by_cases hm : m = 0
  · by_cases hn : n = 0
    · rw [hm, hn]
    · rw [if_pos hm, if_neg hn] at h
      exact absurd h (hnonempty (n + 1))
  · by_cases hn : n = 0
    · rw [if_neg hm, if_pos hn] at h
      exact absurd h.symm (hnonempty (m + 1))
    · rw [if_neg hm, if_neg hn, String.append_right_inj] at h
      exact Nat.succ.inj (toString_injective h)

/-- The search stops at the first candidate that is not taken, or when it has no fuel left. -/
theorem firstFree_spec (lead base : String) (taken : List String) (fuel n : Nat) :
    ∃ m, firstFree lead base taken fuel n = candidate lead base m ∧ n ≤ m ∧ m ≤ n + fuel ∧
      (∀ k, n ≤ k → k < m → candidate lead base k ∈ taken) ∧
      (m < n + fuel → candidate lead base m ∉ taken) := by
  -- induction on the fuel: every candidate that is passed over costs one
  induction fuel generalizing n with
  | zero =>
    refine ⟨n, rfl, Nat.le_refl n, Nat.le_refl n, ?_, ?_⟩
    · intro k hnk hkn
      omega
    · intro h
      omega
  | succ fuel ih =>
    unfold firstFree
    by_cases hc : taken.contains (candidate lead base n) = true
    · rw [if_pos hc]
      rcases ih (n + 1) with ⟨m, hm, hnm, hmf, hall, hfree⟩
      refine ⟨m, hm, by omega, by omega, ?_, ?_⟩
      · intro k hnk hkm
        by_cases hk : k = n
        · rw [hk]
          simpa using hc
        · exact hall k (by omega) hkm
      · intro h
        exact hfree (by omega)
    · rw [if_neg hc]
      refine ⟨n, rfl, Nat.le_refl n, by omega, ?_, ?_⟩
      · intro k hnk hkn
        omega
      · intro _
        simpa using hc

/-- There are more candidates than taken names, so one of them is free. -/
theorem firstFree_not_mem (lead base : String) (taken : List String) :
    firstFree lead base taken taken.length 0 ∉ taken := by
  rcases firstFree_spec lead base taken taken.length 0 with ⟨m, hm, -, hle, hall, hfree⟩
  rw [hm]
  intro hmem
  have hlength : m = taken.length := by
    rcases Nat.lt_or_ge m taken.length with hlt | hge
    · exact absurd hmem (hfree (by omega))
    · omega
  -- all candidates up to the last one would be taken names
  have hsubset : (List.range (m + 1)).map (candidate lead base) ⊆ taken := by
    intro x hx
    rcases List.mem_map.1 hx with ⟨k, hk, rfl⟩
    rw [List.mem_range] at hk
    by_cases hkm : k = m
    · rw [hkm]
      exact hmem
    · exact hall k (Nat.zero_le k) (by omega)
  have hnodup : ((List.range (m + 1)).map (candidate lead base)).Nodup := by
    refine List.pairwise_map.2 (List.nodup_range.imp ?_)
    intro a b hab h
    exact hab (candidate_injective h)
  have hcount := hnodup.length_le_of_subset hsubset
  simp at hcount
  omega

/-! ## One operation -/

@[simp] theorem lead_take : (s.take name).lead = s.lead := by
  unfold take
  split <;> rfl

@[simp] theorem reserved_take : (s.take name).reserved = s.reserved := by
  unfold take
  split <;> rfl

@[simp] theorem mem_taken_take {x : String} :
    x ∈ (s.take name).taken ↔ x ∈ s.taken ∨ x = name := by
  unfold take
  split
  · rename_i hc
    have hname : name ∈ s.taken := by simpa using hc
    constructor
    · intro h
      exact .inl h
    · rintro (h | rfl)
      · exact h
      · exact hname
  · simp

@[simp] theorem lead_declare : (s.declare name).lead = s.lead := by
  unfold declare
  split <;> simp

@[simp] theorem reserved_declare : (s.declare name).reserved = s.reserved := by
  unfold declare
  split <;> simp

@[simp] theorem mem_taken_declare {x : String} :
    x ∈ (s.declare name).taken ↔ x ∈ s.taken ∨ x = name := by
  unfold declare
  split <;> simp

/-- A new name is not taken. -/
theorem unique_not_mem (s : Scope) (base : String) : (s.unique base).1 ∉ s.taken :=
  firstFree_not_mem s.lead base s.taken

/-- A new name is made from its base. -/
theorem unique_eq_candidate (s : Scope) (base : String) :
    ∃ n, (s.unique base).1 = candidate s.lead base n := by
  rcases firstFree_spec s.lead base s.taken s.taken.length 0 with ⟨m, hm, -⟩
  exact ⟨m, hm⟩

theorem unique_snd (s : Scope) (base : String) :
    (s.unique base).2 = s.take (s.unique base).1 := rfl

theorem fresh_fst (s : Scope) (base : String) : (s.fresh base).1 = (s.unique base).1 := rfl

@[simp] theorem lead_fresh : (s.fresh base).2.lead = s.lead := by
  simp [fresh, unique_snd]

@[simp] theorem reserved_fresh : (s.fresh base).2.reserved = s.reserved := by
  simp [fresh, unique_snd]

@[simp] theorem mem_taken_fresh {x : String} :
    x ∈ (s.fresh base).2.taken ↔ x ∈ s.taken ∨ x = (s.fresh base).1 := by
  simp [fresh, unique_snd]

/-- A base is reserved once: either its name was known, or it is new. -/
theorem reserve_cases (s : Scope) (base : String) :
    (s.reserved.lookup base = some (s.reserve base).1 ∧ (s.reserve base).2 = s) ∨
      (s.reserved.lookup base = none ∧ (s.reserve base).1 = (s.unique base).1 ∧
        (s.reserve base).2 = { (s.unique base).2 with
          reserved := s.reserved ++ [(base, (s.unique base).1)] }) := by
  unfold reserve
  cases h : s.reserved.lookup base with
  | some name => exact .inl ⟨rfl, rfl⟩
  | none =>
    refine .inr ⟨rfl, rfl, ?_⟩
    simp [unique_snd]

theorem shared_fst (s : Scope) (base : String) : (s.shared base).1 = (s.reserve base).1 := rfl

theorem shared_snd (s : Scope) (base : String) :
    (s.shared base).2 = (s.reserve base).2.declare (s.reserve base).1 := rfl

/-! ## Reached scopes -/

/-- The scopes that are reached from one that avoids some names. -/
inductive Reached : Scope → Prop
  | avoiding (lead : String) (names : List String) : Reached (Scope.avoiding lead names)
  | fresh {s : Scope} (base : String) : Reached s → Reached (s.fresh base).2
  | reserve {s : Scope} (base : String) : Reached s → Reached (s.reserve base).2
  | shared {s : Scope} (base : String) : Reached s → Reached (s.shared base).2
  | declare {s : Scope} (name : String) : Reached s → Reached (s.declare name)

/-- What a scope knows about the names that it has reserved. -/
structure Sound (s : Scope) : Prop where
  taken : ∀ p ∈ s.reserved, p.2 ∈ s.taken
  named : ∀ p ∈ s.reserved, ∃ n, p.2 = candidate s.lead p.1 n
  distinct : (s.reserved.map (·.2)).Nodup

theorem Sound.take (h : s.Sound) (name : String) : (s.take name).Sound where
  taken := by
    intro p hp
    rw [reserved_take] at hp
    exact mem_taken_take.2 (.inl (h.taken p hp))
  named := by
    intro p hp
    rw [reserved_take] at hp
    rw [lead_take]
    exact h.named p hp
  distinct := by
    rw [reserved_take]
    exact h.distinct

theorem Sound.declare (h : s.Sound) (name : String) : (s.declare name).Sound where
  taken := by
    intro p hp
    rw [reserved_declare] at hp
    exact mem_taken_declare.2 (.inl (h.taken p hp))
  named := by
    intro p hp
    rw [reserved_declare] at hp
    rw [lead_declare]
    exact h.named p hp
  distinct := by
    rw [reserved_declare]
    exact h.distinct

theorem Sound.fresh (h : s.Sound) (base : String) : (s.fresh base).2.Sound :=
  (h.take (s.unique base).1).declare (s.unique base).1

theorem Sound.reserve (h : s.Sound) (base : String) : (s.reserve base).2.Sound := by
  rcases reserve_cases s base with ⟨-, hs⟩ | ⟨-, -, hs⟩
  · rw [hs]
    exact h
  · rw [hs]
    -- a new name is not taken, and all reserved names are
    have hnew : ∀ p ∈ s.reserved, p.2 ≠ (s.unique base).1 := by
      intro p hp heq
      exact unique_not_mem s base (heq ▸ h.taken p hp)
    refine ⟨?_, ?_, ?_⟩
    · intro p hp
      rw [unique_snd, mem_taken_take]
      rcases List.mem_append.1 hp with hp | hp
      · exact .inl (h.taken p hp)
      · exact .inr (by rw [List.mem_singleton.1 hp])
    · intro p hp
      rw [unique_snd, lead_take]
      rcases List.mem_append.1 hp with hp | hp
      · exact h.named p hp
      · rw [List.mem_singleton.1 hp]
        exact unique_eq_candidate s base
    · rw [List.map_append, List.nodup_append]
      refine ⟨h.distinct, by simp, ?_⟩
      intro x hx y hy hxy
      rcases List.mem_map.1 hx with ⟨p, hp, rfl⟩
      simp only [List.map_cons, List.map_nil, List.mem_singleton] at hy
      exact hnew p hp (hxy.trans hy)

/-- Every reached scope is sound. -/
theorem Reached.sound (h : s.Reached) : s.Sound := by
  induction h with
  | avoiding lead names =>
    unfold Scope.avoiding
    suffices hgoal : ∀ s : Scope, s.Sound → (names.foldl Scope.take s).Sound by
      exact hgoal _ ⟨by simp, by simp, by simp⟩
    induction names with
    | nil => exact fun s hs => hs
    | cons name names ih => exact fun s hs => ih _ (hs.take name)
  | fresh base _ ih => exact ih.fresh base
  | reserve base _ ih => exact ih.reserve base
  | shared base _ ih => exact (ih.reserve base).declare _
  | declare name _ ih => exact ih.declare name

end Undecorate.Scope
