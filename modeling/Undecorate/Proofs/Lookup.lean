import Mathlib.Data.List.Nodup
import Mathlib.Data.List.Pairwise

/-! # Lookups

Tables are lists of pairs, and the first pair with a key counts.
-/

namespace Undecorate

variable {α β : Type} {ps : List (α × β)} {a a' : α} {b : β}

/-- A change of what the keys stand for changes no key. -/
theorem lookup_map_snd {γ : Type} [BEq α] (f : β → γ) (ps : List (α × β)) (a : α) :
    (ps.map fun p => (p.1, f p.2)).lookup a = (ps.lookup a).map f := by
  induction ps with
  | nil => rfl
  | cons p ps ih =>
    rw [List.map_cons, List.lookup_cons, List.lookup_cons]
    split
    · rfl
    · exact ih

section

variable [BEq α] [LawfulBEq α]

theorem isSome_lookup_iff_mem : (ps.lookup a).isSome = true ↔ a ∈ ps.map (·.1) := by
  simp [List.lookup_isSome_iff]

theorem mem_of_lookup (h : ps.lookup a = some b) : (a, b) ∈ ps := by
  obtain ⟨before, after, rfl, -⟩ := List.lookup_eq_some_iff.1 h
  simp

/-- Where keys are distinct, a lookup finds every pair. -/
theorem lookup_of_mem (h : (ps.map (·.1)).Nodup) (hmem : (a, b) ∈ ps) : ps.lookup a = some b := by
  induction ps with
  | nil => cases hmem
  | cons p ps ih =>
    rw [List.map_cons, List.nodup_cons] at h
    rcases List.mem_cons.1 hmem with rfl | hmem
    · simp
    · have hne : a ≠ p.1 := by
        rintro rfl
        exact h.1 (List.mem_map.2 ⟨(p.1, b), hmem, rfl⟩)
      rw [List.lookup_cons, beq_eq_false_iff_ne.2 hne]
      exact ih h.2 hmem

theorem lookup_append_singleton [DecidableEq α] : (ps ++ [(a', b)]).lookup a =
    (ps.lookup a).or (if a' = a then some b else none) := by
  rw [List.lookup_append]
  by_cases ha : a' = a
  · simp [ha]
  · simp [List.lookup_cons, ha, beq_eq_false_iff_ne.2 (Ne.symm ha)]

end

/-- Where the parts of a list have no item in common, an item tells the part. -/
theorem eq_of_nodup_flatMap {xs : List α} {f : α → List β} (h : (xs.flatMap f).Nodup)
    (ha : a ∈ xs) (ha' : a' ∈ xs) (hb : b ∈ f a) (hb' : b ∈ f a') : a = a' := by
  by_contra hne
  have hsymm : Std.Symm (Function.onFun List.Disjoint f) := ⟨fun _ _ hd _ hb hb' => hd hb' hb⟩
  exact (List.nodup_flatMap.1 h).2.forall ha ha' hne hb hb'

end Undecorate
