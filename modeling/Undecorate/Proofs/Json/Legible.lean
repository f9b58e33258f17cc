import Undecorate.Proofs.Except
import Undecorate.Proofs.Json.Literal

/-! # Which literals are read

A literal is read iff it is made of characters that stand for themselves, of escapes by a letter and
of escapes by a number. So the reader takes no text for a literal in which a double quote stands on
its own: that quote would end the literal, and what is behind it would be left over.

* `Legible`: the texts that can stand between double quotes;
* `decodeBody_isOk_iff`: they are the ones that the reader takes.
-/

namespace Undecorate.Json

/-- A text that can stand between double quotes. -/
inductive Legible : List Char → Prop
  | nil : Legible []
  | plain {c : Char} {cs : List Char} (hquote : c ≠ '\x22') (hback : c ≠ '\\')
      (hcontrol : 0x20 ≤ c.toNat) (rest : Legible cs) : Legible (c :: cs)
  | letter {l : Char} {cs : List Char} (hletter : (letterEscape? l).isSome) (rest : Legible cs) :
      Legible ('\\' :: l :: cs)
  | unit {p q r s : Char} {cs : List Char} (hunit : (unit? p q r s).isSome) (rest : Legible cs) :
      Legible ('\\' :: 'u' :: p :: q :: r :: s :: cs)

variable {start here high : Nat} {done : List Letter} {c : Char} {cs rest tail : List Char}

/-! ## What begins a legible text -/

theorem Legible.of_plain (h : Legible (c :: cs)) (hback : c ≠ '\\') :
    c ≠ '\x22' ∧ 0x20 ≤ c.toNat ∧ Legible cs := by
  cases h with
  | plain hquote _ hcontrol rest => exact ⟨hquote, hcontrol, rest⟩
  | _ => exact absurd rfl hback

theorem Legible.of_letter (h : Legible ('\\' :: c :: cs)) (hc : c ≠ 'u') :
    (letterEscape? c).isSome ∧ Legible cs := by
  cases h with
  | plain _ hback => exact absurd rfl hback
  | letter hletter rest => exact ⟨hletter, rest⟩
  | unit => exact absurd rfl hc

theorem Legible.of_unit (h : Legible ('\\' :: 'u' :: cs)) :
    ∃ p q r s rest, cs = p :: q :: r :: s :: rest ∧ (unit? p q r s).isSome ∧ Legible rest := by
  cases h with
  | plain _ hback => exact absurd rfl hback
  | letter hletter => cases hletter
  | unit hunit rest => exact ⟨_, _, _, _, _, rfl, hunit, rest⟩

theorem not_legible_back : ¬ Legible ['\\'] := by
  intro h
  cases h with
  | plain _ hback => exact hback rfl

/-! ## What is legible is read -/

/-- Behind a unit, what is legible is not broken off, and it is a second half only as a unit. -/
theorem Legible.following (h : Legible cs) (high : Nat) (rest : List Char) :
    following high (cs ++ '\x22' :: rest) = .other ∨
      ∃ p q r s low cs', cs = '\\' :: 'u' :: p :: q :: r :: s :: cs' ∧ Legible cs' ∧
        Json.following high (cs ++ '\x22' :: rest) = .half low := by
  cases h with
  | nil => exact .inl rfl
  | plain hquote hback hcontrol hrest =>
    refine .inl ?_
    unfold Json.following
    split
    · rename_i heq
      exact absurd (List.cons.inj heq).1 hback
    · rfl
  | @letter l cs hletter hrest =>
    refine .inl ?_
    unfold Json.following
    split
    · rename_i heq
      obtain rfl : l = 'u' := (List.cons.inj (List.cons.inj heq).2).1
      cases hletter
    · rfl
  | @unit p q r s cs hunit hrest =>
    obtain ⟨n, hn⟩ := Option.isSome_iff_exists.1 hunit
    obtain ⟨x, xs, hxs⟩ := List.exists_cons_of_ne_nil (l := cs ++ '\x22' :: rest) (by simp)
    have hfollowing : Json.following high ('\\' :: 'u' :: p :: q :: r :: s :: (cs ++ '\x22' :: rest)) =
        if isHighHalf high then (if isLowHalf n then .half n else .other) else .other := by
      rw [hxs, Json.following, hn]
    by_cases hhalf : isHighHalf high = true ∧ isLowHalf n = true
    · refine .inr ⟨p, q, r, s, n, cs, rfl, hrest, ?_⟩
      exact hfollowing.trans (by rw [if_pos hhalf.1, if_pos hhalf.2])
    · refine .inl (hfollowing.trans ?_)
      split_ifs with hopens hcloses
      · exact absurd ⟨hopens, hcloses⟩ hhalf
      · rfl
      · rfl

/-- The reader goes through what is legible, up to the quote behind it. -/
theorem Legible.scanString (h : Legible cs) (start here : Nat) (done : List Letter)
    (rest : List Char) : ∃ t place,
      scanString start done here (cs ++ '\x22' :: rest) = .ok ⟨t, place, rest⟩ := by
  induction hn : cs.length using Nat.strongRecOn generalizing cs here done with
  | ind n ih =>
    subst hn
    cases h with
    | nil =>
      refine ⟨⟨done.reverse⟩, here + 1, ?_⟩
      rw [List.nil_append, Json.scanString, if_pos rfl]
      all_goals simp
    | @plain c cs hquote hback hcontrol hrest =>
      rw [List.cons_append, scanString_cons start here done _ hquote hback hcontrol]
      exact ih _ (Nat.lt_succ_self _) hrest _ _ rfl
    | @letter l cs hletter hrest =>
      obtain ⟨e, he⟩ := Option.isSome_iff_exists.1 hletter
      have htail : cs ++ '\x22' :: rest ≠ [] := by simp
      have hread := (Spells.letter he).scanString start here done htail
      rw [List.cons_append, List.cons_append]
      simp only [List.cons_append, List.nil_append] at hread
      rw [hread]
      exact ih cs.length (by simp only [List.length_cons]; omega) hrest _ _ rfl
    | @unit p q r s cs hunit hrest =>
      obtain ⟨high, hhigh⟩ := Option.isSome_iff_exists.1 hunit
      rcases hrest.following high rest with hother | ⟨p', q', r', s', low, cs', rfl, hrest', hhalf⟩
      · simp only [List.cons_append]
        rw [scanString_unit start here done hhigh (by simp) hother]
        exact ih cs.length (by simp only [List.length_cons]; omega) hrest _ _ rfl
      · -- the second half goes with the first one
        simp only [List.cons_append] at hhalf ⊢
        rw [Json.scanString, hhigh]
        simp only [List.isEmpty_cons]
        rw [hhalf]
        exact ih cs'.length (by simp only [List.length_cons]; omega) hrest' _ _ rfl

/-! ## What is read is legible -/

theorem exists_unit_of_following {low : Nat} (h : following high tail = .half low) :
    ∃ p q r s x rest, tail = '\\' :: 'u' :: p :: q :: r :: s :: x :: rest ∧
      (unit? p q r s).isSome := by
  unfold following at h
  split at h
  · rename_i p q r s x rest
    refine ⟨p, q, r, s, x, rest, rfl, ?_⟩
    cases hunit : unit? p q r s with
    | none =>
      rw [hunit] at h
      split at h <;> cases h
    | some n => rfl
  · cases h

/-- What the reader has gone through is legible, and a quote stands behind it. -/
theorem legible_of_scanString {s : Scanned} (h : scanString start done here cs = .ok s) :
    ∃ body, cs = body ++ '\x22' :: s.rest ∧ Legible body := by
  fun_induction scanString start done here cs with
  -- two halves that make one character
  | case3 done here p q r s high hunit low x₁ x₂ x₃ x₄ x₅ x₆ rest _ hfollowing ih =>
    rw [hfollowing] at h
    obtain ⟨body, rfl, hbody⟩ := ih h
    obtain ⟨p', q', r', s', x, rest', heq, hunit'⟩ := exists_unit_of_following hfollowing
    simp only [List.cons.injEq] at heq
    obtain ⟨rfl, rfl, rfl, rfl, rfl, rfl, -⟩ := heq
    exact ⟨_, rfl, .unit (by rw [hunit]; rfl) (.unit hunit' hbody)⟩
  -- an escape by a number that stands alone
  | case4 done here p q r s high hunit tail hempty hbroken hhalf ih =>
    split at h
    · cases h
    · rename_i hfollowing
      exact absurd rfl (hhalf _ _ _ _ _ _ _ _ hfollowing)
    obtain ⟨body, rfl, hbody⟩ := ih h
    exact ⟨_, rfl, .unit (by rw [hunit]; rfl) hbody⟩
  -- an escape by a letter
  | case8 done here c cs _ _ e hletter ih =>
    obtain ⟨body, rfl, hbody⟩ := ih h
    exact ⟨_, rfl, .letter (by rw [hletter]; rfl) hbody⟩
  -- the quote that ends the literal
  | case9 done here cs =>
    obtain rfl := Except.ok.inj h
    exact ⟨[], rfl, .nil⟩
  -- a character that stands for itself
  | case12 done here c cs _ _ _ hquote hback hcontrol ih =>
    obtain ⟨body, rfl, hbody⟩ := ih h
    exact ⟨_, rfl, .plain hquote hback (by omega) hbody⟩
  -- an escape that breaks off; what is left fails at once
  | case2 done here p q r s tail high hunit hempty hbroken =>
    rw [hbroken] at h
    cases h
  | _ => cases h

/-- No spacing is dropped behind a literal that ends with a quote. -/
theorem skipSpacing_append_quote (here : Nat) (cs : List Char) :
    (skipSpacing here (cs ++ ['\x22'])).2 ≠ [] := by
  induction cs generalizing here with
  | nil => simp [skipSpacing, isSpacing]
  | cons c cs ih =>
    rw [List.cons_append, skipSpacing]
    split_ifs
    · exact ih _
    · simp

/-- A text between double quotes is read iff it is legible. -/
theorem decodeBody_isOk_iff {body : List Char} :
    (∃ t, decodeBody body = .ok t) ↔ Legible body := by
  constructor
  · rintro ⟨t, h⟩
    unfold decodeBody at h
    obtain ⟨s, hscan, h⟩ := bind_eq_ok.1 h
    obtain ⟨front, heq, hfront⟩ := legible_of_scanString hscan
    -- a quote in front of the last one would leave that one over
    rcases List.eq_nil_or_concat s.rest with hrest | ⟨more, x, hrest⟩
    · rw [hrest] at heq
      rwa [List.append_cancel_right heq]
    · rw [hrest, List.concat_eq_append, ← List.cons_append, ← List.append_assoc] at heq
      obtain rfl : '\x22' = x := by simpa using List.append_inj_right' heq rfl
      have hleft := skipSpacing_append_quote s.position more
      rw [hrest, List.concat_eq_append] at h
      dsimp only at h
      rw [if_neg (by rwa [List.isEmpty_iff])] at h
      cases h
  · intro h
    obtain ⟨t, place, hscan⟩ := h.scanString 0 1 [] []
    refine ⟨t, ?_⟩
    unfold decodeBody
    rw [hscan]
    rfl

end Undecorate.Json
