import Mathlib.Data.List.Chain
import Undecorate.Json.Literal

/-! # Literals are read back

A literal can spell a character in several ways, and the reader knows all of them. Writing a text as
a literal and reading it gives the text again. Above the basic plane a character is spelled by two
units, which the reader puts together; so it would also put together two halves of a pair that stand
in the text on their own, one behind the other. Texts without such a place are joined, and the
reader gives no others.

* `Spells`: the ways to spell a character;
* `decodeBody_spelled`: a literal is read as the characters that it spells;
* `decodeBody_escaped`: a joined text that was written as a literal is read back;
* `joined_of_decodeBody`: what is read is joined;
* `encode_injective`: different joined texts are written differently.
-/

namespace Undecorate

open Json

/-! ## Code points -/

theorem Json.isHighHalf_iff {n : Nat} : isHighHalf n = true ↔ 0xD800 ≤ n ∧ n ≤ 0xDBFF := by
  unfold isHighHalf
  rw [Bool.and_eq_true, decide_eq_true_eq, decide_eq_true_eq]

theorem Json.isLowHalf_iff {n : Nat} : isLowHalf n = true ↔ 0xDC00 ≤ n ∧ n ≤ 0xDFFF := by
  unfold isLowHalf
  rw [Bool.and_eq_true, decide_eq_true_eq, decide_eq_true_eq]

/-- A character is no half of a pair. -/
theorem Char.toNat_cases (c : Char) :
    c.toNat < 0xD800 ∨ 0xE000 ≤ c.toNat ∧ c.toNat < 0x110000 := by
  have hvalid := c.valid
  unfold UInt32.isValidChar Nat.isValidChar at hvalid
  have hpoint : c.toNat = c.val.toNat := rfl
  omega

theorem Json.isHighHalf_char (c : Char) : isHighHalf c.toNat = false := by
  have hcases := Char.toNat_cases c
  rw [← Bool.not_eq_true, isHighHalf_iff]
  omega

theorem Json.isLowHalf_char (c : Char) : isLowHalf c.toNat = false := by
  have hcases := Char.toNat_cases c
  rw [← Bool.not_eq_true, isLowHalf_iff]
  omega

namespace Letter

theorem ofUnit_toNat (c : Char) : ofUnit c.toNat = .char c := by
  have hcases := Char.toNat_cases c
  unfold ofUnit
  rw [dif_neg (by omega), Char.ofNat_toNat]

theorem ofUnit_half (n : Fin 0x800) : ofUnit (0xD800 + n.val) = .half n := by
  have hlt := n.isLt
  unfold ofUnit
  rw [dif_pos (by omega)]
  simp

/-- Half of a pair is read as a letter with the unit as its code point, and no other unit is read as
the half of a pair. -/
theorem isHighHalf_ofUnit {n : Nat} (h : isHighHalf (ofUnit n).point = true) :
    isHighHalf n = true := by
  unfold ofUnit at h
  split at h
  · rename_i hhalf
    rw [isHighHalf_iff] at h ⊢
    unfold point at h
    dsimp only at h
    omega
  · have hchar := isHighHalf_char (Char.ofNat n)
    exact absurd (h.symm.trans hchar) (by decide)

theorem isLowHalf_ofUnit {n : Nat} (h : isLowHalf (ofUnit n).point = true) :
    isLowHalf n = true := by
  unfold ofUnit at h
  split at h
  · rename_i hhalf
    rw [isLowHalf_iff] at h ⊢
    unfold point at h
    dsimp only at h
    omega
  · have hchar := isLowHalf_char (Char.ofNat n)
    exact absurd (h.symm.trans hchar) (by decide)

end Letter

/-! ## Joined texts -/

/-- The second letter does not complete a pair that the first one opens. -/
def Letter.Apart (a b : Letter) : Prop :=
  isHighHalf a.point = true → isLowHalf b.point = false

instance : DecidableRel Letter.Apart := fun _ _ => inferInstanceAs (Decidable (_ → _))

/-- Nowhere in the text does a second half of a pair stand directly behind a first half. -/
def Text.Joined (t : Text) : Prop := t.letters.IsChain Letter.Apart

instance (t : Text) : Decidable t.Joined := inferInstanceAs (Decidable (List.IsChain _ _))

theorem Text.joined_ofChars (cs : List Char) : (Text.ofChars cs).Joined := by
  refine (List.isChain_map Letter.char).2 (List.Pairwise.isChain ?_)
  apply List.pairwise_of_forall
  intro a b hhigh
  exact absurd (hhigh.symm.trans (isHighHalf_char a)) (by decide)

namespace Json

variable {start here n : Nat} {done : List Letter} {c : Char} {cs tail : List Char}

/-! ## Spellings -/

/-- How a literal can spell a character: as it is, by a letter, by a unit, or by a pair of units. -/
inductive Spells (c : Char) : List Char → Prop
  | plain (hquote : c ≠ '\x22') (hback : c ≠ '\\') (hcontrol : 0x20 ≤ c.toNat) : Spells c [c]
  | letter {l : Char} (hletter : letterEscape? l = some c) : Spells c ['\\', l]
  | unit {p q r s : Char} (hunit : unit? p q r s = some c.toNat) :
      Spells c ['\\', 'u', p, q, r, s]
  | pair {p q r s p' q' r' s' : Char} {high low : Nat} (hhigh : unit? p q r s = some high)
      (hlow : unit? p' q' r' s' = some low) (hopens : isHighHalf high = true)
      (hcloses : isLowHalf low = true) (hpair : pairChar high low = c) :
      Spells c ['\\', 'u', p, q, r, s, '\\', 'u', p', q', r', s']

theorem hexValue?_hexDigit : ∀ d, d < 16 → hexValue? (Text.hexDigit d) = some d := by decide

/-- The digits that are written for a unit have its value. -/
theorem escapeUnit_eq (h : n < 0x10000) :
    ∃ p q r s, escapeUnit n = ['\\', 'u', p, q, r, s] ∧ unit? p q r s = some n := by
  refine ⟨_, _, _, _, rfl, ?_⟩
  have hdigit : ∀ m, hexValue? (Text.hexDigit (m % 16)) = some (m % 16) :=
    fun m => hexValue?_hexDigit (m % 16) (Nat.mod_lt m (by decide))
  unfold unit?
  simp only [hdigit, Option.bind_eq_bind, Option.bind_some, Option.pure_def, Option.some.injEq]
  omega

/-- The pair of units of a character is read as the character. -/
theorem pairChar_units (h : 0xFFFF < c.toNat) :
    pairChar (0xD800 + (c.toNat - 0x10000) / 0x400) (0xDC00 + (c.toNat - 0x10000) % 0x400) =
      c := by
  have hsum : 0x10000 + (0xD800 + (c.toNat - 0x10000) / 0x400 - 0xD800) * 0x400 +
      (0xDC00 + (c.toNat - 0x10000) % 0x400 - 0xDC00) = c.toNat := by omega
  unfold pairChar
  rw [hsum, Char.ofNat_toNat]

/-- What is written for a character spells it. -/
theorem spells_escapeChar (c : Char) : Spells c (escapeChar c) := by
  have hcases := Char.toNat_cases c
  unfold escapeChar
  split_ifs with hquote hn hr ht hb hf hascii hplane
  · refine .letter ?_
    rcases (by simpa using hquote : c = '\x22' ∨ c = '\\') with rfl | rfl <;> rfl
  · exact .letter (by rw [hn]; rfl)
  · exact .letter (by rw [hr]; rfl)
  · exact .letter (by rw [ht]; rfl)
  · exact .letter (by rw [hb]; rfl)
  · exact .letter (by rw [hf]; rfl)
  · simp only [Bool.or_eq_true, decide_eq_true_eq, not_or] at hquote
    simp only [Bool.and_eq_true, decide_eq_true_eq] at hascii
    exact .plain hquote.1 hquote.2 hascii.1
  · obtain ⟨p, q, r, s, heq, hunit⟩ := escapeUnit_eq (n := c.toNat) (by omega)
    rw [heq]
    exact .unit hunit
  · obtain ⟨p, q, r, s, heq, hhigh⟩ :=
      escapeUnit_eq (n := 0xD800 + (c.toNat - 0x10000) / 0x400) (by omega)
    obtain ⟨p', q', r', s', heq', hlow⟩ :=
      escapeUnit_eq (n := 0xDC00 + (c.toNat - 0x10000) % 0x400) (by omega)
    rw [heq, heq']
    refine .pair hhigh hlow ?_ ?_ (pairChar_units (by omega))
    · rw [isHighHalf_iff]
      omega
    · rw [isLowHalf_iff]
      omega

/-! ## One letter -/

/-- A character that neither ends a literal nor begins an escape in it is read on its own. -/
theorem scanString_cons (start here : Nat) (done : List Letter) (cs : List Char)
    (hquote : c ≠ '\x22') (hback : c ≠ '\\') (hcontrol : 0x20 ≤ c.toNat) :
    scanString start done here (c :: cs) =
      scanString start (.char c :: done) (here + 1) cs := by
  rw [scanString, if_neg hquote, if_neg hback, if_neg (by omega)]
  · exact fun _ _ _ _ _ h => absurd h hback
  · exact fun _ h => absurd h hback
  · exact fun _ _ h => absurd h hback

/-- A unit that opens no pair is not looked at any further. -/
theorem following_of_not_high (h : isHighHalf n = false) (tail : List Char) :
    following n tail = .other := by
  unfold following
  split
  · rw [if_neg (by simp [h])]
  · rfl

/-- A unit is read as its letter, unless it is the first half of a pair. -/
theorem scanString_unit (start here : Nat) (done : List Letter) {p q r s : Char}
    (hunit : unit? p q r s = some n) (htail : tail ≠ []) (hother : following n tail = .other) :
    scanString start done here ('\\' :: 'u' :: p :: q :: r :: s :: tail) =
      scanString start (.ofUnit n :: done) (here + 6) tail := by
  obtain ⟨x, rest, rfl⟩ := List.exists_cons_of_ne_nil htail
  rw [scanString, hunit]
  simp only [List.isEmpty_cons]
  rw [hother]

/-- A spelling is read as the character that it spells. -/
theorem Spells.scanString (h : Spells c cs) (start here : Nat) (done : List Letter)
    (htail : tail ≠ []) :
    scanString start done here (cs ++ tail) =
      scanString start (.char c :: done) (here + cs.length) tail := by
  cases h with
  | plain hquote hback hcontrol => exact scanString_cons start here done tail hquote hback hcontrol
  | @letter l hletter =>
    have hu : l ≠ 'u' := by
      rintro rfl
      cases hletter
    change Json.scanString start done here ('\\' :: l :: tail) = _
    rw [Json.scanString, hletter]
    · rfl
    · exact fun _ _ _ _ _ heq => absurd heq hu
    · exact fun heq => absurd heq hu
  | unit hunit =>
    rw [← Letter.ofUnit_toNat c]
    exact scanString_unit start here done hunit htail
      (following_of_not_high (isHighHalf_char c) tail)
  | @pair p q r s p' q' r' s' high low hhigh hlow hopens hcloses hpair =>
    obtain ⟨x, rest, rfl⟩ := List.exists_cons_of_ne_nil htail
    have hfollowing : following high ('\\' :: 'u' :: p' :: q' :: r' :: s' :: x :: rest) =
        .half low := by
      rw [following, if_pos hopens, hlow]
      exact if_pos hcloses
    change Json.scanString start done here ('\\' :: 'u' :: p :: q :: r :: s ::
      '\\' :: 'u' :: p' :: q' :: r' :: s' :: x :: rest) = _
    rw [Json.scanString, hhigh]
    simp only [List.isEmpty_cons]
    rw [hfollowing, ← hpair]
    rfl

/-- Behind the first half of a pair, a unit that is no second half completes nothing. -/
theorem following_unit {m : Nat} {p q r s : Char} (hunit : unit? p q r s = some m)
    (hlow : isLowHalf m = false) (tail : List Char) :
    following n ('\\' :: 'u' :: p :: q :: r :: s :: tail) = .other := by
  cases tail with
  | nil => rfl
  | cons x tail =>
    rw [following, hunit]
    simp [hlow]

/-- Nor does the spelling of a character. -/
theorem Spells.following (h : Spells c cs) (n : Nat) (tail : List Char) :
    following n (cs ++ tail) = .other := by
  cases h with
  | plain hquote hback hcontrol =>
    unfold Json.following
    split
    · rename_i heq
      exact absurd (List.cons.inj heq).1 hback
    · rfl
  | @letter l hletter =>
    unfold Json.following
    split
    · rename_i heq
      obtain rfl : l = 'u' := (List.cons.inj (List.cons.inj heq).2).1
      cases hletter
    · rfl
  | unit hunit => exact following_unit hunit (isLowHalf_char c) tail
  | @pair p q r s p' q' r' s' high low hhigh hlow hopens hcloses hpair =>
    refine following_unit hhigh ?_ ('\\' :: 'u' :: p' :: q' :: r' :: s' :: tail)
    rw [isHighHalf_iff] at hopens
    rw [← Bool.not_eq_true, isLowHalf_iff]
    omega

/-- What is written for half of a pair. -/
theorem escapeLetter_half (m : Fin 0x800) :
    ∃ p q r s, escapeLetter (.half m) = ['\\', 'u', p, q, r, s] ∧
      unit? p q r s = some (0xD800 + m.val) := by
  have hlt := m.isLt
  exact escapeUnit_eq (n := 0xD800 + m.val) (by omega)

/-- What is written for a letter is read as the letter, if what follows does not complete a pair. -/
theorem scanString_escapeLetter (start here : Nat) (done : List Letter) (l : Letter)
    (htail : tail ≠ []) (hother : following l.point tail = .other) :
    scanString start done here (escapeLetter l ++ tail) =
      scanString start (l :: done) (here + (escapeLetter l).length) tail := by
  cases l with
  | char c => exact (spells_escapeChar c).scanString start here done htail
  | half m =>
    obtain ⟨p, q, r, s, heq, hunit⟩ := escapeLetter_half m
    rw [heq, ← Letter.ofUnit_half m]
    exact scanString_unit start here done hunit htail hother

/-- What is written for a letter completes a pair only if the letter is a second half. -/
theorem following_escapeLetter {l : Letter} (hlow : isLowHalf l.point = false)
    (tail : List Char) : following n (escapeLetter l ++ tail) = .other := by
  cases l with
  | char c => exact (spells_escapeChar c).following n tail
  | half m =>
    obtain ⟨p, q, r, s, heq, hunit⟩ := escapeLetter_half m
    rw [heq]
    exact following_unit hunit hlow tail

/-! ## Whole literals -/

/-- Spelled characters are read one after the other. -/
theorem scanString_spelled (start here : Nat) (done : List Letter) {parts : List (List Char)}
    (h : List.Forall₂ Spells cs parts) (htail : tail ≠ []) :
    scanString start done here (parts.flatten ++ tail) =
      scanString start ((cs.map Letter.char).reverse ++ done) (here + parts.flatten.length)
        tail := by
  induction h generalizing here done with
  | nil => rfl
  | @cons c part cs parts hpart hrest ih =>
    have hne : parts.flatten ++ tail ≠ [] := by simp [htail]
    rw [List.flatten_cons, List.append_assoc, hpart.scanString start here done hne, ih]
    simp [Nat.add_assoc]

/-- The letters of a joined text are read one after the other. -/
theorem scanString_escaped (start here : Nat) (done : List Letter) {letters : List Letter}
    (h : letters.IsChain Letter.Apart) (rest : List Char) :
    scanString start done here (letters.flatMap escapeLetter ++ '\x22' :: rest) =
      .ok ⟨⟨done.reverse ++ letters⟩, here + (letters.flatMap escapeLetter).length + 1, rest⟩ := by
  induction letters generalizing here done with
  | nil => simp [scanString]
  | cons l letters ih =>
    have hother : following l.point (letters.flatMap escapeLetter ++ '\x22' :: rest) = .other := by
      cases hhigh : isHighHalf l.point with
      | false => exact following_of_not_high hhigh _
      | true =>
        cases letters with
        | nil => rfl
        | cons l' letters =>
          have hapart : l.Apart l' := h.rel
          rw [List.flatMap_cons, List.append_assoc]
          exact following_escapeLetter (hapart hhigh) _
    rw [List.flatMap_cons, List.append_assoc,
      scanString_escapeLetter start here done l (by simp) hother, ih _ _ h.tail]
    simp [Nat.add_assoc]

/-- A literal is read as the characters that it spells. -/
theorem decodeBody_spelled {parts : List (List Char)} (h : List.Forall₂ Spells cs parts) :
    decodeBody parts.flatten = .ok (.ofChars cs) := by
  unfold decodeBody
  rw [scanString_spelled 0 1 [] h (by simp), scanString, if_pos rfl]
  · rw [List.append_nil, List.reverse_reverse]
    rfl
  all_goals simp

/-- A joined text is read back. -/
theorem decodeBody_escaped {t : Text} (h : t.Joined) :
    decodeBody (t.letters.flatMap escapeLetter) = .ok t := by
  unfold decodeBody
  rw [scanString_escaped 0 1 [] h]
  rfl

/-- The text begins with an escape of a second half that is not the end of it. -/
def BeginsLow (cs : List Char) : Prop :=
  ∃ p q r s x rest low, cs = '\\' :: 'u' :: p :: q :: r :: s :: x :: rest ∧
    unit? p q r s = some low ∧ isLowHalf low = true

/-- A character keeps a row of letters joined. -/
theorem isChain_char_cons {added : List Letter} (c : Char) (h : added.IsChain Letter.Apart) :
    (.char c :: added : List Letter).IsChain Letter.Apart := by
  refine h.cons fun l _ hhigh => ?_
  exact absurd (hhigh.symm.trans (isHighHalf_char c)) (by decide)

/-- A unit keeps what stands behind it joined, unless the reader has found the second half of a pair
there. -/
theorem isChain_ofUnit_cons {high : Nat} {added : List Letter}
    (hchain : added.IsChain Letter.Apart)
    (hbegins : ∀ l ∈ added.head?, isLowHalf l.point = true → BeginsLow tail)
    (hhalf : ∀ low p q r s x rest, following high tail = .half low →
      tail ≠ '\\' :: 'u' :: p :: q :: r :: s :: x :: rest) :
    (.ofUnit high :: added : List Letter).IsChain Letter.Apart := by
  apply hchain.cons
  intro l hl hhigh
  cases hlow : isLowHalf l.point with
  | false => rfl
  | true =>
    obtain ⟨p, q, r, s, x, rest, low, rfl, hunit, hcloses⟩ := hbegins l hl hlow
    have hfollowing : following high ('\\' :: 'u' :: p :: q :: r :: s :: x :: rest) =
        .half low := by
      rw [following, if_pos (Letter.isHighHalf_ofUnit hhigh), hunit]
      exact if_pos hcloses
    exact absurd rfl (hhalf low p q r s x rest hfollowing)

/-- What the reader adds to the letters that it has is joined, and begins with a second half only if
the literal does. -/
theorem joined_of_scanString {s : Scanned} (h : scanString start done here cs = .ok s) :
    ∃ added, s.text.letters = done.reverse ++ added ∧ added.IsChain Letter.Apart ∧
      ∀ l ∈ added.head?, isLowHalf l.point = true → BeginsLow cs := by
  -- a letter that is a character is no half, and what has been added behind it is joined
  have hchar : ∀ {c : Char} {done added : List Letter} {cs : List Char},
      s.text.letters = (.char c :: done : List Letter).reverse ++ added →
      added.IsChain Letter.Apart →
      ∃ added, s.text.letters = done.reverse ++ added ∧ added.IsChain Letter.Apart ∧
        ∀ l ∈ added.head?, isLowHalf l.point = true → BeginsLow cs := by
    intro c done added cs hletters hchain
    refine ⟨.char c :: added, by simpa using hletters, isChain_char_cons c hchain, ?_⟩
    intro l hl hlow
    obtain rfl := Option.some.inj hl
    exact absurd (hlow.symm.trans (isLowHalf_char c)) (by decide)
  fun_induction scanString start done here cs with
  | case3 done here p q r s high hunit low x₁ x₂ x₃ x₄ x₅ x₆ rest _ hfollowing ih =>
    rw [hfollowing] at h
    obtain ⟨added, hletters, hchain, -⟩ := ih h
    exact hchar hletters hchain
  | case4 done here p q r s high hunit tail hempty hbroken hhalf ih =>
    split at h
    · cases h
    · rename_i hfollowing
      exact absurd rfl (hhalf _ _ _ _ _ _ _ _ hfollowing)
    obtain ⟨added, hletters, hchain, hbegins⟩ := ih h
    refine ⟨.ofUnit high :: added, by simpa using hletters, ?_, ?_⟩
    · -- a second half behind the unit would have been put together with it
      apply isChain_ofUnit_cons hchain hbegins
      rintro low p' q' r' s' x rest hfollowing rfl
      exact hhalf _ _ _ _ _ _ _ _ hfollowing rfl
    · intro l hl hlow
      obtain rfl := Option.some.inj hl
      obtain ⟨x, rest, rfl⟩ := List.exists_cons_of_ne_nil (List.isEmpty_eq_false_iff.1 hempty)
      exact ⟨p, q, r, s, x, rest, high, rfl, hunit, Letter.isLowHalf_ofUnit hlow⟩
  | case8 done here c cs _ _ e hletter ih =>
    obtain ⟨added, hletters, hchain, -⟩ := ih h
    exact hchar hletters hchain
  | case9 done here cs =>
    obtain rfl := Except.ok.inj h
    exact ⟨[], (List.append_nil _).symm, .nil, fun l hl => by cases hl⟩
  | case12 done here c cs _ _ _ _ _ _ ih =>
    obtain ⟨added, hletters, hchain, -⟩ := ih h
    exact hchar hletters hchain
  | case2 done here p q r s tail high hunit hempty hbroken =>
    rw [hbroken] at h
    cases h
  | _ => cases h

/-- What a literal is read as is joined. -/
theorem joined_of_decodeBody {t : Text} {body : List Char} (h : decodeBody body = .ok t) :
    t.Joined := by
  unfold decodeBody at h
  cases hscan : scanString 0 [] 1 (body ++ ['\x22']) with
  | error f =>
    rw [hscan] at h
    cases h
  | ok s =>
    rw [hscan] at h
    obtain ⟨added, hletters, hchain, -⟩ := joined_of_scanString hscan
    obtain rfl : s.text = t := by
      by_cases hrest : (skipSpacing s.position s.rest).2.isEmpty = true
      · simpa [bind, Except.bind, pure, Except.pure, hrest] using h
      · simp [bind, Except.bind, hrest] at h
    have hsame : s.text.letters = added := hletters
    unfold Text.Joined
    rwa [hsame]

/-- Different joined texts are written differently. -/
theorem encode_injective {t u : Text} (ht : t.Joined) (hu : u.Joined) (h : encode t = encode u) :
    t = u := by
  unfold encode at h
  have hchars := (List.cons.inj (String.ofList_injective h)).2
  have hbodies := List.append_cancel_right hchars
  have hread := (decodeBody_escaped ht).symm.trans ((congrArg decodeBody hbodies).trans
    (decodeBody_escaped hu))
  exact Except.ok.inj hread

end Json

end Undecorate
