import Undecorate.Expression.Basic

/-! # Characters of names

A character of a name is neither blank nor a sign of an expression, and one that begins a name
begins no number. A text whose ends are not blank is not trimmed.

* `isBlank_of_isNamePart`: characters of names are not blank;
* `ne_of_mem_signs`: they are no signs;
* `of_isNameStart`: what is known about the first character of a name;
* `Tight.trim_eq`: when trimming changes nothing.
-/

namespace Undecorate.Text

variable {c : Char} {cs : List Char}

/-! ## Sets of characters -/

/-- A character is in the set whose first stretch is from `first` to `stop` iff it is in that
stretch or behind it in the rest. -/
theorem CharSet.contains_stretch (first stop : Nat) (rest : List Nat) (c : Char) :
    (⟨first :: stop :: rest⟩ : CharSet).contains c =
      (decide (first ≤ c.toNat) && (decide (c.toNat < stop) || (⟨rest⟩ : CharSet).contains c)) := by
  unfold CharSet.contains
  by_cases hfirst : first ≤ c.toNat
  · by_cases hstop : stop ≤ c.toNat
    · simp [hfirst, hstop, Nat.add_assoc, Nat.not_lt.2 hstop]
    · simp [hfirst, hstop, Nat.not_le.1 hstop]
  · simp [hfirst]

/-- The code points of all blanks. -/
def blankPoints : List Nat := [
  0x9, 0xA, 0xB, 0xC, 0xD, 0x1C, 0x1D, 0x1E, 0x1F, 0x20, 0x85, 0xA0, 0x1680, 0x2000, 0x2001, 0x2002,
  0x2003, 0x2004, 0x2005, 0x2006, 0x2007, 0x2008, 0x2009, 0x200A, 0x2028, 0x2029, 0x202F, 0x205F,
  0x3000]

theorem mem_blankPoints (h : isBlank c = true) : c.toNat ∈ blankPoints := by
  have hnone : (⟨[]⟩ : CharSet).contains c = false := rfl
  unfold isBlank blankCharacters at h
  simp only [CharSet.contains_stretch, hnone, Bool.or_false, Bool.and_eq_true, Bool.or_eq_true,
    decide_eq_true_eq] at h
  simp only [blankPoints, List.mem_cons, List.not_mem_nil, or_false]
  omega

theorem isBlank_of_isNamePart (h : isNamePart c = true) : isBlank c = false := by
  have hword : ∀ n ∈ blankPoints, (wordCharacters.flips.takeWhile (· ≤ n)).length % 2 = 0 ∧
      n ≠ '$'.toNat := by decide +kernel
  cases hblank : isBlank c with
  | false => rfl
  | true =>
    obtain ⟨hnot, hdollar⟩ := hword c.toNat (mem_blankPoints hblank)
    unfold isNamePart isWord CharSet.contains at h
    rw [hnot, Bool.or_eq_true, beq_iff_eq, beq_iff_eq] at h
    rcases h with h | rfl
    · cases h
    · exact absurd rfl hdollar

theorem ne_of_isNamePart {sign : Char} (hsign : isNamePart sign = false) (h : isNamePart c = true) :
    c ≠ sign := by
  rintro rfl
  rw [h] at hsign
  cases hsign

/-- The signs of expressions. -/
def signs : List Char :=
  ['(', ')', '[', ']', '\x7b', '\x7d', '\x27', '\x22', '\x60', ',', '.', '-']

theorem ne_of_mem_signs (h : isNamePart c = true) : ∀ sign ∈ signs, c ≠ sign := by
  have hnone : signs.all (!isNamePart ·) = true := by decide
  intro sign hsign
  have hfalse := List.all_eq_true.1 hnone sign hsign
  rw [Bool.not_eq_true'] at hfalse
  exact ne_of_isNamePart hfalse h

/-! ## The first character of a name -/

/-- What is known about the first character of a name: it can stand anywhere in a name, and it is no
digit. -/
theorem of_isNameStart (h : isNameStart c = true) : isNamePart c = true ∧ isDigit c = false := by
  have hascii : ∀ n : Fin 128, isNameStart (Char.ofNat n) = true →
      isNamePart (Char.ofNat n) = true ∧ isDigit (Char.ofNat n) = false := by decide
  have hlt : c.toNat < 128 := by
    unfold isNameStart Char.isAlpha Char.isUpper Char.isLower at h
    simp only [Bool.or_eq_true, Bool.and_eq_true, decide_eq_true_eq, beq_iff_eq] at h
    rcases h with ((⟨-, hle⟩ | ⟨-, hle⟩) | rfl) | rfl
    · exact Nat.lt_of_le_of_lt (UInt32.le_iff_toNat_le.1 hle) (by decide)
    · exact Nat.lt_of_le_of_lt (UInt32.le_iff_toNat_le.1 hle) (by decide)
    · decide
    · decide
  have hstart := hascii ⟨c.toNat, hlt⟩
  rw [Char.ofNat_toNat] at hstart
  exact hstart h

/-! ## Trimming -/

theorem dropWhile_isBlank (h : ∀ c ∈ cs.head?, isBlank c = false) : cs.dropWhile isBlank = cs := by
  cases cs with
  | nil => rfl
  | cons c cs => exact List.dropWhile_cons_of_neg (by simp [h c rfl])

/-- Something stands in the text, and no blank at either end of it. -/
structure Tight (cs : List Char) : Prop where
  ne_nil : cs ≠ []
  first : ∀ c ∈ cs.head?, isBlank c = false
  last : ∀ c ∈ cs.getLast?, isBlank c = false

namespace Tight

instance : DecidablePred Tight := fun cs =>
  have hall : ∀ x : Option Char, x.all (!isBlank ·) = true ↔ ∀ c ∈ x, isBlank c = false := by
    simp [Option.all_eq_true]
  decidable_of_iff
    (cs ≠ [] ∧ cs.head?.all (!isBlank ·) = true ∧ cs.getLast?.all (!isBlank ·) = true)
    ⟨fun ⟨hne, hfirst, hlast⟩ => ⟨hne, (hall _).1 hfirst, (hall _).1 hlast⟩,
      fun ⟨hne, hfirst, hlast⟩ => ⟨hne, (hall _).2 hfirst, (hall _).2 hlast⟩⟩

theorem of_all (hne : cs ≠ []) (h : ∀ c ∈ cs, isBlank c = false) : Tight cs where
  ne_nil := hne
  first c hc := h c (List.mem_of_head? hc)
  last c hc := h c (List.mem_of_getLast? hc)

theorem singleton (h : isBlank c = false) : Tight [c] :=
  of_all (List.cons_ne_nil c []) fun _ hd => List.mem_singleton.1 hd ▸ h

/-- What stands between two tight texts does not matter. -/
theorem around {ds : List Char} (hcs : Tight cs) (hds : Tight ds) (inner : List Char) :
    Tight (cs ++ inner ++ ds) where
  ne_nil := by simp [hcs.ne_nil]
  first c hc := by
    obtain ⟨d, tail, rfl⟩ := List.exists_cons_of_ne_nil hcs.ne_nil
    exact hcs.first c hc
  last c hc := by
    have hlast := List.getLast?_eq_some_getLast hds.ne_nil
    rw [List.getLast?_append, hlast, Option.some_or, ← hlast] at hc
    exact hds.last c hc

theorem trimEnd_eq (h : Tight cs) : trimEnd cs = cs := by
  unfold trimEnd
  rw [dropWhile_isBlank (by rw [List.head?_reverse]; exact h.last), List.reverse_reverse]

theorem trim_eq (h : Tight cs) : trim cs = cs := by
  unfold trim trimBoth
  rw [dropWhile_isBlank h.first]
  exact h.trimEnd_eq

end Tight

theorem trim_eq_nil (h : ∀ c ∈ cs, isBlank c = true) : trim cs = [] := by
  have hnone : cs.dropWhile isBlank = [] := by
    rw [← List.append_nil cs, List.dropWhile_append_of_pos h]
    rfl
  unfold trim trimBoth
  rw [hnone]
  rfl

/-- Blanks around a tight text are what trimming takes away. -/
theorem Tight.trim_around {before after : List Char} (h : Tight cs)
    (hbefore : ∀ c ∈ before, isBlank c = true) (hafter : ∀ c ∈ after, isBlank c = true) :
    trim (before ++ cs ++ after) = cs := by
  have hfirst : (cs ++ after).dropWhile isBlank = cs ++ after := by
    refine dropWhile_isBlank fun c hc => h.first c ?_
    obtain ⟨d, tail, rfl⟩ := List.exists_cons_of_ne_nil h.ne_nil
    exact hc
  unfold trim trimBoth
  rw [List.append_assoc, List.dropWhile_append_of_pos hbefore, hfirst, List.reverse_append,
    List.dropWhile_append_of_pos fun c hc => hafter c (List.mem_reverse.1 hc)]
  exact h.trimEnd_eq

/-- Trimming takes blanks away only. -/
theorem mem_trim (hc : isBlank c = false) (h : c ∈ cs) : c ∈ trim cs := by
  have hkept : ∀ ds : List Char, c ∈ ds → c ∈ ds.dropWhile isBlank := by
    intro ds hmem
    rw [← List.takeWhile_append_dropWhile (p := isBlank) (l := ds), List.mem_append] at hmem
    rcases hmem with hmem | hmem
    · have hblank := List.all_eq_true.1 List.all_takeWhile c hmem
      rw [hc] at hblank
      cases hblank
    · exact hmem
  unfold trim trimBoth
  rw [List.mem_reverse]
  exact hkept _ (List.mem_reverse.2 (hkept cs h))

end Undecorate.Text
