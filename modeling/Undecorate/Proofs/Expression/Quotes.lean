import Undecorate.Proofs.Expression.Literals
import Undecorate.Proofs.Json.Legible

/-! # Texts in quotes

A text that begins with a quote is taken for a string if it ends with the same quote, whatever
stands between the two. Between double quotes the reader of literals sees to it that no other double
quote stands there on its own. The text between other quotes is requoted first, and then these
quotes are characters like any other for the reader: two literals with something between them are
taken for one string, and so is a template with a substitution in it.

* `Readable`: the texts that can stand between quotes of a kind;
* `readQuoted_isOk_iff`: they are the ones that are read;
* `OneLiteral`: the text is one literal of the source language;
* `quoted_texts_resolve_iff`: which texts that begin with a quote have a value.
-/

namespace Undecorate

namespace Expression

open Json (Legible letterEscape? unit? hexValue?)

/-- A text that can stand between quotes `q` when a string is read. A quote `q` may stand there on
its own if it is no double quote. -/
inductive Readable (q : Char) : List Char → Prop
  | nil : Readable q []
  | plain {c : Char} {cs : List Char} (hback : c ≠ '\\') (hcontrol : 0x20 ≤ c.toNat)
      (hdouble : c = '\x22' → q ≠ '\x22') (rest : Readable q cs) : Readable q (c :: cs)
  | quote {cs : List Char} (rest : Readable q cs) : Readable q ('\\' :: q :: cs)
  | letter {l : Char} {cs : List Char} (hletter : (letterEscape? l).isSome) (hdouble : l ≠ '\x22')
      (hnext : l = '\\' → cs.head? ≠ some q) (rest : Readable q cs) : Readable q ('\\' :: l :: cs)
  | unit {p₁ p₂ p₃ p₄ : Char} {cs : List Char} (hunit : (unit? p₁ p₂ p₃ p₄).isSome)
      (rest : Readable q cs) : Readable q ('\\' :: 'u' :: p₁ :: p₂ :: p₃ :: p₄ :: cs)

/-- What stands behind the first quote that has no backslash before it. -/
def closing? (q : Char) : List Char → Option (List Char)
  | '\\' :: _ :: cs => closing? q cs
  | c :: cs => if c = q then some cs else closing? q cs
  | [] => none

/-- Whether a substitution is opened somewhere in a template. -/
def substitutes : List Char → Bool
  | '\\' :: _ :: cs => substitutes cs
  | '$' :: '\x7b' :: _ => true
  | _ :: cs => substitutes cs
  | [] => false

/-- Between quotes `q`, the text is one literal: the first quote behind the opening one is the last
character, and in a template nothing is substituted. -/
structure OneLiteral (q : Char) (body : List Char) : Prop where
  closing : closing? q (body ++ [q]) = some []
  whole : q = '\x60' → substitutes body = false

variable {q c d l : Char} {cs body tail : List Char}

theorem cases_of_isQuote (hq : Brackets.isQuote q = true) :
    q = '\x27' ∨ q = '\x22' ∨ q = '\x60' := by
  simpa [Brackets.isQuote, or_assoc] using hq

/-! ## Digits of units -/

/-- What is neither a backslash nor a quote of any kind. -/
theorem ne_of_unit? {p₁ p₂ p₃ p₄ : Char} (h : (unit? p₁ p₂ p₃ p₄).isSome)
    (hc : hexValue? c = none) :
    ∀ p ∈ [p₁, p₂, p₃, p₄], p ≠ c := by
  rintro p hp rfl
  simp only [List.mem_cons, List.not_mem_nil, or_false] at hp
  rcases hp with rfl | rfl | rfl | rfl <;> simp [unit?, hc] at h

/-! ## Requoting -/

section Requoting

open Key

variable (hq : q ≠ '\x22')

include hq

theorem doubleQuotedBody_eq (cs : List Char) :
    doubleQuotedBody q cs = escapeDoubleQuotes (bareQuotes q cs) := by
  rw [doubleQuotedBody, if_neg hq]

theorem doubleQuotedBody_nil : doubleQuotedBody q [] = [] := by
  rw [doubleQuotedBody_eq hq, bareQuotes]
  rfl

theorem doubleQuotedBody_double (cs : List Char) :
    doubleQuotedBody q ('\x22' :: cs) = '\\' :: '\x22' :: doubleQuotedBody q cs := by
  rw [doubleQuotedBody_eq hq, doubleQuotedBody_eq hq, bareQuotes]
  · rfl
  · intro _ _ h
    cases h

theorem doubleQuotedBody_plain (hback : c ≠ '\\') (hdouble : c ≠ '\x22') (cs : List Char) :
    doubleQuotedBody q (c :: cs) = c :: doubleQuotedBody q cs := by
  rw [doubleQuotedBody_eq hq, doubleQuotedBody_eq hq, bareQuotes, escapeDoubleQuotes,
    List.flatMap_cons, if_neg hdouble]
  · rfl
  · intro _ _ h
    exact absurd h hback

theorem doubleQuotedBody_quote (cs : List Char) :
    doubleQuotedBody q ('\\' :: q :: cs) = q :: doubleQuotedBody q cs := by
  rw [doubleQuotedBody_eq hq, doubleQuotedBody_eq hq, bareQuotes, if_pos rfl, escapeDoubleQuotes,
    List.flatMap_cons, if_neg hq]
  rfl

theorem doubleQuotedBody_back (hnext : cs.head? ≠ some q) :
    doubleQuotedBody q ('\\' :: cs) = '\\' :: doubleQuotedBody q cs := by
  rw [doubleQuotedBody_eq hq, doubleQuotedBody_eq hq, StringLiteral.bareQuotes_cons hnext]
  rfl

/-- What begins with neither a backslash nor the quote began so before. -/
theorem exists_of_doubleQuotedBody_cons (h : doubleQuotedBody q cs = c :: tail) (hback : c ≠ '\\')
    (hc : c ≠ q) : ∃ rest, cs = c :: rest ∧ doubleQuotedBody q rest = tail := by
  cases cs with
  | nil =>
    rw [doubleQuotedBody_nil hq] at h
    cases h
  | cons d ds =>
    by_cases hdouble : d = '\x22'
    · rw [hdouble, doubleQuotedBody_double hq] at h
      exact absurd (List.cons.inj h).1.symm hback
    by_cases hd : d = '\\'
    · subst hd
      by_cases hnext : ds.head? = some q
      · obtain ⟨rest, rfl⟩ := List.head?_eq_some_iff.1 hnext
        rw [doubleQuotedBody_quote hq] at h
        exact absurd (List.cons.inj h).1.symm hc
      · rw [doubleQuotedBody_back hq hnext] at h
        exact absurd (List.cons.inj h).1.symm hback
    · rw [doubleQuotedBody_plain hq hd hdouble] at h
      obtain ⟨rfl, htail⟩ := List.cons.inj h
      exact ⟨ds, rfl, htail⟩

end Requoting

/-! ## Which texts are read -/

theorem letterEscape?_quote (hq : Brackets.isQuote q = true) (hdouble : q ≠ '\x22') :
    letterEscape? q = none := by
  rcases cases_of_isQuote hq with rfl | rfl | rfl
  · rfl
  · exact absurd rfl hdouble
  · rfl

theorem hexValue?_quote (hq : Brackets.isQuote q = true) : hexValue? q = none := by
  rcases cases_of_isQuote hq with rfl | rfl | rfl <;> rfl

theorem Readable.legible_double (h : Readable '\x22' body) : Legible body := by
  induction h with
  | nil => exact .nil
  | plain hback hcontrol hdouble _ ih => exact .plain (fun hc => hdouble hc rfl) hback hcontrol ih
  | quote _ ih => exact .letter rfl ih
  | letter hletter _ _ _ ih => exact .letter hletter ih
  | unit hunit _ ih => exact .unit hunit ih

theorem readable_double_of_legible (h : Legible body) : Readable '\x22' body := by
  induction h with
  | nil => exact .nil
  | plain hquote hback hcontrol _ ih => exact .plain hback hcontrol (fun hc => absurd hc hquote) ih
  | @letter l cs hletter rest ih =>
    by_cases hl : l = '\x22'
    · subst hl
      exact .quote ih
    · refine .letter hletter hl (fun _ hhead => ?_) ih
      obtain ⟨tail, rfl⟩ := List.head?_eq_some_iff.1 hhead
      exact (rest.of_plain (by decide)).1 rfl
  | unit hunit _ ih => exact .unit hunit ih

/-- What is read between other quotes than double ones is legible once it is requoted. -/
theorem Readable.legible (h : Readable q body) (hq : Brackets.isQuote q = true)
    (hdouble : q ≠ '\x22') : Legible (Key.doubleQuotedBody q body) := by
  have hquote : q ≠ '\\' ∧ 0x20 ≤ q.toNat := by
    rcases cases_of_isQuote hq with rfl | rfl | rfl <;> decide
  induction h with
  | nil =>
    rw [doubleQuotedBody_nil hdouble]
    exact .nil
  | @plain c cs hback hcontrol _ _ ih =>
    by_cases hc : c = '\x22'
    · rw [hc, doubleQuotedBody_double hdouble]
      exact .letter rfl ih
    · rw [doubleQuotedBody_plain hdouble hback hc]
      exact .plain hc hback hcontrol ih
  | quote _ ih =>
    rw [doubleQuotedBody_quote hdouble]
    exact .plain hdouble hquote.1 hquote.2 ih
  | @letter l cs hletter hl hnext _ ih =>
    have hlq : l ≠ q := by
      rintro rfl
      rw [letterEscape?_quote hq hdouble] at hletter
      cases hletter
    rw [doubleQuotedBody_back hdouble (by simpa using hlq)]
    by_cases hback : l = '\\'
    · rw [hback, doubleQuotedBody_back hdouble (hnext hback)]
      exact .letter rfl ih
    · rw [doubleQuotedBody_plain hdouble hback hl]
      exact .letter hletter ih
  | @unit p₁ p₂ p₃ p₄ cs hunit _ ih =>
    have hplain : ∀ p ∈ [p₁, p₂, p₃, p₄], ∀ ds,
        Key.doubleQuotedBody q (p :: ds) = p :: Key.doubleQuotedBody q ds := fun p hp =>
      doubleQuotedBody_plain hdouble (ne_of_unit? hunit rfl p hp) (ne_of_unit? hunit rfl p hp)
    have hu : 'u' ≠ q := by
      rcases cases_of_isQuote hq with rfl | rfl | rfl <;> decide
    rw [doubleQuotedBody_back hdouble (by simpa using hu),
      doubleQuotedBody_plain hdouble (by decide) (by decide), hplain p₁ (by simp),
      hplain p₂ (by simp), hplain p₃ (by simp), hplain p₄ (by simp)]
    exact .unit hunit ih

/-- The digits of a unit stand where they stood before. -/
theorem exists_unit_of_doubleQuotedBody (hq : Brackets.isQuote q = true) (hdouble : q ≠ '\x22')
    {p₁ p₂ p₃ p₄ : Char} (hunit : (unit? p₁ p₂ p₃ p₄).isSome)
    (h : Key.doubleQuotedBody q cs = p₁ :: p₂ :: p₃ :: p₄ :: tail) :
    ∃ rest, cs = p₁ :: p₂ :: p₃ :: p₄ :: rest ∧ Key.doubleQuotedBody q rest = tail := by
  have hback := ne_of_unit? hunit (c := '\\') rfl
  have hquote := ne_of_unit? hunit (hexValue?_quote hq)
  simp only [List.forall_mem_cons] at hback hquote
  obtain ⟨cs₁, rfl, h₁⟩ := exists_of_doubleQuotedBody_cons hdouble h hback.1 hquote.1
  obtain ⟨cs₂, rfl, h₂⟩ := exists_of_doubleQuotedBody_cons hdouble h₁ hback.2.1 hquote.2.1
  obtain ⟨cs₃, rfl, h₃⟩ := exists_of_doubleQuotedBody_cons hdouble h₂ hback.2.2.1 hquote.2.2.1
  obtain ⟨cs₄, rfl, h₄⟩ := exists_of_doubleQuotedBody_cons hdouble h₃ hback.2.2.2.1 hquote.2.2.2.1
  exact ⟨cs₄, rfl, h₄⟩

/-- A backslash that is legible once it is requoted begins an escape that is read. -/
theorem readable_back (hq : Brackets.isQuote q = true) (hdouble : q ≠ '\x22')
    (h : Legible (Key.doubleQuotedBody q ('\\' :: cs)))
    (ih : ∀ rest, rest.length ≤ cs.length → Legible (Key.doubleQuotedBody q rest) →
      Readable q rest) : Readable q ('\\' :: cs) := by
  have hquote : q ≠ '\\' ∧ q ≠ 'u' := by
    rcases cases_of_isQuote hq with rfl | rfl | rfl <;> decide
  by_cases hnext : cs.head? = some q
  · obtain ⟨rest, rfl⟩ := List.head?_eq_some_iff.1 hnext
    rw [doubleQuotedBody_quote hdouble] at h
    exact .quote (ih rest (Nat.le_succ _) (h.of_plain hquote.1).2.2)
  rw [doubleQuotedBody_back hdouble hnext] at h
  cases cs with
  | nil =>
    rw [doubleQuotedBody_nil hdouble] at h
    exact absurd h Json.not_legible_back
  | cons l rest =>
    have hle : rest.length ≤ (l :: rest).length := Nat.le_succ _
    by_cases hback : l = '\\'
    · subst hback
      by_cases hhead : rest.head? = some q
      · -- two backslashes and a quote: the second backslash goes, and the first one stands alone
        obtain ⟨rest, rfl⟩ := List.head?_eq_some_iff.1 hhead
        rw [doubleQuotedBody_quote hdouble] at h
        have hletter := (h.of_letter hquote.2).1
        rw [letterEscape?_quote hq hdouble] at hletter
        cases hletter
      · rw [doubleQuotedBody_back hdouble hhead] at h
        exact .letter rfl (by decide) (fun _ => hhead) (ih rest hle (h.of_letter (by decide)).2)
    by_cases hl : l = '\x22'
    · -- a backslash and a double quote: there are two backslashes then, and the quote stands alone
      rw [hl, doubleQuotedBody_double hdouble] at h
      exact absurd rfl ((h.of_letter (by decide)).2.of_plain (by decide)).1
    rw [doubleQuotedBody_plain hdouble hback hl] at h
    by_cases hu : l = 'u'
    · subst hu
      obtain ⟨p₁, p₂, p₃, p₄, tail, heq, hunit, htail⟩ := h.of_unit
      obtain ⟨rest', rfl, hrest⟩ := exists_unit_of_doubleQuotedBody hq hdouble hunit heq
      refine .unit hunit (ih rest' ?_ (hrest ▸ htail))
      simp only [List.length_cons]
      omega
    · obtain ⟨hletter, hrest⟩ := h.of_letter hu
      exact .letter hletter hl (fun heq => absurd heq hback) (ih rest hle hrest)

/-- What is legible once it is requoted is read between the quotes. -/
theorem readable_of_legible (hq : Brackets.isQuote q = true) (hdouble : q ≠ '\x22')
    (h : Legible (Key.doubleQuotedBody q body)) : Readable q body := by
  induction hn : body.length using Nat.strongRecOn generalizing body with
  | ind n ih =>
    subst hn
    cases body with
    | nil => exact .nil
    | cons c cs =>
      by_cases hback : c = '\\'
      · subst hback
        exact readable_back hq hdouble h fun rest hle hrest =>
          ih rest.length (Nat.lt_succ_of_le hle) hrest rfl
      by_cases hc : c = '\x22'
      · rw [hc, doubleQuotedBody_double hdouble] at h
        have hrest := (h.of_letter (by decide)).2
        exact .plain hback (by rw [hc]; decide) (fun _ => hdouble)
          (ih cs.length (by simp) hrest rfl)
      · rw [doubleQuotedBody_plain hdouble hback hc] at h
        obtain ⟨-, hcontrol, hrest⟩ := h.of_plain hback
        exact .plain hback hcontrol (fun _ => hdouble) (ih cs.length (by simp) hrest rfl)

theorem legible_doubleQuotedBody_iff (hq : Brackets.isQuote q = true) :
    Legible (Key.doubleQuotedBody q body) ↔ Readable q body := by
  by_cases hdouble : q = '\x22'
  · subst hdouble
    exact ⟨readable_double_of_legible, Readable.legible_double⟩
  · exact ⟨readable_of_legible hq hdouble, fun h => h.legible hq hdouble⟩

/-- A text in quotes has a value iff it is readable. -/
theorem readQuoted_isOk_iff (hq : Brackets.isQuote q = true) :
    (∃ v, readQuoted q body = .ok v) ↔ Readable q body := by
  rw [← legible_doubleQuotedBody_iff hq, ← Json.decodeBody_isOk_iff]
  unfold readQuoted
  dsimp only
  cases Json.decodeBody (Key.doubleQuotedBody q body) with
  | ok t => simp
  | error f => simp

/-! ## One literal -/

theorem closing?_plain (hback : c ≠ '\\') (hc : c ≠ q) (cs : List Char) :
    closing? q (c :: cs) = closing? q cs := by
  rw [closing?, if_neg hc]
  intro _ _ h
  exact absurd h hback

/-- Between double quotes nothing is read that is not one literal. -/
theorem Readable.oneLiteral (h : Readable '\x22' body) : OneLiteral '\x22' body := by
  refine ⟨?_, fun h => absurd h (by decide)⟩
  induction h with
  | nil => rfl
  | plain hback _ hdouble _ ih =>
    rw [List.cons_append, closing?_plain hback fun hc => hdouble hc rfl]
    exact ih
  | quote _ ih => exact ih
  | letter _ _ _ _ ih => exact ih
  | @unit p₁ p₂ p₃ p₄ cs hunit _ ih =>
    have hskip : ∀ p ∈ [p₁, p₂, p₃, p₄], ∀ ds, closing? '\x22' (p :: ds) = closing? '\x22' ds :=
      fun p hp => closing?_plain (ne_of_unit? hunit rfl p hp) (ne_of_unit? hunit rfl p hp)
    change closing? '\x22' (p₁ :: p₂ :: p₃ :: p₄ :: (cs ++ ['\x22'])) = some []
    rw [hskip p₁ (by simp), hskip p₂ (by simp), hskip p₃ (by simp), hskip p₄ (by simp)]
    exact ih

/-- Between other quotes than double ones everything without backslashes and control characters is
read, as what it is. -/
theorem readQuoted_of_no_backslash (hq : q ≠ '\x22')
    (hplain : ∀ c ∈ body, c ≠ '\\' ∧ 0x20 ≤ c.toNat) :
    readQuoted q body = .ok (.text (.ofChars body) .shared) := by
  have hparts : List.Forall₂ Json.Spells body
      (body.map fun c => if c = '\x22' then ['\\', c] else [c]) := by
    rw [List.forall₂_map_right_iff, List.forall₂_same]
    intro c hc
    split_ifs with hdouble
    · exact .letter (by rw [hdouble]; rfl)
    · exact .plain hdouble (hplain c hc).1 (hplain c hc).2
  have hinner : Key.doubleQuotedBody q body =
      (body.map fun c => if c = '\x22' then ['\\', c] else [c]).flatten := by
    rw [doubleQuotedBody_eq hq, bareQuotes_of_no_backslash q fun c hc => (hplain c hc).1]
    rfl
  rw [readQuoted, hinner, Json.decodeBody_spelled hparts]

/-! ## Whole texts -/

/-- What begins with a quote is in quotes, or has no form that can be read. -/
theorem parse_of_isQuote {text : String} (hq : Brackets.isQuote q = true)
    (hbare : bare (Text.trim text.toList) = q :: cs) :
    parse text = match quotedBody? (q :: cs) with
      | some (quote, body) => ofReading (readQuoted quote body)
      | none => unsupported text := by
  have hquote : q.isAlpha = false ∧ Text.isDigit q = false ∧ q ≠ '-' ∧ q ≠ '.' ∧ q ≠ '(' ∧
      Text.isNamePart q = false ∧ Text.isBlank q = false ∧ Text.isNameStart q = false := by
    rcases cases_of_isQuote hq with rfl | rfl | rfl <;> decide
  obtain ⟨halpha, hdigit, hminus, hpoint, hopen, hpart, hblank, hstart⟩ := hquote
  have hkeyword : keyword? (q :: cs) = none := keyword?_eq_none_of_mem List.mem_cons_self halpha
  have hnumber : isNumber (q :: cs) = false := isNumber_cons hdigit hminus hpoint
  have hpath : isPath (q :: cs) = false := isPath_eq_false List.mem_cons_self hpart hpoint hblank
  have hcall : callParts? (q :: cs) = none := by
    have hcallee : isCallee ((q :: cs).takeWhile (· != '(')) = false := by
      rw [List.takeWhile_cons_of_pos (by simpa using hopen), isCallee, hstart, Bool.false_and]
    simp only [callParts?, hcallee, Bool.false_and, Bool.false_eq_true, if_false]
    split <;> rfl
  cases hbody : quotedBody? (q :: cs) with
  | none =>
    simp only [parse, parseTo, hbare, hkeyword, hnumber, hpath, hbody, hcall, Bool.false_eq_true,
      if_false]
  | some p =>
    obtain ⟨quote, body⟩ := p
    simp only [parse, parseTo, hbare, hkeyword, hnumber, hbody, Bool.false_eq_true, if_false]

/-- The fault of a text in quotes that cannot be read is one of resolution. -/
theorem readQuoted_ok_or_error (q : Char) (body : List Char) :
    (∃ t, readQuoted q body = .ok (.text t .shared)) ∨
      ∃ text reason, readQuoted q body = .error (.refused (.resolution text reason)) := by
  unfold readQuoted
  dsimp only
  cases Json.decodeBody (Key.doubleQuotedBody q body) with
  | ok t => exact .inl ⟨t, rfl⟩
  | error f => exact .inr ⟨_, _, rfl⟩

theorem quotedBody?_append (hq : Brackets.isQuote q = true) (body : List Char) :
    quotedBody? (q :: (body ++ [q])) = some (q, body) := by
  simp [quotedBody?, hq]

theorem eq_of_quotedBody? {quote : Char} (h : quotedBody? (q :: cs) = some (quote, body)) :
    quote = q ∧ cs = body ++ [q] := by
  unfold quotedBody? at h
  split at h
  · cases h
  · rename_i c cs' heq
    obtain ⟨rfl, rfl⟩ := List.cons.inj heq
    split_ifs at h with hends
    obtain ⟨rfl, rfl⟩ := Prod.mk.inj (Option.some.inj h)
    rw [Bool.and_eq_true, beq_iff_eq] at hends
    obtain ⟨front, rfl⟩ := List.getLast?_eq_some_iff.1 hends.2
    exact ⟨rfl, by simp⟩

section Values

variable {text : String} {σ : Type} (host : Host σ) (names : Names) (w : World σ)

/-- A text in quotes comes to what is read between them. -/
theorem evaluate_of_quoted (hq : Brackets.isQuote q = true)
    (hbare : bare (Text.trim text.toList) = q :: (body ++ [q])) :
    names.evaluate host text = match readQuoted q body with
      | .ok v => pure v
      | .error f => throw f := by
  have hevaluate : names.evaluate host text = (parse text).eval host names := rfl
  rw [hevaluate, parse_of_isQuote hq hbare, quotedBody?_append hq]
  dsimp only
  cases readQuoted q body <;> rfl

theorem returns_evaluate_iff_readable (hq : Brackets.isQuote q = true)
    (hbare : bare (Text.trim text.toList) = q :: (body ++ [q])) :
    (∃ v w', (names.evaluate host text).Returns w v w') ↔ Readable q body := by
  rw [evaluate_of_quoted host names hq hbare, ← readQuoted_isOk_iff hq]
  cases readQuoted q body with
  | ok v => simp
  | error f => simp

/-- A text that ends in another way than it begins with a quote is refused. -/
theorem fails_evaluate_of_not_quoted (hq : Brackets.isQuote q = true)
    (hbare : bare (Text.trim text.toList) = q :: cs) (hnone : quotedBody? (q :: cs) = none) :
    (names.evaluate host text).Fails w
      (.refused (.resolution text "unsupported expression form")) w := by
  have hevaluate : names.evaluate host text = (parse text).eval host names := rfl
  rw [hevaluate, parse_of_isQuote hq hbare, hnone]
  rfl

end Values

end Expression

open Expression in
/-- A text that begins with a quote, once the blanks and the parentheses around it are gone, is a
string or is refused as an expression. It is a string iff it ends with the same quote and what
stands between the two can be read. Between double quotes only one literal can be read; between
others everything can that has neither backslashes nor control characters in it, further quotes and
substitutions included. -/
theorem quoted_texts_resolve_iff {text : String} {q : Char} {cs : List Char}
    (hq : Brackets.isQuote q = true) (hbare : bare (Text.trim text.toList) = q :: cs) {σ : Type}
    (host : Host σ) (names : Names) (w : World σ) :
    ((∃ t, (names.evaluate host text).Returns w (.text t .shared) w) ∨
      ∃ expression reason,
        (names.evaluate host text).Fails w (.refused (.resolution expression reason)) w) ∧
    ((∃ v w', (names.evaluate host text).Returns w v w') ↔
      ∃ body, cs = body ++ [q] ∧ Readable q body) ∧
    (q = '\x22' → (∃ v w', (names.evaluate host text).Returns w v w') →
      ∃ body, cs = body ++ [q] ∧ OneLiteral q body) ∧
    (q ≠ '\x22' → ∀ body, cs = body ++ [q] → (∀ c ∈ body, c ≠ '\\' ∧ 0x20 ≤ c.toNat) →
      (names.evaluate host text).Returns w (.text (.ofChars body) .shared) w) := by
  have hiff : (∃ v w', (names.evaluate host text).Returns w v w') ↔
      ∃ body, cs = body ++ [q] ∧ Readable q body := by
    constructor
    · rintro ⟨v, w', hreturns⟩
      cases hbody : quotedBody? (q :: cs) with
      | none =>
        have hfails := fails_evaluate_of_not_quoted host names w hq hbare hbody
        exact absurd hreturns hfails.not_returns
      | some p =>
        obtain ⟨-, rfl⟩ := eq_of_quotedBody? hbody
        exact ⟨p.2, rfl, (returns_evaluate_iff_readable host names w hq hbare).1 ⟨v, w', hreturns⟩⟩
    · rintro ⟨body, rfl, hread⟩
      exact (returns_evaluate_iff_readable host names w hq hbare).2 hread
  refine ⟨?_, hiff, ?_, ?_⟩
  · cases hbody : quotedBody? (q :: cs) with
    | none => exact .inr ⟨_, _, fails_evaluate_of_not_quoted host names w hq hbare hbody⟩
    | some p =>
      obtain ⟨-, rfl⟩ := eq_of_quotedBody? hbody
      rw [evaluate_of_quoted host names hq hbare]
      rcases readQuoted_ok_or_error q p.2 with ⟨t, ht⟩ | ⟨expression, reason, hf⟩
      · rw [ht]
        exact .inl ⟨t, rfl⟩
      · rw [hf]
        exact .inr ⟨expression, reason, rfl⟩
  · rintro rfl hreturns
    obtain ⟨body, hcs, hread⟩ := hiff.1 hreturns
    exact ⟨body, hcs, hread.oneLiteral⟩
  · rintro hdouble body rfl hplain
    rw [evaluate_of_quoted host names hq hbare, readQuoted_of_no_backslash hdouble hplain]
    rfl

/-- Two literals with a plus between them are taken for one string. -/
theorem joined_literals_resolve : ¬ Expression.OneLiteral '\x27' "a' + 'b".toList ∧
    ∀ {σ : Type} (host : Host σ) (names : Names) (w : World σ),
      (names.evaluate host "'a' + 'b'").Returns w (.text "a' + 'b" .shared) w := by
  constructor
  · intro hone
    exact absurd hone.closing (by decide)
  · intro σ host names w
    have hbare : Expression.bare (Text.trim "'a' + 'b'".toList) =
        '\x27' :: ("a' + 'b".toList ++ ['\x27']) := Expression.bare_cons (by decide)
    obtain ⟨-, -, -, hall⟩ := quoted_texts_resolve_iff (by decide) hbare host names w
    have hplain : ∀ c ∈ "a' + 'b".toList, c ≠ '\\' ∧ 0x20 ≤ c.toNat := by simp
    exact hall (by decide) _ rfl hplain

end Undecorate
