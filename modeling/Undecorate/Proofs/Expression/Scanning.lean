import Undecorate.Proofs.Expression.Splitting
import Undecorate.Proofs.Expression.Term
import Undecorate.Proofs.Text.Pieces

/-! # Scanning terms

Expressions are never cut into tokens; two scanners look for matching brackets and for separating
commas. The text of a term is closed for both of them: inside any number of brackets they go past it
and are inside as many brackets behind it, whatever follows.

* `Term.passes`: the scanners go past a term;
* `Term.tight`: no blank stands at either end of a term;
* `splitArguments_joinWith`: cutting an argument list gives back the arguments.
-/

namespace Undecorate

namespace Brackets

variable {n : Nat} {c : Char} {cs ds : List Char}

/-- Whether the character is one of those that the scanners look for beside commas. -/
def isSign (c : Char) : Bool := isQuote c || isOpening c || isClosing c

theorem of_isNamePart (h : Text.isNamePart c = true) : isSign c = false ∧ c ≠ ',' := by
  have hne := Text.ne_of_mem_signs h
  simp only [Text.signs, List.forall_mem_cons, List.not_mem_nil, false_implies, implies_true] at hne
  simp [isSign, isQuote, isOpening, isClosing, hne]

/-- Inside `n` brackets both scanners go past the text. -/
structure Passes (n : Nat) (cs : List Char) : Prop where
  nested : Nested cs
  whole : Whole n cs

namespace Passes

theorem balanced (h : Passes n cs) : balanced cs = true := balanced_iff_nested.2 h.nested

theorem nil : Passes n [] := ⟨nested_of_no_brackets fun _ h => (by cases h), .nil⟩

theorem append (hcs : Passes n cs) (hds : Passes n ds) : Passes n (cs ++ ds) :=
  ⟨hcs.nested.append hds.nested, hcs.whole.append hds.whole⟩

/-- A character of no interest, or a comma inside brackets. -/
theorem singleton (hsign : isSign c = false) (hcomma : c ≠ ',' ∨ n ≠ 0) : Passes n [c] := by
  simp only [isSign, Bool.or_eq_false_iff] at hsign
  obtain ⟨⟨hquote, hopening⟩, hclosing⟩ := hsign
  refine ⟨nested_of_no_brackets fun d hd => ?_,
    .singleton hquote (level_other hopening hclosing) ?_⟩
  · obtain rfl := List.mem_singleton.1 hd
    exact ⟨hopening, hclosing⟩
  · intro hc
    exact Int.natCast_ne_zero.2 (hcomma.resolve_left (absurd hc))

theorem of_all (h : ∀ c ∈ cs, isSign c = false ∧ c ≠ ',') : Passes n cs := by
  induction cs with
  | nil => exact nil
  | cons c cs ih =>
    obtain ⟨hsign, hcomma⟩ := h c List.mem_cons_self
    exact (singleton hsign (.inl hcomma)).append (ih fun d hd => h d (List.mem_cons_of_mem c hd))

/-- A pair of parentheses around what passes inside one more bracket. -/
theorem enclose (h : Passes (n + 1) cs) : Passes n ('(' :: cs ++ [')']) := by
  have hopen : Scan.next { depth := n } '(' = { depth := (n + 1 : Nat) } := rfl
  have hclose : Scan.next { depth := (n + 1 : Nat) } ')' = { depth := n } := by
    simp [Scan.next, isQuote, isOpening, isClosing]
  refine ⟨h.nested.enclose, ?_, ?_⟩
  · have hcut : cutFrom { depth := (n + 1 : Nat) } [')'] = ([')'], []) :=
      cutFrom_cons (endsAt_outside fun h => (by cases h)) []
    rw [List.cons_append, cutFrom_cons (endsAt_outside fun h => (by cases h)), hopen,
      h.whole.cutFrom_append, hcut]
    rfl
  · rw [List.cons_append, Scan.past_cons, hopen, Scan.past_append, h.whole.past]
    exact hclose

/-- Texts that pass inside a bracket also do so with commas between them. -/
theorem joinWith {ts : List (List Char)} (h : ∀ t ∈ ts, Passes (n + 1) t) :
    Passes (n + 1) (Text.joinWith [',', ' '] ts) := by
  induction ts with
  | nil => exact nil
  | cons t ts ih =>
    have ht := h t List.mem_cons_self
    cases ts with
    | nil => exact ht
    | cons u us =>
      have hcomma : Passes (n + 1) [','] := singleton rfl (.inr (Nat.succ_ne_zero n))
      have hblank : Passes (n + 1) [' '] := singleton rfl (.inr (Nat.succ_ne_zero n))
      have hrest := ih fun v hv => h v (List.mem_cons_of_mem t hv)
      exact (ht.append (hcomma.append hblank)).append hrest

/-- Text in quotes: what stands between them neither ends them nor is a bracket. -/
theorem quoted {q : Char} {body : List Char} (hq : isQuote q = true)
    (hbody : ∀ c ∈ body, c ≠ q ∧ c ≠ '\\' ∧ isOpening c = false ∧ isClosing c = false) :
    Passes n (q :: body ++ [q]) := by
  obtain ⟨-, -, hopening, hclosing⟩ := isQuote_spec hq
  refine ⟨nested_of_no_brackets fun c hc => ?_, .quoted hq (.of_all fun c hc => ?_)⟩
  · simp only [List.mem_append, List.mem_cons, List.not_mem_nil, or_false] at hc
    rcases hc with (rfl | hc) | rfl
    · exact ⟨hopening, hclosing⟩
    · exact (hbody c hc).2.2
    · exact ⟨hopening, hclosing⟩
  · exact ⟨(hbody c hc).1, (hbody c hc).2.1⟩

end Passes

/-! ## Argument lists -/

theorem balanced_joinWith {ts : List (List Char)} (h : ∀ t ∈ ts, Passes 0 t) :
    balanced (Text.joinWith [',', ' '] ts) = true := by
  rw [balanced_iff_nested]
  induction ts with
  | nil => exact (by decide)
  | cons t ts ih =>
    have ht := (h t List.mem_cons_self).nested
    cases ts with
    | nil => exact ht
    | cons u us =>
      have hcomma : Nested [',', ' '] := by decide
      exact (ht.append hcomma).append (ih fun v hv => h v (List.mem_cons_of_mem t hv))

/-- Cutting an argument list gives back the arguments. -/
theorem splitArguments_joinWith {ts : List (List Char)} (hpasses : ∀ t ∈ ts, Passes 0 t)
    (htight : ∀ t ∈ ts, Text.Tight t) : splitArguments (Text.joinWith [',', ' '] ts) = ts :=
  splitArguments_listing (listing_joinWith ts) fun t ht => ⟨(hpasses t ht).whole, htight t ht⟩

end Brackets

/-! ## Characters of terms -/

namespace Identifier

variable (x : Identifier)

theorem exists_start : ∃ c cs, x.chars = c :: cs ∧ Text.isNameStart c = true ∧
    ∀ d ∈ cs, Text.isNamePart d = true := by
  obtain ⟨chars, hvalid⟩ := x
  cases chars with
  | nil => cases hvalid
  | cons c cs =>
    rw [Expression.isName, Bool.and_eq_true, List.all_eq_true] at hvalid
    exact ⟨c, cs, rfl, hvalid⟩

theorem isNamePart_of_mem {c : Char} (h : c ∈ x.chars) : Text.isNamePart c = true := by
  obtain ⟨d, ds, hx, hd, hds⟩ := x.exists_start
  rw [hx] at h
  rcases List.mem_cons.1 h with rfl | h
  · exact (Text.of_isNameStart hd).1
  · exact hds c h

theorem not_mem_chars {sign : Char} (hsign : Text.isNamePart sign = false) : sign ∉ x.chars :=
  fun h => Text.ne_of_isNamePart hsign (x.isNamePart_of_mem h) rfl

theorem tight : Text.Tight x.chars := by
  obtain ⟨c, cs, hx, -⟩ := x.exists_start
  exact .of_all (by simp [hx]) fun d hd => Text.isBlank_of_isNamePart (x.isNamePart_of_mem hd)

end Identifier

namespace Dotted

variable (p : Dotted)

theorem isNamePart_or_dot {c : Char} (h : c ∈ p.chars) : Text.isNamePart c = true ∨ c = '.' := by
  obtain h | ⟨cs, hcs, h⟩ := Text.mem_joinWith h
  · exact .inr (List.mem_singleton.1 h)
  · obtain ⟨x, -, rfl⟩ := List.mem_map.1 hcs
    exact .inl (x.isNamePart_of_mem h)

theorem exists_start : ∃ c cs, p.chars = c :: cs ∧ Text.isNameStart c = true := by
  obtain ⟨c, cs, hx, hc, -⟩ := p.first.exists_start
  unfold chars
  cases p.rest with
  | nil => exact ⟨c, cs, hx, hc⟩
  | cons y ys =>
    rw [List.map_cons, List.map_cons, Text.joinWith, hx]
    exact ⟨c, _, rfl, hc⟩

theorem tight : Text.Tight p.chars := by
  obtain ⟨c, cs, hp, -⟩ := p.exists_start
  refine .of_all (by simp [hp]) fun d hd => ?_
  rcases p.isNamePart_or_dot hd with hd | rfl
  · exact Text.isBlank_of_isNamePart hd
  · decide

theorem passes (n : Nat) : Brackets.Passes n p.chars := by
  refine .of_all fun c hc => ?_
  rcases p.isNamePart_or_dot hc with hc | rfl
  · exact Brackets.of_isNamePart hc
  · decide

end Dotted

theorem Quote.isQuote_char (q : Quote) : Brackets.isQuote q.char = true := by
  cases q <;> rfl

theorem Quoted.of_mem_body {q : Quoted} {c : Char} (h : c ∈ q.body) :
    Brackets.isQuote c = false ∧ c ≠ '\\' ∧ Brackets.isOpening c = false ∧
      Brackets.isClosing c = false ∧ 0x20 ≤ c.toNat := by
  simpa only [Quote.isPlain, Bool.and_eq_true, Bool.not_eq_true', bne_iff_ne, ne_eq,
    decide_eq_true_eq, and_assoc] using List.all_eq_true.1 q.plain c h

namespace Hexadecimal

/-- The characters that hexadecimal numbers are written with. -/
def alphabet : List Char := "-_0123456789abcdefABCDEFxX".toList

theorem char_mem_alphabet (d : HexDigit) : d.char ∈ alphabet := by
  have hall : ∀ (v : Fin 16) (u : Bool), (⟨v, u⟩ : HexDigit).char ∈ alphabet := by decide
  exact hall d.value d.upper

theorem mem_alphabet {n : Hexadecimal} {c : Char} (h : c ∈ n.chars) : c ∈ alphabet := by
  rcases List.mem_append.1 h with h | h
  · have hmark : n.mark.all alphabet.contains = true := by
      unfold mark
      cases n.negative <;> cases n.upperMark <;> decide
    exact List.contains_iff_mem.1 (List.all_eq_true.1 hmark c h)
  · obtain ⟨place, -, rfl⟩ := List.mem_map.1 h
    cases place with
    | none => decide
    | some d => exact char_mem_alphabet d

theorem of_mem_alphabet {c : Char} (h : c ∈ alphabet) :
    Text.isBlank c = false ∧ Brackets.isSign c = false ∧ c ≠ ',' := by
  have hall : (alphabet.all fun c => !Text.isBlank c && !Brackets.isSign c && c != ',') = true := by
    decide
  simpa only [Bool.and_eq_true, Bool.not_eq_true', bne_iff_ne, ne_eq, and_assoc] using
    List.all_eq_true.1 hall c h

end Hexadecimal

/-- Keywords have letters only. -/
theorem Keyword.isAlpha_of_mem {k : Keyword} {c : Char} (h : c ∈ k.name.toList) :
    c.isAlpha = Bool.true := by
  have hall : k.name.toList.all Char.isAlpha = Bool.true := by cases k <;> decide
  exact List.all_eq_true.1 hall c h

theorem Keyword.isNamePart_of_mem {k : Keyword} {c : Char} (h : c ∈ k.name.toList) :
    Text.isNamePart c = Bool.true := by
  have hstart : Text.isNameStart c = Bool.true := by simp [Text.isNameStart, isAlpha_of_mem h]
  exact (Text.of_isNameStart hstart).1

namespace Term

theorem tight (e : Term) : Text.Tight e.chars := by
  induction e using Term.induct with
  | keyword k =>
    have hne : k.name.toList ≠ [] := by cases k <;> decide
    exact .of_all hne fun c hc => Text.isBlank_of_isNamePart (Keyword.isNamePart_of_mem hc)
  | number n =>
    exact .of_all (by simp [chars, Hexadecimal.chars, Hexadecimal.mark])
      fun c hc => (Hexadecimal.of_mem_alphabet (Hexadecimal.mem_alphabet hc)).1
  | quoted q =>
    have hquote : Text.Tight [q.quote.char] := .singleton (by cases q.quote <;> decide)
    exact hquote.around hquote q.body
  | path p _ => exact p.tight
  | call p arguments _ =>
    exact p.tight.around (.singleton (by decide)) _
  | group e _ =>
    have hopen : Text.Tight ['('] := .singleton (by decide)
    exact hopen.around (.singleton (by decide)) e.chars

/-- The scanners go past a term, inside any number of brackets. -/
theorem passes (e : Term) (n : Nat) : Brackets.Passes n e.chars := by
  induction e using Term.induct generalizing n with
  | keyword k => exact .of_all fun c hc => Brackets.of_isNamePart (Keyword.isNamePart_of_mem hc)
  | number m =>
    exact .of_all fun c hc => (Hexadecimal.of_mem_alphabet (Hexadecimal.mem_alphabet hc)).2
  | quoted q =>
    refine .quoted q.quote.isQuote_char fun c hc => ?_
    obtain ⟨hquote, hback, hopening, hclosing, -⟩ := Quoted.of_mem_body hc
    refine ⟨?_, hback, hopening, hclosing⟩
    rintro rfl
    rw [q.quote.isQuote_char] at hquote
    cases hquote
  | path p _ => exact p.passes n
  | call p arguments ih =>
    have hjoined : Brackets.Passes (n + 1) (Text.joinWith [',', ' '] (charsAll arguments)) := by
      rw [charsAll_eq_map]
      refine .joinWith fun t ht => ?_
      obtain ⟨a, ha, rfl⟩ := List.mem_map.1 ht
      exact ih a ha (n + 1)
    rw [chars, List.append_assoc]
    exact (p.passes n).append hjoined.enclose
  | group e ih => exact (ih (n + 1)).enclose

end Term

end Undecorate
