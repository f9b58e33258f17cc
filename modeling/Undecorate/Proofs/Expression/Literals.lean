import Undecorate.Proofs.Expression.Forms
import Undecorate.Realization

/-! # Literals of the source

A source literal puts a backslash before every backslash and before both kinds of quotes, whichever
quotes stand around it. It is read by way of a literal in double quotes, in which a single quote
takes no backslash. In double quotes a marked single quote is therefore not read at all. In single
quotes its backslash is taken away first; but a double quote is given a second backslash there,
which makes the first one stand for itself and the quote end the literal too early.

* `doubleQuotedBody_parts`: what becomes of a literal in single quotes before it is read;
* `decodeBody_error_of_blocked`: a literal with the other quote in it cannot be read;
* `literal_decodes_iff`: a literal stands for the string that it writes, as a key and as an
  expression, iff the other quote does not stand in the string.
-/

namespace Undecorate

open Json (Spells decodeBody scanString)

/-! ## Writing -/

namespace StringLiteral

/-- The characters that a source literal puts a backslash before. -/
def marked : List Char := ['\\', '\x27', '\x22']

/-- Control characters and the letters that they can be written by. -/
def controls : List (Char × Char) :=
  [('\n', 'n'), ('\r', 'r'), ('\t', 't'), ('\x08', 'b'), ('\x0c', 'f')]

/-- How a source literal writes a character: behind a backslash, as it is, by a letter or by its
number. Control characters are never written as they are. -/
inductive Writes (c : Char) : List Char → Prop
  | marked (hmarked : c ∈ StringLiteral.marked) : Writes c ['\\', c]
  | plain (hmarked : c ∉ StringLiteral.marked) (hcontrol : 0x20 ≤ c.toNat) : Writes c [c]
  | letter {l : Char} (hletter : (c, l) ∈ controls) : Writes c ['\\', l]
  | number {p q r s : Char} (hmarked : c ∉ StringLiteral.marked)
      (hunit : Json.unit? p q r s = some c.toNat) : Writes c ['\\', 'u', p, q, r, s]

end StringLiteral

/-- A key that is written as a string literal. -/
def Key.ofLiteral (text : String) : Key := { text, literal := some .string }

/-- A source literal of a string: the kind of its quotes, and how each character is written. -/
structure StringLiteral (s : String) where
  isDouble : Bool
  parts : List (List Char)
  writes : List.Forall₂ StringLiteral.Writes s.toList parts

namespace StringLiteral

variable {s : String} {c q : Char} {cs part rest : List Char} {parts : List (List Char)}

/-- The quote that stands around the literal. -/
def quote (l : StringLiteral s) : Char := if l.isDouble then '\x22' else '\x27'

/-- The quote of the other kind. -/
def other (l : StringLiteral s) : Char := if l.isDouble then '\x27' else '\x22'

/-- What stands between the quotes. -/
def body (l : StringLiteral s) : List Char := l.parts.flatten

def chars (l : StringLiteral s) : List Char := l.quote :: l.body ++ [l.quote]

def text (l : StringLiteral s) : String := String.ofList l.chars

/-- The literal as a key. -/
def key (l : StringLiteral s) : Key := .ofLiteral l.text

/-- A key that computes the literal. -/
def computedKey (l : StringLiteral s) : Key := { text := l.text, isComputed := true }

/-! ## Parts -/

theorem length_pos_of_writes (h : Writes c part) : 1 ≤ part.length := by
  cases h <;> simp

/-- A quote of neither kind begins a part. -/
theorem head?_of_writes (h : Writes c part) (hmarked : q ∈ marked) (hback : q ≠ '\\') :
    part.head? ≠ some q := by
  cases h with
  | plain hplain hcontrol =>
    intro hc
    obtain rfl := Option.some.inj hc
    exact hplain hmarked
  | _ =>
    intro hc
    exact hback (Option.some.inj hc).symm

theorem head?_flatten (h : List.Forall₂ Writes cs parts) (hmarked : q ∈ marked)
    (hback : q ≠ '\\') : parts.flatten.head? ≠ some q := by
  cases h with
  | nil => simp
  | @cons c part cs parts hpart hrest =>
    obtain ⟨d, ds, rfl⟩ := List.exists_cons_of_length_pos (length_pos_of_writes hpart)
    have hhead : (d :: ds).head? ≠ some q := head?_of_writes hpart hmarked hback
    exact hhead

/-- A quote stands only in the part that writes it. -/
theorem not_mem_of_writes (h : Writes c part) (hmarked : q ∈ marked) (hback : q ≠ '\\')
    (hne : c ≠ q) : q ∉ part := by
  have hletters : ∀ p ∈ controls, q ≠ p.2 := by
    have hall : (marked.all fun d => controls.all fun p => d != p.2) = true := by decide
    intro p hp
    exact bne_iff_ne.1 (List.all_eq_true.1 (List.all_eq_true.1 hall q hmarked) p hp)
  have hdigit : Json.hexValue? q = none := by
    have hall : (marked.all fun d => (Json.hexValue? d).isNone) = true := by decide
    exact Option.isNone_iff_eq_none.1 (List.all_eq_true.1 hall q hmarked)
  have hu : q ≠ 'u' := by
    rintro rfl
    revert hmarked
    decide
  cases h with
  | marked hc => simp [hback, hne.symm]
  | plain hplain hcontrol => simp [hne.symm]
  | letter hletter => simp [hback, hletters _ hletter]
  | @number p₁ p₂ p₃ p₄ hplain hunit =>
    have hne : ∀ d ∈ [p₁, p₂, p₃, p₄], q ≠ d := by
      rintro d hd rfl
      simp only [List.mem_cons, List.not_mem_nil, or_false] at hd
      rcases hd with rfl | rfl | rfl | rfl <;> simp [Json.unit?, hdigit] at hunit
    simp only [List.mem_cons, List.not_mem_nil, or_false, not_or]
    exact ⟨hback, hu, hne p₁ (by simp), hne p₂ (by simp), hne p₃ (by simp),
      hne p₄ (by simp)⟩

/-! ## Reading parts -/

/-- A literal that is being read is broken by the part, or ended by it. -/
structure Blocks (part : List Char) : Prop where
  length : 2 ≤ part.length
  scanString : ∀ start here done tail,
    (∃ f, scanString start done here (part ++ tail) = .error f) ∨
      ∃ text place, scanString start done here (part ++ tail) = .ok ⟨text, place, tail⟩

/-- What the part of a character is for the reader, when `other` is the quote that blocks it. -/
structure Handed (other c : Char) (part : List Char) : Prop where
  spells : c ≠ other → Spells c part
  blocks : c = other → Blocks part

/-- A part other than that of a quote is read as it stands in the source. -/
theorem spells_of_writes (h : Writes c part) (hquote : c ≠ '\x27') : Spells c part := by
  cases h with
  | marked hmarked =>
    refine .letter ?_
    simp only [marked, List.mem_cons, List.not_mem_nil, or_false, hquote, false_or] at hmarked
    rcases hmarked with rfl | rfl <;> rfl
  | plain hplain hcontrol =>
    simp only [marked, List.mem_cons, List.not_mem_nil, or_false, not_or] at hplain
    exact .plain hplain.2.2 hplain.1 hcontrol
  | @letter l hletter =>
    have hall : ∀ p ∈ controls, Json.letterEscape? p.2 = some p.1 := by decide
    exact .letter (hall _ hletter)
  | number hplain hunit => exact .unit hunit

/-- A marked single quote is no escape between double quotes. -/
theorem blocks_single : Blocks ['\\', '\x27'] where
  length := Nat.le_refl 2
  scanString _ here _ _ := .inl ⟨⟨.escape, here⟩, rfl⟩

/-- Behind two backslashes a double quote ends the literal. -/
theorem blocks_double : Blocks ['\\', '\\', '\x22'] where
  length := by decide
  scanString _ _ _ _ := .inr ⟨_, _, rfl⟩

theorem eq_of_writes_marked (h : Writes c part) (hmarked : c ∈ marked) : part = ['\\', c] := by
  cases h with
  | marked hc => rfl
  | plain hplain hcontrol => exact absurd hmarked hplain
  | letter hletter =>
    have hall : ∀ p ∈ controls, p.1 ∉ marked := by decide
    exact absurd hmarked (hall _ hletter)
  | number hplain hunit => exact absurd hmarked hplain

/-- In double quotes the parts are handed on as they are. -/
theorem handed_double (h : Writes c part) : Handed '\x27' c part where
  spells hne := spells_of_writes h hne
  blocks heq := by
    subst heq
    rw [eq_of_writes_marked h (by decide)]
    exact blocks_single

/-- What becomes of a part in single quotes: a single quote loses its backslash, and a double quote
is given a second one. -/
def requoted (c : Char) (part : List Char) : List Char :=
  if c = '\x27' then [c] else if c = '\x22' then '\\' :: part else part

theorem handed_single (h : Writes c part) : Handed '\x22' c (requoted c part) where
  spells hne := by
    unfold requoted
    by_cases hsingle : c = '\x27'
    · rw [if_pos hsingle]
      subst hsingle
      exact .plain (by decide) (by decide) (by decide)
    · rw [if_neg hsingle, if_neg hne]
      exact spells_of_writes h hsingle
  blocks heq := by
    subst heq
    rw [eq_of_writes_marked h (by decide)]
    exact blocks_double

/-! ## Requoting -/

theorem bareQuotes_cons (h : rest.head? ≠ some q) :
    Key.bareQuotes q (c :: rest) = c :: Key.bareQuotes q rest := by
  cases rest with
  | nil =>
    rw [Key.bareQuotes]
    simp
  | cons d rest =>
    have hd : d ≠ q := fun hd => h (congrArg some hd)
    by_cases hc : c = '\\'
    · rw [hc, Key.bareQuotes, if_neg hd]
    · rw [Key.bareQuotes]
      intro d' rest' hback
      exact absurd hback hc

/-- Where the quote does not stand, nothing is taken away. -/
theorem bareQuotes_append (hcs : q ∉ cs) (hrest : rest.head? ≠ some q) :
    Key.bareQuotes q (cs ++ rest) = cs ++ Key.bareQuotes q rest := by
  induction cs with
  | nil => rfl
  | cons c cs ih =>
    have hhead : (cs ++ rest).head? ≠ some q := by
      cases cs with
      | nil => exact hrest
      | cons d cs =>
        intro hd
        obtain rfl := Option.some.inj hd
        exact hcs (List.mem_cons_of_mem c List.mem_cons_self)
    rw [List.cons_append, bareQuotes_cons hhead, ih fun hmem => hcs (List.mem_cons_of_mem c hmem)]
    rfl

theorem escapeDoubleQuotes_append (cs rest : List Char) :
    Key.escapeDoubleQuotes (cs ++ rest) =
      Key.escapeDoubleQuotes cs ++ Key.escapeDoubleQuotes rest :=
  List.flatMap_append

/-- Both replacements work part by part. -/
theorem doubleQuotedBody_part (h : Writes c part) (hrest : rest.head? ≠ some '\x27') :
    Key.doubleQuotedBody '\x27' (part ++ rest) =
      requoted c part ++ Key.doubleQuotedBody '\x27' rest := by
  simp only [Key.doubleQuotedBody, requoted, if_neg (show '\x27' ≠ '\x22' by decide)]
  by_cases hsingle : c = '\x27'
  · subst hsingle
    rw [eq_of_writes_marked h (by decide), if_pos rfl]
    simp [Key.bareQuotes, Key.escapeDoubleQuotes]
  · have hbare := bareQuotes_append (not_mem_of_writes h (by decide) (by decide) hsingle) hrest
    rw [hbare, escapeDoubleQuotes_append, if_neg hsingle]
    by_cases hdouble : c = '\x22'
    · subst hdouble
      rw [eq_of_writes_marked h (by decide), if_pos rfl]
      rfl
    · rw [if_neg hdouble, Expression.escapeDoubleQuotes_of_none]
      rintro d hd rfl
      exact not_mem_of_writes h (by decide) (by decide) hdouble hd

/-- What becomes of the text between single quotes. -/
theorem doubleQuotedBody_parts (h : List.Forall₂ Writes cs parts) :
    Key.doubleQuotedBody '\x27' parts.flatten = (List.zipWith requoted cs parts).flatten := by
  induction h with
  | nil => rfl
  | @cons c part cs parts hpart hrest ih =>
    rw [List.flatten_cons,
      doubleQuotedBody_part hpart (head?_flatten hrest (by decide) (by decide)), ih]
    rfl

/-- The parts of a literal as they are handed to the reader. -/
def handedParts (l : StringLiteral s) : List (List Char) :=
  if l.isDouble then l.parts else List.zipWith requoted s.toList l.parts

theorem doubleQuotedBody_body (l : StringLiteral s) :
    Key.doubleQuotedBody l.quote l.body = l.handedParts.flatten := by
  unfold quote handedParts body
  cases l.isDouble with
  | true => rfl
  | false => exact doubleQuotedBody_parts l.writes

theorem forall₂_zipWith {R : Char → List Char → Prop} (h : List.Forall₂ Writes cs parts)
    (hpart : ∀ {c part}, Writes c part → R c (requoted c part)) :
    List.Forall₂ R cs (List.zipWith requoted cs parts) := by
  induction h with
  | nil => exact .nil
  | cons hhead hrest ih => exact .cons (hpart hhead) ih

theorem handed (l : StringLiteral s) : List.Forall₂ (Handed l.other) s.toList l.handedParts := by
  unfold other handedParts
  cases l.isDouble with
  | true => exact l.writes.imp fun c part => handed_double
  | false => exact forall₂_zipWith l.writes handed_single

/-! ## Reading bodies -/

variable {o : Char}

theorem spelled_of_handed (h : List.Forall₂ (Handed o) cs parts) (hother : o ∉ cs) :
    List.Forall₂ Spells cs parts := by
  induction h with
  | nil => exact .nil
  | @cons c part cs parts hpart hrest ih =>
    refine .cons (hpart.spells ?_) (ih fun hmem => hother (List.mem_cons_of_mem c hmem))
    rintro rfl
    exact hother List.mem_cons_self

/-- The first part that blocks breaks the literal or leaves some of it behind. -/
theorem scanString_of_blocked (h : List.Forall₂ (Handed o) cs parts) (hother : o ∈ cs)
    (start here : Nat) (done : List Letter) :
    (∃ f, scanString start done here (parts.flatten ++ ['\x22']) = .error f) ∨
      ∃ t place rest, scanString start done here (parts.flatten ++ ['\x22']) =
        .ok ⟨t, place, rest⟩ ∧ '\x22' ∈ rest := by
  induction h generalizing here done with
  | nil => cases hother
  | @cons c part cs parts hpart hrest ih =>
    rw [List.flatten_cons, List.append_assoc]
    by_cases hc : c = o
    · rcases (hpart.blocks hc).scanString start here done (parts.flatten ++ ['\x22']) with
        hfails | ⟨t, place, hends⟩
      · exact .inl hfails
      · exact .inr ⟨t, place, _, hends, by simp⟩
    · rw [(hpart.spells hc).scanString start here done (by simp)]
      exact ih ((List.mem_cons.1 hother).resolve_left (Ne.symm hc)) _ _

theorem mem_skipSpacing (hc : Json.isSpacing c = false) (h : c ∈ cs) (here : Nat) :
    c ∈ (Json.skipSpacing here cs).2 := by
  induction cs generalizing here with
  | nil => cases h
  | cons d cs ih =>
    rw [Json.skipSpacing]
    by_cases hd : Json.isSpacing d = true
    · rw [if_pos hd]
      rcases List.mem_cons.1 h with rfl | h
      · exact absurd (hd.symm.trans hc) (by decide)
      · exact ih h (here + 1)
    · rw [if_neg hd]
      exact h

theorem decodeBody_error_of_blocked (h : List.Forall₂ (Handed o) cs parts)
    (hother : o ∈ cs) : ∃ f, decodeBody parts.flatten = .error f := by
  unfold decodeBody
  rcases scanString_of_blocked h hother 0 1 [] with ⟨f, hfails⟩ | ⟨t, place, rest, hends, hmem⟩
  · rw [hfails]
    exact ⟨f, rfl⟩
  · have hleft : (Json.skipSpacing place rest).2.isEmpty = false :=
      List.isEmpty_eq_false_iff.2 (List.ne_nil_of_mem (mem_skipSpacing (by decide) hmem place))
    rw [hends]
    exact ⟨⟨.extra, _⟩, by simp [bind, Except.bind, hleft]; rfl⟩

/-- What is handed to the reader has a character for each of the string, and more for one that
blocks. -/
theorem length_of_handed (h : List.Forall₂ (Handed o) cs parts) :
    cs.length ≤ parts.flatten.length ∧ (o ∈ cs → cs.length < parts.flatten.length) := by
  induction h with
  | nil => simp
  | @cons c part cs parts hpart hrest ih =>
    obtain ⟨hle, hlt⟩ := ih
    rw [List.flatten_cons, List.length_append, List.length_cons]
    by_cases hc : c = o
    · have hlength := (hpart.blocks hc).length
      exact ⟨by omega, fun _ => by omega⟩
    · have hlength : 1 ≤ part.length := by
        cases hpart.spells hc <;> simp
      refine ⟨by omega, fun hmem => ?_⟩
      have hlt := hlt ((List.mem_cons.1 hmem).resolve_left (Ne.symm hc))
      omega

/-! ## As a key and as an expression -/

theorem inner_chars (l : StringLiteral s) : Key.inner l.chars = l.body := by
  unfold Key.inner chars
  simp

theorem staticName?_key (l : StringLiteral s) : l.key.staticName? =
    some (match decodeBody l.handedParts.flatten with
      | .ok t => t
      | .error _ => .ofChars l.handedParts.flatten) := by
  have hbody : (if l.text.toList.head? = some '\x27' then
      Key.doubleQuotedBody '\x27' (Key.inner l.text.toList) else Key.inner l.text.toList) =
      l.handedParts.flatten := by
    rw [← l.doubleQuotedBody_body, text, String.toList_ofList, l.inner_chars]
    unfold chars quote
    cases l.isDouble <;> rfl
  have hunquote : Key.unquote l.text = match decodeBody l.handedParts.flatten with
      | .ok t => t
      | .error _ => .ofChars l.handedParts.flatten := by
    rw [← hbody]
    rfl
  simp only [Key.staticName?, key, Key.ofLiteral, hunquote, Bool.false_eq_true, if_false]

theorem parse_text (l : StringLiteral s) :
    Expression.parse l.text = .ofReading (Expression.readQuoted l.quote l.body) := by
  have hquote : Text.isBlank l.quote = false ∧ l.quote ≠ '(' ∧ l.quote.isAlpha = false ∧
      Text.isDigit l.quote = false ∧ l.quote ≠ '-' ∧ l.quote ≠ '.' ∧
      Brackets.isQuote l.quote = true := by
    unfold quote
    cases l.isDouble <;> decide
  obtain ⟨hblank, hopen, halpha, hdigit, hminus, hpoint, hisQuote⟩ := hquote
  have htight : Text.Tight l.chars :=
    (Text.Tight.singleton hblank).around (Text.Tight.singleton hblank) l.body
  have hcs : Expression.bare (Text.trim l.text.toList) = l.chars := by
    rw [text, String.toList_ofList, htight.trim_eq]
    exact Expression.bare_cons hopen
  have hkeyword : Expression.keyword? l.chars = none :=
    Expression.keyword?_eq_none_of_mem (c := l.quote) List.mem_cons_self halpha
  have hnumber : Expression.isNumber l.chars = false :=
    Expression.isNumber_cons hdigit hminus hpoint
  have hquoted : Expression.quotedBody? l.chars = some (l.quote, l.body) := by
    simp [chars, Expression.quotedBody?, hisQuote]
  simp only [Expression.parse, Expression.parseTo, hcs, hkeyword, hnumber, hquoted,
    Bool.false_eq_true, if_false]

/-- The literal stands for the string, as a key and as an expression, and both keys name one
property. -/
structure Decodes (l : StringLiteral s) : Prop where
  name : l.key.staticName? = some (.ofString s)
  value : ∀ {σ : Type} (host : Host σ) (names : Names),
    names.evaluate host l.text = pure (.text (.ofString s) .shared)
  property : ∀ {σ : Type} (host : Host σ) (names : Names) (shared : List (Nat × Nat))
    (keys : List (Nat × Value)) (place : Nat),
    Realization.keyOf host names shared keys place l.key =
      Realization.keyOf host names shared keys place l.computedKey

/-- The literal cannot be read: as a key it names another property, and as an expression it is
refused. -/
structure Fails (l : StringLiteral s) : Prop where
  name : ∃ name, l.key.staticName? = some name ∧ name ≠ .ofString s
  value : ∃ reason, ∀ {σ : Type} (host : Host σ) (names : Names),
    names.evaluate host l.text = throw (.refused (.resolution (.ofString l.text) reason))

theorem decodes_of_not_mem (l : StringLiteral s) (h : l.other ∉ s.toList) : l.Decodes := by
  have hread : decodeBody l.handedParts.flatten = .ok (.ofString s) :=
    Json.decodeBody_spelled (spelled_of_handed l.handed h)
  have hname : l.key.staticName? = some (.ofString s) := by
    rw [staticName?_key, hread]
  have hvalue : ∀ {σ : Type} (host : Host σ) (names : Names),
      names.evaluate host l.text = pure (.text (.ofString s) .shared) := by
    intro σ host names
    simp only [Names.evaluate, l.parse_text, Expression.readQuoted, l.doubleQuotedBody_body, hread,
      Expression.ofReading, Expression.eval]
  refine ⟨hname, hvalue, ?_⟩
  intro σ host names shared keys place
  have hcomputed : l.computedKey.staticName? = none := rfl
  unfold Realization.keyOf
  rw [hname, hcomputed]
  split
  · rfl
  · exact (hvalue host names).symm

theorem fails_of_mem (l : StringLiteral s) (h : l.other ∈ s.toList) : l.Fails := by
  obtain ⟨f, hfails⟩ := decodeBody_error_of_blocked l.handed h
  constructor
  · refine ⟨.ofChars l.handedParts.flatten, by rw [staticName?_key, hfails], ?_⟩
    intro heq
    have hlength := congrArg (fun t : Text => t.letters.length) heq
    simp only [Text.ofString, Text.ofChars, List.length_map] at hlength
    exact absurd hlength (Nat.ne_of_gt ((length_of_handed l.handed).2 h))
  · have htext : Text.ofString l.text = .ofChars (l.quote :: l.body ++ [l.quote]) := by
      rw [Text.ofString, text, String.toList_ofList, chars]
    refine ⟨.ofString ("invalid string literal (" ++
      f.message ('\x22' :: l.handedParts.flatten ++ ['\x22']) ++ ")"), ?_⟩
    intro σ host names
    simp only [Names.evaluate, l.parse_text, Expression.readQuoted, l.doubleQuotedBody_body, hfails,
      Expression.ofReading, Expression.eval, htext]

end StringLiteral

/-- A source literal stands for the string that it writes, as a key and as an expression, iff the
other quote does not stand in the string; otherwise it cannot be read. -/
theorem literal_decodes_iff {s : String} (l : StringLiteral s) :
    (l.Decodes ↔ l.other ∉ s.toList) ∧ (l.Fails ↔ l.other ∈ s.toList) := by
  have hapart : l.Decodes → ¬ l.Fails := by
    intro hdecodes hfails
    obtain ⟨name, hname, hne⟩ := hfails.name
    exact hne (Option.some.inj (hname.symm.trans hdecodes.name))
  by_cases hmem : l.other ∈ s.toList
  · have hfails := l.fails_of_mem hmem
    exact ⟨⟨fun hdecodes => absurd hfails (hapart hdecodes), fun h => absurd hmem h⟩,
      fun _ => hmem, fun _ => hfails⟩
  · have hdecodes := l.decodes_of_not_mem hmem
    exact ⟨⟨fun _ => hmem, fun _ => hdecodes⟩, fun hfails => absurd hfails (hapart hdecodes),
      fun h => absurd h hmem⟩

/-- A string with a single quote can be read in single quotes only. -/
theorem single_quote_decodes_in_single_quotes :
    ∃ double single : StringLiteral "it's", double.text = "\"it\\'s\"" ∧ single.text = "'it\\'s'" ∧
      double.Fails ∧ single.Decodes := by
  have hwrites : List.Forall₂ StringLiteral.Writes "it's".toList
      [['i'], ['t'], ['\\', '\x27'], ['s']] :=
    .cons (.plain (by decide) (by decide)) (.cons (.plain (by decide) (by decide))
      (.cons (.marked (by decide)) (.cons (.plain (by decide) (by decide)) .nil)))
  refine ⟨⟨true, _, hwrites⟩, ⟨false, _, hwrites⟩, rfl, rfl, ?_, ?_⟩
  · have hother : '\x27' ∈ "it's".toList := by decide
    exact (literal_decodes_iff ⟨true, _, hwrites⟩).2.2 hother
  · have hother : '\x22' ∉ "it's".toList := by decide
    exact (literal_decodes_iff ⟨false, _, hwrites⟩).1.2 hother

end Undecorate
