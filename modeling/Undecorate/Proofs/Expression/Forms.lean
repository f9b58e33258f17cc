import Undecorate.Proofs.Expression.Scanning
import Undecorate.Proofs.Json.Literal
import Undecorate.Proofs.Text.Pieces

/-! # Forms of expressions

An expression is read by a row of tests on its text, each made only when all before it have failed.
For every form of a term, the tests of the other forms before it fail and its own test succeeds,
with the value or the parts that the term was written from.

* `bare_parentheses`: parentheses around a text with matching brackets are taken away;
* `readNumber_chars`: a hexadecimal number has the value that its digits spell;
* `readQuoted_body`: a text in quotes stands for what is between them;
* `callParts?_chars`: a call is cut into what it calls and its argument list.
-/

namespace Undecorate.Expression

variable {c : Char} {cs : List Char}

/-! ## Parentheses -/

theorem enclosed?_parentheses (cs : List Char) : enclosed? ('(' :: cs ++ [')']) = some cs := by
  simp [enclosed?]

theorem enclosed?_cons (hc : c ≠ '(') : enclosed? (c :: cs) = none := by
  simp [enclosed?, hc]

theorem bare_cons (hc : c ≠ '(') : bare (c :: cs) = c :: cs := by
  rw [bare]
  split
  · rename_i h
    rw [enclosed?_cons hc] at h
    cases h
  · rfl

/-- Parentheses are taken away if the brackets between them match, together with the blanks beside
them. -/
theorem bare_parentheses (h : Brackets.balanced cs = true) :
    bare ('(' :: cs ++ [')']) = bare (Text.trim cs) := by
  rw [bare]
  split
  · rename_i inner hinner
    rw [enclosed?_parentheses] at hinner
    obtain rfl := Option.some.inj hinner
    rw [if_pos h]
  · rename_i hnone
    rw [enclosed?_parentheses] at hnone
    cases hnone

theorem bare_unbalanced (h : Brackets.balanced cs = false) :
    bare ('(' :: cs ++ [')']) = '(' :: cs ++ [')'] := by
  rw [bare]
  split
  · rename_i inner hinner
    rw [enclosed?_parentheses] at hinner
    obtain rfl := Option.some.inj hinner
    rw [if_neg (by simp [h])]
  · rfl

/-! ## Keywords -/

theorem keyword?_name (k : Keyword) : keyword? k.name.toList = some k.value := by
  cases k <;> simp [keyword?, Keyword.name, Keyword.value, List.lookup_cons]

theorem keyword?_eq_none (h : ∀ k : Keyword, String.ofList cs ≠ k.name) : keyword? cs = none := by
  have hname : ∀ k : Keyword, (String.ofList cs == k.name) = false := fun k => by simp [h k]
  have htrue := hname .true
  have hfalse := hname .false
  have hnull := hname .null
  have hundefined := hname .undefined
  simp only [Keyword.name] at htrue hfalse hnull hundefined
  simp only [keyword?, List.lookup_cons, List.lookup_nil, htrue, hfalse, hnull, hundefined]

theorem keyword?_eq_none_of_mem (hc : c ∈ cs) (halpha : c.isAlpha = false) :
    keyword? cs = none := by
  refine keyword?_eq_none fun k hk => ?_
  have hletter : c.isAlpha = true := by
    refine Keyword.isAlpha_of_mem (k := k) ?_
    rw [← hk, String.toList_ofList]
    exact hc
  rw [hletter] at halpha
  cases halpha

/-! ## Numbers -/

/-- A number begins with a digit, a minus sign or a point. -/
theorem isNumber_cons (hdigit : Text.isDigit c = false) (hminus : c ≠ '-') (hpoint : c ≠ '.') :
    isNumber (c :: cs) = false := by
  have hzero : c ≠ '0' := by
    rintro rfl
    revert hdigit
    decide
  simp [isNumber, unsigned, hminus, isDecimal, hdigit, isMarked, Number.markedBase?, hzero]

theorem hexValue?_char (d : HexDigit) : Number.hexValue? d.char = some d.value.val := by
  have hall : ∀ (v : Fin 16) (u : Bool),
      Number.hexValue? (⟨v, u⟩ : HexDigit).char = some v.val := by decide
  exact hall d.value d.upper

theorem char_ne_underscore (d : HexDigit) : d.char ≠ '_' := by
  have hall : ∀ (v : Fin 16) (u : Bool), (⟨v, u⟩ : HexDigit).char ≠ '_' := by decide
  exact hall d.value d.upper

theorem isPadding_char (d : HexDigit) : Number.isPadding d.char = false := by
  rw [Number.isPadding, (Hexadecimal.of_mem_alphabet (Hexadecimal.char_mem_alphabet d)).1,
    Bool.false_and]

theorem digitsValue?_chars (ds : List HexDigit) :
    Number.digitsValue? 16 (ds.map (·.char)) =
      some (ds.foldl (fun m d => m * 16 + d.value.val) 0) := by
  unfold Number.digitsValue?
  generalize 0 = m
  induction ds generalizing m with
  | nil => rfl
  | cons d ds ih =>
    simp only [List.map_cons, List.foldlM_cons, hexValue?_char, Option.bind_some, d.value.isLt,
      if_true, List.foldl_cons]
    exact ih _

/-- Without underscores, a number is its mark and its digits. -/
theorem filter_chars (n : Hexadecimal) :
    n.chars.filter (· != '_') = n.mark ++ n.digits.map (·.char) := by
  have hmark : n.mark.filter (· != '_') = n.mark := by
    unfold Hexadecimal.mark
    cases n.negative <;> cases n.upperMark <;> rfl
  have hplaces : ∀ places : List (Option HexDigit),
      (places.map fun place => (place.map (·.char)).getD '_').filter (· != '_') =
        (places.filterMap id).map (·.char) := by
    intro places
    induction places with
    | nil => rfl
    | cons place places ih =>
      cases place with
      | none => simpa using ih
      | some d => simpa [char_ne_underscore d] using ih
  rw [Hexadecimal.chars, List.filter_append, hmark, hplaces]
  rfl

theorem digits_ne_nil (n : Hexadecimal) : n.digits ≠ [] := by
  obtain ⟨place, hplace, hsome⟩ := List.any_eq_true.1 n.hasDigit
  obtain ⟨d, rfl⟩ := Option.isSome_iff_exists.1 hsome
  exact List.ne_nil_of_mem (List.mem_filterMap.2 ⟨some d, hplace, rfl⟩)

/-- The mark announces base sixteen. -/
theorem markedBase?_unsigned (n : Hexadecimal) (ds : List Char) :
    Number.markedBase? (unsigned (n.mark ++ ds)) = some (16, ds) := by
  unfold Hexadecimal.mark
  cases n.negative <;> cases n.upperMark <;> rfl

theorem isNumber_chars (n : Hexadecimal) : isNumber n.chars = true := by
  have hdigit : ∀ place : Option HexDigit,
      isMarkedDigit 16 ((place.map (·.char)).getD '_') = true := by
    intro place
    cases place with
    | none => rfl
    | some d => simp [isMarkedDigit, hexValue?_char]
  have hplaces : n.places ≠ [] := by
    rintro h
    have hany := n.hasDigit
    rw [h] at hany
    cases hany
  have hmarked : isMarked (unsigned n.chars) = true := by
    rw [isMarked, Hexadecimal.chars, markedBase?_unsigned]
    simp [hplaces, hdigit]
  rw [isNumber, hmarked, Bool.or_true]

/-- No padding stands behind digits. -/
theorem dropPadding_digits (n : Hexadecimal) (cs : List Char) :
    ((cs ++ n.digits.map (·.char)).reverse.dropWhile Number.isPadding).reverse =
      cs ++ n.digits.map (·.char) := by
  rw [← List.dropLast_concat_getLast (digits_ne_nil n), List.map_append, List.map_singleton,
    ← List.append_assoc, List.reverse_append, List.reverse_singleton, List.singleton_append,
    List.dropWhile_cons_of_neg (by simp [isPadding_char]), List.reverse_cons, List.reverse_reverse]

theorem readMarked?_mark (n : Hexadecimal) :
    Number.readMarked? (n.mark ++ n.digits.map (·.char)) = some n.value := by
  have hvalue := digitsValue?_chars n.digits
  have hpadding : ∀ mark : Char, (('0' :: mark :: n.digits.map (·.char)).reverse.dropWhile
      Number.isPadding).reverse = '0' :: mark :: n.digits.map (·.char) :=
    fun mark => dropPadding_digits n ['0', mark]
  have hbase : ∀ ds, Number.markedBase? ('0' :: (if n.upperMark then 'X' else 'x') :: ds) =
      some (16, ds) := by
    intro ds
    cases n.upperMark <;> rfl
  unfold Hexadecimal.mark Hexadecimal.value Hexadecimal.magnitude
  cases n.negative with
  | false => simp [Number.readMarked?, -List.reverse_cons, hpadding, hbase, hvalue, digits_ne_nil]
  | true => simp [Number.readMarked?, -List.reverse_cons, hpadding, hbase, hvalue, digits_ne_nil]

/-- A hexadecimal number has the value that its digits spell. -/
theorem readNumber_chars (n : Hexadecimal) : readNumber n.chars = .ok (.int n.value .shared) := by
  unfold readNumber
  rw [filter_chars]
  simp only [markedBase?_unsigned, Option.isSome_some, if_true, Number.readMarked, readMarked?_mark]
  rfl

/-! ## Texts in quotes -/

theorem quotedBody?_cons (hc : Brackets.isQuote c = false) : quotedBody? (c :: cs) = none := by
  simp [quotedBody?, hc]

theorem quotedBody?_chars (q : Quoted) : quotedBody? q.chars = some (q.quote.char, q.body) := by
  simp [Quoted.chars, quotedBody?, q.quote.isQuote_char]

theorem bareQuotes_of_no_backslash (quote : Char) (h : ∀ c ∈ cs, c ≠ '\\') :
    Key.bareQuotes quote cs = cs := by
  induction cs with
  | nil => rfl
  | cons c cs ih =>
    have hc := h c List.mem_cons_self
    rw [Key.bareQuotes, ih fun d hd => h d (List.mem_cons_of_mem c hd)]
    rintro d ds rfl
    exact fun _ => hc rfl

theorem escapeDoubleQuotes_of_none (h : ∀ c ∈ cs, c ≠ '\x22') : Key.escapeDoubleQuotes cs = cs := by
  induction cs with
  | nil => rfl
  | cons c cs ih =>
    have hcs := ih fun d hd => h d (List.mem_cons_of_mem c hd)
    unfold Key.escapeDoubleQuotes at hcs ⊢
    rw [List.flatMap_cons, hcs, if_neg (h c List.mem_cons_self), List.singleton_append]

/-- Between double quotes the text would stand as it is. -/
theorem doubleQuotedBody_body (q : Quoted) : Key.doubleQuotedBody q.quote.char q.body = q.body := by
  have hback : ∀ c ∈ q.body, c ≠ '\\' := fun c hc => (Quoted.of_mem_body hc).2.1
  have hdouble : ∀ c ∈ q.body, c ≠ '\x22' := by
    rintro c hc rfl
    cases (Quoted.of_mem_body hc).1
  rw [Key.doubleQuotedBody, bareQuotes_of_no_backslash _ hback, escapeDoubleQuotes_of_none hdouble,
    ite_self]

/-- A text in quotes stands for what is between them. -/
theorem readQuoted_body (q : Quoted) :
    readQuoted q.quote.char q.body = .ok (.text (.ofChars q.body) .shared) := by
  have hplain : List.Forall₂ Json.Spells q.body (q.body.map fun c => [c]) := by
    rw [List.forall₂_map_right_iff, List.forall₂_same]
    intro c hc
    obtain ⟨hquote, hback, -, -, hcontrol⟩ := Quoted.of_mem_body hc
    refine .plain ?_ hback hcontrol
    rintro rfl
    cases hquote
  have hdecode : Json.decodeBody q.body = .ok (.ofChars q.body) := by
    have hread := Json.decodeBody_spelled hplain
    rwa [← List.flatMap_def, List.flatMap_singleton'] at hread
  simp only [readQuoted, doubleQuotedBody_body, hdecode]

/-! ## Paths -/

theorem isName_chars (x : Identifier) : isName (Text.trim x.chars) = true := by
  rw [x.tight.trim_eq]
  exact x.valid

/-- A path is cut at its dots into its names. -/
theorem pieces_chars (p : Dotted) :
    Text.pieces '.' p.chars = (p.first :: p.rest).map (·.chars) := by
  have hdot : ∀ x : Identifier, '.' ∉ x.chars := fun x => x.not_mem_chars (by decide)
  obtain ⟨first, rest⟩ := p
  unfold Dotted.chars
  induction rest generalizing first with
  | nil => exact Text.pieces_of_not_mem (hdot first)
  | cons x xs ih =>
    rw [List.map_cons, List.map_cons, Text.joinWith, List.append_assoc, List.singleton_append,
      Text.pieces_append_cons, Text.pieces_of_not_mem (hdot first), ← List.map_cons, ih x]
    rfl

theorem isPath_chars (p : Dotted) : isPath p.chars = true := by
  rw [isPath, pieces_chars, List.all_map, List.all_eq_true]
  exact fun x _ => isName_chars x

/-- Besides names, dots and blanks nothing stands in a path. -/
theorem isPath_eq_false (hc : c ∈ cs) (hpart : Text.isNamePart c = false) (hdot : c ≠ '.')
    (hblank : Text.isBlank c = false) : isPath cs = false := by
  cases hpath : isPath cs with
  | false => rfl
  | true =>
    rw [← Text.joinWith_pieces '.' cs] at hc
    obtain hc | ⟨p, hp, hc⟩ := Text.mem_joinWith hc
    · exact absurd (List.mem_singleton.1 hc) hdot
    · have hname := List.all_eq_true.1 hpath p hp
      -- a name has no other characters, and trimming has kept this one
      have hpart' := Identifier.isNamePart_of_mem ⟨_, hname⟩ (Text.mem_trim hblank hc)
      rw [hpart] at hpart'
      cases hpart'

/-! ## Calls -/

theorem isCallee_chars (p : Dotted) : isCallee p.chars = true := by
  obtain ⟨c, cs, hp, hc⟩ := p.exists_start
  rw [hp, isCallee, hc, Bool.true_and, List.all_eq_true]
  intro d hd
  rcases p.isNamePart_or_dot (hp ▸ List.mem_cons_of_mem c hd) with hd | rfl
  · simp [hd]
  · simp

theorem exists_start_of_isCallee (h : isCallee cs = true) :
    ∃ c ds, cs = c :: ds ∧ Text.isNameStart c = true := by
  cases cs with
  | nil => cases h
  | cons c ds =>
    rw [isCallee, Bool.and_eq_true] at h
    exact ⟨c, ds, rfl, h.1⟩

/-- What is called has no parenthesis in it. -/
theorem ne_of_mem_callee (h : isCallee cs = true) (hc : c ∈ cs) : c ≠ '(' := by
  cases cs with
  | nil => cases hc
  | cons d ds =>
    rw [isCallee, Bool.and_eq_true, List.all_eq_true] at h
    obtain ⟨hstart, hall⟩ := h
    rintro rfl
    rcases List.mem_cons.1 hc with rfl | hc
    · revert hstart
      decide
    · have hfalse := hall '(' hc
      revert hfalse
      decide

/-- A call is cut into what it calls and its argument list, if the brackets in the list match. -/
theorem callParts?_call (h : isCallee cs = true) (arguments : List Char) :
    callParts? (cs ++ '(' :: arguments ++ [')']) =
      if Brackets.balanced arguments then some (Text.trimEnd cs, arguments) else none := by
  have hnone : ∀ c ∈ cs, (c != '(') = true := fun c hc => bne_iff_ne.2 (ne_of_mem_callee h hc)
  have hcallee : (cs ++ ('(' :: arguments ++ [')'])).takeWhile (· != '(') = cs := by
    rw [List.takeWhile_append_of_pos hnone, List.cons_append, List.takeWhile_cons_of_neg (by simp),
      List.append_nil]
  have hrest : (cs ++ ('(' :: arguments ++ [')'])).drop cs.length = '(' :: arguments ++ [')'] :=
    List.drop_left
  simp only [callParts?, List.append_assoc, hcallee, hrest, enclosed?_parentheses, h, Bool.true_and]

/-- What is called in a call of a path is the path. -/
theorem callParts?_chars (p : Dotted) {arguments : List Char}
    (hbalanced : Brackets.balanced arguments = true) :
    callParts? (p.chars ++ '(' :: arguments ++ [')']) = some (p.chars, arguments) := by
  rw [callParts?_call (isCallee_chars p), if_pos hbalanced, p.tight.trimEnd_eq]

/-! ## Which form a text has -/

/-- What begins like a name has no parentheses around it, and is neither a number nor in quotes. -/
theorem of_isNameStart (hc : Text.isNameStart c = true) (cs : List Char) :
    bare (c :: cs) = c :: cs ∧ isNumber (c :: cs) = false ∧ quotedBody? (c :: cs) = none := by
  obtain ⟨hpart, hdigit⟩ := Text.of_isNameStart hc
  have hne := Text.ne_of_mem_signs hpart
  simp only [Text.signs, List.forall_mem_cons, List.not_mem_nil, false_implies, implies_true] at hne
  have hquote : Brackets.isQuote c = false := by simp [Brackets.isQuote, hne]
  have hnumber : isNumber (c :: cs) = false :=
    isNumber_cons hdigit (by simp [hne]) (by simp [hne])
  exact ⟨bare_cons hne.1, hnumber, quotedBody?_cons hquote⟩

theorem of_number (n : Hexadecimal) : bare n.chars = n.chars ∧ keyword? n.chars = none := by
  have hzero : '0' ∈ n.chars := by simp [Hexadecimal.chars, Hexadecimal.mark]
  refine ⟨?_, keyword?_eq_none_of_mem hzero (by decide)⟩
  unfold Hexadecimal.chars Hexadecimal.mark
  cases n.negative with
  | false => exact bare_cons (by decide)
  | true => exact bare_cons (by decide)

theorem of_quoted (q : Quoted) :
    bare q.chars = q.chars ∧ keyword? q.chars = none ∧ isNumber q.chars = false := by
  have hstart : q.quote.char ≠ '(' ∧ q.quote.char ≠ '-' ∧ q.quote.char ≠ '.' ∧
      Text.isDigit q.quote.char = false ∧ q.quote.char.isAlpha = false := by
    cases q.quote <;> decide
  obtain ⟨hopen, hminus, hpoint, hdigit, halpha⟩ := hstart
  exact ⟨bare_cons hopen, keyword?_eq_none_of_mem List.mem_cons_self halpha,
    isNumber_cons hdigit hminus hpoint⟩

theorem of_path (p : Dotted) :
    bare p.chars = p.chars ∧ isNumber p.chars = false ∧ quotedBody? p.chars = none := by
  obtain ⟨c, cs, hp, hc⟩ := p.exists_start
  rw [hp]
  exact of_isNameStart hc cs

/-- The parenthesis tells a call from a keyword and from a path. -/
theorem of_call (h : isCallee cs = true) (arguments : List Char) :
    let text := cs ++ '(' :: arguments ++ [')']
    bare text = text ∧ keyword? text = none ∧ isNumber text = false ∧ quotedBody? text = none ∧
      isPath text = false := by
  intro text
  have hopen : '(' ∈ text := by simp [text]
  obtain ⟨c, ds, hcs, hc⟩ := exists_start_of_isCallee h
  have htext : text = c :: (ds ++ '(' :: arguments ++ [')']) := by simp [text, hcs]
  obtain ⟨hbare, hnumber, hquoted⟩ := of_isNameStart hc (ds ++ '(' :: arguments ++ [')'])
  refine ⟨?_, keyword?_eq_none_of_mem hopen (by decide), ?_, ?_,
    isPath_eq_false hopen (by decide) (by decide) (by decide)⟩
  · rw [htext, hbare]
  · rw [htext, hnumber]
  · rw [htext, hquoted]

end Undecorate.Expression
