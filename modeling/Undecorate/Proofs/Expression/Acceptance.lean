import Undecorate.Proofs.Expression.Forms
import Undecorate.Proofs.Expression.Sections

/-! # Which calls and parentheses are accepted

Whether a call is read as one, and whether parentheses around an expression are taken away, is
decided by the first scanner. Unlike the second one, which cuts the arguments afterwards, it does
not know quotes: a bracket in a string counts. The two scanners agree when brackets match in every
string of the text. A string in which they do not match changes the verdict on some text, and
already a call with nothing else between its parentheses is refused.

* `Accepted`, `accepted_iff`: the text is read as an expression of a known form;
* `accepted_call_iff`, `accepted_group_iff`: for calls and parentheses the first scanner decides;
* `unnoticed_iff`: the strings that the first scanner does not notice;
* `matching_strings_go_unnoticed`: what is accepted, by what stands outside quotes.
-/

namespace Undecorate

namespace Diagnostic

theorem resolution_inj {e e' r r' : Text} (h : resolution e r = resolution e' r') : r = r' := by
  have hcontext : [(Text.ofString "expression", e)] = [(Text.ofString "expression", e')] :=
    congrArg context h
  obtain rfl : e = e' := by simpa using hcontext
  have hmessage : ("Cannot resolve '" ++ e ++ "': " ++ r : Text).letters =
      ("Cannot resolve '" ++ e ++ "': " ++ r' : Text).letters := congrArg (·.message.letters) h
  have hreason : r.letters = r'.letters := List.append_cancel_left hmessage
  cases r with
  | mk _ => exact congrArg Text.mk hreason

end Diagnostic

namespace Expression

open Brackets (Nested Tracks Stretch Quotable balanced_iff_nested)

variable {text : String} {cs callee : List Char}

/-! ## Accepted texts -/

/-- The text is read as an expression of a known form. -/
def Accepted (text : String) : Prop := ∀ shown, parse text ≠ unsupported shown

/-- Without blanks and parentheses around it, the text has one of the forms that are read. -/
inductive HasForm (cs : List Char) : Prop
  | keyword {v : Value} (h : keyword? cs = some v)
  | number (h : isNumber cs = true)
  | quoted {quote : Char} {body : List Char} (h : quotedBody? cs = some (quote, body))
  | path (h : isPath cs = true)
  | call {callee arguments : List Char} (h : callParts? cs = some (callee, arguments))

/-- A number that cannot be read is a bad value. -/
theorem readNumber_error {f : Fault} (h : readNumber cs = .error f) : ∃ m, f = .badValue m := by
  unfold readNumber Number.readMarked Number.readDouble at h
  dsimp only at h
  split at h
  · split at h
    · cases h
    · exact ⟨_, (Except.error.inj h).symm⟩
  · split at h
    · cases h
    · exact ⟨_, (Except.error.inj h).symm⟩

theorem ofReading_readNumber_ne (cs : List Char) (shown : String) :
    ofReading (readNumber cs) ≠ unsupported shown := by
  cases hread : readNumber cs with
  | ok v => exact fun h => nomatch h
  | error f =>
    obtain ⟨m, rfl⟩ := readNumber_error hread
    exact fun h => nomatch h

theorem ofReading_readQuoted_ne (q : Char) (body : List Char) (shown : String) :
    ofReading (readQuoted q body) ≠ unsupported shown := by
  unfold readQuoted
  dsimp only
  cases Json.decodeBody (Key.doubleQuotedBody q body) with
  | ok t => exact fun h => nomatch h
  | error f =>
    intro h
    have hreason := Diagnostic.resolution_inj
      (Fault.refused.inj (Expression.unreadable.inj h))
    have hletters := congrArg (fun t : Text => t.letters.head?) hreason
    simp [Text.ofString, Text.ofChars, String.toList_append] at hletters

theorem parse_of_not_hasForm (h : ¬ HasForm (bare (Text.trim text.toList))) :
    parse text = unsupported text := by
  unfold parse parseTo
  dsimp only
  generalize bare (Text.trim text.toList) = cs at h ⊢
  have hkeyword : keyword? cs = none :=
    Option.eq_none_iff_forall_ne_some.2 fun v hv => h (.keyword hv)
  have hnumber : ¬ isNumber cs = true := fun hn => h (.number hn)
  have hquoted : quotedBody? cs = none :=
    Option.eq_none_iff_forall_ne_some.2 fun p hp => h (.quoted hp)
  have hpath : ¬ isPath cs = true := fun hp => h (.path hp)
  have hcall : callParts? cs = none :=
    Option.eq_none_iff_forall_ne_some.2 fun p hp => h (.call hp)
  simp only [hkeyword, hnumber, hquoted, hpath, hcall, Bool.false_eq_true, if_false]

theorem accepted_of_hasForm (h : HasForm (bare (Text.trim text.toList))) : Accepted text := by
  intro shown
  unfold parse parseTo
  dsimp only
  generalize bare (Text.trim text.toList) = cs at h ⊢
  split
  · exact fun h => nomatch h
  rename_i hkeyword
  split
  · exact ofReading_readNumber_ne cs shown
  rename_i hnumber
  split
  · exact ofReading_readQuoted_ne _ _ shown
  rename_i hquoted
  split
  · exact fun h => nomatch h
  rename_i hpath
  split
  · exact fun h => nomatch h
  rename_i hcall
  -- every form has been tried
  cases h with
  | keyword h => simp [h] at hkeyword
  | number h => exact absurd h hnumber
  | quoted h => simp [h] at hquoted
  | path h => exact absurd h hpath
  | call h => simp [h] at hcall

/-- A text is accepted iff it has a known form without blanks and parentheses around it. -/
theorem accepted_iff : Accepted text ↔ HasForm (bare (Text.trim text.toList)) := by
  constructor
  · intro h
    by_contra hnone
    exact h text (parse_of_not_hasForm hnone)
  · exact accepted_of_hasForm

/-- What is not accepted is refused when it is evaluated. -/
theorem fails_of_not_accepted (h : ¬ Accepted text) {σ : Type} (host : Host σ) (names : Names)
    (w : World σ) : (names.evaluate host text).Fails w
      (.refused (.resolution text "unsupported expression form")) w := by
  have hparse := parse_of_not_hasForm (mt accepted_of_hasForm h)
  unfold Names.evaluate
  rw [hparse]
  rfl

/-! ## Calls and parentheses -/

/-- A call as it is written. -/
def callText (callee arguments : List Char) : String :=
  String.ofList (callee ++ '(' :: arguments ++ [')'])

/-- A text in parentheses. -/
def groupText (cs : List Char) : String := String.ofList ('(' :: cs ++ [')'])

/-- A call is accepted iff the brackets between its parentheses match. -/
theorem accepted_call_iff (h : isCallee callee = true) (arguments : List Char) :
    Accepted (callText callee arguments) ↔ Nested arguments := by
  have htrim :
      Text.trim (callText callee arguments).toList = callee ++ '(' :: arguments ++ [')'] := by
    obtain ⟨c, ds, rfl, hc⟩ := exists_start_of_isCallee h
    have hfirst : Text.Tight [c] :=
      .singleton (Text.isBlank_of_isNamePart (Text.of_isNameStart hc).1)
    have hlast : Text.Tight [')'] := .singleton (by decide)
    rw [callText, String.toList_ofList]
    have htight := hfirst.around hlast (ds ++ '(' :: arguments)
    rw [List.singleton_append, ← List.cons_append] at htight
    exact htight.trim_eq
  obtain ⟨hbare, hkeyword, hnumber, hquoted, hpath⟩ := of_call h arguments
  rw [accepted_iff, htrim, hbare, ← balanced_iff_nested]
  constructor
  · intro hform
    cases hform with
    | keyword hv => cases hkeyword.symm.trans hv
    | number hn => cases hnumber.symm.trans hn
    | quoted hq => cases hquoted.symm.trans hq
    | path hp => cases hpath.symm.trans hp
    | call hc =>
      rw [callParts?_call h] at hc
      by_contra hbalanced
      rw [if_neg hbalanced] at hc
      cases hc
  · intro hbalanced
    exact .call ((callParts?_call h arguments).trans (if_pos hbalanced))

/-- Parentheses of which nothing can be taken away begin no expression. -/
theorem not_hasForm_group (cs : List Char) : ¬ HasForm ('(' :: cs ++ [')']) := by
  have hopen : '(' ∈ '(' :: cs ++ [')'] := List.mem_cons_self
  have hkeyword := keyword?_eq_none_of_mem hopen (by decide)
  have hnumber : isNumber ('(' :: cs ++ [')']) = false :=
    isNumber_cons (by decide) (by decide) (by decide)
  have hquoted : quotedBody? ('(' :: cs ++ [')']) = none := quotedBody?_cons (by decide)
  have hpath := isPath_eq_false hopen (by decide) (by decide) (by decide)
  -- nothing stands in front of the parenthesis that could be called
  have hcall : callParts? ('(' :: cs ++ [')']) = none := by
    have hcallee : ('(' :: cs ++ [')']).takeWhile (· != '(') = [] := rfl
    simp only [callParts?, hcallee, List.length_nil, List.drop_zero, enclosed?_parentheses,
      isCallee, Bool.false_and, Bool.false_eq_true, if_false]
  intro hform
  cases hform with
  | keyword h => cases hkeyword.symm.trans h
  | number h => cases hnumber.symm.trans h
  | quoted h => cases hquoted.symm.trans h
  | path h => cases hpath.symm.trans h
  | call h => cases hcall.symm.trans h

/-- A text in parentheses is accepted iff the brackets in it match and it is accepted without the
parentheses. -/
theorem accepted_group_iff (cs : List Char) :
    Accepted (groupText cs) ↔ Nested cs ∧ Accepted (String.ofList cs) := by
  have htrim : Text.trim (groupText cs).toList = '(' :: cs ++ [')'] := by
    have hopen : Text.Tight ['('] := .singleton (by decide)
    have hclose : Text.Tight [')'] := .singleton (by decide)
    rw [groupText, String.toList_ofList]
    exact (hopen.around hclose cs).trim_eq
  rw [accepted_iff, accepted_iff, htrim, String.toList_ofList, ← balanced_iff_nested]
  cases hbalanced : Brackets.balanced cs with
  | false =>
    rw [bare_unbalanced hbalanced]
    exact iff_of_false (not_hasForm_group cs) fun h => nomatch h.1
  | true => rw [bare_parentheses hbalanced, and_iff_right rfl]

/-! ## Strings -/

section Strings

open Brackets.Stretch (textOf outsideOf bodies)

/-- A quoted section goes unnoticed by the first scanner wherever it stands iff the brackets in it
match. -/
theorem unnoticed_iff {st : Stretch} {body : List Char} (h : st.body? = some body) :
    (∀ before after, Brackets.balanced (textOf (before ++ st :: after)) =
      Brackets.balanced (textOf (before ++ after))) ↔ Nested body := by
  have htext : ∀ before after : List Stretch,
      textOf (before ++ st :: after) = textOf before ++ (st.chars ++ textOf after) := by
    intro before after
    rw [textOf, List.flatMap_append, List.flatMap_cons]
    rfl
  rw [← Stretch.nested_chars_iff h]
  constructor
  · intro h
    have hnone : Brackets.balanced (st.chars ++ []) = true := h [] []
    rw [List.append_nil] at hnone
    exact balanced_iff_nested.1 hnone
  · intro h before after
    have hrest : textOf (before ++ after) = textOf before ++ textOf after := List.flatMap_append
    rw [htext, hrest, Bool.eq_iff_iff, balanced_iff_nested, balanced_iff_nested]
    exact h.insert_iff _ _

/-- The strings make no difference to whether the brackets of the text match. -/
def Unnoticed (ss : List Stretch) : Prop := Nested (textOf ss) ↔ Nested (outsideOf ss)

/-- What strings do to the verdicts on a text. -/
structure StringsInBrackets (ss : List Stretch) : Prop where
  /-- The depth of the second scanner counts the brackets outside quotes. -/
  tracks : Tracks (textOf ss) ↔ Nested (outsideOf ss)
  /-- The first scanner agrees with it iff the strings make no difference. -/
  agree : (Brackets.balanced (textOf ss) = true ↔ Tracks (textOf ss)) ↔ Unnoticed ss
  /-- So do calls with the text between their parentheses. -/
  calls {callee : List Char} : isCallee callee = true →
    ((Accepted (callText callee (textOf ss)) ↔ Tracks (textOf ss)) ↔ Unnoticed ss)
  /-- So do parentheses around the text, if it is accepted without them. -/
  groups : Accepted (String.ofList (textOf ss)) →
    ((Accepted (groupText (textOf ss)) ↔ Tracks (textOf ss)) ↔ Unnoticed ss)
  /-- Strings in which brackets match make none. -/
  matching : (∀ body ∈ bodies ss, Nested body) → Unnoticed ss
  /-- Any other string makes one on some text. -/
  others {st : Stretch} {body : List Char} : st ∈ ss → st.body? = some body →
    ((∀ before after, Brackets.balanced (textOf (before ++ st :: after)) =
      Brackets.balanced (textOf (before ++ after))) ↔ Nested body)
  /-- It is refused as the only argument of a call already. -/
  alone {st : Stretch} {body callee : List Char} : st ∈ ss → st.body? = some body →
    isCallee callee = true → (Accepted (callText callee st.chars) ↔ Nested body)

/-- A text with closed quotes falls into stretches, and with them it is told when the two scanners
agree on it and when calls and parentheses are accepted by what stands outside of its strings: where
brackets match in every string. A string in which they do not match is noticed. -/
theorem matching_strings_go_unnoticed (cs : List Char) :
    ((Brackets.Scan.past {} cs).quote = none ↔ ∃ ss, textOf ss = cs) ∧
    ∀ ss, textOf ss = cs → StringsInBrackets ss := by
  refine ⟨Stretch.exists_stretches_iff.symm, fun ss _ => ?_⟩
  have htracks := Stretch.tracks_iff_nested ss
  exact {
    tracks := htracks
    agree := by rw [balanced_iff_nested, htracks, Unnoticed]
    calls := fun hcallee => by rw [accepted_call_iff hcallee, htracks, Unnoticed]
    groups := fun haccepted => by
      rw [accepted_group_iff, and_iff_left haccepted, htracks, Unnoticed]
    matching := Stretch.nested_textOf_iff
    others := fun _ hbody => unnoticed_iff hbody
    alone := fun _ hbody hcallee => by
      rw [accepted_call_iff hcallee, Stretch.nested_chars_iff hbody] }

/-- A closing bracket in a string: outside quotes all brackets match, and the call is refused. -/
theorem bracket_in_string_is_refused : Tracks ['\x27', ')', '\x27'] ∧
    Brackets.balanced ['\x27', ')', '\x27'] = false ∧
    ∀ {σ : Type} (host : Host σ) (names : Names) (w : World σ),
      (names.evaluate host "f(')')").Fails w
        (.refused (.resolution "f(')')" "unsupported expression form")) w := by
  have hbody : Quotable '\x27' [')'] := .plain (by decide) (by decide) .nil
  have hverdicts : StringsInBrackets [.quoted '\x27' [')'] rfl hbody] :=
    (matching_strings_go_unnoticed ['\x27', ')', '\x27']).2 _ rfl
  have htracks : Tracks ['\x27', ')', '\x27'] := by
    have hnothing : Nested [] := by decide
    exact hverdicts.tracks.2 hnothing
  have hrefused : ¬ Accepted (callText ['f'] ['\x27', ')', '\x27']) := fun h =>
    absurd ((hverdicts.alone List.mem_cons_self rfl (by decide)).1 h) (by decide)
  exact ⟨htracks, by decide, fun host names w => fails_of_not_accepted hrefused host names w⟩

end Strings

end Expression

end Undecorate
