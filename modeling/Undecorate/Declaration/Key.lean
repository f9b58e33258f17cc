import Undecorate.Data
import Undecorate.Json.Literal
import Undecorate.Number.Read

/-! # Property keys

A key as it is written: a name, a string or number literal, a private name or a computed
expression. A key that is not computed has a static name, and members with one identity share a
property.
-/

namespace Undecorate

/-- The kinds of literals that a key can be. -/
inductive LiteralKind where
  | string
  | number
deriving DecidableEq, Repr

/-- A property key as written; a computed key's text is the expression between its brackets. -/
structure Key where
  text : String
  isComputed : Bool := false
  isPrivate : Bool := false
  literal : Option LiteralKind := none
deriving DecidableEq, Repr, Inhabited

/-- What two keys of one property have in common. -/
inductive KeyIdentity where
  | computed (text : String)
  | hidden (text : String)
  | name (name : Text)
deriving DecidableEq, Repr

namespace Key

/-- Takes the backslash away before every `quote`. -/
def bareQuotes (quote : Char) : List Char → List Char
  | '\\' :: c :: cs =>
    if c = quote then quote :: bareQuotes quote cs else '\\' :: bareQuotes quote (c :: cs)
  | c :: cs => c :: bareQuotes quote cs
  | [] => []

/-- Puts a backslash before every double quote. -/
def escapeDoubleQuotes (cs : List Char) : List Char :=
  cs.flatMap fun c => if c = '\x22' then ['\\', c] else [c]

/-- The text between the quotes of a literal in the given quotes, as it would stand between double
quotes. -/
def doubleQuotedBody (quote : Char) (body : List Char) : List Char :=
  if quote = '\x22' then body else escapeDoubleQuotes (bareQuotes quote body)

/-- A text without its first and last character. -/
def inner (cs : List Char) : List Char := (cs.drop 1).dropLast

/-- The value of a string literal, or its body where that cannot be read. -/
def unquote (s : String) : Text :=
  let cs := s.toList
  let body := inner cs
  let body := if cs.head? = some '\x27' then doubleQuotedBody '\x27' body else body
  match Json.decodeBody body with
  | .ok value => value
  | .error _ => .ofChars body

/-- Numbers below this bound are written without an exponent when they are whole. -/
def wholeBound : Nat := 1000000000000000000000

/-- The name of a number literal: the number in its usual decimal form, or the literal itself
where it is not a number or has too many digits. -/
def canonicalNumber (s : String) : String :=
  let digits := s.toList.filter (· != '_')
  match Number.markedBase? digits with
  | some _ => ((Number.readMarked? digits).bind Number.text?).getD s
  | none => match Number.readDouble? digits with
    | some x =>
      if x.isWhole && x.truncate.natAbs < wholeBound then toString x.truncate else x.text
    | none => s

/-- The name of the property, when it is known without evaluating anything. -/
def staticName? (k : Key) : Option Text :=
  if k.isComputed then none
  else match k.literal with
    | some .string => some (unquote k.text)
    | some .number => some (canonicalNumber k.text)
    | none => some k.text

/-- The identity of a key: computed keys are the same only if their texts are. -/
def identity (k : Key) : KeyIdentity :=
  if k.isComputed then .computed (String.ofList (Text.trim k.text.toList))
  else if k.isPrivate then .hidden k.text
  else .name (k.staticName?.getD k.text)

/-- A key as messages show it. -/
def displayName (k : Key) : String :=
  if k.isComputed then "[" ++ k.text ++ "]" else k.text

end Key

end Undecorate
