import Undecorate.Data
import Undecorate.Number.Digits
import Undecorate.Number.Read
import Undecorate.Text.Lines

/-! # Checking given values

Settings and descriptor fields may be given as values of a related type: a truth value as `0` or
`"yes"`, a whole number as text. These are the rules of that reading, and the issues it reports.
-/

namespace Undecorate

/-- What is wrong with a given value. -/
inductive IssueKind where
  | check (message : String)
  | choice
  | boolParsing
  | boolType
  | intParsing
  | intParsingSize
  | intType
  | intFromFloat
  | finiteNumber
  | stringType
  | stringUnicode
  | missing
  | noSuchAttribute
deriving DecidableEq, Repr

/-- An issue with a field, or with the whole record when no field is named. -/
structure Issue where
  field : Option String
  kind : IssueKind
deriving DecidableEq, Repr

/-- The name of an issue's kind. -/
def IssueKind.name : IssueKind → String
  | .check _ => "value_error"
  | .choice => "enum"
  | .boolParsing => "bool_parsing"
  | .boolType => "bool_type"
  | .intParsing => "int_parsing"
  | .intParsingSize => "int_parsing_size"
  | .intType => "int_type"
  | .intFromFloat => "int_from_float"
  | .finiteNumber => "finite_number"
  | .stringType => "string_type"
  | .stringUnicode => "string_unicode"
  | .missing => "missing"
  | .noSuchAttribute => "no_such_attribute"

/-- What the reading of a value looks at. -/
inductive Scalar where
  | bool (b : Bool)
  | int (n : Int)
  | float (x : Double)
  | text (t : Text)
  | other
deriving DecidableEq, Repr

/-- The scalar that plain data is, if it is one. -/
def Data.scalar : Data → Scalar
  | .bool b => .bool b
  | .int n => .int n
  | .float x => .float x
  | .text t => .text t
  | _ => .other

namespace Scalar

/-- The string of a text, which has to consist of characters. -/
def stringOf (t : Text) : Except IssueKind String :=
  match t.string? with
  | some s => .ok s
  | none => .error .stringUnicode

/-! ## Truth values -/

/-- Whether a whole number fits into a signed word of 64 bits. -/
def isWord (n : Int) : Bool := -0x8000000000000000 ≤ n && n < 0x8000000000000000

/-- Reads a whole number as a truth value. -/
def boolOfInt (n : Int) : Except IssueKind Bool :=
  if n = 0 then .ok false
  else if n = 1 then .ok true
  else if isWord n then .error .boolParsing
  else .error .boolType

/-- Reads a word for a truth value, in any letter case. -/
def boolOfWord (s : String) : Except IssueKind Bool :=
  let word := s.map Char.toLower
  if ["0", "off", "f", "false", "n", "no"].contains word then .ok false
  else if ["1", "on", "t", "true", "y", "yes"].contains word then .ok true
  else .error .boolParsing

/-- The whole number that a floating one is, which has to lie strictly between the ends of a signed
word. -/
def intOfFloat (x : Double) : Except IssueKind Int :=
  match x with
  | .nan | .infinite _ => .error .finiteNumber
  | x =>
    if !x.isWhole then .error .intFromFloat
    else if x.truncate.natAbs < 0x8000000000000000 then .ok x.truncate
    else .error .intParsingSize

/-- Reads a truth value: one itself, zero and one, or a word for it. -/
def readBool : Scalar → Except IssueKind Bool
  | .bool b => .ok b
  | .int n => boolOfInt n
  | .float x => match intOfFloat x with
    | .ok n => boolOfInt n
    | .error _ => .error .boolType
  | .text t => do boolOfWord (← stringOf t)
  | .other => .error .boolType

/-! ## Whole numbers -/

/-- Reads digits, which may have a minus sign in front and no zero before other digits. With the
sign they may not be too many. -/
def intOfDigits (cs : List Char) : Except IssueKind Int :=
  let (negative, unsigned) := match cs with
    | '-' :: cs => (true, cs)
    | cs => (false, cs)
  let digits := unsigned.takeWhile Char.isDigit
  let size := digits.length + (if negative then 1 else 0)
  if digits.isEmpty || digits.head? == some '0' && 1 < digits.length then .error .intParsing
  else if Number.digitLimit < size then .error .intParsingSize
  else if digits.length < unsigned.length then .error .intParsing
  else
    let n : Int := Number.decimalValue digits
    .ok (if negative then -n else n)

/-- Takes leading zeros away, and underscores among them. One zero stays before a point and at the
end. A minus sign may follow the zeros. -/
def dropZeros? : List Char → Option (List Char)
  | '0' :: cs =>
    let zeros := (cs.takeWhile fun c => c == '0' || c == '_').length
    match cs.drop zeros with
    | [] => some (('0' :: cs).drop zeros)
    | c :: rest =>
      if c == '.' then some (('0' :: cs).drop zeros)
      else if c == '-' || ('1' ≤ c && c ≤ '9') then some (c :: rest)
      else none
  | c :: cs => if c == '-' || ('1' ≤ c && c ≤ '9') then some (c :: cs) else none
  | [] => none

/-- Takes a point with zeros after it away. -/
def dropFraction? (cs : List Char) : Option (List Char) :=
  let whole := cs.takeWhile (· != '.')
  match cs.drop whole.length with
  | [] => some cs
  | _ :: zeros => if !zeros.isEmpty && zeros.all (· == '0') then some whole else none

/-- Takes underscores away, if there is none at either end and no two stand side by side. -/
def dropUnderscores (cs : List Char) : List Char :=
  let groups := Text.pieces '_' cs
  if groups.all (!·.isEmpty) then groups.flatten else cs

/-- Takes away what a whole number may be written with beside its digits: white space around it, a
plus sign, leading zeros, a fraction of zeros and underscores. -/
def cleaned? (cs : List Char) : Option (List Char) :=
  match Text.trimBoth Number.isPadding cs with
  | '+' :: '-' :: _ => none
  | '+' :: cs => ((dropZeros? cs).bind dropFraction?).map dropUnderscores
  | cs => ((dropZeros? cs).bind dropFraction?).map dropUnderscores

/-- Reads a text as a whole number, as it is or else cleaned. -/
def intOfString (s : String) : Except IssueKind Int :=
  match intOfDigits s.toList, cleaned? s.toList with
  | .ok n, _ => .ok n
  | .error .intParsingSize, _ => .error .intParsingSize
  | .error _, some cs => intOfDigits cs
  | .error k, none => .error k

/-- Reads a whole number: one itself, a truth value, a whole floating number or a text. -/
def readInt : Scalar → Except IssueKind Int
  | .bool b => .ok (if b then 1 else 0)
  | .int n => .ok n
  | .float x => intOfFloat x
  | .text t => do intOfString (← stringOf t)
  | .other => .error .intType

/-! ## Texts -/

/-- Reads a text, which must be one. -/
def readText : Scalar → Except IssueKind Text
  | .text t => .ok t
  | _ => .error .stringType

/-- Reads one of a fixed choice of names. -/
def readChoice {α : Type} (choices : List (String × α)) : Scalar → Except IssueKind α
  | .text t => do
    match choices.lookup (← stringOf t) with
    | some a => .ok a
    | none => .error .choice
  | _ => .error .choice

end Scalar

end Undecorate
