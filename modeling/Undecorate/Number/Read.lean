import Undecorate.Number.Double
import Undecorate.Text.Blank
import Undecorate.Text.Word

/-! # Reading numbers

Decimal numbers with digits of any script, and whole numbers written in base two, eight or sixteen
behind the usual marks.
-/

namespace Undecorate.Number

/-- The value of a digit in bases up to sixteen; decimal digits may be of any script. -/
def hexValue? (c : Char) : Option Nat :=
  match Text.digitValue? c with
  | some n => some n
  | none =>
    if 'a' ≤ c && c ≤ 'f' then some (c.toNat - 0x57)
    else if 'A' ≤ c && c ≤ 'F' then some (c.toNat - 0x37)
    else none

/-- The whole number that digits spell in a base; none if a digit does not belong to it. -/
def digitsValue? (base : Nat) (cs : List Char) : Option Nat :=
  cs.foldlM (fun n c => (hexValue? c).bind fun d => if d < base then some (n * base + d) else none) 0

/-- The base that a mark such as `0x` announces. -/
def markedBase? : List Char → Option (Nat × List Char)
  | '0' :: c :: cs =>
    if c == 'x' || c == 'X' then some (16, cs)
    else if c == 'o' || c == 'O' then some (8, cs)
    else if c == 'b' || c == 'B' then some (2, cs)
    else none
  | _ => none

/-- Whether a character may stand around a number: a blank, but no information separator. -/
def isPadding (c : Char) : Bool := Text.isBlank c && !(0x1C ≤ c.toNat && c.toNat ≤ 0x1F)

/-- A whole number behind a mark, with an optional minus sign and no other characters than
blanks after it. -/
def readMarked? (cs : List Char) : Option Int := do
  let (negative, cs) := match cs with
    | '-' :: cs => (true, cs)
    | cs => (false, cs)
  let (base, digits) ← markedBase? (cs.reverse.dropWhile isPadding).reverse
  if digits.isEmpty then none
  let n ← digitsValue? base digits
  return if negative then -(n : Int) else n

/-- Splits off the leading decimal digits. -/
def spanDigits (cs : List Char) : List Char × List Char := cs.span Text.isDigit

/-- The value of decimal digits of any script. -/
def decimalValue (cs : List Char) : Nat :=
  cs.foldl (fun n c => n * 10 + (Text.digitValue? c).getD 0) 0

/-- An optional exponent at the end of a number. -/
def exponent? : List Char → Option Int
  | [] => some 0
  | c :: cs =>
    if c == 'e' || c == 'E' then
      let (negative, cs) := match cs with
        | '-' :: cs => (true, cs)
        | '+' :: cs => (false, cs)
        | cs => (false, cs)
      let (digits, rest) := spanDigits cs
      if digits.isEmpty || !rest.isEmpty then none
      else some (if negative then -(decimalValue digits : Int) else decimalValue digits)
    else none

/-- A decimal number without sign: digits with an optional point among or around them, and an
optional exponent. -/
def unsigned? (negative : Bool) (cs : List Char) : Option Double :=
  let (whole, rest) := spanDigits cs
  let (fraction, rest) := match rest with
    | '.' :: rest => spanDigits rest
    | rest => ([], rest)
  if whole.isEmpty && fraction.isEmpty then none
  else (exponent? rest).map fun x =>
    Double.ofDecimal negative (decimalValue (whole ++ fraction)) (x - fraction.length)

/-- The letters of a word in lower case, for the names of the special numbers. -/
def lowerAscii (cs : List Char) : List Char := cs.map Char.toLower

/-- Takes away the underscores that stand between two digits; none if there is another one. -/
def joinDigits? : List Char → Option (List Char)
  | [] => some []
  | ['_'] => none
  | [c] => some [c]
  | c :: '_' :: d :: cs =>
    if Text.isDigit c && Text.isDigit d then (joinDigits? (d :: cs)).map (c :: ·) else none
  | c :: cs => if c = '_' then none else (joinDigits? cs).map (c :: ·)

/-- The sign and the digits of a whole decimal number: blanks around it, an optional sign, and
digits of any script with underscores between them. -/
def wholeDigits? (cs : List Char) : Option (Bool × List Char) :=
  (joinDigits? (Text.trimBoth isPadding cs)).bind fun cs =>
    let (negative, digits) := match cs with
      | '-' :: cs => (true, cs)
      | '+' :: cs => (false, cs)
      | cs => (false, cs)
    if !digits.isEmpty && digits.all Text.isDigit then some (negative, digits) else none

/-- A double: blanks around it, an optional sign, a decimal number or the name of a special one.
Underscores may stand between digits. -/
def readDouble? (cs : List Char) : Option Double :=
  (joinDigits? (Text.trimBoth isPadding cs)).bind fun cs =>
    let (negative, cs) := match cs with
      | '-' :: cs => (true, cs)
      | '+' :: cs => (false, cs)
      | cs => (false, cs)
    let word := String.ofList (lowerAscii cs)
    if word == "inf" || word == "infinity" then some (.infinite negative)
    else if word == "nan" then some .nan
    else unsigned? negative cs

end Undecorate.Number
