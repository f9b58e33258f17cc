import Undecorate.Text.Basic
import Undecorate.Text.Printable

/-! # Quoted texts

How a text is shown inside a message as a value: between single quotes, or between double quotes
if it has single quotes and no double ones. Backslashes, the chosen quote and the usual control
characters are escaped by a letter, and everything else that is not printable by its number.
-/

namespace Undecorate.Text

/-- A hexadecimal digit, in lower case. -/
def hexDigit (n : Nat) : Char :=
  if n < 10 then Char.ofNat (0x30 + n) else Char.ofNat (0x61 + (n - 10))

/-- The last `width` hexadecimal digits of a number. -/
def hexDigits : Nat → Nat → List Char
  | 0, _ => []
  | width + 1, n => hexDigits width (n / 16) ++ [hexDigit (n % 16)]

/-- The quote that a text is shown in. -/
def quoteFor (t : Text) : Char :=
  if t.letters.contains (.char '\x27') && !t.letters.contains (.char '\x22') then '\x22' else '\x27'

/-- One character of a quoted text. -/
def quotedChar (quote c : Char) : List Char :=
  if c = quote || c = '\\' then ['\\', c]
  else if c = '\t' then ['\\', 't']
  else if c = '\n' then ['\\', 'n']
  else if c = '\r' then ['\\', 'r']
  else if isPrintable c then [c]
  else if c.toNat ≤ 0xFF then '\\' :: 'x' :: hexDigits 2 c.toNat
  else if c.toNat ≤ 0xFFFF then '\\' :: 'u' :: hexDigits 4 c.toNat
  else '\\' :: 'U' :: hexDigits 8 c.toNat

/-- One letter of a quoted text. -/
def quotedLetter (quote : Char) : Letter → List Char
  | .char c => quotedChar quote c
  | l => '\\' :: 'u' :: hexDigits 4 l.point

/-- A text as a message quotes it. -/
def quoted (t : Text) : String :=
  let quote := quoteFor t
  String.ofList (quote :: t.letters.flatMap (quotedLetter quote) ++ [quote])

end Undecorate.Text
