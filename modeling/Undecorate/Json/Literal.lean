import Undecorate.Number.Digits
import Undecorate.Text.Quoted

/-! # String literals

Writing a text as a quoted literal of printable ASCII, and reading one back. The reader says where
a literal is at fault; positions count characters.
-/

namespace Undecorate.Json

/-- Why a document cannot be read. -/
inductive Cause where
  | value
  | extra
  | control
  | escape
  | codePoint
  | unterminated
  | name
  | colon
  | comma
  | mark
  | digits (count : Nat)
  | nesting
deriving DecidableEq, Repr

/-- A fault in a document: its cause and the character it is reported at. -/
structure Fault where
  cause : Cause
  position : Nat
deriving DecidableEq, Repr

/-- The wording of a cause. -/
def Cause.text : Cause → String
  | .value => "Expecting value"
  | .extra => "Extra data"
  | .control => "Invalid control character at"
  | .escape => "Invalid \\escape"
  | .codePoint => "Invalid \\uXXXX escape"
  | .unterminated => "Unterminated string starting at"
  | .name => "Expecting property name enclosed in double quotes"
  | .colon => "Expecting ':' delimiter"
  | .comma => "Expecting ',' delimiter"
  | .mark => "Unexpected UTF-8 BOM (decode using utf-8-sig)"
  | .digits count => Number.tooLongToRead count
  | .nesting => "maximum recursion depth exceeded"

/-- A fault with its place in the document, by line, column and character. -/
def Fault.message (f : Fault) (document : List Char) : String :=
  let before := document.take f.position
  let line := before.count '\n' + 1
  let column := (before.reverse.takeWhile (· != '\n')).length + 1
  f.cause.text ++ ": line " ++ toString line ++ " column " ++ toString column ++
    " (char " ++ toString f.position ++ ")"

/-! ## Writing -/

/-- A code unit as an escape. -/
def escapeUnit (n : Nat) : List Char := '\\' :: 'u' :: Text.hexDigits 4 n

/-- One character of a literal: escaped by a letter or a number unless it is printable ASCII. -/
def escapeChar (c : Char) : List Char :=
  if c = '\x22' || c = '\\' then ['\\', c]
  else if c = '\n' then ['\\', 'n']
  else if c = '\r' then ['\\', 'r']
  else if c = '\t' then ['\\', 't']
  else if c = '\x08' then ['\\', 'b']
  else if c = '\x0c' then ['\\', 'f']
  else if 0x20 ≤ c.toNat && c.toNat ≤ 0x7E then [c]
  else if c.toNat ≤ 0xFFFF then escapeUnit c.toNat
  -- above the basic plane: a pair of surrogate units
  else escapeUnit (0xD800 + (c.toNat - 0x10000) / 0x400) ++
    escapeUnit (0xDC00 + (c.toNat - 0x10000) % 0x400)

/-- One letter of a literal. -/
def escapeLetter : Letter → List Char
  | .char c => escapeChar c
  | l => escapeUnit l.point

/-- A text as a literal. -/
def encode (t : Text) : String :=
  String.ofList ('\x22' :: t.letters.flatMap escapeLetter ++ ['\x22'])

/-! ## Reading -/

/-- The value of a hexadecimal digit. -/
def hexValue? (c : Char) : Option Nat :=
  if '0' ≤ c && c ≤ '9' then some (c.toNat - 0x30)
  else if 'a' ≤ c && c ≤ 'f' then some (c.toNat - 0x57)
  else if 'A' ≤ c && c ≤ 'F' then some (c.toNat - 0x37)
  else none

/-- The code unit of four hexadecimal digits. -/
def unit? (a b c d : Char) : Option Nat := do
  return (((← hexValue? a) * 16 + (← hexValue? b)) * 16 + (← hexValue? c)) * 16 + (← hexValue? d)

/-- Whether a code unit is the first half of a pair. -/
def isHighHalf (n : Nat) : Bool := 0xD800 ≤ n && n ≤ 0xDBFF

/-- Whether a code unit is the second half of a pair. -/
def isLowHalf (n : Nat) : Bool := 0xDC00 ≤ n && n ≤ 0xDFFF

/-- The character of a pair of code units. -/
def pairChar (high low : Nat) : Char :=
  Char.ofNat (0x10000 + (high - 0xD800) * 0x400 + (low - 0xDC00))

/-- The character that a letter after a backslash stands for. -/
def letterEscape? (c : Char) : Option Char :=
  if c = '\x22' || c = '\\' || c = '/' then some c
  else if c = 'b' then some '\x08'
  else if c = 'f' then some '\x0c'
  else if c = 'n' then some '\n'
  else if c = 'r' then some '\r'
  else if c = 't' then some '\t'
  else none

/-- What a literal leaves behind: its text, and the place and characters after its closing quote. -/
structure Scanned where
  text : Text
  position : Nat
  rest : List Char
deriving DecidableEq, Repr

/-- What follows a code unit: the second half of a pair that it opens, text of another kind, or an
escape that is cut short or has other digits. -/
inductive Following where
  | half (low : Nat)
  | other
  | broken

/-- Looks for the second half of a pair after the unit `high`. A pair is only looked for when the
second escape is itself followed by a character. -/
def following (high : Nat) : List Char → Following
  | '\\' :: 'u' :: a :: b :: c :: d :: _ :: _ =>
    if isHighHalf high then
      match unit? a b c d with
      | none => .broken
      | some low => if isLowHalf low then .half low else .other
    else .other
  | _ => .other

/-- Reads a literal that was opened at `start`; the characters from position `here` on are given,
and `done` holds the letters before them in reverse. A number escape needs a further character after
its four digits. -/
def scanString (start : Nat) : List Letter → Nat → List Char → Except Fault Scanned
  | _, _, [] => .error ⟨.unterminated, start⟩
  | done, here, '\\' :: 'u' :: a :: b :: c :: d :: tail =>
    match tail.isEmpty, unit? a b c d with
    | false, some high =>
      match following high tail, tail with
      | .broken, _ => .error ⟨.codePoint, here + 7⟩
      | .half low, _ :: _ :: _ :: _ :: _ :: _ :: rest =>
        scanString start (.char (pairChar high low) :: done) (here + 12) rest
      | _, tail => scanString start (.ofUnit high :: done) (here + 6) tail
    | _, _ => .error ⟨.codePoint, here + 1⟩
  | _, here, '\\' :: 'u' :: _ => .error ⟨.codePoint, here + 1⟩
  | done, here, '\\' :: c :: cs =>
    match letterEscape? c with
    | none => .error ⟨.escape, here⟩
    | some e => scanString start (.char e :: done) (here + 2) cs
  | done, here, c :: cs =>
    if c = '\x22' then .ok ⟨⟨done.reverse⟩, here + 1, cs⟩
    else if c = '\\' then .error ⟨.unterminated, start⟩
    else if c.toNat ≤ 0x1F then .error ⟨.control, here⟩
    else scanString start (.char c :: done) (here + 1) cs
termination_by structural _ _ cs => cs

/-- Whether a document skips the character between its parts. -/
def isSpacing (c : Char) : Bool := c == ' ' || c == '\t' || c == '\n' || c == '\r'

/-- Drops spacing and counts it. -/
def skipSpacing (here : Nat) : List Char → Nat × List Char
  | [] => (here, [])
  | c :: cs => if isSpacing c then skipSpacing (here + 1) cs else (here, c :: cs)

/-- Reads a document that is one literal whose opening quote has been put in front of `body` and
whose closing quote behind it. -/
def decodeBody (body : List Char) : Except Fault Text := do
  let s ← scanString 0 [] 1 (body ++ ['\x22'])
  let (place, rest) := skipSpacing s.position s.rest
  if rest.isEmpty then return s.text else throw ⟨.extra, place⟩

end Undecorate.Json
