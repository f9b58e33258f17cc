import Undecorate.Data
import Undecorate.Json.Literal
import Undecorate.Number.Digits
import Undecorate.Number.Read

/-! # Reading documents

Reads a document of nested values. Where one cannot be read, the fault is the first one from the
left. A field that is written twice keeps its first place and its last value; the special numbers
may be written by name. Neither brackets inside each other nor the digits of a whole number may be
too many.
-/

namespace Undecorate.Json

/-- A value read from a document, and the place and text after it. -/
structure Parsed (α : Type) where
  value : α
  position : Nat
  rest : List Char

/-- Drops the spacing after a value. -/
def Parsed.spaced {α : Type} (p : Parsed α) : Parsed α :=
  let (position, rest) := skipSpacing p.position p.rest
  { p with position, rest }

/-- The words of the document language. -/
def words : List (String × Data) :=
  [("null", .null), ("true", .bool true), ("false", .bool false), ("NaN", .float .nan),
    ("Infinity", .float (.infinite false)), ("-Infinity", .float (.infinite true))]

/-- A word at the start of the text. -/
def readWord? (here : Nat) (cs : List Char) : Option (Parsed Data) :=
  words.findSome? fun (w, d) =>
    if w.toList.isPrefixOf cs then some ⟨d, here + w.length, cs.drop w.length⟩ else none

/-- Splits off leading ASCII digits. -/
def spanDigits (cs : List Char) : List Char × List Char := cs.span Char.isDigit

/-- A fraction, if a digit follows the point. -/
def spanFraction : List Char → List Char × List Char
  | '.' :: cs => match spanDigits cs with
    | ([], _) => ([], '.' :: cs)
    | (digits, rest) => ('.' :: digits, rest)
  | cs => ([], cs)

/-- An exponent, if a digit follows its mark and sign. -/
def spanExponent : List Char → List Char × List Char
  | [] => ([], [])
  | c :: cs =>
    if c == 'e' || c == 'E' then
      let (sign, tail) := match cs with
        | '+' :: tail => (['+'], tail)
        | '-' :: tail => (['-'], tail)
        | tail => ([], tail)
      match spanDigits tail with
      | ([], _) => ([], c :: cs)
      | (digits, rest) => (c :: sign ++ digits, rest)
    else ([], c :: cs)

/-- The whole part of a number: a single zero, or digits that do not start with one. -/
def spanWhole : List Char → List Char × List Char
  | '0' :: cs => (['0'], cs)
  | cs => spanDigits cs

/-- A number at the start of the text; it is whole if it has neither fraction nor exponent. -/
def readNumber (here : Nat) (cs : List Char) : Except Fault (Parsed Data) :=
  let (sign, tail) := match cs with
    | '-' :: tail => (['-'], tail)
    | tail => ([], tail)
  match spanWhole tail with
  | ([], _) => .error ⟨.value, here⟩
  | (whole, tail) =>
    let (fraction, tail) := spanFraction tail
    let (power, tail) := spanExponent tail
    let written := sign ++ whole ++ fraction ++ power
    let place := here + written.length
    if !fraction.isEmpty || !power.isEmpty then
      .ok ⟨.float ((Number.readDouble? written).getD .nan), place, tail⟩
    else if Number.digitLimit < whole.length then .error ⟨.digits whole.length, here⟩
    else
      let n : Int := Number.decimalValue whole
      .ok ⟨.int (if sign.isEmpty then n else -n), place, tail⟩

/-- How many brackets may stand inside each other. -/
def nestingLimit : Nat := 987

mutual

/-- Reads a value in which at most `room` brackets stand inside each other. Twice the length of the
characters is always enough `fuel`. -/
def readValue : Nat → Nat → Nat → List Char → Except Fault (Parsed Data)
  | 0, _, here, _ => .error ⟨.value, here⟩
  | fuel + 1, room, here, cs =>
    match cs with
    | '\x22' :: cs => do
      let s ← scanString here [] (here + 1) cs
      return ⟨.text s.text, s.position, s.rest⟩
    | '\x7b' :: cs =>
      match room, skipSpacing (here + 1) cs with
      | 0, _ => .error ⟨.nesting, here⟩
      | _, (place, '\x7d' :: rest) => .ok ⟨.record [], place + 1, rest⟩
      | room + 1, (place, rest) => readFields fuel room [] place rest
    | '[' :: cs =>
      match room, skipSpacing (here + 1) cs with
      | 0, _ => .error ⟨.nesting, here⟩
      | _, (place, ']' :: rest) => .ok ⟨.list [], place + 1, rest⟩
      | room + 1, (place, rest) => readItems fuel room [] place rest
    | cs =>
      match readWord? here cs with
      | some p => .ok p
      | none => readNumber here cs

/-- Reads the items of a list, where `done` holds the earlier ones in reverse. -/
def readItems : Nat → Nat → List Data → Nat → List Char → Except Fault (Parsed Data)
  | 0, _, _, here, _ => .error ⟨.value, here⟩
  | fuel + 1, room, done, here, cs => do
    let item ← readValue fuel room here cs
    let p := item.spaced
    let done := p.value :: done
    match p.rest with
    | ']' :: rest => return ⟨.list done.reverse, p.position + 1, rest⟩
    | ',' :: rest =>
      let (place, rest) := skipSpacing (p.position + 1) rest
      readItems fuel room done place rest
    | _ => throw ⟨.comma, p.position⟩

/-- Reads the fields of a record, where `done` holds the earlier ones. -/
def readFields : Nat → Nat → List (Text × Data) → Nat → List Char → Except Fault (Parsed Data)
  | 0, _, _, here, _ => .error ⟨.value, here⟩
  | fuel + 1, room, done, here, cs =>
    match cs with
    | '\x22' :: cs => do
      let key ← scanString here [] (here + 1) cs
      let (place, rest) := skipSpacing key.position key.rest
      match rest with
      | ':' :: rest =>
        let (place, rest) := skipSpacing (place + 1) rest
        let value ← readValue fuel room place rest
        let p := value.spaced
        let done := setField key.text p.value done
        match p.rest with
        | '\x7d' :: rest => return ⟨.record done, p.position + 1, rest⟩
        | ',' :: rest =>
          let (place, rest) := skipSpacing (p.position + 1) rest
          readFields fuel room done place rest
        | _ => throw ⟨.comma, p.position⟩
      | _ => throw ⟨.colon, place⟩
    | _ => .error ⟨.name, here⟩

end

/-- Reads a whole document. -/
def read (document : List Char) : Except Fault Data := do
  if document.head? == some (Char.ofNat 0xFEFF) then throw ⟨.mark, 0⟩
  let (place, cs) := skipSpacing 0 document
  let found ← readValue (2 * document.length + 2) nestingLimit place cs
  let p := found.spaced
  if p.rest.isEmpty then return p.value else throw ⟨.extra, p.position⟩

end Undecorate.Json
