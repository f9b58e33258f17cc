import Undecorate.Source.Range
import Undecorate.Tree.Basic

/-! # Cutting a text by bytes

Offsets count the bytes of a text's UTF-8 form. A cut is only possible between characters; a cut
beyond the end is one at the end.
-/

namespace Undecorate.Source

/-- Drops the characters of the first `n` bytes; none inside a character. -/
def dropBytes : Nat → List Char → Option (List Char)
  | 0, cs => some cs
  | _ + 1, [] => some []
  | n + 1, c :: cs => if c.utf8Size ≤ n + 1 then dropBytes (n + 1 - c.utf8Size) cs else none

/-- Keeps the characters of the first `n` bytes; none inside a character. -/
def takeBytes : Nat → List Char → Option (List Char)
  | 0, _ => some []
  | _ + 1, [] => some []
  | n + 1, c :: cs =>
    if c.utf8Size ≤ n + 1 then (takeBytes (n + 1 - c.utf8Size) cs).map (c :: ·) else none

/-- The text from byte `a` up to byte `b`. -/
def slice? (cs : List Char) (a b : Nat) : Option (List Char) :=
  if b ≤ a then some [] else (dropBytes a cs).bind (takeBytes (b - a))

/-- The number of bytes of a text. -/
def byteLength (cs : List Char) : Nat := cs.foldr (fun c n => c.utf8Size + n) 0

/-- An offset from the start of a text; one below zero is given from its end. -/
def offsetIn (cs : List Char) (i : Int) : Nat :=
  if 0 ≤ i then i.toNat else (byteLength cs + i).toNat

/-- The text between two offsets, each of which may be given from the end. -/
def between? (cs : List Char) (a b : Int) : Option (List Char) :=
  slice? cs (offsetIn cs a) (offsetIn cs b)

/-- The line of a byte, counted from zero, and the bytes since that line began. `here` is the
offset of the text that is left, `line` and `since` are those of `here`. -/
def pointFrom (offset : Nat) : Nat → Nat → Nat → List Char → Nat × Nat
  | here, line, since, [] => (line, since + (offset - here))
  | here, line, since, c :: cs =>
    if offset ≤ here then (line, since)
    else if c = '\n' then pointFrom offset (here + 1) (line + 1) 0 cs
    -- an offset inside a character counts the bytes before it
    else if offset < here + c.utf8Size then (line, since + (offset - here))
    else pointFrom offset (here + c.utf8Size) line (since + c.utf8Size) cs

/-- The line of a byte and its column in bytes, both counted from zero. -/
def pointAt (cs : List Char) (offset : Nat) : Nat × Nat := pointFrom offset 0 0 0 cs

/-- The range from the start of one node to the end of another. -/
def rangeBetween (cs : List Char) (first last : Tree) : SourceRange :=
  let (startLine, startColumn) := pointAt cs first.start
  let (endLine, endColumn) := pointAt cs last.stop
  { startLine := startLine + 1
    endLine := endLine + 1
    startColumn := some startColumn
    endColumn := some endColumn
    startByte := some first.start
    endByte := some last.stop }

/-- The range of a node. -/
def rangeOf (cs : List Char) (t : Tree) : SourceRange := rangeBetween cs t t

end Undecorate.Source
