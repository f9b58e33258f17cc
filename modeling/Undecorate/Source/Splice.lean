import Undecorate.Source.Slice

/-! # Replacements in a text

A buffer is a text together with replacements of byte ranges. Reading a stretch of it applies the
outermost replacements that lie inside the stretch. Stretches are compared by their offsets as they
are given, also where one is given from the end of the text.
-/

namespace Undecorate.Source

/-- A stretch of bytes and the text that stands in its place. -/
structure Replacement where
  start : Int
  stop : Int
  text : String
deriving DecidableEq, Repr

/-- A text with replacements; no two replace the same stretch. -/
structure Buffer where
  source : List Char
  replacements : List Replacement := []

namespace Buffer

/-- Replaces a stretch, in place of an earlier replacement of the same stretch. -/
def replace (b : Buffer) (r : Replacement) : Buffer :=
  { b with replacements :=
      b.replacements.filter (fun q => !(q.start == r.start && q.stop == r.stop)) ++ [r] }

/-- Earlier stretches first, and of those with one start the longest first. -/
def outermostFirst (p q : Replacement) : Bool :=
  p.start < q.start || (p.start == q.start && q.stop ≤ p.stop)

/-- Reads from `here` to `stop`: a replacement that starts before `here` or ends after `stop` is
passed over. -/
def readFrom (source : List Char) (stop : Int) : Int → List Replacement → Option (List Char)
  | here, [] => between? source here stop
  | here, r :: rs =>
    if r.start < here || stop < r.stop then readFrom source stop here rs
    else do
      let before ← between? source here r.start
      let after ← readFrom source stop r.stop rs
      return before ++ r.text.toList ++ after

/-- The text of a stretch with the outermost replacements inside it applied; none if it cuts a
character. -/
def read? (b : Buffer) (start stop : Int) : Option (List Char) :=
  readFrom b.source stop start (b.replacements.mergeSort outermostFirst)

end Buffer

end Undecorate.Source
