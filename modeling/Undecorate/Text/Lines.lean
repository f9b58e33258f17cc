import Undecorate.Text.Blank

/-! # Lines

Two readings of a text as lines. `pieces '\n'` cuts at line feeds alone and always gives back the
text when its pieces are joined; `splitLines` knows every line boundary and drops a final empty
line. `dedent` removes the margin that all lines share.
-/

namespace Undecorate.Text

/-- Puts a character in front of the first piece. -/
def consHead (c : Char) : List (List Char) → List (List Char)
  | [] => [[c]]
  | p :: ps => (c :: p) :: ps

/-- Cuts a text at every `sep`; there is always at least one piece. -/
def pieces (sep : Char) : List Char → List (List Char)
  | [] => [[]]
  | c :: cs => if c = sep then [] :: pieces sep cs else consHead c (pieces sep cs)

/-- Joins pieces with `sep` between them. -/
def joinWith (sep : List Char) : List (List Char) → List Char
  | [] => []
  | [p] => p
  | p :: q :: ps => p ++ sep ++ joinWith sep (q :: ps)

/-- Joins lines with line feeds. -/
def joinLines (ls : List (List Char)) : List Char := joinWith ['\n'] ls

/-- Cutting and joining again gives the text back. -/
theorem joinWith_pieces (sep : Char) (cs : List Char) : joinWith [sep] (pieces sep cs) = cs := by
  induction cs with
  | nil => rfl
  | cons c cs ih =>
    have hne : pieces sep cs ≠ [] := by
      cases cs with
      | nil => simp [pieces]
      | cons d ds => simp only [pieces]; split <;> cases pieces sep ds <;> simp [consHead]
    obtain ⟨p, ps, hp⟩ := List.exists_cons_of_ne_nil hne
    rw [hp] at ih
    by_cases h : c = sep
    · subst h
      simp [pieces, hp, joinWith, ih]
    · simp only [pieces, h, if_false, hp, consHead]
      cases ps with
      | nil => simpa [joinWith] using ih
      | cons q qs => simpa [joinWith] using ih

/-- A text cut at every `sep`. -/
def cutAt (sep : Char) (s : String) : List String := (pieces sep s.toList).map String.ofList

/-- Whether a character ends a line. -/
def isLineEnd (c : Char) : Bool :=
  (0xA ≤ c.toNat && c.toNat ≤ 0xD) || (0x1C ≤ c.toNat && c.toNat ≤ 0x1E) || c.toNat == 0x85 ||
    c.toNat == 0x2028 || c.toNat == 0x2029

/-- Lines without their ends, where `line` holds the current line's characters in reverse. -/
def splitLinesFrom (line : List Char) : List Char → List (List Char)
  | [] => if line.isEmpty then [] else [line.reverse]
  | '\r' :: '\n' :: cs => line.reverse :: splitLinesFrom [] cs
  | c :: cs => if isLineEnd c then line.reverse :: splitLinesFrom [] cs
    else splitLinesFrom (c :: line) cs

/-- The lines of a text at every kind of line boundary; a final boundary opens no further line. -/
def splitLines (cs : List Char) : List (List Char) := splitLinesFrom [] cs

/-- A text with every line end of one or two returns and feeds as a single feed. -/
def unifyLineEnds : List Char → List Char
  | '\r' :: '\n' :: cs => '\n' :: unifyLineEnds cs
  | '\r' :: cs => '\n' :: unifyLineEnds cs
  | c :: cs => c :: unifyLineEnds cs
  | [] => []

/-! ## Common margin -/

/-- Whether a character counts as margin. -/
def isMargin (c : Char) : Bool := c == ' ' || c == '\t'

/-- The longest common beginning of two lists. -/
def commonStart : List Char → List Char → List Char
  | a :: as, b :: bs => if a = b then a :: commonStart as bs else []
  | _, _ => []

/-- The longest margin of spaces and tabs that all lines with other characters share. -/
def margin (ls : List (List Char)) : List Char :=
  match (ls.filter (·.any (!isMargin ·))).map (·.takeWhile isMargin) with
  | [] => []
  | m :: ms => ms.foldl commonStart m

/-- Removes the common margin; lines of spaces and tabs alone become empty. -/
def dedent (cs : List Char) : List Char :=
  let ls := (pieces '\n' cs).map fun l => if l.all isMargin then [] else l
  let m := margin ls
  joinLines (ls.map fun l => if m.isPrefixOf l then l.drop m.length else l)

end Undecorate.Text
