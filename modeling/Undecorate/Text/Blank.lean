import Undecorate.Text.CharSet

/-! # Blank characters

White space of every script, and the trimming that is built on it. A zero-width no-break space is
not blank.
-/

namespace Undecorate.Text

/-- Control blanks, the information separators, and every space and line separator. -/
def blankCharacters : CharSet := ⟨[
  0x9, 0xE, 0x1C, 0x21, 0x85, 0x86, 0xA0, 0xA1, 0x1680, 0x1681, 0x2000, 0x200B, 0x2028, 0x202A,
  0x202F, 0x2030, 0x205F, 0x2060, 0x3000, 0x3001]⟩

/-- Whether a character is white space. -/
def isBlank (c : Char) : Bool := blankCharacters.contains c

/-- Drops from both ends the characters that satisfy `p`. -/
def trimBoth (p : Char → Bool) (cs : List Char) : List Char :=
  ((cs.dropWhile p).reverse.dropWhile p).reverse

/-- Drops trailing white space. -/
def trimEnd (cs : List Char) : List Char := (cs.reverse.dropWhile isBlank).reverse

/-- Drops white space at both ends. -/
def trim (cs : List Char) : List Char := trimBoth isBlank cs

/-- Removes all white space. -/
def erase (cs : List Char) : List Char := cs.filter (!isBlank ·)

/-- A text without white space at its ends. -/
def strip (s : String) : String := String.ofList (trim s.toList)

/-- A text without white space at its end. -/
def stripEnd (s : String) : String := String.ofList (trimEnd s.toList)

/-- A text without any white space. -/
def compact (s : String) : String := String.ofList (erase s.toList)

end Undecorate.Text
