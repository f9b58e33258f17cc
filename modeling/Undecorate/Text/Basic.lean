/-! # Texts

A text is a sequence of letters. Nearly all letters are characters. A text that was read from
number escapes can also hold half a surrogate pair on its own: no character, but a letter with a
code point, which is kept. Names, values and messages are texts; source text is made of characters
only and stays a `String`, which is a text too.
-/

namespace Undecorate

/-- A letter: a character, or half a surrogate pair, counted from the first half `0xD800` on. -/
inductive Letter where
  | char (c : Char)
  | half (n : Fin 0x800)
deriving DecidableEq, Repr, Inhabited

/-- A sequence of letters. -/
structure Text where
  letters : List Letter
deriving DecidableEq, Repr, Inhabited

namespace Letter

/-- The code point of a letter. -/
def point : Letter → Nat
  | .char c => c.toNat
  | .half n => 0xD800 + n.val

/-- The letter of a 16-bit unit. -/
def ofUnit (n : Nat) : Letter :=
  if h : 0xD800 ≤ n ∧ n < 0xE000 then .half ⟨n - 0xD800, by omega⟩ else .char (Char.ofNat n)

/-- The character, if the letter is one. -/
def char? : Letter → Option Char
  | .char c => some c
  | .half _ => none

end Letter

namespace Text

/-- The text of characters. -/
def ofChars (cs : List Char) : Text := ⟨cs.map .char⟩

/-- A string as a text. -/
def ofString (s : String) : Text := ofChars s.toList

instance : Coe String Text := ⟨ofString⟩

instance : Append Text := ⟨fun s t => ⟨s.letters ++ t.letters⟩⟩

/-- Whether a text has no letters. -/
def isEmpty (t : Text) : Bool := t.letters.isEmpty

/-- The string that a text is, if all its letters are characters. -/
def string? (t : Text) : Option String := (t.letters.mapM Letter.char?).map String.ofList

/-- Texts one after the other, with a separator between them. -/
def intercalate (separator : Text) (texts : List Text) : Text :=
  ⟨separator.letters.intercalate (texts.map (·.letters))⟩

theorem mapM_char?_ofChars (cs : List Char) : (cs.map Letter.char).mapM Letter.char? = some cs := by
  induction cs with
  | nil => rfl
  | cons c cs ih => simp [List.mapM_cons, Letter.char?, ih]

/-- A string read as a text is that string. -/
@[simp] theorem string?_ofString (s : String) : (ofString s).string? = some s := by
  rw [string?, ofString, ofChars, mapM_char?_ofChars, Option.map_some, String.ofList_toList]

end Text

end Undecorate
