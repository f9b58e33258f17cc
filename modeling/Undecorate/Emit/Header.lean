import Undecorate.Text.Blank
import Undecorate.Text.Word

/-! # Class headers

Edits of the text before a class body: taking the class's own name away, taking an `abstract` away,
and giving an anonymous class a name.
-/

namespace Undecorate.Header

open Text

/-- The keyword of a class. -/
def keyword : List Char := "class".toList

/-- Whether a word may end before this text. -/
def endsWord : List Char → Bool
  | [] => true
  | c :: _ => !isWord c

/-- Whether a name may end before this text. -/
def endsName : List Char → Bool
  | [] => true
  | c :: _ => !isNamePart c

/-- The text after the keyword, if a text starts with it. -/
def afterKeyword? (cs : List Char) : Option (List Char) :=
  if keyword.isPrefixOf cs then some (cs.drop keyword.length) else none

/-- What follows the keyword, blanks and the name at the start of a text. As many blanks as
possible are taken. -/
def afterName? (name cs : List Char) : Option (List Char) :=
  (afterKeyword? cs).bind fun rest =>
    let blanks := (rest.takeWhile isBlank).length
    (List.range blanks).reverse.findSome? fun n =>
      let tail := rest.drop (n + 1)
      if name.isPrefixOf tail && endsName (tail.drop name.length) then
        some (tail.drop name.length)
      else none

/-- Edits the first place at the start of a word where `edit` applies; `inWord` says whether
the character before the text belongs to a word. -/
def editFirst (edit : List Char → Option (List Char)) : Bool → List Char → List Char
  | _, [] => []
  | inWord, c :: cs =>
    match if inWord then none else edit (c :: cs) with
    | some rest => rest
    | none => c :: editFirst edit (isWord c) cs

/-- Takes the name after the first class keyword away. -/
def dropName (name header : List Char) : List Char :=
  editFirst (fun cs => (afterName? name cs).map (keyword ++ ·)) false header

/-- Takes a leading `abstract` away. -/
def dropAbstract (header : List Char) : List Char :=
  let word := "abstract".toList
  if word.isPrefixOf header then
    let rest := header.drop word.length
    if rest.head?.any isBlank then rest.dropWhile isBlank else header
  else header

/-- Puts a name after the first class keyword. -/
def addName (name header : List Char) : List Char :=
  editFirst (fun cs => (afterKeyword? cs).bind fun rest =>
    if endsWord rest then some (keyword ++ ' ' :: name ++ rest) else none) false header

end Undecorate.Header
