import Undecorate.Text.Blank

/-! # Brackets and quotes

Two scanners of expression text. The first asks whether brackets match, wherever they stand. The
second cuts an argument list at its commas, and passes over quoted parts and over everything inside
brackets.
-/

namespace Undecorate.Brackets

/-- Whether the character opens a bracket of any kind. -/
def isOpening (c : Char) : Bool := c == '(' || c == '[' || c == '\x7b'

/-- Whether the character closes a bracket of any kind. -/
def isClosing (c : Char) : Bool := c == ')' || c == ']' || c == '\x7d'

/-- Whether the character opens and closes quoted text. -/
def isQuote (c : Char) : Bool := c == '\x27' || c == '\x22' || c == '\x60'

/-- Whether brackets match in a text that stands inside `depth` open ones. -/
def balancedFrom : Nat → List Char → Bool
  | depth, [] => depth == 0
  | depth, c :: cs =>
    if isOpening c then balancedFrom (depth + 1) cs
    else if isClosing c then
      match depth with
      | 0 => false
      | depth + 1 => balancedFrom depth cs
    else balancedFrom depth cs

/-- Whether brackets match in a text; their kinds and quotes do not matter. -/
def balanced (cs : List Char) : Bool := balancedFrom 0 cs

/-- Where the second scanner stands: inside how many brackets, in which quotes, and whether right
after a backslash in them. -/
structure Scan where
  depth : Int := 0
  quote : Option Char := none
  escaped : Bool := false
deriving DecidableEq, Repr

namespace Scan

/-- Goes past a character. -/
def next (s : Scan) (c : Char) : Scan :=
  match s.quote with
  | some q =>
    if s.escaped then { s with escaped := false }
    else if c == '\\' then { s with escaped := true }
    else if c == q then { s with quote := none }
    else s
  | none =>
    if isQuote c then { s with quote := some c }
    else if isOpening c then { s with depth := s.depth + 1 }
    else if isClosing c then { s with depth := s.depth - 1 }
    else s

/-- Whether the character ends an argument. -/
def endsAt (s : Scan) (c : Char) : Bool := s.quote.isNone && c == ',' && s.depth == 0

end Scan

/-- The text up to the next separating comma, and the pieces after it. -/
def cutFrom : Scan → List Char → List Char × List (List Char)
  | _, [] => ([], [])
  | s, c :: cs =>
    if s.endsAt c then
      let (piece, rest) := cutFrom s cs
      ([], piece :: rest)
    else
      let (piece, rest) := cutFrom (s.next c) cs
      (c :: piece, rest)

/-- Drops the last piece if it is empty. -/
def dropEmptyLast : List (List Char) → List (List Char)
  | [] => []
  | [piece] => if piece.isEmpty then [] else [piece]
  | piece :: rest => piece :: dropEmptyLast rest

/-- The arguments of a list, without the blanks around them. Nothing after the last comma is no
argument; nothing between two commas is an empty one. -/
def splitArguments (cs : List Char) : List (List Char) :=
  let (piece, rest) := cutFrom {} cs
  dropEmptyLast ((piece :: rest).map Text.trim)

end Undecorate.Brackets
