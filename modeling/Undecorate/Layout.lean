import Undecorate.Text.Lines

/-! # Layout of braced source

Moving fragments of source between indentations. Lines are cut at line feeds. Only white space is
ever added or taken away.
-/

namespace Undecorate.Layout

open Text

/-- The white space that a line starts with. -/
def indentation (line : List Char) : List Char := line.takeWhile isBlank

/-- Changes every line but the first. -/
def mapTail (f : List Char → List Char) (code : List Char) : List Char :=
  match pieces '\n' code with
  | [] => []
  | first :: rest => joinLines (first :: rest.map f)

/-- Takes up to `column` characters of white space from the front of a line. A column below zero
counts from the end of the line, and only what follows it is kept. -/
def unindent (column : Int) (line : List Char) : List Char :=
  match column with
  | .ofNat n => line.drop (min (indentation line).length n)
  | .negSucc n => line.drop (line.length - (n + 1))

/-- Takes up to `column` characters of white space from every line but the first. -/
def shift (column : Int) (code : List Char) : List Char := mapTail (unindent column) code

/-- Makes a fragment relative to its first line: the indentation of its last line, which closes
it, is taken from every line but the first. -/
def rebase (code : List Char) : List Char :=
  match (pieces '\n' code).getLast? with
  | some last =>
    if (pieces '\n' code).length = 1 then code else shift (indentation last).length code
  | none => code

/-- The statements inside braces, moved to the left margin. -/
def blockBody (block : List Char) : List Char :=
  let inner := trim (rebase block)
  let inner := if inner.head? = some '\x7b' && inner.getLast? = some '\x7d' then
    (inner.drop 1).dropLast else inner
  trim (dedent (trimBoth (· == '\n') inner))

/-- Puts an indentation before a line, unless it is blank. -/
def indentLine (indent line : List Char) : List Char :=
  if line.all isBlank then [] else indent ++ line

/-- Puts an indentation before every line that is not blank; blank lines become empty. -/
def applyIndentation (indent code : List Char) : List Char :=
  joinLines ((splitLines code).map (indentLine indent))

/-- The spaces of one level. -/
def levelIndent (size : Nat) : List Char := List.replicate size ' '

/-- Sets statements on lines of their own, some levels of `size` spaces deep. -/
def indentLines (size levels : Nat) (statements : List (List Char)) : List Char :=
  joinLines (statements.map (applyIndentation (levelIndent (size * levels))))

/-- A header with its entries in braces, each on a line of its own. -/
def block (size : Nat) (header : List Char) (entries : List (List Char)) : List Char :=
  if entries.isEmpty then header ++ [' ', '\x7b', '\x7d']
  else header ++ [' ', '\x7b', '\n'] ++ indentLines size 1 entries ++ ['\n', '\x7d']

/-- Indents every line but the first, to set a text back at the indentation of a line. -/
def continueAt (indent code : List Char) : List Char :=
  mapTail (fun line => if line.all isBlank then line else indent ++ line) code

/-! ## The same on strings -/

/-- Lays out a string. -/
def onText (f : List Char → List Char) (s : String) : String := String.ofList (f s.toList)

/-- Makes a fragment relative to its first line. -/
def rebaseText (s : String) : String := onText rebase s

/-- A header with its entries in braces. -/
def blockText (size : Nat) (header : String) (entries : List String) : String :=
  String.ofList (block size header.toList (entries.map String.toList))

/-- Statements on lines of their own. -/
def indentText (size levels : Nat) (statements : List String) : String :=
  String.ofList (indentLines size levels (statements.map String.toList))

end Undecorate.Layout
