import Undecorate.Data
import Undecorate.Json.Literal

/-! # Writing documents

Writes a value as an indented document in ASCII: each item and field on a line of its own, two
spaces deeper than its parent, and an empty list or record on one line.
-/

namespace Undecorate.Json

/-- The text of a floating number in a document. -/
def floatText : Double → String
  | .nan => "NaN"
  | .infinite negative => if negative then "-Infinity" else "Infinity"
  | x => x.text

/-- Sets entries on lines of their own between two brackets, for a value at `depth`. -/
def bracketed (openMark closeMark : String) (depth : Nat) (entries : List String) : String :=
  if entries.isEmpty then openMark ++ closeMark
  else
    let line (n : Nat) := "\n" ++ String.ofList (List.replicate (2 * n) ' ')
    openMark ++ line (depth + 1) ++ ("," ++ line (depth + 1)).intercalate entries ++ line depth ++
      closeMark

mutual

/-- A value inside `depth` others. -/
def write (depth : Nat) : Data → String
  | .null => "null"
  | .bool b => if b then "true" else "false"
  | .int n => toString n
  | .float x => floatText x
  | .text t => encode t
  | .list items => bracketed "[" "]" depth (writeItems (depth + 1) items)
  | .record fields => bracketed "\x7b" "\x7d" depth (writeFields (depth + 1) fields)

/-- The items of a list. -/
def writeItems (depth : Nat) : List Data → List String
  | [] => []
  | x :: xs => write depth x :: writeItems depth xs

/-- The fields of a record. -/
def writeFields (depth : Nat) : List (Text × Data) → List String
  | [] => []
  | (k, v) :: fs => (encode k ++ ": " ++ write depth v) :: writeFields depth fs

end

end Undecorate.Json
