import Undecorate.Number.Digits
import Undecorate.Number.Shortest
import Undecorate.Text.Quoted

/-! # Plain data

The values of settings, documents and messages: nothing, truth values, whole and floating numbers,
texts, lists and records with ordered fields. Each has a quoted form, in which texts stand in
quotes, and a shown form, in which a text on its own does not; a value that holds a whole number
with too many digits is not written in either.
-/

namespace Undecorate

/-- A plain value. -/
inductive Data where
  | null
  | bool (b : Bool)
  | int (n : Int)
  | float (x : Double)
  | text (t : Text)
  | list (items : List Data)
  | record (fields : List (Text × Data))
deriving Repr, BEq, Inhabited

namespace Data

/-- The quoted form of a truth value. -/
def quotedBool (b : Bool) : String := if b then "True" else "False"

mutual

/-- A value as it is written inside another one. -/
def quoted : Data → String
  | .null => "None"
  | .bool b => quotedBool b
  | .int n => toString n
  | .float x => x.text
  | .text t => t.quoted
  | .list items => "[" ++ ", ".intercalate (quotedItems items) ++ "]"
  | .record fields => "\x7b" ++ ", ".intercalate (quotedFields fields) ++ "\x7d"

/-- The quoted forms of a list's items. -/
def quotedItems : List Data → List String
  | [] => []
  | x :: xs => x.quoted :: quotedItems xs

/-- The quoted forms of a record's fields. -/
def quotedFields : List (Text × Data) → List String
  | [] => []
  | (k, v) :: fs => (k.quoted ++ ": " ++ v.quoted) :: quotedFields fs

end

/-- A value as a message shows it: a text as it is, anything else quoted. -/
def shown : Data → Text
  | .text t => t
  | d => d.quoted

/-- The name of a value's type. -/
def typeName : Data → String
  | .null => "NoneType"
  | .bool _ => "bool"
  | .int _ => "int"
  | .float _ => "float"
  | .text _ => "str"
  | .list _ => "list"
  | .record _ => "dict"

/-- Whether the value is the absent one. -/
def isNull : Data → Bool
  | .null => true
  | _ => false

/-- The string, if the value is a text of characters. -/
def string? : Data → Option String
  | .text t => t.string?
  | _ => none

/-- Whether a condition takes the value for true: everything but nothing, zero and what is
empty. -/
def isTruthy : Data → Bool
  | .null => false
  | .bool b => b
  | .int n => n != 0
  | .float x => !x.isZero
  | .text t => !t.isEmpty
  | .list items => !items.isEmpty
  | .record fields => !fields.isEmpty

mutual

/-- How many lists and records stand one inside another. -/
def nesting : Data → Nat
  | .list items => nestingOfItems items + 1
  | .record fields => nestingOfFields fields + 1
  | _ => 0

/-- The deepest nesting of a list's items. -/
def nestingOfItems : List Data → Nat
  | [] => 0
  | x :: xs => max x.nesting (nestingOfItems xs)

/-- The deepest nesting of a record's fields. -/
def nestingOfFields : List (Text × Data) → Nat
  | [] => 0
  | (_, v) :: fs => max v.nesting (nestingOfFields fs)

end

mutual

/-- Whether the value can be written: it holds no whole number with too many digits. -/
def isWritable : Data → Bool
  | .int n => Number.isWritable n
  | .list items => areItemsWritable items
  | .record fields => areFieldsWritable fields
  | _ => true

/-- Whether the items of a list can be written. -/
def areItemsWritable : List Data → Bool
  | [] => true
  | x :: xs => x.isWritable && areItemsWritable xs

/-- Whether the fields of a record can be written. -/
def areFieldsWritable : List (Text × Data) → Bool
  | [] => true
  | (_, v) :: fs => v.isWritable && areFieldsWritable fs

end

end Data

/-- The string, unless it is absent or empty. -/
def nonempty? (s : Option String) : Option String := s.filter (!·.isEmpty)

/-- Sets a field: an existing one keeps its place, a new one goes last. -/
def setField {κ α : Type} [DecidableEq κ] (key : κ) (value : α) : List (κ × α) → List (κ × α)
  | [] => [(key, value)]
  | (k, v) :: fs => if k = key then (k, value) :: fs else (k, v) :: setField key value fs

end Undecorate
