import Undecorate.Declaration.Basic
import Undecorate.Fault.Issue

/-! # Values

The values that decorators receive and return. Functions of the host, objects and descriptors are
known by reference. Everything else is known by what it holds, and equal ones are told apart by
which copy they are: a property that cannot be written takes the very value that it has, and no
other one that is equal to it. A property is named by a text, or by one of the values that are
neither numbers nor containers; a name is the same whichever copy it was read from.
-/

namespace Undecorate

/-- A function of the host: who it is, and the name it goes by. -/
structure Function where
  id : Nat
  name : String
deriving DecidableEq, Repr, Inhabited

/-- A value of the host that the engine knows nothing about, such as a module: who it is, the name
of its type, what it is written as, the name it goes by if it has one, and whether a condition takes
it for true. -/
structure Foreign where
  id : Nat
  typeName : String
  text : String
  name? : Option String := none
  isTrue : Bool := true
deriving DecidableEq, Repr, Inhabited

/-- The place of an object or a descriptor in the heap. -/
abbrev Ref := Nat

/-- Which of several equal values a value is. It is left open whether a text or a number that is
worked out twice is the same one; what the engine works out of source text is. -/
inductive Copy where
  /-- The one that is worked out of source text. -/
  | shared
  /-- One that the host tells apart from its equals. -/
  | kept (n : Nat)
  /-- The one that was made for the descriptor at a place. -/
  | made (descriptor : Ref)
deriving DecidableEq, Repr, Inhabited

/-- A value of a running program. -/
inductive Value where
  | absent
  | bool (b : Bool)
  | int (n : Int) (copy : Copy)
  | float (x : Double) (copy : Copy)
  | text (t : Text) (copy : Copy)
  | list (items : List Value) (copy : Copy)
  | record (fields : List (String × Value)) (copy : Copy)
  | function (f : Function)
  | foreign (x : Foreign)
  | object (r : Ref)
  | descriptor (r : Ref)
  | source (text : String) (copy : Copy)
  | member (m : Member) (copy : Copy)
deriving Repr, Inhabited

/-- The name of a property. -/
inductive PropertyName where
  | text (t : Text)
  | absent
  | function (f : Function)
  | foreign (x : Foreign)
  | object (r : Ref)
  | source (text : String)
deriving DecidableEq, Repr, Inhabited

/-- A property's name as a value. -/
def PropertyName.value : PropertyName → Value
  | .text t => .text t .shared
  | .absent => .absent
  | .function f => .function f
  | .foreign x => .foreign x
  | .object r => .object r
  | .source s => .source s .shared

namespace Value

/-- The value, unless it is the absent one. -/
def present? : Value → Option Value
  | .absent => none
  | v => some v

/-- The value that may be absent. -/
def ofOption : Option Value → Value
  | none => .absent
  | some v => v

mutual

/-- Whether two values are the same one: references by what they refer to, all others by what they
hold and which copy they are. -/
def same : Value → Value → Bool
  | .absent, .absent => true
  | .bool a, .bool b => a == b
  | .int a c, .int b d => a == b && c == d
  | .float a c, .float b d => a == b && c == d
  | .text a c, .text b d => a == b && c == d
  | .list a c, .list b d => sameItems a b && c == d
  | .record a c, .record b d => sameFields a b && c == d
  | .function a, .function b => a == b
  | .foreign a, .foreign b => a == b
  | .object a, .object b => a == b
  | .descriptor a, .descriptor b => a == b
  | .source a c, .source b d => a == b && c == d
  | .member a c, .member b d => a == b && c == d
  | _, _ => false

/-- Whether two lists hold the same values. -/
def sameItems : List Value → List Value → Bool
  | [], [] => true
  | x :: xs, y :: ys => x.same y && sameItems xs ys
  | _, _ => false

/-- Whether two records have the same fields in the same order. -/
def sameFields : List (String × Value) → List (String × Value) → Bool
  | [], [] => true
  | (j, x) :: xs, (k, y) :: ys => j == k && x.same y && sameFields xs ys
  | _, _ => false

end

/-- Whether two values that may be absent are the same one. -/
def sameOption : Option Value → Option Value → Bool
  | none, none => true
  | some a, some b => a.same b
  | _, _ => false

/-- Whether a condition takes the value for true: everything but nothing, zero and what is
empty. -/
def isTruthy : Value → Bool
  | .absent => false
  | .bool b => b
  | .int n _ => n != 0
  | .float x _ => !x.isZero
  | .text t _ => !t.isEmpty
  | .list items _ => !items.isEmpty
  | .record fields _ => !fields.isEmpty
  | .foreign x => x.isTrue
  | _ => true

/-- What the reading of a given value looks at. -/
def scalar : Value → Scalar
  | .bool b => .bool b
  | .int n _ => .int n
  | .float x _ => .float x
  | .text t _ => .text t
  | _ => .other

/-- Why a value names no property. -/
inductive NameFault where
  | container
  | digits
deriving DecidableEq, Repr

/-- The property that a value names. Truth values and numbers name the property of their text, a
whole number without a fraction; containers name none, nor do numbers with too many digits. -/
def propertyName : Value → Except NameFault PropertyName
  | .absent => .ok .absent
  | .bool b => .ok (.text (if b then "true" else "false"))
  | .int n _ => match Number.text? n with
    | some s => .ok (.text s)
    | none => .error .digits
  | .float x _ => .ok (.text (if x.isWhole then toString x.truncate else x.text))
  | .text t _ => .ok (.text t)
  | .function f => .ok (.function f)
  | .foreign x => .ok (.foreign x)
  | .object r => .ok (.object r)
  | .source s _ => .ok (.source s)
  | .list _ _ | .record _ _ | .descriptor _ | .member _ _ => .error .container

end Value

end Undecorate
