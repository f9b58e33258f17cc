import Undecorate.Object.Heap

/-! # Equality of values

Values are equal by what they hold: numbers by their size whatever their type, records whatever the
order of their fields, descriptors field by field. Objects and functions are equal only to
themselves. What stands inside a container is taken to be equal to itself.
-/

namespace Undecorate

namespace Value

/-- A value as a number, if it is one that has a size. -/
def number? : Value → Option (Int ⊕ Double)
  | .bool b => some (.inl (if b then 1 else 0))
  | .int n _ => some (.inl n)
  | .float x _ => some (if x.isWhole then .inl x.truncate else .inr x)
  | _ => none

/-- Whether two numbers have the same size; what is not a number equals nothing. -/
def equalNumbers : Int ⊕ Double → Int ⊕ Double → Bool
  | .inl a, .inl b => a == b
  | .inr a, .inr b => a == b && a != .nan
  | _, _ => false

mutual

/-- Whether two values are equal, by the equality of the descriptors they refer to. Which copies
they are makes no difference. -/
def equalBy (descriptors : Ref → Ref → Bool) : Value → Value → Bool
  | .list a _, .list b _ => equalItemsBy descriptors a b
  | .record a _, .record b _ => a.length == b.length && equalFieldsBy descriptors a b
  | .text a _, .text b _ => a == b
  | .source a _, .source b _ => a == b
  | .member a _, .member b _ => a == b
  | .descriptor a, .descriptor b => descriptors a b
  | a, b => match a.number?, b.number? with
    | some x, some y => equalNumbers x y
    | _, _ => a.same b

/-- Whether two lists have equal items. -/
def equalItemsBy (descriptors : Ref → Ref → Bool) : List Value → List Value → Bool
  | [], [] => true
  | x :: xs, y :: ys =>
    (x.same y || x.equalBy descriptors y) && equalItemsBy descriptors xs ys
  | _, _ => false

/-- Whether a record has the fields of another one. -/
def equalFieldsBy (descriptors : Ref → Ref → Bool) :
    List (String × Value) → List (String × Value) → Bool
  | [], _ => true
  | (k, x) :: xs, ys => (match ys.lookup k with
      | some y => x.same y || x.equalBy descriptors y
      | none => false) && equalFieldsBy descriptors xs ys

end

end Value

/-- Whether two descriptors are equal, by the equality of values. -/
def Descriptor.equalBy (equal : Value → Value → Bool) (d e : Descriptor Value) : Bool :=
  d.kind == e.kind && alike d.value e.value && alike d.getter e.getter && alike d.setter e.setter &&
    d.enumerable == e.enumerable && d.configurable == e.configurable && d.writable == e.writable
where
  alike (a b : Option Value) : Bool := Value.sameOption a b || equal (.ofOption a) (.ofOption b)

namespace Heap

/-- Whether two values are equal; at most `depth` descriptors are compared one inside another. -/
def equalTo (h : Heap) : Nat → Value → Value → Bool
  | 0, _, _ => false
  | depth + 1, a, b => a.equalBy (fun r s => r == s ||
      match h.descriptor? r, h.descriptor? s with
      | some d, some e => d.equalBy (h.equalTo depth) e
      | _, _ => false) b

/-- Whether two values are equal. -/
def equal (h : Heap) (a b : Value) : Bool := h.equalTo (h.descriptors.size + 1) a b

end Heap

end Undecorate
