import Undecorate.Fault.Issue

/-! # Property descriptors

A descriptor is the record that defines one property: a data descriptor with a value, or an
accessor with a getter or a setter, and the attributes of the property. It remembers which of its
fields were given explicitly; the others are filled in when it meets a property.
-/

namespace Undecorate

/-- The two shapes of a property. -/
inductive Shape where
  | data
  | accessor
deriving DecidableEq, Repr, Inhabited

/-- The name of a shape. -/
def Shape.name : Shape → String
  | .data => "data"
  | .accessor => "accessor"

/-- The shapes by their names. -/
def Shape.choices : List (String × Shape) := [("data", .data), ("accessor", .accessor)]

/-- The fields of a descriptor. -/
inductive Field where
  | kind
  | value
  | getter
  | setter
  | enumerable
  | configurable
  | writable
deriving DecidableEq, Repr

namespace Field

/-- The name of a field. -/
def name : Field → String
  | .kind => "kind"
  | .value => "value"
  | .getter => "getter"
  | .setter => "setter"
  | .enumerable => "enumerable"
  | .configurable => "configurable"
  | .writable => "writable"

/-- The fields in the order of their declaration. -/
def all : List Field :=
  [.kind, .value, .getter, .setter, .enumerable, .configurable, .writable]

/-- The fields in the order of their names. -/
def byName : List Field :=
  [.configurable, .enumerable, .getter, .kind, .setter, .value, .writable]

/-- The field with a name. -/
def ofName? (s : String) : Option Field := all.find? (·.name == s)

end Field

/-- A set of fields. -/
structure FieldSet where
  kind : Bool := false
  value : Bool := false
  getter : Bool := false
  setter : Bool := false
  enumerable : Bool := false
  configurable : Bool := false
  writable : Bool := false
deriving DecidableEq, Repr, Inhabited

namespace FieldSet

/-- Whether a field is in the set. -/
def has (s : FieldSet) : Field → Bool
  | .kind => s.kind
  | .value => s.value
  | .getter => s.getter
  | .setter => s.setter
  | .enumerable => s.enumerable
  | .configurable => s.configurable
  | .writable => s.writable

/-- The set with one more field. -/
def insert (s : FieldSet) : Field → FieldSet
  | .kind => { s with kind := true }
  | .value => { s with value := true }
  | .getter => { s with getter := true }
  | .setter => { s with setter := true }
  | .enumerable => { s with enumerable := true }
  | .configurable => { s with configurable := true }
  | .writable => { s with writable := true }

/-- The set of the listed fields. -/
def ofList (fields : List Field) : FieldSet := fields.foldl insert {}

/-- The names of the fields, in the order of the names. -/
def names (s : FieldSet) : List String := (Field.byName.filter s.has).map Field.name

end FieldSet

/-- A property descriptor over values of type `α`; an absent value is the undefined one. -/
structure Descriptor (α : Type) where
  kind : Shape := .data
  value : Option α := none
  getter : Option α := none
  setter : Option α := none
  enumerable : Bool := false
  configurable : Bool := false
  writable : Option Bool := none
  explicit : FieldSet := {}
deriving DecidableEq, Repr, Inhabited

/-- Why the fields of a descriptor do not fit together. -/
inductive ShapeFault where
  | accessorWithData
  | accessorWithoutFunction
  | dataWithFunction
deriving DecidableEq, Repr

/-- The wording of a shape fault. -/
def ShapeFault.message : ShapeFault → String
  | .accessorWithData => "accessor descriptors cannot carry value or writable"
  | .accessorWithoutFunction => "accessor descriptors need a getter or a setter"
  | .dataWithFunction => "data descriptors cannot carry getter or setter"

/-- A shape fault as an issue with the whole descriptor. -/
def ShapeFault.issue (f : ShapeFault) : Issue := ⟨none, .check f.message⟩

namespace Descriptor

variable {α β : Type}

/-- Whether the descriptor is of an accessor. -/
def isAccessor (d : Descriptor α) : Bool := d.kind = .accessor

/-- The descriptor with other values in the places of its own. -/
def map (f : α → β) (d : Descriptor α) : Descriptor β where
  kind := d.kind
  value := d.value.map f
  getter := d.getter.map f
  setter := d.setter.map f
  enumerable := d.enumerable
  configurable := d.configurable
  writable := d.writable
  explicit := d.explicit

/-- What is wrong with the shape of a descriptor, if anything. -/
def shapeFault? (d : Descriptor α) : Option ShapeFault :=
  match d.kind with
  | .accessor =>
    if d.value.isSome || d.writable.isSome then some .accessorWithData
    else if d.getter.isNone && d.setter.isNone then some .accessorWithoutFunction
    else none
  | .data => if d.getter.isSome || d.setter.isSome then some .dataWithFunction else none

/-- Whether nothing but enumerability and configurability was given, so that the shape is that of
the existing property. -/
def isGeneric (d : Descriptor α) : Bool :=
  !(d.explicit.kind || d.explicit.value || d.explicit.writable || d.explicit.getter ||
    d.explicit.setter)

/-- The descriptor of a method: not enumerable, configurable, writable. -/
def method (function : Option α) : Descriptor α where
  kind := .data
  value := function
  enumerable := false
  configurable := true
  writable := some true
  explicit := .ofList [.kind, .value, .enumerable, .configurable, .writable]

/-- The descriptor of a getter, a setter or both: enumerable and configurable. -/
def accessor (getter setter : Option α) : Descriptor α where
  kind := .accessor
  getter
  setter
  enumerable := true
  configurable := true
  explicit := .ofList [.kind, .getter, .setter, .enumerable, .configurable]

/-- The descriptor of a property that is created by assignment. -/
def plain (value : Option α) : Descriptor α where
  kind := .data
  value
  enumerable := true
  configurable := true
  writable := some true
  explicit := .ofList [.kind, .value, .enumerable, .configurable, .writable]

/-- The shape that a definition leaves behind: its own, or that of the existing property if the
definition is generic. -/
def mergedShape (d : Descriptor α) (existing : Option (Descriptor α)) : Shape :=
  if d.isGeneric then
    match existing with
    | some e => e.kind
    | none => .data
  else d.kind

/-- The complete descriptor that a definition leaves behind. A field that was not given keeps the
existing property's value; without one, or when the shape changes, it is reset. -/
def mergedOnto (d : Descriptor α) (existing : Option (Descriptor α)) :
    Except ShapeFault (Descriptor α) :=
  let kind := d.mergedShape existing
  let kept := existing.filter (·.kind = kind)
  let common : Descriptor α := {
    kind
    enumerable := if d.explicit.enumerable then d.enumerable else existing.any (·.enumerable)
    configurable :=
      if d.explicit.configurable then d.configurable else existing.any (·.configurable) }
  let merged : Descriptor α := match kind with
    | .accessor =>
      { common with
        getter := if d.explicit.getter then d.getter else kept.bind (·.getter)
        setter := if d.explicit.setter then d.setter else kept.bind (·.setter)
        explicit := {
          kind := true, enumerable := true, configurable := true
          getter := d.explicit.getter || kept.isSome
          setter := d.explicit.setter || kept.isSome } }
    | .data =>
      let writable := if d.explicit.writable then d.writable else kept.bind (·.writable)
      { common with
        value := if d.explicit.value then d.value else kept.bind (·.value)
        writable := some (writable.getD false)
        explicit := {
          kind := true, enumerable := true, configurable := true, writable := true
          value := d.explicit.value || kept.isSome } }
  match merged.shapeFault? with
  | some f => .error f
  | none => .ok merged

/-- A part of a descriptor's define-property form. -/
inductive Part (α : Type) where
  | value (v : Option α)
  | flag (b : Bool)

/-- The fields of a descriptor under the names that define-property calls use. -/
def parts (d : Descriptor α) : List (String × Part α) :=
  (match d.kind with
    | .accessor =>
      (match d.getter with
        | some g => [("get", .value (some g))]
        | none => []) ++
      (match d.setter with
        | some s => [("set", .value (some s))]
        | none => [])
    | .data => [("value", .value d.value), ("writable", .flag (d.writable.getD false))]) ++
  [("enumerable", .flag d.enumerable), ("configurable", .flag d.configurable)]

end Descriptor

end Undecorate
