import Undecorate.Descriptor.Basic
import Undecorate.Object.Value

/-! # Descriptors from given values

A descriptor can be given as a mapping, with the names that define-property calls use, or field by
field. A mapping is read leniently, by truth and falsehood; fields are checked one by one and then
together.
-/

namespace Undecorate

/-- Why a mapping is not a descriptor. -/
inductive MappingFault where
  | mixed
  | notCallable (v : Value)
  | shape (f : ShapeFault)
deriving Repr

/-- Why an assignment fails: its value, or a part that cannot be assigned. -/
inductive AssignFault where
  | issue (i : Issue)
  | derived (part : String)
deriving DecidableEq, Repr

namespace Descriptor

/-- The value of the first name that a mapping has. -/
def firstOf? (fields : List (String × Value)) (names : List String) : Option Value :=
  names.findSome? fun name => fields.lookup name

/-- The attributes that a mapping gives. -/
def attributesOf (fields : List (String × Value)) : Descriptor Value where
  enumerable := ((fields.lookup "enumerable").map (·.isTruthy)).getD false
  configurable := ((fields.lookup "configurable").map (·.isTruthy)).getD false
  explicit := {
    enumerable := (fields.lookup "enumerable").isSome
    configurable := (fields.lookup "configurable").isSome }

/-- Checks that a value can be an accessor function: it can be called, or is absent. -/
def accessorPart (isCallable : Value → Bool) : Option Value → Except MappingFault (Option Value)
  | none | some .absent => .ok none
  | some v => if isCallable v then .ok (some v) else .error (.notCallable v)

/-- The descriptor that a mapping gives. Names that mean nothing are ignored; `get` and `set` win
over the longer names. -/
def ofMapping (isCallable : Value → Bool) (fields : List (String × Value)) :
    Except MappingFault (Descriptor Value) :=
  let given := attributesOf fields
  let getter := firstOf? fields ["get", "getter"]
  let setter := firstOf? fields ["set", "setter"]
  let value := fields.lookup "value"
  let writable := fields.lookup "writable"
  if getter.isSome || setter.isSome then
    if value.isSome || writable.isSome then .error .mixed
    else do
      let get ← accessorPart isCallable getter
      let set ← accessorPart isCallable setter
      let d := { given with
        kind := .accessor
        getter := get
        setter := set
        explicit := { given.explicit with
          kind := true, getter := getter.isSome, setter := setter.isSome } }
      match d.shapeFault? with
      | some f => .error (.shape f)
      | none => .ok d
  else if value.isSome || writable.isSome then
    .ok { given with
      value := value.bind (·.present?)
      writable := writable.map (·.isTruthy)
      explicit := { given.explicit with
        kind := true, value := value.isSome, writable := writable.isSome } }
  else .ok given

/-- A descriptor with one field set to a given value, if the field takes it. -/
def withField (d : Descriptor Value) (f : Field) (v : Value) :
    Except IssueKind (Descriptor Value) := do
  let d : Descriptor Value ← match f with
    | .kind => pure { d with kind := ← v.scalar.readChoice Shape.choices }
    | .value => pure { d with value := v.present? }
    | .getter => pure { d with getter := v.present? }
    | .setter => pure { d with setter := v.present? }
    | .enumerable => pure { d with enumerable := ← v.scalar.readBool }
    | .configurable => pure { d with configurable := ← v.scalar.readBool }
    | .writable => match v with
      | .absent => pure { d with writable := none }
      | v => pure { d with writable := some (← v.scalar.readBool) }
  return { d with explicit := d.explicit.insert f }

/-- Sets the fields that are given, in the order of their declaration, and lists those that do not
take what they are given. -/
def withFields (given : List (String × Value)) :
    List Field → Descriptor Value → Descriptor Value × List Issue
  | [], d => (d, [])
  | f :: fs, d => match given.lookup f.name with
    | none => withFields given fs d
    | some v => match d.withField f v with
      | .ok d => withFields given fs d
      | .error kind =>
        let (d, issues) := withFields given fs d
        (d, ⟨some f.name, kind⟩ :: issues)

/-- The descriptor with the given fields. Names that are no fields are ignored, and the fields are
checked together only if each one is right. -/
def ofFields (given : List (String × Value)) : Except (List Issue) (Descriptor Value) :=
  match withFields given Field.all {} with
  | (d, []) => match d.shapeFault? with
    | some f => .error [f.issue]
    | none => .ok d
  | (_, issues) => .error issues

/-- The parts of a descriptor that are worked out from its fields and cannot be assigned. -/
def derivedParts : List String :=
  ["is_accessor", "is_data", "is_generic", "model_extra", "model_fields_set"]

/-- Assigns a part by its name. A value that a field does not take changes nothing; one after which
the fields do not fit together is reported and kept. A name with an underscore in front is no part
of the descriptor, and anything may be put there. -/
def assign (d : Descriptor Value) (part : String) (v : Value) :
    Descriptor Value × Option AssignFault :=
  if part.toList.head? == some '_' then (d, none)
  else if derivedParts.contains part then (d, some (.derived part))
  else match Field.ofName? part with
    | none => (d, some (.issue ⟨some part, .noSuchAttribute⟩))
    | some f => match d.withField f v with
      | .error kind => (d, some (.issue ⟨some part, kind⟩))
      | .ok d => (d, d.shapeFault?.map (.issue ·.issue))

/-- A part of a descriptor by its name. Its kind is none of them: that is no plain value. -/
def part? (d : Descriptor Value) : String → Option Value
  | "value" => some (.ofOption d.value)
  | "getter" => some (.ofOption d.getter)
  | "setter" => some (.ofOption d.setter)
  | "enumerable" => some (.bool d.enumerable)
  | "configurable" => some (.bool d.configurable)
  | "writable" => some (.ofOption (d.writable.map .bool))
  | "is_accessor" => some (.bool d.isAccessor)
  | "is_data" => some (.bool !d.isAccessor)
  | "is_generic" => some (.bool d.isGeneric)
  | _ => none

/-- The fields of a descriptor as a mapping. -/
def toMapping (d : Descriptor Value) : List (String × Value) :=
  d.parts.map fun (name, part) => (name, match part with
    | .value v => .ofOption v
    | .flag b => .bool b)

end Descriptor

end Undecorate
