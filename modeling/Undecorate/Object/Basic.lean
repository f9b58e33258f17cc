import Undecorate.Descriptor.Basic
import Undecorate.Fault.Diagnostic
import Undecorate.Object.Value

/-! # Objects

An object holds its own properties in the order in which they were first defined, and a log of
every definition it took. Properties are written in one way only: by definition. A property that
is not configurable refuses a definition that would change its shape or its attributes.
-/

namespace Undecorate

/-- What makes an object a function: its name, what it does, the member it was built from and the
object that its instances inherit from. -/
structure Callable where
  name : Text
  implementation : Option Function := none
  source : Option Member := none
  prototype : Ref
deriving DecidableEq, Repr

/-- An object. What it inherits from is an object as a rule, but any value can be put there. -/
structure Object where
  proto : Option Value := none
  label : Option Text := none
  properties : List (PropertyName × Descriptor Value) := []
  log : List PropertyName := []
  callable : Option Callable := none
deriving Repr, Inhabited

/-- Why a property refuses a definition. -/
inductive Refusal where
  | notConfigurable
  | enumerability
  | shapeChange
  | readOnly
  | accessorFunctions
deriving DecidableEq, Repr

/-- The wording of a refusal. -/
def Refusal.message : Refusal → String
  | .notConfigurable => "property is not configurable"
  | .enumerability => "cannot change enumerability"
  | .shapeChange => "cannot change between data and accessor"
  | .readOnly => "property is read-only"
  | .accessorFunctions => "cannot replace accessor functions"

/-- Why a definition fails: the property refuses it, or what it would leave behind is no
descriptor. -/
inductive DefineFault where
  | refused (r : Refusal)
  | shape (f : ShapeFault)
deriving DecidableEq, Repr

/-- Whether the property itself refuses the definition. -/
def DefineFault.isRefusal : DefineFault → Bool
  | .refused _ => true
  | .shape _ => false

namespace Descriptor

/-- What a property that is not configurable refuses in a definition, if anything. -/
def refusal? (existing incoming : Descriptor Value) : Option Refusal :=
  if incoming.explicit.configurable && incoming.configurable then some .notConfigurable
  else if incoming.explicit.enumerable && incoming.enumerable != existing.enumerable then
    some .enumerability
  else if incoming.isGeneric then none
  else if incoming.kind ≠ existing.kind then some .shapeChange
  else match existing.kind with
    | .data =>
      if existing.writable = some true then none
      else if (incoming.explicit.writable && incoming.writable == some true) ||
          (incoming.explicit.value && !Value.sameOption incoming.value existing.value) then
        some .readOnly
      else none
    | .accessor =>
      if (incoming.explicit.getter && !Value.sameOption incoming.getter existing.getter) ||
          (incoming.explicit.setter && !Value.sameOption incoming.setter existing.setter) then
        some .accessorFunctions
      else none

end Descriptor

namespace Object

/-- The object that an object inherits from. -/
def parent? (o : Object) : Option Ref :=
  match o.proto with
  | some (.object r) => some r
  | _ => none

/-- What an object would inherit from if it were an object. -/
def strayParent? (o : Object) : Option Value :=
  match o.proto with
  | some (.object _) => none
  | proto => proto

/-- The own property with a name. -/
def own? (o : Object) (name : PropertyName) : Option (Descriptor Value) := o.properties.lookup name

/-- The names of the own properties, in the order of their first definition. -/
def ownNames (o : Object) : List PropertyName := o.properties.map (·.1)

/-- The names of the own enumerable properties. -/
def keys (o : Object) : List PropertyName :=
  (o.properties.filter fun p => p.2.enumerable).map (·.1)

/-- Stores a property: a known one keeps its place, a new one goes last. -/
def store (name : PropertyName) (d : Descriptor Value) :
    List (PropertyName × Descriptor Value) → List (PropertyName × Descriptor Value)
  | [] => [(name, d)]
  | (n, e) :: ps => if n = name then (n, d) :: ps else (n, e) :: store name d ps

/-- What the existing property refuses in a definition: nothing, unless it is there and not
configurable. -/
def refusal? (o : Object) (name : PropertyName) (d : Descriptor Value) : Option Refusal :=
  match o.own? name with
  | some existing => if existing.configurable then none else existing.refusal? d
  | none => none

/-- Defines a property. A refused definition leaves the object as it was; any other one is logged,
also when what it would leave behind is no descriptor. -/
def define (o : Object) (name : PropertyName) (d : Descriptor Value) :
    Object × Option DefineFault :=
  match o.refusal? name d with
  | some r => (o, some (.refused r))
  | none =>
    let o := { o with log := o.log ++ [name] }
    match d.mergedOnto (o.own? name) with
    | .error f => (o, some (.shape f))
    | .ok merged => ({ o with properties := store name merged o.properties }, none)

end Object

end Undecorate
