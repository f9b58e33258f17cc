import Undecorate.Object.Basic

/-! # The heap

All objects and all descriptors that values refer to. Objects keep descriptors of their own, so a
descriptor that a value refers to can change without changing a property. A prototype is always
older than the objects that inherit from it, which bounds every chain of prototypes.
-/

namespace Undecorate

/-- The objects and descriptors of a running program, in the order of their creation. -/
structure Heap where
  objects : Array Object := #[]
  descriptors : Array (Descriptor Value) := #[]
deriving Repr, Inhabited

namespace Heap

/-- The object at a place. -/
def object? (h : Heap) (r : Ref) : Option Object := h.objects[r]?

/-- The descriptor at a place. -/
def descriptor? (h : Heap) (r : Ref) : Option (Descriptor Value) := h.descriptors[r]?

/-- What makes the object at a place a function, if it is one. -/
def callable? (h : Heap) (r : Ref) : Option Callable := (h.object? r).bind (·.callable)

/-- Whether a value can be called. -/
def isCallable (h : Heap) : Value → Bool
  | .function _ => true
  | .object r => (h.callable? r).isSome
  | _ => false

/-- Creates an object. -/
def newObject (h : Heap) (o : Object) : Ref × Heap :=
  (h.objects.size, { h with objects := h.objects.push o })

/-- Creates a descriptor. -/
def newDescriptor (h : Heap) (d : Descriptor Value) : Ref × Heap :=
  (h.descriptors.size, { h with descriptors := h.descriptors.push d })

/-- Changes the descriptor at a place. -/
def setDescriptor (h : Heap) (r : Ref) (d : Descriptor Value) : Heap :=
  { h with descriptors := h.descriptors.setIfInBounds r d }

/-- The descriptor of the link from a prototype back to its function. -/
def constructorLink (function : Ref) : Descriptor Value := .method (some (.object function))

/-- Creates a function with a fresh prototype. A parent, which has to be a function, gives the
function its prototype and the fresh prototype its own. -/
def newFunction (h : Heap) (name : Text) (implementation : Option Function)
    (source : Option Member) (parent : Option Ref) : Ref × Heap :=
  let function := h.objects.size
  let prototype : Object := {
    proto := parent.bind fun p => (h.callable? p).map fun c => .object c.prototype
    label := some (name ++ ".prototype") }
  let (_, h) := h.newObject {
    proto := parent.map .object
    label := some name
    callable := some { name, implementation, source, prototype := function + 1 } }
  let (_, h) := h.newObject (prototype.define (.text "constructor") (constructorLink function)).1
  (function, h)

/-- Defines a property of the object at a place. -/
def define (h : Heap) (r : Ref) (name : PropertyName) (d : Descriptor Value) :
    Heap × Option DefineFault :=
  match h.object? r with
  | some o =>
    let (o, fault) := o.define name d
    ({ h with objects := h.objects.setIfInBounds r o }, fault)
  | none => (h, none)

/-- An object and the prototypes behind it, nearest first. -/
def chain (h : Heap) (r : Ref) : List Ref :=
  r :: match (h.object? r).bind (·.parent?) with
    | some p => if p < r then h.chain p else []
    | none => []
termination_by r

/-- The property that a name stands for on an object: that of the nearest holder. -/
def lookup? (h : Heap) (r : Ref) (name : PropertyName) : Option (Descriptor Value) :=
  (h.chain r).findSome? fun q => (h.object? q).bind (·.own? name)

/-- The value at the end of the prototypes of an object that is no object itself. -/
def strayParent? (h : Heap) (r : Ref) : Option Value :=
  ((h.chain r).getLast?.bind h.object?).bind (·.strayParent?)

end Heap

end Undecorate
