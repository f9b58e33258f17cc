import Undecorate.Descriptor.Given
import Undecorate.Fault.Number
import Undecorate.Object.View

/-! # Running against a host

Functions that are not built by the engine belong to a host, which may do anything with the heap
when it is asked to call one of them, or to fetch an attribute of a value. An action runs against
the heap and the state of the host and may fail; what it did before it failed stays done.
-/

namespace Undecorate

/-- The heap, and whatever the host keeps. -/
structure World (σ : Type) where
  heap : Heap := {}
  host : σ

/-- Something that happens in a world and may fail. -/
abbrev Act (σ α : Type) := ExceptT Fault (StateM (World σ)) α

/-- How a host calls its functions, and how it fetches the attributes of values that the engine does
not know itself: nothing, for an attribute that a value lacks. Fetching one may run code of the
host. -/
structure Host (σ : Type) where
  call : Function → List Value → Act σ Value
  fetch : Value → String → Act σ (Option Value) := fun _ _ => return none

/-- A fault of a definition, as it is reported. -/
def DefineFault.fault (name : View) : DefineFault → Fault
  | .refused r => .refused (.defineProperty name.note r.message)
  | .shape f => .invalid [f.issue]

/-- A fault of a mapping, as it is reported. -/
def MappingFault.fault (view : Value → View) : MappingFault → Fault
  | .mixed => .badValue "descriptor mixes data and accessor fields"
  | .notCallable v => .badValue ("accessor function is not callable: " ++ (view v).quoted)
  | .shape f => .invalid [f.issue]

/-- A fault of an assignment, as it is reported. -/
def AssignFault.fault : AssignFault → Fault
  | .issue i => .invalid [i]
  | .derived part => .raised "AttributeError"
      (.ofString ("property '" ++ part ++ "' of 'PropertyDescriptor' object has no setter"))

/-- A value that cannot be a key. -/
def Fault.unhashable (typeName : String) : Fault :=
  .raised "TypeError" (.ofString ("unhashable type: '" ++ typeName ++ "'"))

/-- A value that cannot be called. -/
def Fault.notCallable (typeName : String) : Fault :=
  .raised "TypeError" (.ofString ("'" ++ typeName ++ "' object is not callable"))

namespace Act

variable {σ : Type}

/-- The heap as it is. -/
def heap : Act σ Heap := do return (← get).heap

/-- Changes the heap. -/
def onHeap {α : Type} (f : Heap → α × Heap) : Act σ α :=
  modifyGet fun w => let (a, h) := f w.heap; (a, { w with heap := h })

/-- What a value looks like now. -/
def view (v : Value) : Act σ View := do return (← heap).view v

/-- Checks that a value can be quoted: what is quoted for a record of the run fails with it. -/
def checkQuotable (v : Value) : Act σ Unit := do
  if let some o := (← view v).obstacle? true then throw o.fault

/-- The quoted form of a value. -/
def quoted (v : Value) : Act σ Text := do
  checkQuotable v
  return (← view v).quoted

/-- The property that a value names. -/
def nameOf (v : Value) : Act σ PropertyName := do
  match v.propertyName with
  | .ok name => return name
  | .error .digits => throw .tooLong
  | .error .container => throw (.unhashable (← view v).typeName)

/-- A reference to a new descriptor. -/
def newDescriptor (d : Descriptor Value) : Act σ Value := do
  return .descriptor (← onHeap (·.newDescriptor d))

/-- The object that a value refers to; `part` is what it is wanted for. -/
def objectOf (v : Value) (part : String) : Act σ (Ref × Object) := do
  if let .object r := v then
    if let some o := (← heap).object? r then return (r, o)
  throw (.noAttribute (← view v).typeName part)

/-- The descriptor that a value refers to; `part` is what it is wanted for. -/
def descriptorOf (v : Value) (part : String) : Act σ (Ref × Descriptor Value) := do
  if let .descriptor r := v then
    if let some d := (← heap).descriptor? r then return (r, d)
  throw (.noAttribute (← view v).typeName part)

/-- Creates a function, below a parent if there is one. -/
def newFunction (name : Text) (implementation : Option Function) (source : Option Member)
    (parent : Value) : Act σ Value := do
  match parent with
  | .absent => return .object (← onHeap (·.newFunction name implementation source none))
  | parent =>
    let (r, o) ← objectOf parent "prototype"
    if o.callable.isNone then throw (.noAttribute (← view parent).typeName "prototype")
    return .object (← onHeap (·.newFunction name implementation source (some r)))

/-- Fails with a mapping's fault, in which an accessor that cannot be called is quoted. -/
def refuseMapping {α : Type} (f : MappingFault) : Act σ α := do
  if let .notCallable v := f then checkQuotable v
  throw (f.fault (← heap).view)

/-- Checks that the fault of a mapping is a failed check. It is not where it quotes a value without
end. -/
def checkEnding (f : MappingFault) : Act σ Unit := do
  if let .notCallable v := f then
    if (← view v).obstacle? true = some .endless then throw .endless

/-- The descriptor that a mapping gives. -/
def readMapping (fields : List (String × Value)) : Act σ (Descriptor Value) := do
  match Descriptor.ofMapping (← heap).isCallable fields with
  | .ok d => return d
  | .error f => refuseMapping f

/-- Defines a property of an object by a descriptor. The name is quoted in a refusal, and for the
record once the property is there. -/
def defineBy (r : Ref) (name : PropertyName) (d : Descriptor Value) : Act σ Unit := do
  let fault ← onHeap fun h => (h.define r name d).swap
  if fault.all (·.isRefusal) then checkQuotable name.value
  if let some f := fault then throw (f.fault (← view name.value))

/-- Adds a definition to the log of an object and does nothing else. -/
def logDefinition (r : Ref) (name : PropertyName) : Act σ Unit :=
  onHeap fun h => ((), { h with
    objects := h.objects.modify r fun o => { o with log := o.log ++ [name] } })

/-- Defines a property of an object by whatever is given for its descriptor. What is no descriptor
is found out only when the property asks for its fields. -/
def define (target key given : Value) : Act σ Unit := do
  let (r, o) ← objectOf target "define_property"
  let name ← nameOf key
  match given with
  | .descriptor _ =>
    let (_, d) ← descriptorOf given "merged_onto"
    defineBy r name d
  | _ =>
    let typeName := (← view given).typeName
    if (o.own? name).any (!·.configurable) then throw (.noAttribute typeName "model_fields_set")
    logDefinition r name
    throw (.noAttribute typeName "merged_onto")

/-- A reference to a copy of the own property that a value names. -/
def ownDescriptor (target key : Value) : Act σ Value := do
  let (_, o) ← objectOf target "get_own_property_descriptor"
  let name ← nameOf key
  match o.own? name with
  | some d => newDescriptor d
  | none => return .absent

/-- Assigns a part of a descriptor. -/
def assign (target : Value) (part : String) (v : Value) : Act σ Unit := do
  let (r, d) ← descriptorOf target part
  let (d, failed) := d.assign part v
  onHeap fun h => ((), h.setDescriptor r d)
  if let some f := failed then throw f.fault

/-- Calls a value; a function object without an implementation gives nothing. -/
def call (host : Host σ) (callee : Value) (arguments : List Value) : Act σ Value := do
  match callee with
  | .function f => host.call f arguments
  | .object r => match (← heap).callable? r with
    | some c => match c.implementation with
      | some f => host.call f arguments
      | none => return .absent
    | none => throw (.notCallable "JSObject")
  | v => throw (.notCallable (← view v).typeName)

/-- An attribute of a value, if it has it: a part of a descriptor, the text of an opaque value, or
else what the host fetches. -/
def fetch (host : Host σ) (v : Value) (name : String) : Act σ (Option Value) := do
  match v with
  | .descriptor r => match ((← heap).descriptor? r).bind (·.part? name) with
    | some part => return some part
    | none => host.fetch v name
  | .source text _ => if name = "text" then return some (.text text .shared) else host.fetch v name
  | v => host.fetch v name

/-- Whether a value has an attribute, which is fetched to find out. -/
def hasAttribute (host : Host σ) (v : Value) (name : String) : Act σ Bool :=
  Option.isSome <$> fetch host v name

/-- Fetches an attribute of a value. -/
def getAttribute (host : Host σ) (v : Value) (name : String) : Act σ Value := do
  match ← fetch host v name with
  | some found => return found
  | none => throw (.noAttribute (← view v).typeName name)

/-- Reads a property through the prototypes of an object. A getter is called with the receiver, or
else with the object. -/
def getProperty (host : Host σ) (target key receiver : Value) : Act σ Value := do
  let (r, _) ← objectOf target "get"
  let name ← nameOf key
  match (← heap).lookup? r name with
  | none => match (← heap).strayParent? r with
    | some stray => throw (.noAttribute (← view stray).typeName "_properties")
    | none => return .absent
  | some d => match d.kind with
    | .data => return .ofOption d.value
    | .accessor => match d.getter with
      | none => return .absent
      | some getter => call host getter [(receiver.present?).getD target]

end Act

end Undecorate
