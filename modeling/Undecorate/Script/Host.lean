import Undecorate.Fault.Outside
import Undecorate.Fault.Request
import Undecorate.Object.World
import Undecorate.Script.Basic

/-! # The scripted host

Runs scripted functions and keeps a record of their calls, with the arguments as they were at the
time; a call whose arguments cannot be written down fails. Names are bound to values; a name that
is only bound to a literal gets its value when it is first used.
-/

namespace Undecorate

/-- One call of a scripted function. -/
structure CallRecord where
  name : String
  arguments : List View
deriving Repr, Inhabited

/-- What the scripted host keeps: the script of every function by its identity, the calls so far,
the names with their values or literals, and how many values it has told apart from their equals. -/
structure Stage where
  scripts : Array Script := #[]
  calls : List CallRecord := []
  bound : List (String × Value) := []
  pending : List (String × Literal) := []
  copies : Nat := 0

/-- A failure of a named kind that is raised with a text. -/
def Fault.ofKind (kind text : String) : Fault :=
  match Kind.ofName? kind with
  | some kind => match Request.grant { kind, placed := [.text text] } with
    | .ok granted => .refused granted.diagnostic
    | .error f => f
  | none => .raisedWith kind [.text text]

/-- Something that happens on the stage. -/
abbrev Play (α : Type) := Act Stage α

namespace Stage

/-- A new function with a script. -/
def newScripted (s : Script) : Play Function := do
  let st := (← get).host
  set { ← get with host := { st with scripts := st.scripts.push s } }
  return ⟨st.scripts.size, s.name⟩

/-- A copy that no value is yet. -/
def newCopy : Play Copy :=
  modifyGet fun w =>
    (.kept w.host.copies, { w with host := { w.host with copies := w.host.copies + 1 } })

/-- Binds a name to a value. -/
def bind (name : String) (v : Value) : Play Unit :=
  modify fun w => { w with host := { w.host with bound := setField name v w.host.bound } }

end Stage

namespace Literal

variable (resolve : String → Play Value)

mutual

/-- The value of a literal, by the values of names. Whole numbers and texts are the same ones each
time, everything else is a new one. -/
def evalBy : Literal → Play Value
  | .absent => return .absent
  | .bool b => return .bool b
  | .int n => return .int n .shared
  | .float x => return .float x (← Stage.newCopy)
  | .text t => return .text t .shared
  | .unreadable f => throw f
  | .source s => return .source s (← Stage.newCopy)
  | .list items => return .list (← evalItemsBy items) (← Stage.newCopy)
  | .record fields => return .record (← evalFieldsBy fields) (← Stage.newCopy)
  | .ref name => resolve name
  | .function script => return .function (← Stage.newScripted script)
  | .cls name parent script => do
    let implementation ← script.mapM Stage.newScripted
    let parent ← match parent with
      | some p => resolve p
      | none => pure .absent
    Act.newFunction name implementation none parent
  | .object label proto properties => do
    let proto ← match proto with
      | some p => pure (← resolve p).present?
      | none => pure none
    let r ← Act.onHeap (·.newObject { label, proto })
    definePropertiesBy r properties
    return .object r
  | .descriptor fields => do
    Act.newDescriptor (← Act.readMapping (← evalFieldsBy fields))

/-- The values of a list's items. -/
def evalItemsBy : List Literal → Play (List Value)
  | [] => return []
  | x :: xs => return (← x.evalBy) :: (← evalItemsBy xs)

/-- The values of a record's fields. -/
def evalFieldsBy : List (String × Literal) → Play (List (String × Value))
  | [] => return []
  | (k, x) :: xs => return (k, ← x.evalBy) :: (← evalFieldsBy xs)

/-- Defines properties of an object by mappings. -/
def definePropertiesBy (r : Ref) : List (Literal × List (String × Literal)) → Play Unit
  | [] => return
  | (key, fields) :: rest => do
    let key ← key.evalBy
    let d ← Act.readMapping (← evalFieldsBy fields)
    Act.defineBy r (← Act.nameOf key) d
    definePropertiesBy r rest

end

end Literal

namespace Stage

/-- The value of a name. A name bound to a literal is bound to its value; at most `depth` literals
are evaluated one inside another. -/
def resolveTo : Nat → String → Play Value
  | 0, name => throw (.unbound name)
  | depth + 1, name => do
    let st := (← get).host
    match st.bound.lookup name with
    | some v => return v
    | none => match st.pending.lookup name with
      | none => throw (.unbound name)
      | some literal =>
        let v ← literal.evalBy (resolveTo depth)
        bind name v
        return v

/-- The value of a name. -/
def resolve (name : String) : Play Value := do
  resolveTo ((← get).host.pending.length + 1) name

end Stage

/-- The value of a literal. -/
def Literal.eval (l : Literal) : Play Value := l.evalBy Stage.resolve

/-- The values of a record's fields. -/
def Literal.evalFields (fields : List (String × Literal)) : Play (List (String × Value)) :=
  Literal.evalFieldsBy Stage.resolve fields

namespace Deed

/-- An argument that is not there. -/
def missingArgument : Fault := .raised "IndexError" "tuple index out of range"

/-- The last argument. -/
def lastOf (arguments : List Value) : Play Value :=
  match arguments.getLast? with
  | some v => return v
  | none => throw missingArgument

/-- Assigns a field of a value. Objects and functions take any field and do nothing with it. -/
def assignTo (target : Value) (field : String) (v : Value) : Play Unit :=
  match target with
  | .object _ | .function _ | .source _ _ => return
  | _ => Act.assign target field v

/-- Does what a scripted function does. -/
def run (name : String) (arguments : List Value) : Deed → Play Value
  | .keep => return .absent
  | .give value => value.eval
  | .last => lastOf arguments
  | .arguments => return .list (.text name .shared :: arguments) (← Stage.newCopy)
  | .assign fields returns => do
    let target ← lastOf arguments
    for (field, value) in fields do
      assignTo target field (← value.eval)
    return if returns then target else .absent
  | .adjust fields drop => do
    let (_, d) ← Act.descriptorOf (← lastOf arguments) "as_dict"
    let fields ← Literal.evalFields fields
    let mapping := fields.foldl (fun m (k, v) => setField k v m) d.toMapping
    return .record (mapping.filter fun (k, _) => !drop.contains k) (← Stage.newCopy)
  | .wrap lead => do
    let target ← lastOf arguments
    match target with
    | .object r => match (← Act.heap).callable? r with
      | some c => Act.newFunction (lead ++ c.name) none none target
      | none => throw (.noAttribute (← Act.view target).typeName "name")
    | _ => throw (.noAttribute (← Act.view target).typeName "name")
  | .define key fields => do
    let target ← match arguments.head? with
      | some v => pure v
      | none => throw missingArgument
    let (r, _) ← Act.objectOf target "define_property"
    let key ← key.eval
    let d ← Act.readMapping (← Literal.evalFields fields)
    Act.defineBy r (← Act.nameOf key) d
    return .absent
  | .factory script => return .function (← Stage.newScripted script)
  | .fail kind text => throw (.ofKind kind text)

end Deed

/-- The host of scripted functions. -/
def Stage.host : Host Stage where
  call f arguments := do
    let views ← arguments.mapM Act.view
    if let some o := View.itemObstacle? false views then throw o.fault
    let record : CallRecord := ⟨f.name, views⟩
    modify fun w => { w with host := { w.host with calls := w.host.calls ++ [record] } }
    match (← get).host.scripts[f.id]? with
    | some script => script.deed.run f.name arguments
    | none => return .absent

end Undecorate
