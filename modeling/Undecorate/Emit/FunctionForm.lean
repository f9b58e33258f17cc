import Undecorate.Emit.Options
import Undecorate.Emit.Statement
import Undecorate.Fault.Diagnostic
import Undecorate.Layout
import Undecorate.Text.Word

/-! # Lowering to a constructor function

Writes a class as a function whose methods and accessors are installed one property at a time with
the attributes that class bodies give them, and rebuilds an object literal from an empty object in
the same way. References to `super`, private names and explicit constructors of derived classes
have no such form.
-/

namespace Undecorate

/-- Why a declaration has no constructor function. -/
inductive FunctionFault where
  | hidden (name : String) (range : Option SourceRange)
  | super (member : String) (range : Option SourceRange)
  | ownConstruct (cls : String) (range : Option SourceRange)
  /-- A member lacks a part that its kind has. -/
  | noPart (part : String)
deriving DecidableEq, Repr

/-- A fault as it is reported. -/
def FunctionFault.fault : FunctionFault → Fault
  | .hidden name range => refuse
      ("Private member '" ++ name ++ "' has no constructor-function equivalent") range
  | .super member range => refuse
      ("'super' in '" ++ member ++ "' has no constructor-function equivalent") range
  | .ownConstruct cls range => refuse
      ("Class '" ++ cls ++ "' extends another class and declares its own constructor") range
  | .noPart part => .noAttribute "NoneType" part
where
  refuse (message : String) (range : Option SourceRange) : Fault :=
    .refused (.emission message EmitForm.constructorFunction.name range)

/-- A fault of a lowering that hands out names, and the scope at that time: the names that were
handed out before it stay so. -/
structure Halt where
  fault : FunctionFault
  scope : Scope
deriving DecidableEq, Repr

/-- A part of a lowering that hands out no names. -/
def Scope.during {α : Type} (s : Scope) (part : Except FunctionFault α) : Except Halt α :=
  part.mapError (⟨·, s⟩)

namespace FunctionForm

/-- The first member that has no place in a function. -/
def inexpressible? (members : List Member) : Option FunctionFault :=
  members.findSome? fun m =>
    match m.key.filter (·.isPrivate) with
    | some k => some (.hidden k.text m.range)
    | none => if m.usesSuper then some (.super m.displayName m.range) else none

/-- A text that the member must have, relative to its first line. -/
def need (text : Option String) : Except FunctionFault String :=
  match text with
  | some s => .ok (Layout.rebaseText s)
  | none => .error (.noPart "split")

/-- The key that the member must have. -/
def needKey (m : Member) : Except FunctionFault Key :=
  match m.key with
  | some k => .ok k
  | none => .error (.noPart "computed")

/-- A signature without a mark for an optional or definite member. -/
def signature (m : Member) : String :=
  String.ofList (Text.trim (m.signature.toList.dropWhile fun c => c == '?' || c == '!'))

/-- A member as a function expression. -/
def functionExpression (m : Member) : Except FunctionFault String := do
  let body ← need m.body
  return (if m.isAsync then "async " else "") ++ "function" ++ (if m.isGenerator then "*" else "") ++
    " " ++ signature m ++ " " ++ body

/-- A call that defines a property. -/
def defineCall (target key fields : String) : String :=
  "Object.defineProperty(" ++ target ++ ", " ++ key ++ ", \x7b " ++ fields ++ " \x7d);"

/-- A call that defines a method or one half of an accessor. -/
def functionProperty (target key : String) (m : Member) (enumerable : Bool) :
    Except FunctionFault String := do
  let function ← functionExpression m
  let attributes := "enumerable: " ++ boolLiteral enumerable ++ ", configurable: true"
  return defineCall target key <| match m.kind with
    | .getter => "get: " ++ function ++ ", " ++ attributes
    | .setter => "set: " ++ function ++ ", " ++ attributes
    | _ => "value: " ++ function ++ ", " ++ attributes ++ ", writable: true"

/-- A call that defines a property with a value. -/
def dataProperty (target key value : String) : String :=
  defineCall target key
    ("value: " ++ value ++ ", enumerable: true, configurable: true, writable: true")

/-- The expression for a member's key; a captured key assigns or reads its snapshot. -/
def memberKey (captures : List (Nat × Capture)) (place : Nat) (m : Member) :
    Except FunctionFault String :=
  match captures.lookup place with
  | some c =>
    .ok (if c.assigns then c.snapshot ++ " = (" ++ (m.key.map (·.text)).getD "" ++ ")"
      else c.snapshot)
  | none => do
    let k ← needKey m
    return if k.isComputed then "(" ++ k.text ++ ")" else nameLiteral k.staticName?

/-- Whether a name can follow a dot. A line feed at its end is let through. -/
def isDotName (name : String) : Bool :=
  let cs := name.toList
  let cs := if cs.getLast? = some '\n' then cs.dropLast else cs
  match cs with
  | [] => false
  | c :: cs => Text.isNameStart c && cs.all Text.isNamePart

/-- The access to a field of an instance. -/
def fieldAccess (k : Key) (key : String) : String :=
  match (k.staticName?.bind (·.string?)).filter isDotName with
  | some name => "." ++ name
  | none => "[" ++ key ++ "]"

/-- The pieces of a class: fields of each instance, definitions on the prototype and the class, and
static elements that follow them. -/
structure Pieces where
  instanceFields : List String := []
  definitions : List String := []
  statics : List String := []
deriving DecidableEq, Repr

/-- Adds a field. A computed key is evaluated once, at definition time. -/
def addField (cls : String) (m : Member) (p : Pieces) (s : Scope) :
    Except Halt (Pieces × Scope) := do
  let k ← s.during (needKey m)
  let (key, p, s) := if k.isComputed then
      let (temporary, s) := s.fresh "field"
      (temporary, { p with definitions := p.definitions ++ [temporary ++ " = (" ++ k.text ++ ");"] }, s)
    else (nameLiteral k.staticName?, p, s)
  let value := (m.value.map Layout.rebaseText).getD "void 0"
  if m.isStatic then return ({ p with statics := p.statics ++ [dataProperty cls key value] }, s)
  return ({ p with instanceFields :=
    p.instanceFields ++ ["this" ++ fieldAccess k key ++ " = " ++ value ++ ";"] }, s)

/-- Adds a member of a class. -/
def addMember (cls : String) (captures : List (Nat × Capture)) (place : Nat) (m : Member)
    (p : Pieces) (s : Scope) : Except Halt (Pieces × Scope) := do
  match m.kind with
  | .comment =>
    return ({ p with definitions := p.definitions ++ [Layout.rebaseText m.source] }, s)
  | .field => addField cls m p s
  | .staticBlock =>
    let body ← s.during (need m.body)
    return ({ p with statics := p.statics ++ ["(function () " ++ body ++ ").call(" ++ cls ++ ");"] }, s)
  | .method | .getter | .setter =>
    let target := if m.isStatic then cls else cls ++ ".prototype"
    let key ← s.during (memberKey captures place m)
    let definition ← s.during (functionProperty target key m false)
    return ({ p with definitions := p.definitions ++ [definition] }, s)
  | _ => return (p, s)

/-- The pieces of all members of a class. -/
def pieces (cls : String) (captures : List (Nat × Capture)) (members : List Member) (s : Scope) :
    Except Halt (Pieces × Scope) :=
  members.zipIdx.foldlM (fun (p, s) (m, i) => addMember cls captures i m p s) ({}, s)

/-- The function of a class without a parent. -/
def baseConstruct (size : Nat) (cls : String) (construct : Option Member)
    (fields : List String) : Except FunctionFault String := do
  let (params, body) ← match construct with
    | none => pure ("()", "")
    | some m => match m.body with
      | some b => pure (signature m, Layout.onText Layout.blockBody b)
      | none => throw (.noPart "split")
  return Layout.blockText size ("function " ++ cls ++ params)
    (fields ++ if body.isEmpty then [] else [body])

/-- The function of a derived class. The parent builds the instance, which lets native classes be
extended; then the fields are set on it. -/
def derivedConstruct (size : Nat) (cls parent instanceName : String) (fields : List String) :
    String :=
  let create := "var " ++ instanceName ++ " = Reflect.construct(" ++ parent ++
    ", arguments, new.target || " ++ cls ++ ");"
  let set := if fields.isEmpty then []
    else [Layout.blockText size "(function ()" fields ++ ").call(" ++ instanceName ++ ");"]
  Layout.blockText size ("function " ++ cls ++ "()")
    (create :: set ++ ["return " ++ instanceName ++ ";"])

/-- The statements that define the undecorated class. -/
def classDefinition (size : Nat) (c : ClassDecl) (ds : List Decoration) (cls : String) (s : Scope) :
    Except Halt (List String × Scope) := do
  if let some f := inexpressible? c.members then throw ⟨f, s⟩
  match c.parent? with
  | none =>
    let (p, s) ← pieces cls (captures ds) c.members s
    let function ← s.during (baseConstruct size cls c.construct? p.instanceFields)
    return (function :: p.definitions ++ p.statics, s)
  | some heritage =>
    if let some m := c.construct? then throw ⟨.ownConstruct cls m.range, s⟩
    let (parent, s) := s.shared "super"
    let (p, s) ← pieces cls (captures ds) c.members s
    let (instanceName, s) := s.reserve "this"
    return ([parent ++ " = " ++ heritage ++ ";",
        derivedConstruct size cls parent instanceName p.instanceFields,
        cls ++ ".prototype = Object.create(" ++ parent ++
          ".prototype, \x7b constructor: \x7b value: " ++ cls ++
          ", writable: true, configurable: true \x7d \x7d);",
        "Object.setPrototypeOf(" ++ cls ++ ", " ++ parent ++ ");"] ++
      p.definitions ++ p.statics, s)

/-- The statement of one member of an object literal, if it has one. -/
def objectMember (binding : String) (captures : List (Nat × Capture)) (place : Nat) (m : Member) :
    Except FunctionFault (List String) := do
  match m.kind with
  | .comment => return [Layout.rebaseText m.source]
  | .spread => return ["Object.assign(" ++ binding ++ ", " ++ (← need m.value) ++ ");"]
  | .property =>
    let value ← need m.value
    let k ← needKey m
    if k.staticName? = some "__proto__" then
      return ["Object.setPrototypeOf(" ++ binding ++ ", " ++ value ++ ");"]
    return [dataProperty binding (← memberKey captures place m) value]
  | .shorthand =>
    let value ← need m.value
    return [dataProperty binding (← memberKey captures place m) value]
  | .method | .getter | .setter =>
    return [← functionProperty binding (← memberKey captures place m) m true]
  | _ => return []

/-- The statements that define the undecorated object. -/
def objectDefinition (o : ObjectLiteral) (ds : List Decoration) (binding : String) :
    Except FunctionFault (List String) := do
  if let some f := inexpressible? o.members then throw f
  let parts ← o.members.zipIdx.mapM fun (m, i) => objectMember binding (captures ds) i m
  return (binding ++ " = \x7b\x7d;") :: parts.flatten

/-- Statements in a function that is called at once. -/
def wrap (size : Nat) (statements : List String) : String :=
  "(function () \x7b\n" ++ Layout.indentText size 1 statements ++ "\n\x7d).call(this)"

end FunctionForm

end Undecorate
