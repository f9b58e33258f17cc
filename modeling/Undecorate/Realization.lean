import Undecorate.Chain.Run
import Undecorate.Classify
import Undecorate.Expression.Eval
import Undecorate.Fault.Batch

/-! # Realizing declarations

Does what the lowered source would do, in the object model: builds the bare class or object,
evaluates every key once, and runs the chain of each decoration, whose result is installed when a
decorator replaced the descriptor. Declarations are independent of one another.
-/

namespace Undecorate

/-- A declaration that has been run: the final class or object, and its decorations with the
results of their chains. -/
structure Realization where
  value : Value
  decorations : List Decoration
  results : List (Decoration × ChainResult) := []
deriving Repr, Inhabited

namespace Realization

/-- Whether a decoration is of the property with a name; the temporary that holds a computed key is
a name of it too. -/
def isNamed (name : Option Text) (d : Decoration) : Bool :=
  d.key?.any fun key => key.name? = name || key.snapshot?.map Text.ofString = name

/-- The first result for the property with a name. -/
def resultFor? (r : Realization) (name : Option Text) : Option ChainResult :=
  (r.results.find? fun (d, _) => isNamed name d).map (·.2)

/-! ## Keys -/

/-- The members whose key is that of an earlier one: those after the first of a decorated computed
property, each with the place of the first. -/
def sharedKeys (decorations : List Decoration) : List (Nat × Nat) :=
  decorations.flatMap fun d => match d.subject with
    | .property (.computed _ _) _ (first :: rest) => rest.map (·, first)
    | _ => []

variable {σ : Type} (host : Host σ) (names : Names)

/-- The value of a member's key, by the keys of the members before it. -/
def keyOf (shared : List (Nat × Nat)) (keys : List (Nat × Value)) (place : Nat) (key : Key) :
    Act σ Value :=
  match shared.lookup place with
  | some first => match keys.lookup first with
    | some v => return v
    | none => throw (.raised "KeyError" (.ofString (toString first)))
  | none => match key.staticName? with
    | some name => return .text name .shared
    | none => names.evaluate host key.text

/-- The keys of the members by their places, each evaluated once and in source order. -/
def keysOf (members : List Member) (decorations : List Decoration) : Act σ (List (Nat × Value)) :=
  members.zipIdx.foldlM (fun keys (m, i) => do
    match m.key with
    | none => return keys
    | some key => return keys ++ [(i, ← keyOf host names (sharedKeys decorations) keys i key)]) []

/-! ## Bare properties -/

/-- Whether bare source gives a member a property. -/
def isInstalled (m : Member) : Bool :=
  match m.kind with
  | .construct | .comment | .other => false
  | .field => m.isStatic
  | _ => true

/-- Adds one half of an accessor to a property. -/
def installAccessor (target key : Value) (m : Member) (function : Value) : Act σ Unit := do
  let half (getter setter : Option Value) : Act σ Unit := do
    Act.define target key (← Act.newDescriptor (.accessor getter setter))
  let existing ← Act.ownDescriptor target key
  match existing with
  | .descriptor r =>
    if ((← Act.heap).descriptor? r).any (·.isAccessor) then
      Act.assign existing (if m.kind = .getter then "getter" else "setter") function
      Act.define target key existing
    else if m.kind = .getter then half (some function) none else half none (some function)
  | _ => if m.kind = .getter then half (some function) none else half none (some function)

/-- A function for a member, which goes by the member's key. -/
def memberFunction (key : Value) (m : Member) : Act σ Value := do
  Act.checkQuotable key
  Act.newFunction (← Act.view key).shown none (some m) .absent

/-- A reference to the descriptor of a property whose value is known by its text only. No other
property has the same value. -/
def newPlain (value : Option String) : Act σ Value := do
  return .descriptor (← Act.onHeap fun h =>
    h.newDescriptor (.plain (value.map (.source · (.made h.descriptors.size)))))

/-- Creates the property of one member. -/
def installMember (target key : Value) (m : Member) : Act σ Unit := do
  match m.kind with
  | .method =>
    let function ← memberFunction key m
    Act.define target key (← Act.newDescriptor (.method (some function)))
  | .getter | .setter => installAccessor target key m (← memberFunction key m)
  | _ => Act.define target key (← newPlain m.value)

/-- Creates the properties that bare source gives, static ones on the class if there is one. -/
def installMembers (members : List Member) (keys : List (Nat × Value)) (home : Value)
    (cls : Option Value) : Act σ Unit :=
  members.zipIdx.forM fun (m, i) => do
    if let some key := keys.lookup i then
      if isInstalled m then
        installMember (if m.isStatic then cls.getD home else home) key m

/-! ## Decorations -/

/-- The functions that the decorators of a decoration stand for, evaluated in source order. -/
def resolveAll (d : Decoration) : Act σ (List Value) := d.decorators.mapM (names.resolve host)

/-- Where the chain of a decoration runs. -/
def chainSite (d : Decoration) (key : Value) : ChainSite where
  key
  labels := d.decorators.map (·.text)
  location := d.range

/-- Runs the decoration of a property and installs its result. -/
def runMember (d : Decoration) (target : Value) (keys : List (Nat × Value)) :
    Act σ ChainResult := do
  let key ← match d.members.head?.bind fun i => keys.lookup i with
    | some key => pure key
    | none => throw (.raised "KeyError" "member without a key")
  let decorators ← resolveAll host names d
  let initial ← Act.ownDescriptor target key
  let result ← runMemberChain host (chainSite d key) target decorators initial
  let _ ← install target key result
  return result

/-- Runs one decoration of a class, which may give the class another value. -/
def runDecoration (cls prototype : Value) (keys : List (Nat × Value)) (r : Realization)
    (d : Decoration) : Act σ Realization := do
  match d.subject with
  | .whole =>
    let decorators ← resolveAll host names d
    let result ← runClassChain host (chainSite d .absent) decorators cls
    return { r with value := result.value, results := r.results ++ [(d, result)] }
  | .property _ _ _ =>
    let target := if d.target.kind = .construct then cls else prototype
    let result ← runMember host names d target keys
    return { r with results := r.results ++ [(d, result)] }

/-! ## Declarations -/

/-- The class that a class extends. -/
def parentOf (c : ClassDecl) : Act σ Value :=
  match c.parent? with
  | none => return .absent
  | some text => do
    let parent ← names.evaluate host text
    match parent with
    | .object r =>
      if ((← Act.heap).callable? r).isSome then return parent
      throw (.refused (.resolution text "heritage is not a constructor"))
    | _ => throw (.refused (.resolution text "heritage is not a constructor"))

/-- Builds a class and runs its decorators. -/
def ofClass (c : ClassDecl) : Act σ Realization := do
  let decorations ← match c.decorations {} with
    | .ok (ds, _) => pure ds
    | .error f => throw f.fault
  let parent ← parentOf host names c
  let cls ← Act.newFunction c.bindingName none c.construct? parent
  let (_, o) ← Act.objectOf cls "prototype"
  let prototype := Value.ofOption (o.callable.map fun f => .object f.prototype)
  let keys ← keysOf host names c.members decorations
  installMembers c.members keys prototype (some cls)
  decorations.foldlM (runDecoration host names cls prototype keys) { value := cls, decorations }

/-- Builds an object and runs the decorators of its members. -/
def ofObject (o : ObjectLiteral) : Act σ Realization := do
  let decorations ← match o.decorations "_obj" {} with
    | .ok (ds, _) => pure ds
    | .error f => throw f.fault
  let target := Value.object (← Act.onHeap (·.newObject { label := some "_obj" }))
  let keys ← keysOf host names o.members decorations
  installMembers o.members keys target none
  decorations.foldlM (fun r d => do
    return { r with results := r.results ++ [(d, ← runMember host names d target keys)] })
    { value := target, decorations }

/-- Builds a declaration and runs its decorators. -/
def ofDeclaration : Declaration → Act σ Realization
  | .cls c => ofClass host names c
  | .object o => ofObject host names o

/-- Runs declarations one after the other. A diagnostic ends its own declaration only; any other
fault ends the run. -/
def all (declarations : List Declaration) : Act σ (List Realization × List Failure) :=
  processBatch Fault.isDiagnostic (fun d => .text d.title) (some "realize")
    (ofDeclaration host names) declarations

end Realization

end Undecorate
