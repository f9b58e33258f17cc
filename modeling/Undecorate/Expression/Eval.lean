import Undecorate.Expression.Basic
import Undecorate.Object.World

/-! # The values of expressions

Names stand for values, paths lead through records, objects and the attributes of all other values,
and calls are made when their arguments have their values. Decorators are expressions of which more
is known: what they call and with which arguments.
-/

namespace Undecorate

/-- The values of names. -/
abbrev Names := List (String × Value)

namespace Names

variable {σ : Type}

/-- Whether a value is taken for an object: it can be read and asked for its own properties.
Descriptors, opaque values and members cannot. -/
def isObjectLike (host : Host σ) (v : Value) : Act σ Bool := do
  match v with
  | .descriptor _ | .source _ _ | .member _ _ => return false
  | v =>
    if ← Act.hasAttribute host v "get" then Act.hasAttribute host v "has_own_property"
    else return false

/-- The member of a value with a name, if there is one: a field of a record, a property of an object
or of what is taken for one, an attribute of anything else. -/
def member? (host : Host σ) (v : Value) (name : String) : Act σ (Option Value) := do
  match v with
  | .record fields _ => return fields.lookup name
  | .object _ => return (← Act.getProperty host v (.text name .shared) .absent).present?
  | v =>
    if ← isObjectLike host v then
      let get ← Act.getAttribute host v "get"
      return (← Act.call host get [.text name .shared]).present?
    else if ← Act.hasAttribute host v name then return some (← Act.getAttribute host v name)
    else return none

/-- Goes from a value to its member with a name. -/
def member (host : Host σ) (path : String) (v : Value) (name : String) : Act σ Value := do
  match ← member? host v name with
  | some found => return found
  | none => throw (.refused (.resolution path ("no member '" ++ name ++ "'")))

/-- The value that a path leads to. -/
def lookup (host : Host σ) (names : Names) (path : String) : Act σ Value := do
  match (Text.cutAt '.' path).map Text.strip with
  | [] => throw (.refused (.resolution path "'' is not defined"))
  | first :: rest => match List.lookup first names with
    | some v => rest.foldlM (member host path) v
    | none => throw (.refused (.resolution path ("'" ++ first ++ "' is not defined")))

/-- The function that a path leads to; `text` is the expression that calls it. -/
def callee (host : Host σ) (names : Names) (text path : String) : Act σ Value := do
  let v ← lookup host names path
  unless (← Act.heap).isCallable v do
    throw (.refused (.resolution text ("'" ++ path ++ "' is not callable")))
  return v

end Names

namespace Expression

variable {σ : Type} (host : Host σ) (names : Names)

mutual

/-- The value of an expression. -/
def eval : Expression → Act σ Value
  | .constant v => return v
  | .path text => names.lookup host text
  | .call text callee arguments => do
    let f ← names.callee host text callee
    let arguments ← evalAll arguments
    Act.call host f arguments
  | .unreadable f => throw f

/-- The values of expressions, from left to right. -/
def evalAll : List Expression → Act σ (List Value)
  | [] => return []
  | e :: es => do
    let v ← e.eval
    let vs ← evalAll es
    return v :: vs

end

end Expression

namespace Names

variable {σ : Type}

/-- The value of an expression text. -/
def evaluate (host : Host σ) (names : Names) (text : String) : Act σ Value :=
  (Expression.parse text).eval host names

/-- The most calls that may stand one inside another in an expression on its own. -/
def callLimit : Nat := 494

/-- The value of an expression text on its own; one that is nested too deeply has none. -/
def evaluateAlone (host : Host σ) (names : Names) (text : String) : Act σ Value := do
  let e := Expression.parse text
  if callLimit < e.nesting then throw .endless
  e.eval host names

/-- The function that a decorator stands for: what its path leads to, or what the call of that
returns. -/
def resolve (host : Host σ) (names : Names) (d : Decorator) : Act σ Value :=
  match d.callee with
  | none => names.evaluate host d.text
  | some path => do
    if d.isCall then
      let f ← names.callee host d.text path
      let arguments ← d.arguments.mapM (names.evaluate host)
      Act.call host f arguments
    else names.lookup host path

end Names

end Undecorate
