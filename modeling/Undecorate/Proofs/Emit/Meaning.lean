import Undecorate.Emit.Statement
import Undecorate.Proofs.Act

/-! # What generated statements do

A statement is run against a host like everything else that runs. It reads and assigns texts: the
names of variables, the literal of a static key and the path to a prototype. Only names are
assigned, so the other texts stand for the same value as long as the class that a path starts from
is the same one. The source that a user wrote is a parameter: it may do anything in the world, but
it cannot see a temporary.
-/

namespace Undecorate

/-- What the texts that generated statements read stand for. -/
abbrev Bindings := String → Value

/-- The bindings after an assignment. -/
def Bindings.set (b : Bindings) (name : String) (v : Value) : Bindings :=
  fun text => if text = name then v else b text

@[simp] theorem Bindings.set_self (b : Bindings) (name : String) (v : Value) :
    b.set name v name = v := if_pos rfl

theorem Bindings.set_of_ne {b : Bindings} {name text : String} {v : Value} (h : text ≠ name) :
    b.set name v text = b text := if_neg h

/-- What a descriptor literal gives when `source` is the property that was installed. -/
def DescriptorLiteral.build (l : DescriptorLiteral) (source : Descriptor Value) :
    Descriptor Value :=
  match l.kind with
  | .accessor => {
      kind := .accessor
      getter := if l.hasGetter then source.getter else none
      setter := if l.hasSetter then source.setter else none
      enumerable := l.enumerable
      configurable := l.configurable
      explicit := {
        kind := true, getter := l.hasGetter, setter := l.hasSetter, enumerable := true
        configurable := true } }
  | .data => {
      kind := .data
      value := source.value
      enumerable := l.enumerable
      configurable := l.configurable
      writable := some l.writable
      explicit := .ofList [.kind, .value, .enumerable, .configurable, .writable] }

section Runs

variable {σ : Type}

/-- Evaluates a descriptor literal; reading the parts of what is no descriptor fails. -/
def DescriptorLiteral.run (l : DescriptorLiteral) (source : Value) : Act σ Value := do
  let (_, d) ← Act.descriptorOf source "value"
  Act.newDescriptor (l.build d)

/-- The bindings when an application to a class has returned `v`. -/
def Bindings.afterClass (b : Bindings) (result binding : String) (v : Value) : Bindings :=
  let b := b.set result v
  match v with
  | .absent => b
  | _ => b.set binding (b result)

/-- The bindings when an application to a property has returned `v`. -/
def Bindings.afterProperty (b : Bindings) (result descriptor changed : String) (v : Value) :
    Bindings :=
  let b := b.set result v
  match v with
  | .absent => b
  | _ => (b.set descriptor (b result)).set changed (.bool true)

/-- Runs a statement; `evaluate` runs source that a user wrote. -/
def Statement.run (host : Host σ) (evaluate : String → Act σ Value) (b : Bindings) :
    Statement → Act σ Bindings
  | .written text => do
    let _ ← evaluate text
    return b
  | .evaluate temporary expression => b.set temporary <$> evaluate expression
  | .applyToClass result decorator binding =>
    b.afterClass result binding <$> Act.call host (b decorator) [b binding]
  | .readOwn source target key => b.set source <$> Act.ownDescriptor (b target) (b key)
  | .begin descriptor initial source => b.set descriptor <$> initial.run (b source)
  | .reset changed => return b.set changed (.bool false)
  | .applyToProperty result decorator target key descriptor changed =>
    b.afterProperty result descriptor changed <$>
      Act.call host (b decorator) [b target, b key, b descriptor]
  | .install changed target key descriptor => do
    if (b changed).isTruthy then Act.define (b target) (b key) (b descriptor)
    return b
  | .give _ => return b

/-- Runs statements one after the other. -/
def runStatements (host : Host σ) (evaluate : String → Act σ Value) (statements : List Statement)
    (b : Bindings) : Act σ Bindings :=
  statements.foldlM (Statement.run host evaluate) b

variable {host : Host σ} {evaluate : String → Act σ Value} {b : Bindings}

theorem runStatements_append (first rest : List Statement) :
    runStatements host evaluate (first ++ rest) b =
      runStatements host evaluate first b >>= runStatements host evaluate rest :=
  List.foldlM_append

@[simp] theorem runStatements_nil : runStatements host evaluate [] b = pure b := rfl

@[simp] theorem runStatements_cons (statement : Statement) (rest : List Statement) :
    runStatements host evaluate (statement :: rest) b =
      statement.run host evaluate b >>= runStatements host evaluate rest :=
  List.foldlM_cons

end Runs

end Undecorate
