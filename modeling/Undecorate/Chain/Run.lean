import Undecorate.Chain.Basic
import Undecorate.Object.World

/-! # Running a chain

A member's chain threads a descriptor through its decorators, a class's chain the class itself. The
first decorator that cannot be called, fails or returns a value of the wrong shape ends the chain
with a diagnostic, and none after it is called. A value that has to be quoted and cannot be ends it
as well.
-/

namespace Undecorate

variable {σ : Type}

/-- Reads what a decorator returned as a descriptor: one itself, or a mapping that gives one. -/
def coerceDescriptor (returned : Value) (facts : Facts) : Act σ Value := do
  let h ← Act.heap
  match returned with
  | .descriptor _ => return returned
  | .record fields _ =>
    match Descriptor.ofMapping h.isCallable fields with
    | .ok d => Act.newDescriptor d
    | .error f =>
      Act.checkEnding f
      Act.checkQuotable returned
      let f := f.fault h.view
      throw (.refused { Diagnostic.contract (h.view returned)
        ("a valid descriptor (" ++ f.text ++ ")") (facts h) with issues := f.issues? })
  | _ =>
    Act.checkQuotable returned
    throw (.refused (.contract (h.view returned) "a property descriptor or nothing" (facts h)))

/-- Carries a descriptor over an application. -/
def carryForward (current : Value) (outcome : Outcome) (facts : Facts) : Act σ Value :=
  match outcome with
  | .keep => return current
  | .replace v => coerceDescriptor v facts

/-- Carries a class over an application. -/
def carryClass (current : Value) (outcome : Outcome) (facts : Facts) : Act σ Value := do
  match outcome with
  | .keep => return current
  | .replace v =>
    let h ← Act.heap
    if h.isCallable v then return v
    Act.checkQuotable v
    throw (.refused (.contract (h.view v) "a constructor or nothing" (facts h)))

/-- Applies one decorator. -/
def invoke (host : Host σ) (decorator : Value) (arguments : List Value) (label : Text)
    (facts : Facts) : Act σ Outcome := do
  let h ← Act.heap
  unless h.isCallable decorator do throw (.refused (.notCallable label (facts h)))
  let returned ← tryCatch (Act.call host decorator arguments) fun f => do
    throw (f.passedOn label (facts (← Act.heap)))
  return .of returned

/-- One application: the decorator is called with what `arguments` makes of the current value, and
`carry` takes the outcome over. -/
def applyStep (host : Host σ) (site : ChainSite) (arguments : Value → List Value)
    (carry : Value → Outcome → Facts → Act σ Value)
    (r : ChainResult) (s : Step) : Act σ ChainResult := do
  if (site.labels[s.position]?).isNone then Act.checkQuotable s.decorator
  let label := site.label (← Act.heap) s
  let outcome ← invoke host s.decorator (arguments r.value) label (site.facts label)
  let value ← carry r.value outcome (site.facts label)
  return r.record s label outcome value

/-- Runs a chain from an initial value. -/
def runChain (host : Host σ) (site : ChainSite) (arguments : Value → List Value)
    (carry : Value → Outcome → Facts → Act σ Value)
    (decorators : List Value) (initial : Value) : Act σ ChainResult :=
  (applicationOrder decorators).foldlM (applyStep host site arguments carry) { value := initial }

/-- Runs the chain of a member: every decorator gets the target, the key and the descriptor. The key
is quoted for the record at the end. -/
def runMemberChain (host : Host σ) (site : ChainSite) (target : Value) (decorators : List Value)
    (initial : Value) : Act σ ChainResult := do
  let r ← runChain host site (fun current => [target, site.key, current]) carryForward decorators
    initial
  Act.checkQuotable site.key
  return r

/-- Runs the chain of a class: every decorator gets the class. -/
def runClassChain (host : Host σ) (site : ChainSite) (decorators : List Value) (initial : Value) :
    Act σ ChainResult :=
  runChain host site (fun current => [current]) carryClass decorators initial

/-- Installs the result of a member's chain if a decorator replaced the descriptor, and tells
whether it did. -/
def install (target key : Value) (r : ChainResult) : Act σ Bool := do
  if r.replaced then Act.define target key r.value else Act.checkQuotable key
  return r.replaced

end Undecorate
