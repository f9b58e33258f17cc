import Undecorate.Fault.Diagnostic
import Undecorate.Object.View

/-! # Chains of decorators

Decorators are written from the outermost to the innermost: they are evaluated in that order and
applied in the opposite one. A decorator keeps what it is handed by returning nothing, or replaces
it by what it returns. Everything about a chain that needs no host is here.
-/

namespace Undecorate

/-- What a decorator did to the value it was handed. -/
inductive Outcome where
  | keep
  | replace (v : Value)
deriving Repr, Inhabited

/-- The outcome of a returned value: nothing keeps. -/
def Outcome.of : Value → Outcome
  | .absent => .keep
  | v => .replace v

/-- Whether the outcome is a replacement. -/
def Outcome.isReplacement : Outcome → Bool
  | .keep => false
  | .replace _ => true

/-- One decorator of a chain and its place in the source. -/
structure Step where
  position : Nat
  decorator : Value
deriving Repr, Inhabited

/-- The decorators in the order in which they are evaluated. -/
def evaluationOrder (decorators : List Value) : List Step :=
  decorators.zipIdx.map fun (d, i) => ⟨i, d⟩

/-- The decorators in the order in which they are applied. -/
def applicationOrder (decorators : List Value) : List Step := (evaluationOrder decorators).reverse

/-- The record of one application. -/
structure Invocation where
  position : Nat
  label : Text
  replaced : Bool
deriving DecidableEq, Repr

/-- The value at the end of a chain, whether a decorator replaced it on the way, and the
applications in their order. -/
structure ChainResult where
  value : Value
  replaced : Bool := false
  invocations : List Invocation := []
deriving Repr, Inhabited

/-- The result after one more application. -/
def ChainResult.record (r : ChainResult) (s : Step) (label : Text) (outcome : Outcome)
    (value : Value) : ChainResult where
  value
  replaced := r.replaced || outcome.isReplacement
  invocations := r.invocations ++ [⟨s.position, label, outcome.isReplacement⟩]

/-- Where a chain runs: the key of the property, the texts of the decorators as far as they are
known, and the place in the source. -/
structure ChainSite where
  key : Value := .absent
  labels : List String := []
  location : Option SourceRange := none
deriving Repr, Inhabited

/-- The name that messages give a decorator: its text, or else the name it goes by. -/
def ChainSite.label (site : ChainSite) (h : Heap) (s : Step) : Text :=
  match site.labels[s.position]? with
  | some text => .ofString text
  | none => match s.decorator with
    | .function f => f.name
    | .foreign x => x.name?.elim (h.view (.foreign x)).quoted .ofString
    | v => (h.view v).quoted

/-- The facts that a diagnostic of a chain tells, of those that are given: decorator, key and
location come first. -/
def Diagnostic.chainNotes (given : List (Text × Note)) : List (Text × Note) :=
  let names : List Text := ["decorator", "key", "location"]
  names.filterMap (fun n => (given.lookup n).map (n, ·)) ++
    given.filter (fun (n, _) => !names.contains n)

/-- The facts that a diagnostic tells, looked up in the heap when it is raised. -/
abbrev Facts := Heap → List (Text × Note)

/-- The facts about an application. -/
def ChainSite.facts (site : ChainSite) (label : Text) : Facts := fun h =>
  [("decorator", .text label), ("key", (h.view site.key).note),
    ("location", .range? site.location)]

/-- A decorator that cannot be called. -/
def Diagnostic.notCallable (label : Text) (notes : List (Text × Note)) : Diagnostic :=
  .make .chain ("Decorator '" ++ label ++ "' is not callable") notes

/-- The failed checks that a fault carries. -/
def Fault.issues? : Fault → Option (List Issue)
  | .refused d => d.issues
  | .invalid issues => some issues
  | _ => none

/-- A decorator that failed. -/
def Diagnostic.failedCall (label : Text) (f : Fault) (notes : List (Text × Note)) :
    Diagnostic :=
  { Diagnostic.make .chain
      ("Decorator '" ++ label ++ "' raised " ++ f.kindName ++ ": " ++ f.text) notes with
    issues := f.issues? }

/-- The fault of a decorator as its chain passes it on: a diagnostic as it is, and any other one as
a diagnostic with its text in the message, unless that cannot be written. -/
def Fault.passedOn (label : Text) (notes : List (Text × Note)) : Fault → Fault
  | .refused d => .refused d
  | .unwritable _ f => f
  | f => .refused (.failedCall label f notes)

/-- A decorator that returned a value of the wrong shape. -/
def Diagnostic.contract (returned : View) (expected : Text) (notes : List (Text × Note)) :
    Diagnostic :=
  .make .contract (contractMessage returned.note expected) (chainNotes notes)

end Undecorate
