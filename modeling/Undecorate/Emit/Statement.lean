import Undecorate.Decoration
import Undecorate.Json.Literal
import Undecorate.Scope

/-! # Generated statements

The statements that apply decorators to a definition. Decorator expressions are evaluated into
temporaries in source order; the decorators are then applied innermost first, and a property is
defined anew only if one of them returned something. `render` is the only place that knows the
text of a statement.
-/

namespace Undecorate

/-- The first descriptor of a decorated property as generated code writes it: attributes from the
defaults, functions from the property that was installed. -/
structure DescriptorLiteral where
  kind : Shape
  hasGetter : Bool
  hasSetter : Bool
  enumerable : Bool
  configurable : Bool
  writable : Bool
deriving DecidableEq, Repr

/-- The literal of a descriptor. -/
def DescriptorLiteral.of {α : Type} (d : Descriptor α) : DescriptorLiteral where
  kind := d.kind
  hasGetter := d.getter.isSome
  hasSetter := d.setter.isSome
  enumerable := d.enumerable
  configurable := d.configurable
  writable := d.writable.getD false

/-- A truth value as generated code writes it. -/
def boolLiteral (b : Bool) : String := if b then "true" else "false"

/-- The text of a descriptor literal; `source` is the temporary with the installed property. -/
def DescriptorLiteral.render (l : DescriptorLiteral) (source : String) : String :=
  let functions := match l.kind with
    | .accessor =>
      (if l.hasGetter then ["get: " ++ source ++ ".get"] else []) ++
        (if l.hasSetter then ["set: " ++ source ++ ".set"] else [])
    | .data => ["value: " ++ source ++ ".value"]
  let attributes := ["enumerable: " ++ boolLiteral l.enumerable,
    "configurable: " ++ boolLiteral l.configurable]
  let writable := match l.kind with
    | .accessor => []
    | .data => ["writable: " ++ boolLiteral l.writable]
  "\x7b " ++ ", ".intercalate (functions ++ attributes ++ writable) ++ " \x7d"

/-- A generated statement. -/
inductive Statement where
  /-- Source of the undecorated declaration. -/
  | written (text : String)
  /-- Evaluates a decorator expression into a temporary. -/
  | evaluate (temporary expression : String)
  /-- Applies a decorator to the class and rebinds it if something was returned. -/
  | applyToClass (result decorator binding : String)
  /-- Reads the property that bare source installed. -/
  | readOwn (source target key : String)
  /-- Builds the first descriptor. -/
  | begin (descriptor : String) (initial : DescriptorLiteral) (source : String)
  /-- Notes that no decorator has returned anything. -/
  | reset (changed : String)
  /-- Applies a decorator to the property and takes over what it returned, if anything. -/
  | applyToProperty (result decorator target key descriptor changed : String)
  /-- Defines the property anew if a decorator returned something. -/
  | install (changed target key descriptor : String)
  /-- Gives the finished declaration back. -/
  | give (binding : String)
deriving DecidableEq, Repr

/-- The text of a statement. -/
def Statement.render : Statement → String
  | .written text => text
  | .evaluate temporary expression => temporary ++ " = " ++ expression ++ ";"
  | .applyToClass result decorator binding =>
    "if ((" ++ result ++ " = " ++ decorator ++ "(" ++ binding ++ ")) !== void 0) " ++ binding ++
      " = " ++ result ++ ";"
  | .readOwn source target key =>
    source ++ " = Object.getOwnPropertyDescriptor(" ++ target ++ ", " ++ key ++ ");"
  | .begin descriptor initial source => descriptor ++ " = " ++ initial.render source ++ ";"
  | .reset changed => changed ++ " = false;"
  | .applyToProperty result decorator target key descriptor changed =>
    "if ((" ++ result ++ " = " ++ decorator ++ "(" ++ target ++ ", " ++ key ++ ", " ++
      descriptor ++ ")) !== void 0) \x7b " ++ descriptor ++ " = " ++ result ++ "; " ++ changed ++
      " = true; \x7d"
  | .install changed target key descriptor =>
    "if (" ++ changed ++ ") Object.defineProperty(" ++ target ++ ", " ++ key ++ ", " ++
      descriptor ++ ");"
  | .give binding => "return " ++ binding ++ ";"

/-- A static name as generated code writes it. -/
def nameLiteral (name : Option Text) : String :=
  match name with
  | some name => Json.encode name
  | none => "null"

/-- The expression for the key of a decorated property. -/
def PropertyKey.render : PropertyKey → String
  | .static name => nameLiteral name
  | .computed _ snapshot => snapshot.getD "None"

namespace Decoration

/-- The statements of a decoration, and the scope after them. -/
def statements (d : Decoration) (s : Scope) : List Statement × Scope :=
  if d.decorators.isEmpty then ([], s)
  else
    let (temporaries, s) := s.freshMany "dec" d.decorators.length
    let evaluations := (temporaries.zip d.decorators).map fun (t, e) => Statement.evaluate t e.text
    let (result, s) := s.shared "res"
    match d.subject with
    | .whole =>
      let applications := temporaries.reverse.map (.applyToClass result · d.target.binding)
      (evaluations ++ applications, s)
    | .property key initial _ =>
      let target := d.target.expression
      let key := key.render
      let (source, s) := s.shared "src"
      let (descriptor, s) := s.shared "desc"
      let (changed, s) := s.shared "changed"
      let applications := temporaries.reverse.map
        (.applyToProperty result · target key descriptor changed)
      (evaluations ++
        [.readOwn source target key, .begin descriptor (.of initial) source, .reset changed] ++
        applications ++ [.install changed target key descriptor], s)

end Decoration

/-- The statements of several decorations in order. -/
def decorationStatements : List Decoration → Scope → List Statement × Scope
  | [], s => ([], s)
  | d :: ds, s =>
    let (first, s) := d.statements s
    let (rest, s) := decorationStatements ds s
    (first ++ rest, s)

/-- Which members of a declaration carry a captured key: the first member of a computed property
assigns its snapshot, the others read it. -/
structure Capture where
  snapshot : String
  assigns : Bool
deriving DecidableEq, Repr

/-- The captured keys of one decoration, by the places of the members. -/
def Decoration.captures (d : Decoration) : List (Nat × Capture) :=
  match d.subject with
  | .property (.computed _ (some snapshot)) _ members =>
    members.zipIdx.map fun (m, i) => (m, ⟨snapshot, i == 0⟩)
  | _ => []

/-- The captured keys of a declaration. A later decoration of a member comes before an earlier one,
so that it is the one that is found. -/
def captures (ds : List Decoration) : List (Nat × Capture) := (ds.flatMap (·.captures)).reverse

/-- Lists the snapshots of computed keys for declaration. -/
def declareSnapshots (ds : List Decoration) (s : Scope) : Scope :=
  ds.foldl (fun s d => match d.key? with
    | some (.computed _ (some snapshot)) => s.declare snapshot
    | _ => s) s

end Undecorate
