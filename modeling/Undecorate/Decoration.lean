import Undecorate.Declaration.Basic
import Undecorate.Descriptor.Basic

/-! # Decorations

A decoration is one place that decorators are applied to: a whole class, or one property of the
class, its prototype or an object literal. A property's decoration starts from the descriptor that
bare source gives it.
-/

namespace Undecorate

/-- What a decoration writes to. -/
inductive TargetKind where
  | prototype
  | construct
  | objectLiteral
  | cls
deriving DecidableEq, Repr

namespace TargetKind

/-- The name of a kind of target. -/
def name : TargetKind → String
  | .prototype => "prototype"
  | .construct => "constructor"
  | .objectLiteral => "object_literal"
  | .cls => "class"

/-- The kinds of targets by their names. -/
def choices : List (String × TargetKind) :=
  [("prototype", .prototype), ("constructor", .construct), ("object_literal", .objectLiteral),
    ("class", .cls)]

end TargetKind

/-- The object a decoration writes to, and the name that it is bound to. -/
structure Target where
  kind : TargetKind
  binding : String
deriving DecidableEq, Repr

/-- The expression for a target. -/
def Target.expression (t : Target) : String :=
  match t.kind with
  | .prototype => t.binding ++ ".prototype"
  | _ => t.binding

/-- The key of a decorated property: a name, or an expression whose value is captured once. -/
inductive PropertyKey where
  | static (name : Option Text)
  | computed (expression : String) (snapshot : Option String)
deriving DecidableEq, Repr

namespace PropertyKey

/-- A key as descriptions show it. -/
def shown : PropertyKey → Text
  | .static name => name.getD "None"
  | .computed expression _ => .ofString ("[" ++ expression ++ "]")

/-- The name of a static key. -/
def name? : PropertyKey → Option Text
  | .static name => name
  | .computed _ _ => none

/-- The expression of a computed key. -/
def expression? : PropertyKey → Option String
  | .static _ => none
  | .computed expression _ => some expression

/-- The temporary that holds a computed key. -/
def snapshot? : PropertyKey → Option String
  | .static _ => none
  | .computed _ snapshot => snapshot

end PropertyKey

/-- What a decoration applies to: the class as a whole, or a property with its key, its first
descriptor and the members that define it. Members are given by their places in the declaration. -/
inductive Subject where
  | whole
  | property (key : PropertyKey) (initial : Descriptor Nat) (members : List Nat)
deriving DecidableEq, Repr

/-- One place that decorators are applied to. -/
structure Decoration where
  target : Target
  decorators : List Decorator
  subject : Subject
  range : Option SourceRange := none
deriving DecidableEq, Repr

namespace Decoration

/-- The key of a decorated property. -/
def key? (d : Decoration) : Option PropertyKey :=
  match d.subject with
  | .whole => none
  | .property key _ _ => some key

/-- The first descriptor of a decorated property. -/
def initial? (d : Decoration) : Option (Descriptor Nat) :=
  match d.subject with
  | .whole => none
  | .property _ initial _ => some initial

/-- The places of the members that define a decorated property. -/
def members (d : Decoration) : List Nat :=
  match d.subject with
  | .whole => []
  | .property _ _ members => members

/-- The name of the level of a decoration. -/
def level (d : Decoration) : String :=
  match d.subject with
  | .whole => "class"
  | .property _ _ _ => "member"

/-- Whether the decoration is of a static member. -/
def isStatic (d : Decoration) : Bool := d.target.kind = .construct

/-- A short description. -/
def describe (d : Decoration) : Text :=
  match d.subject with
  | .whole => .ofString ("class " ++ d.target.binding)
  | .property key _ _ => d.target.expression ++ "[" ++ key.shown ++ "]"

end Decoration

/-- The levels of decorations by their names; the flag says whether it is a member's. -/
def levelChoices : List (String × Bool) := [("class", false), ("member", true)]

/-- Puts a decoration together: one of a class has neither key nor descriptor, and one of a member
has both. -/
def Decoration.ofParts (isMember : Bool) (target : Target) (key : Option PropertyKey)
    (decorators : List Decorator) (initial : Option (Descriptor Nat)) :
    Except Issue Decoration :=
  match isMember, key, initial with
  | false, none, none => .ok { target, decorators, subject := .whole }
  | false, _, _ => .error ⟨none, .check "class-level units carry neither key nor descriptor"⟩
  | true, some key, some initial => .ok { target, decorators, subject := .property key initial [] }
  | true, _, _ => .error ⟨none, .check "member-level units need a key and an initial descriptor"⟩

end Undecorate
