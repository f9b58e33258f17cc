import Undecorate.Declaration.Key
import Undecorate.Source.Range

/-! # Declarations

Classes and object literals as the lowering sees them: their members in order, each with the text
it was written with and the decorators in front of it.
-/

namespace Undecorate

/-- One decorator as written, without its mark. A plain name or member path, or a call of one, has
a callee. -/
structure Decorator where
  text : String
  callee : Option String := none
  arguments : List String := []
  isCall : Bool := false
  range : Option SourceRange := none
deriving DecidableEq, Repr, Inhabited

/-- What a member of a class body or object literal is. -/
inductive MemberKind where
  | method
  | getter
  | setter
  | construct
  | field
  | staticBlock
  | property
  | shorthand
  | spread
  | comment
  | other
deriving DecidableEq, Repr, Inhabited

namespace MemberKind

/-- The name of a kind. -/
def name : MemberKind → String
  | .method => "method"
  | .getter => "getter"
  | .setter => "setter"
  | .construct => "constructor"
  | .field => "field"
  | .staticBlock => "static_block"
  | .property => "property"
  | .shorthand => "shorthand"
  | .spread => "spread"
  | .comment => "comment"
  | .other => "other"

/-- All kinds. -/
def all : List MemberKind :=
  [.method, .getter, .setter, .construct, .field, .staticBlock, .property, .shorthand, .spread,
    .comment, .other]

/-- The kind with a name. -/
def ofName? (s : String) : Option MemberKind := all.find? (·.name == s)

/-- Whether the member is one half of an accessor pair. -/
def isAccessor : MemberKind → Bool
  | .getter | .setter => true
  | _ => false

/-- Whether the member is a function under a key. -/
def isFunction : MemberKind → Bool
  | .method | .getter | .setter => true
  | _ => false

end MemberKind

/-- One member. Its source has no decorators, and `keySpan` is where the key stands in it. -/
structure Member where
  kind : MemberKind
  key : Option Key := none
  isStatic : Bool := false
  isAsync : Bool := false
  isGenerator : Bool := false
  signature : String := "()"
  body : Option String := none
  value : Option String := none
  source : String := ""
  keySpan : Option (Int × Int) := none
  decorators : List Decorator := []
  usesSuper : Bool := false
  range : Option SourceRange := none
deriving DecidableEq, Repr, Inhabited

namespace Member

/-- Whether the member is one half of an accessor pair. -/
def isAccessor (m : Member) : Bool := m.kind.isAccessor

/-- Whether the member is a function under a key. -/
def isFunction (m : Member) : Bool := m.kind.isFunction

/-- Whether the member has decorators. -/
def isDecorated (m : Member) : Bool := !m.decorators.isEmpty

/-- A member as messages name it. -/
def displayName (m : Member) : String :=
  match m.key with
  | none => m.kind.name
  | some k => k.displayName

/-- A place in a list of `length` items: a negative one counts from the end, and one outside is
moved to the nearest end. -/
def place (length : Nat) (i : Int) : Nat :=
  if 0 ≤ i then min i.toNat length else (length + i).toNat

/-- The source with another text in place of the key. -/
def sourceWithKey (m : Member) (replacement : String) : String :=
  match m.keySpan with
  | none => m.source
  | some (start, stop) =>
    let cs := m.source.toList
    String.ofList (cs.take (place cs.length start)) ++ replacement ++
      String.ofList (cs.drop (place cs.length stop))

end Member

/-- How a declaration is exported. -/
inductive Export where
  | default
  | named
deriving DecidableEq, Repr

/-- A class declaration or expression. Its header is everything before its body. -/
structure ClassDecl where
  name : Option String := none
  heritage : Option String := none
  header : Option String := none
  members : List Member := []
  decorators : List Decorator := []
  isExpression : Bool := false
  export? : Option Export := none
  range : Option SourceRange := none
deriving DecidableEq, Repr, Inhabited

namespace ClassDecl

/-- The name that the class is known by in messages and in the object model. -/
def bindingName (c : ClassDecl) : String := (nonempty? c.name).getD "_class"

/-- The class that this one extends, as written. -/
def parent? (c : ClassDecl) : Option String := nonempty? c.heritage

/-- The first member that is a constructor. -/
def construct? (c : ClassDecl) : Option Member := c.members.find? (·.kind = .construct)

/-- Whether the class or a member of it has decorators. -/
def isDecorated (c : ClassDecl) : Bool := !c.decorators.isEmpty || c.members.any (·.isDecorated)

end ClassDecl

/-- An object literal. -/
structure ObjectLiteral where
  members : List Member := []
  range : Option SourceRange := none
deriving DecidableEq, Repr, Inhabited

/-- Whether a member of the literal has decorators. -/
def ObjectLiteral.isDecorated (o : ObjectLiteral) : Bool := o.members.any (·.isDecorated)

/-- A declaration whose members may be decorated. -/
inductive Declaration where
  | cls (c : ClassDecl)
  | object (o : ObjectLiteral)
deriving DecidableEq, Repr, Inhabited

namespace Declaration

/-- The members of a declaration. -/
def members : Declaration → List Member
  | .cls c => c.members
  | .object o => o.members

/-- The name of a declaration's kind. -/
def kindName : Declaration → String
  | .cls _ => "class"
  | .object _ => "object_literal"

/-- The name of a class, if it has one, and otherwise the kind. -/
def title : Declaration → String
  | .cls c => (nonempty? c.name).getD "class"
  | .object _ => "object_literal"

end Declaration

end Undecorate
