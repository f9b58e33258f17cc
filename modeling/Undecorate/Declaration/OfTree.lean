import Undecorate.Declaration.Basic
import Undecorate.Fault.Diagnostic
import Undecorate.Source.Slice
import Undecorate.Text.Blank
import Undecorate.Tree.Walk

/-! # Declarations in a tree

Finds the classes and object literals of a tree that carry decorators and builds them. Decorators
of a member may be its children or stand before it in the class body, and those of an exported
class may belong to the export statement. Texts are read through a function, so that a reader can
substitute stretches that have been lowered already.
-/

namespace Undecorate

/-- A source text and the way its stretches are read. -/
structure Reading where
  source : List Char
  textOf : Nat → Nat → Except Fault String

namespace Reading

/-- Reads the source as it is. -/
def plain (source : List Char) : Reading where
  source
  textOf a b := match Source.slice? source a b with
    | some cs => .ok (String.ofList cs)
    | none => .error .cutText

/-- The text of a node. -/
def text (r : Reading) (t : Tree) : Except Fault String := r.textOf t.start t.stop

/-- The text of a node, if there is one. -/
def text? (r : Reading) : Option Tree → Except Fault (Option String)
  | none => .ok none
  | some t => (r.text t).map some

/-- The range of a node. -/
def range (r : Reading) (t : Tree) : SourceRange := Source.rangeOf r.source t

end Reading

namespace Tree

/-- Whether the node is a class. -/
def isClass (t : Tree) : Bool :=
  t.kind == "class_declaration" || t.kind == "class" || t.kind == "abstract_class_declaration"

/-- Whether the node is an object literal. -/
def isObject (t : Tree) : Bool := t.kind == "object"

/-- The decorators directly below a node. -/
def decorators (t : Tree) : List Tree := t.childrenOf "decorator"

/-- The first child that is neither a decorator nor a comment, or the node itself. -/
def firstPlain (t : Tree) : Tree :=
  (t.children.find? fun c => c.kind != "decorator" && c.kind != "comment").getD t

/-- The first named child that is no comment. -/
def firstNamed? (t : Tree) : Option Tree := t.namedChildren.find? (·.kind != "comment")

/-- Whether a reference to `super` below the node belongs to another object. -/
def isSuperScope (t : Tree) : Bool := t.kind == "class_body" || t.kind == "method_definition"

/-- Searches the nodes of a stack and what is below them for a `super`. Below a node at which
another object begins there is nothing to search. -/
def findsSuper : List Tree → Bool
  | [] => false
  | t :: stack =>
    if t.kind == "super" then true
    else if t.isSuperScope then findsSuper stack
    else findsSuper (t.children.reverse ++ stack)
termination_by stack => sizeAll stack
decreasing_by
  · rw [sizeAll]
    have := size_pos t
    omega
  · have := size_eq t
    simp only [sizeAll_append, sizeAll_reverse, sizeAll]
    omega

/-- Whether a member refers to `super`. The last child lies on top of the stack. -/
def usesSuper (t : Tree) : Bool := findsSuper t.children.reverse

/-- The modifiers in front of a member's name. -/
def modifiers (t name : Tree) : List String :=
  ((t.children.takeWhile (·.start < name.start)).map (·.kind)).filter
    ["static", "static get", "async", "get", "set", "*"].contains

end Tree

namespace Located

/-- The export statement around a class. -/
def export? (l : Located) : Option Tree :=
  if l.node.isClass then l.parent.filter (·.kind == "export_statement") else none

/-- The node whose text a lowered declaration replaces. -/
def site (l : Located) : Tree := l.export?.getD l.node

/-- The decorators of the class itself: those of its export statement, then its own. -/
def classDecorators (l : Located) : List Tree :=
  (match l.export? with
    | some e => e.decorators
    | none => []) ++ l.node.decorators

/-- The parts of a class body or object literal that its members are built from. -/
def memberNodes (l : Located) : List Tree :=
  if l.node.isClass then
    match l.node.child? "body" with
    | some body => body.namedChildren
    | none => []
  else l.node.namedChildren

/-- The decorators that a declaration takes up. -/
def claimed (l : Located) : List Tree :=
  (if l.node.isClass then l.classDecorators else []) ++
    l.memberNodes.flatMap fun c =>
      if l.node.isClass && c.kind == "decorator" then [c] else c.decorators

/-- Whether the node is a class or object literal that carries a decorator. -/
def isSite (l : Located) : Bool :=
  if l.node.isClass then
    !l.classDecorators.isEmpty ||
      l.memberNodes.any fun c => c.kind == "decorator" || !c.decorators.isEmpty
  else l.node.isObject && l.memberNodes.any (!·.decorators.isEmpty)

end Located

namespace Reading

/-- A part that a well-formed tree has. -/
def need (part : String) : Option Tree → Except Fault Tree
  | some t => .ok t
  | none => .error (.noAttribute "NoneType" part)

/-- Whether a decorator's expression is a plain name or a path of members. -/
def isPath (t : Tree) : Bool := t.kind == "identifier" || t.kind == "member_expression"

/-- Builds a decorator. -/
def decorator (r : Reading) (t : Tree) : Except Fault Decorator := do
  let range := some (r.range t)
  match t.firstNamed? with
  | none =>
    let text ← r.text t
    return { text := Text.strip (String.ofList (text.toList.dropWhile (· == '@'))), range }
  | some e =>
    let text ← r.text e
    if isPath e then return { text, callee := some (Text.compact text), range }
    if e.kind == "call_expression" then
      match (e.child? "function").filter isPath with
      | none => return { text, range }
      | some f =>
        let callee := some (Text.compact (← r.text f))
        let arguments ← match e.child? "arguments" with
          | none => pure []
          | some args => (args.namedChildren.filter (·.kind != "comment")).mapM r.text
        return { text, callee, arguments, isCall := true, range }
    return { text, range }

/-- Builds a key. -/
def key (r : Reading) (t : Tree) : Except Fault Key := do
  if t.kind == "computed_property_name" then
    let text ← r.text? t.firstNamed?
    return { text := text.getD "", isComputed := true }
  let literal := if t.kind == "string" then some LiteralKind.string
    else if t.kind == "number" then some LiteralKind.number else none
  return { text := ← r.text t, isPrivate := t.kind == "private_property_identifier", literal }

/-- Whether a method with this key is the constructor of its class. -/
def isConstructKey (r : Reading) (t : Tree) : Except Fault Bool := do
  if t.kind == "property_identifier" then return (← r.text t) == "constructor"
  if t.kind == "string" then
    return String.ofList (Key.inner (← r.text t).toList) == "constructor"
  return false

/-- The parts of a member that depend on its kind, and the node of its key. -/
def memberParts (r : Reading) (t : Tree) (inClass : Bool) :
    Except Fault (Member × Option Tree) := do
  if t.kind == "method_definition" then
    let name ← need "start_byte" (t.child? "name")
    let body ← need "start_byte" (t.child? "body")
    let modifiers := t.modifiers name
    let kind : MemberKind :=
      if modifiers.contains "get" || modifiers.contains "static get" then .getter
      else if modifiers.contains "set" then .setter else .method
    let isStatic := modifiers.contains "static" || modifiers.contains "static get"
    let signature := Text.strip (← r.textOf name.stop body.start)
    let bodyText ← r.text body
    let isConstruct ←
      if inClass && kind = .method && !isStatic then r.isConstructKey name else pure false
    return ({ kind := if isConstruct then .construct else kind
              isStatic
              isAsync := modifiers.contains "async"
              isGenerator := modifiers.contains "*"
              signature
              body := some bodyText }, some name)
  if t.kind == "field_definition" || t.kind == "public_field_definition" then
    let name := (t.child? "property").or (t.child? "name")
    return ({ kind := .field
              isStatic := t.children.any (·.kind == "static")
              value := ← r.text? (t.child? "value") }, name)
  if t.kind == "class_static_block" then
    let body ← r.text? (t.child? "body")
    return ({ kind := .staticBlock, isStatic := true, body := some (body.getD "\x7b\x7d") }, none)
  if t.kind == "pair" then
    let value ← need "start_byte" (t.child? "value")
    return ({ kind := .property, value := some (← r.text value) }, t.child? "key")
  if t.kind == "shorthand_property_identifier" then
    return ({ kind := .shorthand, value := some (← r.text t) }, none)
  if t.kind == "spread_element" then
    let value ← r.text? t.firstNamed?
    return ({ kind := .spread, value := some (value.getD "") }, none)
  return ({ kind := if t.kind == "comment" then .comment else .other }, none)

/-- Builds a member, with the decorators that stand before it. The key is read on its own, so that
its place in the source is known. -/
def member (r : Reading) (preceding : List Tree) (inClass : Bool) (t : Tree) :
    Except Fault Member := do
  let decorators ← (preceding ++ t.decorators).mapM r.decorator
  let first := t.firstPlain
  let (parts, name) ← r.memberParts t inClass
  let common := { parts with
    decorators
    usesSuper := decide (parts.kind ≠ MemberKind.comment) && t.usesSuper
    range := some (Source.rangeBetween r.source first t) }
  if parts.kind = .shorthand then
    return { common with key := some { text := ← r.text t }, source := ← r.textOf first.start t.stop }
  match name with
  | none => return { common with source := ← r.textOf first.start t.stop }
  | some k =>
    let key ← r.key k
    let head ← r.textOf first.start k.start
    let keyText ← r.textOf k.start k.stop
    let tail ← r.textOf k.stop t.stop
    return { common with
      key := some key
      source := head ++ keyText ++ tail
      keySpan := some (head.length, head.length + keyText.length) }

/-- Builds the members of a class body; `pending` are the decorators that wait for a member. -/
def classMembers (r : Reading) : List Tree → List Tree → Except Fault (List Member)
  | [], [] => .ok []
  | d :: _, [] => .error (.refused (.classification
      "Decorator is not followed by a class member" (some (r.range d))))
  | pending, t :: ts => do
    if t.kind == "decorator" then r.classMembers (pending ++ [t]) ts
    else if t.kind == "comment" then
      return (← r.member [] true t) :: (← r.classMembers pending ts)
    else return (← r.member pending true t) :: (← r.classMembers [] ts)

/-- The expression that a class extends. -/
def heritage (r : Reading) (t : Tree) : Except Fault (Option String) :=
  match t.children.find? (·.kind == "class_heritage") with
  | none => .ok none
  | some h =>
    let named := h.namedChildren.filter (·.kind != "comment")
    match named.find? (·.kind == "extends_clause") with
    | some e => r.text? (e.child? "value")
    | none =>
      if named.any (·.kind == "implements_clause") then .ok none else r.text? named.head?

/-- Builds a class. -/
def classDecl (r : Reading) (l : Located) : Except Fault ClassDecl := do
  let t := l.node
  let name ← r.text? (t.child? "name")
  let heritage ← r.heritage t
  let body ← need "start_byte" (t.child? "body")
  let header ← r.textOf t.firstPlain.start body.start
  let members ← r.classMembers [] body.namedChildren
  let decorators ← l.classDecorators.mapM r.decorator
  return {
    name
    heritage
    header := some (Text.stripEnd header)
    members
    decorators
    isExpression := t.kind == "class" && l.export?.isNone
    export? := l.export?.map fun e =>
      if e.children.any (·.kind == "default") then .default else .named
    range := some (r.range l.site) }

/-- Builds an object literal. -/
def objectLiteral (r : Reading) (t : Tree) : Except Fault ObjectLiteral := do
  return { members := ← t.namedChildren.mapM (r.member [] false), range := some (r.range t) }

/-- Builds the declaration of a site. -/
def declaration (r : Reading) (l : Located) : Except Fault Declaration :=
  if l.node.isClass then (r.classDecl l).map .cls else (r.objectLiteral l.node).map .object

end Reading

end Undecorate
