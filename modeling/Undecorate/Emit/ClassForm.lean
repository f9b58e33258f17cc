import Undecorate.Emit.Header
import Undecorate.Emit.Statement
import Undecorate.Layout

/-! # Lowering to a class

Keeps the class or object literal and applies the decorators after it. A class with decorators of
its own is written as an anonymous class bound to a variable, so that its body refers to the
binding that the decorators may replace.
-/

namespace Undecorate.ClassForm

/-- A member without its decorators; a captured key assigns or reads its snapshot. -/
def memberText (captures : List (Nat × Capture)) (place : Nat) (m : Member) : String :=
  Layout.rebaseText <| match captures.lookup place with
    | none => m.source
    | some c =>
      m.sourceWithKey <|
        if c.assigns then "[" ++ c.snapshot ++ " = " ++ (m.key.map (·.text)).getD "" ++ "]"
        else "[" ++ c.snapshot ++ "]"

/-- Whether a member needs a semicolon after it. -/
def needsTerminator (m : Member) : Bool :=
  (m.kind = .field || m.kind = .other) &&
    !(match (Text.trimEnd m.source.toList).getLast? with
      | some c => c == ';' || c == ','
      | none => false)

/-- The members of a class as entries of its body. -/
def classEntries (captures : List (Nat × Capture)) (members : List Member) : List String :=
  members.zipIdx.map fun (m, i) =>
    memberText captures i m ++ (if needsTerminator m then ";" else "")

/-- The members of an object literal as entries of its body. -/
def objectEntries (captures : List (Nat × Capture)) (members : List Member) : List String :=
  members.zipIdx.map fun (m, i) =>
    memberText captures i m ++ (if m.kind = .comment then "" else ",")

/-- The header of a class, or a bare keyword. -/
def header (c : ClassDecl) : String := (nonempty? c.header).getD "class"

/-- The definition of the undecorated class. -/
def classDefinition (size : Nat) (c : ClassDecl) (ds : List Decoration) (binding : String) :
    String :=
  let entries := classEntries (captures ds) c.members
  if c.decorators.isEmpty then
    let header := match c.name with
      | some _ => header c
      | none => Layout.onText (Header.addName binding.toList) (header c)
    Layout.blockText size header entries
  else
    let header := match c.name with
      | some name => Layout.onText (Header.dropName name.toList) (header c)
      | none => header c
    let header := Layout.onText Header.dropAbstract header
    Layout.blockText size ("let " ++ binding ++ " = " ++ header) entries ++ ";"

/-- The definition of the undecorated object. -/
def objectDefinition (size : Nat) (o : ObjectLiteral) (ds : List Decoration) (binding : String) :
    String :=
  Layout.blockText size (binding ++ " =") (objectEntries (captures ds) o.members) ++ ";"

/-- Statements in a function that is called at once. -/
def wrap (size : Nat) (statements : List String) : String :=
  "(() => \x7b\n" ++ Layout.indentText size 1 statements ++ "\n\x7d)()"

end Undecorate.ClassForm
