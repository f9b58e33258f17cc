import Undecorate.Declaration.Basic
import Undecorate.Source.Given

/-! # Declarations from given values

A declaration can be given without a source: as a record of its parts, with the names that records
use for them. What is left out has its default. Parts inside other parts are read first, and the
first part that cannot be read is reported.
-/

namespace Undecorate

/-- The fields of a record; anything else has none. -/
def Data.fields : Data → List (Text × Data)
  | .record fields => fields
  | _ => []

/-- The items of a list; anything else has none. -/
def Data.items : Data → List Data
  | .list items => items
  | _ => []

/-- A field of a record, null if it is not there. -/
def Data.field (d : Data) (name : String) : Data := (d.fields.lookup (.ofString name)).getD .null

namespace Given

open Checked

/-- Reads a string. -/
def string (d : Data) : Except IssueKind String := do Scalar.stringOf (← d.scalar.readText)

/-- Reads a truth value. -/
def truth (d : Data) : Except IssueKind Bool := d.scalar.readBool

/-- Reads a pair of whole numbers; anything else than two values gives none. -/
def span (d : Data) : Except IssueKind (Option (Int × Int)) :=
  match d.items with
  | [first, second] => do return some (← first.scalar.readInt, ← second.scalar.readInt)
  | _ => .ok none

/-- The kinds of members by their names. -/
def memberKinds : List (String × MemberKind) := MemberKind.all.map fun k => (k.name, k)

/-- The kind of literal with a name; a key with any other one is a plain name. -/
def literalKind? : String → Option LiteralKind
  | "string" => some .string
  | "number" => some .number
  | _ => none

/-- How a class is exported that is given with a word for it. -/
def export? (word : String) : Option Export :=
  if word.isEmpty then none else if word = "default" then some .default else some .named

/-- Reads a part unless it is null. -/
def part {α : Type} (read : Data → Except (List Issue) α) (d : Data) :
    Except (List Issue) (Option α) :=
  if d.isNull then .ok none else (read d).map some

/-- Reads a range. -/
def range (d : Data) : Except (List Issue) SourceRange := SourceRange.ofFields d.fields

/-- Reads a key. -/
def key (d : Data) : Except (List Issue) Key :=
  let fields := d.fields
  result ((fun text isComputed isPrivate literal =>
      ({ text, isComputed, isPrivate, literal := literal.bind literalKind? } : Key))
    <$> needed fields "text" string <*> given fields "computed" truth false
    <*> given fields "private" truth false <*> optional fields "literal" string)

/-- Reads a decorator. -/
def decorator (d : Data) : Except (List Issue) Decorator := do
  let fields := d.fields
  let range ← part range (d.field "range")
  result ((fun text callee arguments isCall =>
      ({ text, callee, arguments, isCall, range } : Decorator))
    <$> needed fields "text" string <*> optional fields "callee" string
    <*> given fields "arguments" (·.items.mapM string) [] <*> given fields "is_call" truth false)

/-- Reads a member. -/
def member (d : Data) : Except (List Issue) Member := do
  let fields := d.fields
  let key ← part key (d.field "key")
  let decorators ← (d.field "decorators").items.mapM decorator
  let range ← part range (d.field "range")
  result ((fun kind isStatic isAsync isGenerator signature body value source keySpan usesSuper =>
      ({ kind, key, isStatic, isAsync, isGenerator, signature, body, value, source, keySpan,
         decorators, usesSuper, range } : Member))
    <$> needed fields "kind" (·.scalar.readChoice memberKinds)
    <*> given fields "is_static" truth false <*> given fields "is_async" truth false
    <*> given fields "is_generator" truth false <*> given fields "signature" string "()"
    <*> optional fields "body" string <*> optional fields "value" string
    <*> given fields "source" string "" <*> given fields "key_span" span none
    <*> given fields "uses_super" truth false)

/-- Reads a class. -/
def cls (d : Data) : Except (List Issue) ClassDecl := do
  let fields := d.fields
  let members ← (d.field "members").items.mapM member
  let decorators ← (d.field "decorators").items.mapM decorator
  let range ← part range (d.field "range")
  result ((fun name heritage header isExpression word =>
      ({ name, heritage, header, members, decorators, isExpression,
         export? := word.bind export?, range } : ClassDecl))
    <$> optional fields "name" string <*> optional fields "heritage" string
    <*> optional fields "header" string <*> given fields "is_expression" truth false
    <*> optional fields "export" string)

/-- Reads an object literal. -/
def object (d : Data) : Except (List Issue) ObjectLiteral := do
  let members ← (d.field "members").items.mapM member
  let range ← part range (d.field "range")
  return { members, range }

/-- Reads a declaration: an object literal if it says so, and otherwise a class. -/
def declaration (d : Data) : Except (List Issue) Declaration :=
  if (d.field "kind").string? = some "object_literal" then (object d).map .object
  else (cls d).map .cls

end Given

end Undecorate
