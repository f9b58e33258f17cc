import Undecorate.Fault.Checked
import Undecorate.Text.Identifier

/-! # Options of the lowering -/

namespace Undecorate

/-- The two forms that a lowered declaration can have: the class itself with decorators applied to
it, or a plain constructor function. -/
inductive EmitForm where
  | classBased
  | constructorFunction
deriving DecidableEq, Repr, Inhabited

/-- The name of a form. -/
def EmitForm.name : EmitForm → String
  | .classBased => "classBased"
  | .constructorFunction => "constructorFunction"

/-- The forms by their names. -/
def EmitForm.choices : List (String × EmitForm) :=
  [("classBased", .classBased), ("constructorFunction", .constructorFunction)]

/-- How a lowered declaration is written: its form, the spaces of one level, and the beginning of
every generated name. -/
structure EmitOptions where
  form : EmitForm := .classBased
  indentSize : Nat := 2
  lead : String := "_"
deriving DecidableEq, Repr, Inhabited

namespace EmitOptions

/-- The spaces of one level. -/
def indent (o : EmitOptions) : String := String.ofList (List.replicate o.indentSize ' ')

/-- Whether generated names may start with a text: with underscores and dollar signs read as
letters, it is an identifier. -/
def isLead (s : String) : Bool :=
  Text.isIdentifier (s.toList.map fun c => if c == '_' || c == '$' then 'a' else c)

/-- Reads a number of spaces, which must be positive. -/
def readIndent (d : Data) : Except IssueKind Nat := do
  let n ← d.scalar.readInt
  if n < 1 then throw (.check "indent_size must be at least 1") else return n.toNat

/-- Reads the beginning of generated names. -/
def readLead (d : Data) : Except IssueKind String := do
  match (← d.scalar.readText).string?.filter isLead with
  | some s => return s
  | none => throw (.check "temp_prefix must start a valid identifier")

/-- Reads options from named values; other names are passed over, and what is not named has its
default. -/
def ofFields (fields : List (Text × Data)) : Except (List Issue) EmitOptions :=
  Checked.result (EmitOptions.mk
    <$> Checked.given fields "form" (·.scalar.readChoice EmitForm.choices) .classBased
    <*> Checked.given fields "indent_size" readIndent 2
    <*> Checked.given fields "temp_prefix" readLead "_")

end EmitOptions

end Undecorate
