import Undecorate.Fault.Issue

/-! # Reading named values

A record of given values is read field by field. Every field that cannot be read is reported, in
the order in which the fields are read, and the record is read only if each of them is.
-/

namespace Undecorate

/-- What was read, or the issues that kept it from being read. -/
def Checked (α : Type) : Type := Except (List Issue) α

namespace Checked

variable {α : Type}

/-- The issues of both sides are reported, those of the left one first. -/
instance : Applicative Checked where
  pure a := Except.ok a
  seq f x := match f, x () with
    | .ok f, .ok a => Except.ok (f a)
    | .ok _, .error issues => Except.error issues
    | .error issues, .ok _ => Except.error issues
    | .error issues, .error further => Except.error (issues ++ further)

/-- The reading as an outcome. -/
def result (c : Checked α) : Except (List Issue) α := c

/-- The reading of a field. -/
def ofField (name : String) : Except IssueKind α → Checked α
  | .ok a => Except.ok a
  | .error kind => Except.error [⟨some name, kind⟩]

/-- Reads a field that has to be given. -/
def needed (fields : List (Text × Data)) (name : String) (read : Data → Except IssueKind α) :
    Checked α :=
  ofField name (match fields.lookup (.ofString name) with
    | some d => read d
    | none => .error .missing)

/-- Reads a field that may be left out. -/
def given (fields : List (Text × Data)) (name : String) (read : Data → Except IssueKind α)
    (default : α) : Checked α :=
  ofField name (match fields.lookup (.ofString name) with
    | some d => read d
    | none => .ok default)

/-- Reads a field that may be left out or be null. -/
def optional (fields : List (Text × Data)) (name : String) (read : Data → Except IssueKind α) :
    Checked (Option α) :=
  given fields name (fun d => if d.isNull then .ok none else (read d).map some) none

end Checked

end Undecorate
