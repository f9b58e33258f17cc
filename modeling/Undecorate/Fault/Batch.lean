import Undecorate.Fault.Diagnostic

/-! # Batches

A batch goes through independent items. An item that fails in a way that can be recovered from is
recorded and the batch goes on; any other failure ends it. The text of a failure is written when it
is recorded: one whose text cannot be written ends the batch as well.
-/

namespace Undecorate

/-- A recorded failure: the item, what was being done to it, and the fault. -/
structure Failure where
  item : Note
  operation : Option String
  fault : Fault
deriving Repr, Inhabited

namespace Failure

/-- The item as reports show it, cut when it is long. -/
def itemText (f : Failure) : Text :=
  let letters := f.item.quoted.letters
  if 100 ≤ letters.length then ⟨letters.take 97⟩ ++ "..." else ⟨letters⟩

/-- The lines of a report about a failure. -/
def lines (f : Failure) : List Text :=
  (match nonempty? f.operation with
    | none => []
    | some operation => [.ofString ("  Operation: " ++ operation)]) ++
  (if f.item.isAbsent then [] else ["  Item: " ++ f.itemText]) ++
  ["  " ++ f.fault.kindName ++ ": " ++ f.fault.text]

/-- A report about failures. -/
def report (failures : List Failure) : Text :=
  if failures.isEmpty then "No errors collected"
  else Text.intercalate "\n" (.ofString ("Collected " ++ toString failures.length ++ " errors:") ::
    (failures.zipIdx 1).flatMap fun (f, i) => .ofString ("Error " ++ toString i ++ ":") :: f.lines)

/-- The failures of a batch as one diagnostic; its text is the report. -/
def combined (failures : List Failure) : Diagnostic where
  kind := .batch
  message := report failures

end Failure

/-- What a fault ends a batch with, unless it can be recorded: one that cannot be recovered from
ends it itself, and one that can, but has no text, ends it with what keeps the text from being
written. -/
def Fault.ending? (recovers : Fault → Bool) (fault : Fault) : Option Fault :=
  if recovers fault then fault.writing? else some fault

/-- Does something to one item and records the fault if it can be recorded. -/
def attempt {α β : Type} {m : Type → Type} [Monad m] [MonadExceptOf Fault m]
    (recovers : Fault → Bool) (item : α → Note) (operation : Option String) (process : α → m β)
    (a : α) : m (Except Failure β) :=
  tryCatch (Except.ok <$> process a) fun fault =>
    match fault.ending? recovers with
    | none => return .error { item := item a, operation, fault }
    | some f => throw f

/-- Goes through the items of a batch: the results of those that succeed and the failures of those
that do not, both in the order of the items. -/
def processBatch {α β : Type} {m : Type → Type} [Monad m] [MonadExceptOf Fault m]
    (recovers : Fault → Bool) (item : α → Note) (operation : Option String) (process : α → m β) :
    List α → m (List β × List Failure)
  | [] => return ([], [])
  | a :: as => do
    let outcome ← attempt recovers item operation process a
    let (results, failures) ← processBatch recovers item operation process as
    return match outcome with
      | .ok b => (b :: results, failures)
      | .error f => (results, f :: failures)

end Undecorate
