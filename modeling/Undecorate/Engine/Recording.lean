import Undecorate.Engine.Files

/-! # Recorded parses

Trees can be handed over as plain data. A tree is the list of its nodes in pre-order, each with its
kind, the bytes it covers, the field it fills, its marks and its number of children. A recording is
a tree with the language and the text that it belongs to, and recordings make up a parser.
-/

namespace Undecorate

/-- The node in one entry of a listing, and its number of children. The marks are a number: its
lowest bit says that the grammar names the node, the next one that the text lacks it. -/
def Label.ofEntry? (id : Nat) : Data → Option (Label × Nat)
  | .list [.text kind, .int start, .int stop, .text field, .int marks, .int count] => do
    return ({ id, kind := ← kind.string?, start := start.toNat, stop := stop.toNat,
              field := ← field.string?, isNamed := marks % 2 = 1,
              isMissing := marks / 2 % 2 = 1 }, count.toNat)
  | _ => none

/-- The tree of a listing. -/
def Tree.ofData? : Data → Option Tree
  | .list entries => do
    ofListing? (← entries.zipIdx.mapM fun (entry, id) => Label.ofEntry? id entry)
  | _ => none

/-- A text of a language with its tree. -/
structure Recording where
  language : Language
  text : String
  tree : Tree
deriving Repr

namespace Recording

/-- Reads a recording. -/
def ofData? : Data → Option Recording
  | .record fields => do
    let language ← (← fields.lookup (.ofString "language")).string? >>= Language.ofName?
    let text ← (← fields.lookup (.ofString "code")).string?
    let tree ← Tree.ofData? (← fields.lookup (.ofString "nodes"))
    return { language, text, tree }
  | _ => none

/-- Reads the recordings of a list; anything else in it is passed over. -/
def listOf : Data → List Recording
  | .list items => items.filterMap ofData?
  | _ => []

/-- The document of a recording. -/
def document (r : Recording) : Document where
  language := r.language
  source := r.text.toList
  tree := r.tree
  isDamaged := r.tree.hasError

end Recording

/-- A document that the grammar accepts nothing of. -/
def Document.unread (language : Language) (text : String) : Document where
  language
  source := text.toList
  tree := .node { id := 0, kind := "ERROR", start := 0, stop := text.utf8ByteSize } []
  isDamaged := true

/-- The parser that knows recorded texts only. -/
def Parser.ofRecordings (recordings : List Recording) : Parser := fun language text =>
  match recordings.find? fun r => r.language = language && r.text == text with
  | some r => r.document
  | none => .unread language text

end Undecorate
