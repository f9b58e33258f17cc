import Undecorate.Emit.Options
import Undecorate.Fault.Diagnostic
import Undecorate.Json.Reader

/-! # Settings

Settings are values under a section and a key. A document of settings is merged over the current
ones section by section; the merge stops at the first section that is not a record, and what was
merged before it stays.
-/

namespace Undecorate

/-- The entries of one section. -/
abbrev Section := List (Text × Data)

/-- All settings, by section. -/
structure Settings where
  sections : List (Text × Section)
deriving Repr, BEq, Inhabited

namespace Settings

/-- The settings before anything is changed. -/
def defaults : Settings where
  sections := [
    ("emission", [("form", .text "classBased"), ("indent_size", .int 2), ("temp_prefix", .text "_")]),
    ("parsing", [("default_language", .text "javascript")]),
    ("logging", [("level", .text "WARNING")])]

/-- A section, empty if it is unknown. -/
def entries (s : Settings) (section' : Text) : Section := (s.sections.lookup section').getD []

/-- A setting, if it is there. -/
def get? (s : Settings) (section' key : Text) : Option Data := (s.entries section').lookup key

/-- Sets a setting; a new section or key goes last. -/
def set (s : Settings) (section' key : Text) (value : Data) : Settings where
  sections := setField section' (setField key value (s.entries section')) s.sections

/-- Sets all entries of a section. -/
def setAll (s : Settings) (section' : Text) (entries : Section) : Settings :=
  entries.foldl (fun s (key, value) => s.set section' key value) s

/-- What is reported for a setting with a value that it cannot have. The value is written into the
message, which fails if it holds a whole number with too many digits. -/
def invalid (setting : Text) (value : Data) (reason : Text) (issues : Option (List Issue)) :
    Fault :=
  if value.isWritable then
    .refused { Diagnostic.invalidSetting setting (.data value) reason with issues }
  else .tooLong

/-- Merges sections over the settings, up to the first that is not a record. -/
def update (s : Settings) : List (Text × Data) → Settings × Option Fault
  | [] => (s, none)
  | (name, .record entries) :: rest => (s.setAll name entries).update rest
  | (name, other) :: _ => (s, some (invalid name other "sections must be objects" none))

/-- Merges what is given over the settings; it has to be a record. -/
def updateBy (s : Settings) : Data → Settings × Option Fault
  | .record fields => s.update fields
  | other => (s, some (.noAttribute other.typeName "items"))

/-- The most lists and records that may stand one inside another in what is written out. -/
def nestingLimit : Nat := 495

/-- A value of the settings to be written out; it may not be nested too deeply. -/
def writable (d : Data) : Except Fault Data :=
  if d.nesting ≤ nestingLimit then .ok d else .error .endless

/-- All settings as one value. -/
def toData (s : Settings) : Data :=
  .record (s.sections.map fun (name, entries) => (name, .record entries))

/-- A diagnostic about a file of settings. -/
def fileDiagnostic (message : Text) (path : String) : Diagnostic :=
  .make .configuration message [("path", .text path)]

/-- What is reported for a document that cannot be read. One that is too long or too deep is no
matter of settings. -/
def documentFault (path : String) (document : List Char) (f : Json.Fault) : Fault :=
  match f.cause with
  | .digits _ => .badValue f.cause.text
  | .nesting => .raised "RecursionError" f.cause.text
  | _ => .refused (fileDiagnostic
      (.ofString ("Configuration file is not valid JSON: " ++ f.message document)) path)

/-- Merges a document over the settings. -/
def load (s : Settings) (path : String) (document : String) : Settings × Option Fault :=
  match Json.read document.toList with
  | .error f => (s, some (documentFault path document.toList f))
  | .ok (.record fields) => s.updateBy (.record fields)
  | .ok other =>
    (s, some (.refused (.invalidSetting "<root>" (.text other.typeName) "expected a JSON object")))

/-- The options of the lowering, with another form if one is given. -/
def emitOptions (s : Settings) (form : Option Data) : Except Fault EmitOptions :=
  let fields := s.entries "emission"
  let fields := match form with
    | some f => setField "form" f fields
    | none => fields
  match EmitOptions.ofFields fields with
  | .ok o => .ok o
  | .error issues =>
    .error (invalid "emission" (.record fields) (Fault.invalid issues).text (some issues))

end Settings

end Undecorate
