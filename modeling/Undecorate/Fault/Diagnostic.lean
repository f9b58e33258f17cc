import Undecorate.Fault.Issue
import Undecorate.Source.Range

/-! # Diagnostics

A diagnostic is an error of the engine itself: its kind, its message, and the facts it was raised
with, which follow the message in its text. A fact that is absent leaves no trace. The message is
written when the diagnostic is raised, the facts only when its text is asked for; one that cannot be
written is found out then.
-/

namespace Undecorate

/-- The kinds of diagnostics. -/
inductive Kind where
  | general
  | configuration
  | invalidSetting
  | parsing
  | sourceError
  | unsupportedLanguage
  | classification
  | chain
  | contract
  | resolution
  | emission
  | defineProperty
  | batch
deriving DecidableEq, Repr

namespace Kind

/-- The name of a kind, as reports print it. -/
def name : Kind → String
  | .general => "DecoLowerError"
  | .configuration => "ConfigurationError"
  | .invalidSetting => "InvalidConfigurationError"
  | .parsing => "ParsingError"
  | .sourceError => "SourceSyntaxError"
  | .unsupportedLanguage => "UnsupportedLanguageError"
  | .classification => "ClassificationError"
  | .chain => "ChainError"
  | .contract => "ContractViolationError"
  | .resolution => "ResolutionError"
  | .emission => "EmissionError"
  | .defineProperty => "DefinePropertyError"
  | .batch => "BatchOperationError"

/-- All kinds. -/
def all : List Kind :=
  [.general, .configuration, .invalidSetting, .parsing, .sourceError, .unsupportedLanguage,
    .classification, .chain, .contract, .resolution, .emission, .defineProperty, .batch]

/-- The kind with a name. -/
def ofName? (s : String) : Option Kind := all.find? (·.name == s)

/-- The wider kinds that a kind belongs to, from the nearest to the most general. -/
def wider : Kind → List Kind
  | .general => []
  | .invalidSetting => [.configuration, .general]
  | .sourceError => [.parsing, .general]
  | .contract => [.chain, .general]
  | _ => [.general]

end Kind

/-- Why a value cannot be written: it leads back to itself, or it holds a whole number with too many
digits. -/
inductive Obstacle where
  | endless
  | digits
deriving DecidableEq, Repr

/-- A fact in a diagnostic's context. A value is told by what it looks like when the diagnostic is
raised. -/
inductive Note where
  | data (d : Data)
  | range (r : SourceRange)
  | pair (first second : Data)
  | value (typeName : String) (shown quoted : Text) (obstacle : Option Obstacle)
deriving Repr, Inhabited

namespace Note

/-- A fact as a message shows it. -/
def shown : Note → Text
  | .data d => d.shown
  | .range r => r.shown
  | .pair a b => .ofString ("(" ++ a.quoted ++ ", " ++ b.quoted ++ ")")
  | .value _ s _ _ => s

/-- A fact as a message quotes it. -/
def quoted : Note → Text
  | .data d => d.quoted
  | .value _ _ q _ => q
  | n => n.shown

/-- What keeps a fact from being written, if anything. Places in a source always are: no source has
lines enough to number them with too many digits. -/
def obstacle? : Note → Option Obstacle
  | .data d => if d.isWritable then none else some .digits
  | .range _ | .pair _ _ => none
  | .value _ _ _ o => o

/-- The name of a fact's type. -/
def typeName : Note → String
  | .data d => d.typeName
  | .range _ => "SourceRange"
  | .pair _ _ => "tuple"
  | .value t _ _ _ => t

/-- Whether the fact is absent. -/
def isAbsent : Note → Bool
  | .data d => d.isNull
  | _ => false

/-- Whether the fact is a text. -/
def isText : Note → Bool
  | .data (.text _) => true
  | .value typeName _ _ _ => typeName == "str"
  | _ => false

/-- Whether a condition takes the fact for true. -/
def isTruthy : Note → Bool
  | .data d => d.isTruthy
  | _ => true

/-- A text as a fact. -/
def text (t : Text) : Note := .data (.text t)

/-- A text that may be absent. -/
def text? : Option Text → Note
  | some t => .text t
  | none => .data .null

/-- A place that may be absent. -/
def range? : Option SourceRange → Note
  | some r => .range r
  | none => .data .null

end Note

/-- An error of the engine; `issues` are the failed checks of given values it was raised for, and
`obstacle` is what keeps its facts from being written. -/
structure Diagnostic where
  kind : Kind
  message : Text
  context : List (Text × Text) := []
  issues : Option (List Issue) := none
  obstacle : Option Obstacle := none
deriving DecidableEq, Repr

namespace Diagnostic

/-- Adds the facts that are present to a context: a known one keeps its place. -/
def addNotes (context : List (Text × Text)) (notes : List (Text × Note)) :
    List (Text × Text) :=
  notes.foldl (fun c (k, n) => if n.isAbsent then c else setField k n.shown c) context

/-- The facts that a context tells, of those it starts from and those that are added. -/
def toldNotes (base notes : List (Text × Note)) : List (Text × Note) :=
  notes.foldl (fun c (k, n) => if n.isAbsent then c else setField k n c) base

/-- What keeps a context from being written, if anything: the first obstacle in its facts. -/
def contextObstacle? (base notes : List (Text × Note)) : Option Obstacle :=
  (toldNotes base notes).findSome? (·.2.obstacle?)

/-- A diagnostic with the facts that are present. -/
def make (kind : Kind) (message : Text) (notes : List (Text × Note)) : Diagnostic where
  kind
  message
  context := addNotes [] notes
  obstacle := contextObstacle? [] notes

/-- The text of a diagnostic: its message, then its facts. -/
def text (d : Diagnostic) : Text :=
  if d.context.isEmpty then d.message
  else d.message ++ " [Context: " ++
    Text.intercalate ", " (d.context.map fun (k, v) => k ++ "=" ++ v) ++ "]"

/-- A decorator that stands where none can be applied. -/
def classification (message : Text) (location : Option SourceRange) : Diagnostic :=
  make .classification message [("location", .range? location)]

/-- An expression that has no value. -/
def resolution (expression reason : Text) : Diagnostic :=
  make .resolution ("Cannot resolve '" ++ expression ++ "': " ++ reason)
    [("expression", .text expression)]

/-- A declaration that cannot be written in the chosen form. -/
def emission (message : Text) (form : String) (location : Option SourceRange) : Diagnostic :=
  make .emission message [("form", .text form), ("location", .range? location)]

/-- A property that refuses a new definition. -/
def defineProperty (key : Note) (reason : Text) : Diagnostic :=
  make .defineProperty ("Cannot redefine property '" ++ key.shown ++ "': " ++ reason)
    [("key", key), ("reason", .text reason)]

/-- The message about a language that cannot be lowered. -/
def unsupportedMessage (language : Text) (operation : Option Text) : Text :=
  "Unsupported language: '" ++ language ++ "'" ++
    (operation.map fun (o : Text) => " for operation: " ++ o).getD ""

/-- A language that cannot be lowered. -/
def unsupportedLanguage (language : Text) (operation : Option Text) : Diagnostic :=
  make .unsupportedLanguage (unsupportedMessage language (operation.filter (!·.isEmpty)))
    [("language", .text language), ("operation", .text? operation)]

/-- A setting with a value that it cannot have. -/
def invalidSetting (setting : Text) (value : Note) (reason : Text) : Diagnostic :=
  make .invalidSetting
    ("Invalid configuration setting '" ++ setting ++ "': " ++ value.shown ++ ". Reason: " ++ reason)
    [("setting", .text setting), ("value", value), ("reason", .text reason)]

/-- The message about a decorator that returned a value of the wrong shape. -/
def contractMessage (returned : Note) (expected : Text) : Text :=
  "Decorator returned " ++ returned.typeName ++ " " ++ returned.quoted ++ "; expected " ++ expected

end Diagnostic

/-- Everything that an operation can end with instead of a result. -/
inductive Fault where
  /-- An error of the engine. -/
  | refused (d : Diagnostic)
  /-- Given values that fail their checks. -/
  | invalid (issues : List Issue)
  /-- A value that an operation cannot take. -/
  | badValue (message : Text)
  /-- A failure outside the engine: of a function it calls, of a file, of a malformed tree. -/
  | raised (kind : String) (text : Text)
  /-- A name that was never bound. -/
  | unbound (name : String)
  /-- A failure outside the engine whose text cannot be written: writing it ends with a fault. -/
  | unwritable (kind : String) (fault : Fault)
deriving DecidableEq, Repr, Inhabited

namespace Fault

/-- A text cut inside a character. -/
def cutText : Fault := .raised "UnicodeDecodeError" "text is cut inside a character"

/-- A value without end, or one that is nested too deeply. -/
def endless : Fault := .raised "RecursionError" "maximum recursion depth exceeded"

/-- A whole number with too many digits to be written. -/
def tooLong : Fault := .badValue Number.tooLongToWrite

/-- A part that a value lacks. -/
def noAttribute (typeName part : String) : Fault :=
  .raised "AttributeError" ("'" ++ typeName ++ "' object has no attribute '" ++ part ++ "'")

/-- The name of a fault's kind, as reports print it. -/
def kindName : Fault → String
  | .refused d => d.kind.name
  | .invalid _ => "ValidationError"
  | .badValue _ => "ValueError"
  | .raised kind _ => kind
  | .unbound _ => "NameError"
  | .unwritable kind _ => kind

/-- The text of a fault, as reports print it; nothing, if it cannot be written. -/
def text : Fault → Text
  | .refused d => d.text
  | .invalid issues => .ofString (toString issues.length ++ " validation errors")
  | .badValue message => message
  | .raised _ text => text
  | .unbound name => .ofString ("name '" ++ name ++ "' is not bound")
  | .unwritable _ _ => ""

end Fault

/-- What cannot be written, as it is reported. -/
def Obstacle.fault : Obstacle → Fault
  | .endless => .endless
  | .digits => .tooLong

namespace Fault

/-- What writing the text of a fault ends with, if it cannot be written. -/
def writing? : Fault → Option Fault
  | .refused d => d.obstacle.map Obstacle.fault
  | .unwritable _ f => some f
  | _ => none

/-- Whether the fault is an error of the engine. -/
def isDiagnostic : Fault → Bool
  | .refused _ => true
  | _ => false

/-- The kinds of failures of the system, with the numbers that the system gives them. -/
def systemKinds : List (String × List Int) := [
  ("BlockingIOError", [11, 114, 115]), ("BrokenPipeError", [32, 108]), ("ChildProcessError", [10]),
  ("ConnectionAbortedError", [103]), ("ConnectionRefusedError", [111]),
  ("ConnectionResetError", [104]), ("FileExistsError", [17]), ("FileNotFoundError", [2]),
  ("InterruptedError", [4]), ("IsADirectoryError", [21]), ("NotADirectoryError", [20]),
  ("PermissionError", [1, 13]), ("ProcessLookupError", [3]), ("TimeoutError", [110])]

/-- The kind of the failure of the system with a number. -/
def systemKind (number : Int) : String :=
  ((systemKinds.find? fun k => k.2.contains number).map (·.1)).getD "OSError"

/-- Kinds of failures outside the engine that a batch records and goes on after. -/
def recoverableKinds : List String :=
  ["OSError", "ConnectionError", "UnicodeDecodeError"] ++ systemKinds.map (·.1)

/-- Whether a batch records the fault and goes on. -/
def isRecoverable : Fault → Bool
  | .refused _ => true
  | .raised kind _ | .unwritable kind _ => recoverableKinds.contains kind
  | _ => false

end Fault

end Undecorate
