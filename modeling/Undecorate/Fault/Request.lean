import Undecorate.Fault.Diagnostic

/-! # Diagnostics on request

Every kind of diagnostic can be asked for with the facts that it tells: some have to be given, some
may be, and any further fact goes into its context. Facts are given by their place or by name. A
message that is no text is told only with a context after it. A message is written when the
diagnostic is asked for, which fails if a fact in it cannot be written.
-/

namespace Undecorate

/-- The facts that a diagnostic is asked for with. -/
structure Request where
  kind : Kind
  placed : List Note := []
  named : List (Text × Note) := []
  /-- A context to start from, which has to be a record; in it even absent facts are told. -/
  base : Data := .record []
deriving Repr

/-- A diagnostic that was asked for, its message as it was given, and the facts it can be asked
about. -/
structure Granted where
  diagnostic : Diagnostic
  message : Note
  attributes : List (String × Note)
deriving Repr

namespace Kind

/-- The facts that have to be given for a kind, and those that may be. -/
def parameters : Kind → List String × List String
  | .general | .configuration => (["message"], [])
  | .invalidSetting => (["setting", "value", "reason"], [])
  | .parsing => (["message"], ["code_snippet", "position"])
  | .sourceError => (["message", "language"], ["code_snippet", "line", "column"])
  | .unsupportedLanguage => (["language"], ["operation"])
  | .classification => (["message"], ["location"])
  | .chain => (["message"], ["decorator", "key", "location"])
  | .contract => (["returned", "expected"], [])
  | .resolution => (["expression", "reason"], [])
  | .emission => (["message"], ["form", "location"])
  | .defineProperty => (["key", "reason"], [])
  | .batch => (["error_collection"], [])

/-- The facts of a kind that its context tells, in order. -/
def told : Kind → List String
  | .general | .configuration | .batch => []
  | .invalidSetting => ["setting", "value", "reason"]
  | .parsing => ["code_snippet", "position"]
  | .sourceError => ["code_snippet", "position", "language"]
  | .unsupportedLanguage => ["language", "operation"]
  | .classification => ["location"]
  | .chain | .contract => ["decorator", "key", "location"]
  | .resolution => ["expression"]
  | .emission => ["form", "location"]
  | .defineProperty => ["key", "reason"]

/-- The facts that a diagnostic of a kind can be asked about. -/
def attributes : Kind → List String
  | .invalidSetting => ["setting"]
  | .sourceError => ["code_snippet", "position", "language", "line", "column"]
  | .unsupportedLanguage => ["language"]
  | .contract => ["decorator", "key", "location", "returned"]
  | .defineProperty => ["key"]
  | k => k.told

/-- The facts that cannot be given on top of those of a kind: it sets them itself. -/
def settled : Kind → List String
  | .sourceError => ["position"]
  | .general | .configuration | .parsing | .classification | .chain | .emission | .batch => []
  | _ => ["message"]

end Kind

namespace Request

/-- A request with too many facts or with one given twice. -/
def malformed : Fault := .raised "TypeError" "facts do not fit the kind"

/-- Names in quotes, as a list in a sentence. -/
def enumerated (names : List String) : String :=
  match names.map fun (n : String) => Text.quoted n with
  | [] => ""
  | [one] => one
  | [one, other] => one ++ " and " ++ other
  | several => ", ".intercalate several.dropLast ++ ", and " ++ several.getLast?.getD ""

/-- A request without facts that have to be given. -/
def incomplete (kind : Kind) (missing : List String) : Fault :=
  .raised "TypeError" (.ofString (kind.name ++ ".__init__() missing " ++ toString missing.length ++
    " required positional argument" ++ (if missing.length = 1 then "" else "s") ++ ": " ++
    enumerated missing))

/-- A context to start from that facts cannot be added to, or that has none. -/
def noContext (base : Data) (hasFacts : Bool) : Fault :=
  if hasFacts then .raised "TypeError"
    (.ofString ("'" ++ base.typeName ++ "' object does not support item assignment"))
  else .noAttribute base.typeName "items"

/-- A diagnostic whose whole text is its message, which is no text. -/
def untold : Fault := .raised "TypeError" "the message is no text"

/-- All facts of a request by name: the placed ones, then the named ones. -/
def facts (r : Request) : Except Fault (List (Text × Note)) :=
  let (needed, optional) := r.kind.parameters
  let parameters : List Text := (needed ++ optional).map .ofString
  let placed := parameters.zip r.placed
  let missing := needed.filter fun (name : String) => !(placed ++ r.named).any (·.1 == name)
  if parameters.length < r.placed.length || r.named.any (fun p => placed.any (·.1 == p.1)) then
    .error malformed
  else if !missing.isEmpty then .error (incomplete r.kind missing)
  else if r.kind.settled.any (fun n => r.named.any (·.1 == n)) then .error malformed
  else .ok (placed ++ r.named)

/-- A fact by name, absent if it was not given. -/
def fact (facts : List (Text × Note)) (name : Text) : Note :=
  (facts.lookup name).getD (.data .null)

/-- The position of a broken source, when line and column are both known. -/
def position (facts : List (Text × Note)) : Note :=
  match fact facts "line", fact facts "column" with
  | .data line, .data column =>
    if line.isNull || column.isNull then .data .null else .pair line column
  | _, _ => .data .null

/-- The message of a diagnostic with given facts. -/
def message (kind : Kind) (facts : List (Text × Note)) : Note :=
  let text (name : Text) := (fact facts name).shown
  match kind with
  | .invalidSetting => .text
      (Diagnostic.invalidSetting (text "setting") (fact facts "value") (text "reason")).message
  | .unsupportedLanguage => .text (Diagnostic.unsupportedMessage (text "language")
      (if (fact facts "operation").isTruthy then some (text "operation") else none))
  | .contract => .text (Diagnostic.contractMessage (fact facts "returned") (text "expected"))
  | .resolution => .text (Diagnostic.resolution (text "expression") (text "reason")).message
  | .defineProperty => .text (Diagnostic.defineProperty (fact facts "key") (text "reason")).message
  | _ => fact facts "message"

/-- The facts that the message of a diagnostic is written with. -/
def written (kind : Kind) (facts : List (Text × Note)) : List Note :=
  match kind with
  | .invalidSetting => [fact facts "setting", fact facts "value", fact facts "reason"]
  | .unsupportedLanguage => fact facts "language" ::
      (if (fact facts "operation").isTruthy then [fact facts "operation"] else [])
  | .contract => [fact facts "returned", fact facts "expected"]
  | .resolution => [fact facts "expression", fact facts "reason"]
  | .defineProperty => [fact facts "key", fact facts "reason"]
  | _ => []

/-- The diagnostic that a request asks for. -/
def grant (r : Request) : Except Fault Granted := do
  let given ← r.facts
  let known :=
    if r.kind = .sourceError then (.ofString "position", position given) :: given else given
  let (needed, optional) := r.kind.parameters
  let own : List Text := (needed ++ optional ++ r.kind.told).map .ofString
  let further := r.named.filter fun (n, _) => !own.contains n
  let told := r.kind.told.map fun n => (Text.ofString n, fact known n)
  if let some o := (written r.kind known).findSome? (·.obstacle?) then throw o.fault
  let message := message r.kind known
  let base ← match r.base with
    | .record fields => pure fields
    | other => throw (noContext other ((told ++ further).any (!·.2.isAbsent)))
  let context := Diagnostic.addNotes (base.map fun (k, d) => (k, d.shown)) (told ++ further)
  if context.isEmpty && !message.isText then throw untold
  let obstacle := (Diagnostic.contextObstacle? (base.map fun (k, d) => (k, .data d))
    (told ++ further)).or message.obstacle?
  return {
    diagnostic := { kind := r.kind, message := message.shown, context, obstacle }
    message
    attributes := r.kind.attributes.map fun n => (n, fact known n) }

end Request

end Undecorate
