import Undecorate.Cli.Invocation
import Undecorate.Json.Writer
import Undecorate.Workspace

/-! # Running a command line

A run works on the files of a store. It shows reports on the console, writes plain text to its
output, and ends with a status: 0 if all went well, 1 if something was refused, 2 if the command
line could not be read. Faults that are no diagnostics end the run without a status.
-/

namespace Undecorate.Cli

/-- Something that the console shows. -/
inductive Report where
  | line (text : Text)
  | panel (text : Text) (title : Option String) (style : String)
  | table (title : String) (columns : List String) (rows : List (List Text))
  | progress (text : String)
deriving DecidableEq, Repr

/-- The files that a run works on, and what it has shown so far. -/
structure Desk where
  files : Store
  console : List Report := []
  output : String := ""
  complaint : String := ""
deriving DecidableEq, Repr

/-- A part of a run. What it did before a fault stays done. -/
abbrev Session (α : Type) := ExceptT Fault (StateM Desk) α

namespace Session

/-- Shows a report. -/
def report (r : Report) : Session Unit := modify fun d => { d with console := d.console ++ [r] }

/-- Writes text to the output. -/
def write (text : String) : Session Unit := modify fun d => { d with output := d.output ++ text }

/-- The files as they are now. -/
def files : Session Store := do return (← get).files

/-- Does something to the files. -/
def onFiles {α : Type} (act : FileAct α) : Session α := do
  let d ← get
  let (result, files) := act.run.run d.files
  set { d with files }
  result

end Session

open Session

/-- A headline in red and what it is about. -/
def alarm (headline : String) (text : Text) : Report :=
  .line ("[bold red]" ++ headline ++ ":[/bold red] " ++ text)

/-- Ends a run with an alarm. -/
def refuse (headline : String) (text : Text) : Session Nat := do
  report (alarm headline text)
  return 1

/-! ## Listing decorations -/

/-- A decoration in a listing. -/
structure Row where
  declaration : String
  decoration : Decoration
deriving DecidableEq, Repr

namespace Row

/-- The rows of a site. -/
def ofSite (s : Site) : List Row :=
  let name := match s.declaration with
    | .cls c => c.bindingName
    | .object _ => s.declaration.title
  s.decorations.map (⟨name, ·⟩)

/-- The line on which the decoration starts. -/
def line (r : Row) : Data := (r.decoration.range.map fun p => Data.int p.startLine).getD .null

/-- The shape of the descriptor that the decoration starts from. -/
def shape? (r : Row) : Option String := r.decoration.initial?.map (·.kind.name)

/-- A text that may be absent, as plain data. -/
def textOrNull (text : Option Text) : Data := (text.map Data.text).getD .null

/-- A row as a record. -/
def toData (r : Row) : Data := .record [
  ("declaration", .text r.declaration),
  ("line", r.line),
  ("level", .text r.decoration.level),
  ("target", .text r.decoration.target.expression),
  ("key", textOrNull (r.decoration.key?.map (·.shown))),
  ("snapshot", textOrNull ((r.decoration.key?.bind (·.snapshot?)).map .ofString)),
  ("decorators", .list (r.decoration.decorators.map fun d => .text d.text)),
  ("descriptor", textOrNull (r.shape?.map .ofString))]

/-- The columns of a table of rows. -/
def columns : List String :=
  ["line", "level", "target", "key", "decorators (source order)", "descriptor"]

/-- A row of a table. -/
def cells (r : Row) : List Text := [
  r.line.shown,
  r.decoration.level,
  r.decoration.target.expression,
  (r.decoration.key?.map (·.shown)).getD "",
  .ofString (", ".intercalate (r.decoration.decorators.map fun d => "@" ++ d.text)),
  .ofString (r.shape?.getD "")]

end Row

/-! ## Commands -/

/-- The engine for a file: for the language asked for, or for that of the file. -/
def engineFor (settings : Settings) (file : String) (language form : Option String) :
    Except Fault Engine :=
  match language with
  | some name => Engine.make settings (some (.text name)) (form.map fun (f : String) => .text f) none
  | none => Engine.ofPath settings file (form.map fun (f : String) => .text f)

/-- Lowers a file. -/
def runLower (settings : Settings) (parse : Parser) (file : String)
    (language form output : Option String) : Session Nat := do
  let engine ← engineFor settings file language form
  let lowered ← onFiles (engine.lowerFile parse file output)
  match nonempty? output with
  | some target => report (.panel (.ofString ("Wrote " ++ target)) none "green")
  | none => write lowered
  return 0

/-- Lists the decorations of a file. -/
def runList (settings : Settings) (parse : Parser) (file : String) (language : Option String)
    (asDocument : Bool) : Session Nat := do
  let engine ← engineFor settings file language none
  let text ← (← files).load file
  let rows := (← engine.sitesOf parse text).flatMap Row.ofSite
  if asDocument then write (Json.write 0 (.list (rows.map (·.toData))) ++ "\n")
  else report (.table ("Decoration units in " ++ file) Row.columns (rows.map (·.cells)))
  return 0

/-- Lowers the files below a folder. -/
def runLowerAll (settings : Settings) (parse : Parser) (folder output : String)
    (extensions : List String) (form : Option String) : Session Nat := do
  let workspace := Workspace.ofFolder (← files) folder extensions
  report (.progress ("Lowering " ++ toString workspace.files.length ++ " files"))
  let (written, failures) ← onFiles (workspace.lowerAll settings parse output
    (form.map fun (f : String) => .text f))
  if failures.isEmpty then
    report (.panel (.ofString ("Lowered " ++ toString written.length ++ " files into " ++ output))
      none "green")
    return 0
  else
    report (.panel (Failure.report failures)
      (some (toString failures.length ++ " files failed")) "red")
    return 1

/-- Runs a command, if what it works on is there. -/
def Command.run (settings : Settings) (parse : Parser) : Command → Session Nat
  | .lower file language form output => do
    if !(← files).has file then refuse "File not found" file
    else runLower settings parse file language form output
  | .list file language asDocument => do
    if !(← files).has file then refuse "File not found" file
    else runList settings parse file language asDocument
  | .lowerAll folder output extensions form => do
    if !(← files).hasFolder folder then refuse "Directory not found" folder
    else runLowerAll settings parse folder output extensions form

/-! ## Whole runs -/

/-- Ends a run with a diagnostic if there is one; any other fault ends it without a status. -/
def refuseFault : Fault → Session Nat
  | .refused d => refuse d.kind.name d.text
  | fault => throw fault

/-- Runs what a command line asks for. Without a command the help is shown. -/
def Invocation.run (parse : Parser) (i : Invocation) : Session Nat := do
  let store ← files
  let (settings, fault) := match nonempty? i.settings with
    | some path => Settings.defaults.loadFile store path
    | none => (.defaults, none)
  match fault, i.command with
  | some f, _ => refuseFault f
  | none, some command => tryCatch (command.run settings parse) refuseFault
  | none, none =>
    write generalGrammar.help
    return 0

/-- Shows the help that was asked for, or says why a command line cannot be read. -/
def Rejection.run (r : Rejection) : Session Nat := do
  match r.stop with
  | .help =>
    write r.grammar.help
    return 0
  | .misuse m =>
    modify fun d => { d with complaint := Help.usageOf r.grammar.help ++ r.grammar.program ++
      ": error: " ++ m.message ++ "\n" }
    return 2

/-- Runs a command line. -/
def run (parse : Parser) (arguments : List String) : Session Nat :=
  match Invocation.ofArguments arguments with
  | .ok i => i.run parse
  | .error r => r.run

/-- Runs a command line on files: its status or the fault that ended it, and what is left. -/
def runOn (parse : Parser) (files : Store) (arguments : List String) : Except Fault Nat × Desk :=
  (run parse arguments).run.run { files }

end Undecorate.Cli
