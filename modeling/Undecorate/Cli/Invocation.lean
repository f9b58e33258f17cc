import Undecorate.Cli.Help
import Undecorate.Cli.Options
import Undecorate.Emit.Options
import Undecorate.Engine.Language

/-! # What a command line asks for

Options before the command are for the program as a whole, those after it for the command. The
options that set how much is logged are taken and change nothing that the program answers.
-/

namespace Undecorate.Cli

/-- One of the commands. -/
inductive Command where
  /-- Lower a file, and write it to another one or show it. -/
  | lower (file : String) (language form output : Option String)
  /-- List the decorations of a file, as a table or as a document. -/
  | list (file : String) (language : Option String) (asDocument : Bool)
  /-- Lower the files below a folder into another one. -/
  | lowerAll (folder output : String) (extensions : List String) (form : Option String)
deriving DecidableEq, Repr

/-- What a command line asks for: a file of settings, and a command. -/
structure Invocation where
  settings : Option String
  command : Option Command
deriving DecidableEq, Repr

/-- A command line that asks for nothing to be run, and the command it was read for. -/
structure Rejection where
  grammar : Grammar
  stop : Stop
deriving DecidableEq, Repr

/-! ## Grammars -/

/-- The option that every command has. -/
def helpSwitch : Switch := ⟨"--help", some 'h', .help⟩

/-- The option for a form. -/
def formSwitch : Switch := ⟨"--emit-form", none, .value (EmitForm.choices.map (·.1))⟩

/-- The option for a language. -/
def languageSwitch : Switch := ⟨"--language", none, .value (Language.all.map (·.name))⟩

/-- The arguments of the program as a whole. -/
def generalGrammar : Grammar where
  program := "decolower"
  help := Help.general
  switches := [helpSwitch, ⟨"--verbose", some 'v', .flag⟩, ⟨"--debug", none, .flag⟩,
    ⟨"--quiet", none, .flag⟩, ⟨"--config", none, .value []⟩]
  positional := "command"
  namesCommand := true

/-- The arguments of the command that lowers a file. -/
def lowerGrammar : Grammar where
  program := "decolower desugar"
  help := Help.desugar
  switches := [helpSwitch, formSwitch, languageSwitch, ⟨"--output", none, .value []⟩]
  positional := "file"

/-- The arguments of the command that lists decorations. -/
def listGrammar : Grammar where
  program := "decolower units"
  help := Help.units
  switches := [helpSwitch, languageSwitch, ⟨"--raw-json", none, .flag⟩]
  positional := "file"

/-- The arguments of the command that lowers a folder. -/
def lowerAllGrammar : Grammar where
  program := "decolower batch"
  help := Help.batch
  switches := [helpSwitch, ⟨"--out-dir", none, .value []⟩, ⟨"--ext", none, .value []⟩, formSwitch]
  positional := "directory"
  required := ["--out-dir"]

/-- The commands by their names. -/
def commandGrammars : List (String × Grammar) :=
  [("desugar", lowerGrammar), ("units", listGrammar), ("batch", lowerAllGrammar)]

/-! ## Reading a command line -/

/-- The extensions in a list with commas, without blanks around them. -/
def extensionsIn (text : String) : List String :=
  ((Text.cutAt ',' text).map Text.strip).filter (!·.isEmpty)

/-- The command that was read by the grammar with a name. -/
def commandOf (name : String) (r : Reading) : Command :=
  let operand := r.positional.headD ""
  match name with
  | "desugar" => .lower operand (r.last? "--language") (r.last? "--emit-form") (r.last? "--output")
  | "units" => .list operand (r.last? "--language") (r.has "--raw-json")
  | _ => .lowerAll operand ((r.last? "--out-dir").getD "") ((r.all "--ext").flatMap extensionsIn)
      (r.last? "--emit-form")

/-- Reads a command from its name and its arguments, with what is left over. -/
def readCommand : List String → Except Rejection (Option Command × List String)
  | [] => .ok (none, [])
  | name :: arguments =>
    match commandGrammars.lookup name with
    | none => .error ⟨generalGrammar, .misuse (.notAChoice generalGrammar.positional name
        (commandGrammars.map (·.1)))⟩
    | some g => match g.read arguments with
      | .ok r => .ok (some (commandOf name r), r.extras)
      | .error stop => .error ⟨g, stop⟩

/-- Reads a command line. Arguments that nobody took are refused last. -/
def Invocation.ofArguments (arguments : List String) : Except Rejection Invocation := do
  let r ← (generalGrammar.read arguments).mapError (⟨generalGrammar, ·⟩)
  let (command, extras) ← readCommand r.positional
  let unrecognized := r.extras ++ extras
  if !unrecognized.isEmpty then
    throw ⟨generalGrammar, .misuse (.unrecognized unrecognized)⟩
  return { settings := r.last? "--config", command }

end Undecorate.Cli
