import Undecorate.Engine.Basic
import Undecorate.Fault.Outside
import Undecorate.Files.Store

/-! # Lowering files

The engine at work on files. How a text becomes a tree is left to a parser, which is a function of
the language and the text.
-/

namespace Undecorate

/-- Gives the document of a text in a language. -/
abbrev Parser := Language → String → Document

namespace Engine

/-- Lowers a text. -/
def lowerText (e : Engine) (parse : Parser) (text : String) : Except Fault String :=
  (parse e.language text).lower e.options

/-- The sites of a text. -/
def sitesOf (e : Engine) (parse : Parser) (text : String) : Except Fault (List Site) :=
  (parse e.language text).sites e.options

end Engine

/-- The text of a file. -/
def Store.load (s : Store) (path : String) : Except Fault String :=
  if s.has path then s.read path
  else .error (.raised "FileNotFoundError" (.ofString ("File not found: " ++ path)))

/-- Lowers a file, and writes the result to another one if that is asked for. -/
def Engine.lowerFile (e : Engine) (parse : Parser) (path : String) (output : Option String) :
    FileAct String := do
  let text ← (← get).load path
  let lowered ← e.lowerText parse text
  if let some target := nonempty? output then writeText target lowered
  return lowered

/-- Merges a document from a file over the settings. A file that cannot be opened is a matter of
settings; a path that is none and a file that is no text are not. -/
def Settings.loadFile (s : Settings) (files : Store) (path : String) : Settings × Option Fault :=
  match files.read path with
  | .ok text => s.load path text
  | .error f =>
    if Fault.isSystemKind f.kindName then (s, some (.refused
      (Settings.fileDiagnostic ("Cannot read configuration file: " ++ f.text) path)))
    else (s, some f)

end Undecorate
