import Undecorate.Engine.Lower
import Undecorate.Engine.Settings
import Undecorate.Text.Lowercase

/-! # The engine

An engine lowers sources of one language with one set of options. Both come from what is asked for
and, where nothing is, from the settings.
-/

namespace Undecorate

/-- A language and the options to lower it with. -/
structure Engine where
  language : Language
  options : EmitOptions
deriving DecidableEq, Repr

namespace Engine

/-- The name of the language to use: the one asked for, or else the setting. -/
def languageName (s : Settings) (asked : Option Data) : Except Fault Text :=
  let setting := (s.get? "parsing" "default_language").getD (.text "javascript")
  match (asked.filter (·.isTruthy)).getD setting with
  | .text name => .ok name.lower
  | other => .error (.noAttribute other.typeName "lower")

/-- An engine for a language by name, with options or else with a form over the settings. -/
def make (s : Settings) (language form : Option Data) (options : Option EmitOptions) :
    Except Fault Engine := do
  let name ← languageName s language
  match name.string?.bind Language.ofName? with
  | none => throw (.refused (.unsupportedLanguage name none))
  | some language =>
    let options ← match options with
      | some o => pure o
      | none => s.emitOptions form
    return { language, options }

/-- An engine for a file, by its extension. -/
def ofPath (s : Settings) (path : String) (form : Option Data) : Except Fault Engine :=
  match Language.ofPath? path with
  | some language => make s (some (.text language.name)) form none
  | none =>
    let shown := if (extension path).isEmpty then path else extension path
    .error (.refused (.unsupportedLanguage shown (some (.ofString "desugar"))))

end Engine

end Undecorate
