import Undecorate.Engine.Files
import Undecorate.Fault.Batch

/-! # Workspaces

A workspace is the list of the source files below a folder. Lowering it lowers each file into the
same place below another folder; a file that fails is recorded, and the others go on.
-/

namespace Undecorate

/-- The source files below a folder, in order, with their languages. -/
structure Workspace where
  root : String
  files : List (Place × Language)
deriving DecidableEq, Repr, Inhabited

namespace Workspace

/-- An extension as it is compared: in lower case, with a dot in front. -/
def extensionOf (text : String) : String :=
  if text.toList.head? == some '.' then Text.lowerString text else "." ++ Text.lowerString text

/-- The last name of a place. -/
def nameOf (p : Place) : String := p.getLast?.getD ""

/-- Whether a file is asked for: any is if no extensions are given. -/
def isWanted (extensions : List String) (p : Place) : Bool :=
  extensions.isEmpty || extensions.contains (Text.lowerString (Path.suffix (nameOf p)))

/-- The workspace of a folder, of the files with given extensions. An empty path is the folder where
one is. -/
def ofFolder (s : Store) (root : String) (extensions : List String) : Workspace where
  root
  files := (s.filesBelow (Path.tidy root)).filterMap fun p =>
    if isWanted (extensions.map extensionOf) p then
      (Language.ofPath? (nameOf p)).map (p, ·)
    else none

/-- A place as a fact of a report. -/
def noteOf (p : Place) : Note :=
  .value "PosixPath" (Path.ofParts p)
    (.ofString ("PosixPath(" ++ Text.quoted (Path.ofParts p) ++ ")")) none

/-- Lowers one file of a workspace, and gives the path it is written to. -/
def lowerOne (w : Workspace) (settings : Settings) (parse : Parser) (output : String)
    (form : Option Data) (file : Place × Language) : FileAct String := do
  let engine ← Engine.make settings (some (.text file.2.name)) form none
  let target := Path.below output file.1
  let _ ← engine.lowerFile parse (Path.below w.root file.1) (some target)
  return target

/-- Lowers a workspace into a folder: the paths that were written, and the failures. -/
def lowerAll (w : Workspace) (settings : Settings) (parse : Parser) (output : String)
    (form : Option Data) : FileAct (List String × List Failure) :=
  processBatch Fault.isRecoverable (fun file => noteOf file.1) (some "desugar")
    (w.lowerOne settings parse output form) w.files

end Workspace

end Undecorate
