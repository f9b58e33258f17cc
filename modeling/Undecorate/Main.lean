import Undecorate.Cli.Run
import Undecorate.Engine.Recording

/-! # The program

Runs a command line on the working folder. The trees of its source files are taken from a file of
recorded parses in that folder.
-/

namespace Undecorate

/-- The file of recorded parses. -/
def recordingsFile : String := ".parses.json"

/-- The content of a file. -/
def contentOf (bytes : ByteArray) : Content :=
  match String.fromUTF8? bytes with
  | some text => .text text
  | none => .octets (bytes.toList.map (·.toNat))

/-- Everything below the working folder. -/
def gatherStore : IO Store := do
  let here ← IO.currentDir
  let mut store : Store := {}
  for path in ← here.walkDir do
    let place := path.components.drop here.components.length
    if ← path.isDir then
      store := { store with folders := place :: store.folders }
    else
      let content := contentOf (← IO.FS.readBinFile path)
      store := { store with files := (place, content) :: store.files }
  return store

/-- The recorded parses below the working folder. -/
def recordingsOf (store : Store) : List Recording :=
  match (store.read recordingsFile).map (Json.read ·.toList) with
  | .ok (.ok recordings) => Recording.listOf recordings
  | _ => []

/-- Writes a file that a run has changed. -/
def writeChange (place : Place) : Content → IO Unit
  | .octets _ => return
  | .text text => do
    if place.length > 1 then IO.FS.createDirAll (Path.ofParts place.dropLast)
    IO.FS.writeFile (Path.ofParts place) text

/-- A text as the terminal shows it: a letter that is no character as a replacement character. -/
def Text.plain (t : Text) : String :=
  String.ofList (t.letters.map fun l => l.char?.getD (Char.ofNat 0xFFFD))

/-- A report as lines of plain text. -/
def Cli.Report.lines : Cli.Report → List String
  | .line text => [text.plain]
  | .progress text => [text]
  | .panel text title _ => title.toList ++ [text.plain]
  | .table title columns rows =>
    title :: (columns :: rows.map (·.map Text.plain)).map fun cells => " | ".intercalate cells

end Undecorate

open Undecorate in
/-- Runs a command line on the working folder. -/
def main (arguments : List String) : IO UInt32 := do
  let store ← gatherStore
  let parse := Parser.ofRecordings (recordingsOf store)
  let (status, desk) := Cli.runOn parse store arguments
  for (place, content) in store.changes desk.files do
    writeChange place content
  for report in desk.console do
    for line in report.lines do
      IO.println line
  IO.print desk.output
  IO.eprint desk.complaint
  match status with
  | .ok n => return n.toUInt32
  | .error fault =>
    IO.eprintln (fault.kindName ++ ": " ++ fault.text.plain)
    return 1
