import Undecorate.Fault.Outside
import Undecorate.Files.Path
import Undecorate.Text.Utf8

/-! # Files

A store is everything below one folder: files with their contents, and folders. Paths lead through
folders from there; an absolute path leads to nothing, for what lies outside is left out. Every
operation that cannot be done says why in the words of the system. Names and paths have a greatest
size, and no path has a null character in it.
-/

namespace Undecorate

/-- The content of a file: a text, or octets that need not be one. -/
inductive Content where
  | text (s : String)
  | octets (bs : List Nat)
deriving DecidableEq, Repr, Inhabited

/-- The text of a content, with its line ends made the same. -/
def Content.read : Content → Except Fault String
  | .text s => .ok (String.ofList (Text.unifyLineEnds s.toList))
  | .octets bs => match Text.Utf8.decode bs with
    | .ok s => .ok (String.ofList (Text.unifyLineEnds s.toList))
    | .error f => .error (.raised "UnicodeDecodeError" f.message)

/-- The octets of a content. -/
def Content.bytes : Content → List Nat
  | .text s => s.toUTF8.toList.map (·.toNat)
  | .octets bs => bs

/-- The place of a file or folder: the names that lead to it. Two dots at the front lead above the
store, where nothing but folders is known at first. -/
abbrev Place := List String

/-- Files and folders by their places. A folder is there if it is listed or holds something. -/
structure Store where
  files : List (Place × Content) := []
  folders : List Place := []
deriving DecidableEq, Repr, Inhabited

/-- Why a path cannot be used. -/
inductive PathFault where
  | missing
  | taken
  | notFolder
  | isFolder
  | tooLong
  | nullCharacter
deriving DecidableEq, Repr

namespace PathFault

/-- The failure of a path, as it is reported. -/
def fault (path : String) : PathFault → Fault
  | .missing => system 2 "No such file or directory"
  | .taken => system 17 "File exists"
  | .notFolder => system 20 "Not a directory"
  | .isFolder => system 21 "Is a directory"
  | .tooLong => system 36 "File name too long"
  | .nullCharacter => .badValue "embedded null byte"
where
  /-- A failure of the system with a number. -/
  system (number : Int) (reason : Text) : Fault :=
    .raisedWith "OSError" [.int number, .text reason, .text path]

end PathFault

/-- Something that is done to files and may fail; what it did before it failed stays done. -/
abbrev FileAct (α : Type) := ExceptT Fault (StateM Store) α

namespace Store

/-- Whether a file is at a place. -/
def isFile (s : Store) (p : Place) : Bool := (s.files.lookup p).isSome

/-- Whether a place is the folder of the store or one above it. -/
def isAbove (p : Place) : Bool := p.all (· == "..")

/-- Whether a folder is at a place. -/
def isFolder (s : Store) (p : Place) : Bool :=
  isAbove p || s.folders.any (p.isPrefixOf ·) ||
    s.files.any fun (q, _) => p.isPrefixOf q && p.length < q.length

/-- The most octets that a name may have. -/
def nameLimit : Nat := 255

/-- The most octets that a path may have. -/
def pathLimit : Nat := 4095

/-- Goes from a place along steps, each of which has to start in a folder. -/
def walk (s : Store) : Place → List String → Except PathFault Place
  | here, [] => .ok here
  | here, step :: rest =>
    if s.isFolder here then
      if nameLimit < step.utf8ByteSize then .error .tooLong
      else if step = "." then s.walk here rest
      else if step = ".." && !isAbove here then s.walk here.dropLast rest
      else s.walk (here ++ [step]) rest
    else if s.isFile here then .error .notFolder
    else .error .missing

/-- The place that a path leads to, whether or not anything is there. -/
def place (s : Store) (path : String) : Except PathFault Place :=
  if path.toList.contains '\x00' then .error .nullCharacter
  else if pathLimit < path.utf8ByteSize then .error .tooLong
  else if path.isEmpty || Path.isAbsolute path then .error .missing
  else s.walk [] (Path.steps path)

/-- Whether a path leads to a folder. -/
def hasFolder (s : Store) (path : String) : Bool :=
  match s.place path with
  | .ok p => s.isFolder p
  | .error _ => false

/-- Whether a path leads to anything. -/
def has (s : Store) (path : String) : Bool :=
  match s.place path with
  | .ok p => s.isFile p || s.isFolder p
  | .error _ => false

/-- The text of the file that a path leads to. -/
def read (s : Store) (path : String) : Except Fault String :=
  match s.place path with
  | .error f => .error (f.fault path)
  | .ok p => match s.files.lookup p with
    | some content => content.read
    | none => .error ((if s.isFolder p then PathFault.isFolder else .missing).fault path)

/-- Puts a content at a place. -/
def put (s : Store) (p : Place) (content : Content) : Store :=
  if s.isFile p then
    { s with files := s.files.map fun (q, c) => if q = p then (q, content) else (q, c) }
  else { s with files := s.files ++ [(p, content)] }

/-- Checks that something new can be put at a place, which has to be in a folder. -/
def checkParent (s : Store) (p : Place) : Except PathFault Unit :=
  if s.isFolder p.dropLast then .ok ()
  else if s.isFile p.dropLast then .error .notFolder
  else .error .missing

/-- Writes a text to the file that a path leads to. -/
def write (s : Store) (path text : String) : Except Fault Store := (do
  let p ← s.place path
  if s.isFolder p then throw .isFolder
  s.checkParent p
  return s.put p (.text text) : Except PathFault Store).mapError (·.fault path)

/-- Makes one folder. -/
def makeFolder (s : Store) (path : String) : Except PathFault Store := do
  let p ← s.place path
  if s.isFile p || s.isFolder p then throw .taken
  s.checkParent p
  return { s with folders := s.folders ++ [p] }

/-- Makes a folder unless it is there, after the folders above it. Its steps are given from the last
to the first. A fault comes with the path that it is about. -/
def makeFolders (s : Store) : List String → Store × Option (String × PathFault)
  | [] => (s, none)
  | last :: above =>
    let path := Path.ofParts (last :: above).reverse
    let (s, failed) := if above.isEmpty || s.has (Path.ofParts above.reverse) then (s, none)
      else s.makeFolders above
    match failed.filter (·.2 ≠ .taken) with
    | some f => (s, some f)
    | none => match s.makeFolder path with
      | .ok s => (s, none)
      | .error f => (s, if s.hasFolder path then none else some (path, f))

/-- The files below a folder, by their places below it, in order. -/
def filesBelow (s : Store) (path : String) : List Place :=
  match s.place path with
  | .error _ => []
  | .ok folder =>
    ((s.files.filter fun (p, _) => folder.isPrefixOf p && folder.length < p.length).map
      fun (p, _) => p.drop folder.length).mergeSort Path.comesBefore

/-- The files of the store that are new or have another content than before. -/
def changes (before after : Store) : List (Place × Content) :=
  after.files.filter fun (p, c) =>
    p.head? != some ".." && (before.files.lookup p).map (·.bytes) != some c.bytes

end Store

/-- Writes a text to a file, after making the folders above it. -/
def writeText (path text : String) : FileAct Unit := do
  let folder := Path.folderOf path
  if Path.isAbsolute folder then throw (PathFault.missing.fault folder)
  let failed ← modifyGet fun s => (s.makeFolders (Path.steps folder).reverse).swap
  if let some (at', f) := failed then throw (f.fault at')
  match (← get).write path text with
  | .ok s => set s
  | .error f => throw f

end Undecorate
