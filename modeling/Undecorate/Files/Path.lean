import Undecorate.Text.Lines

/-! # Paths

A path is written with slashes between its parts. Empty parts and single dots mean nothing; two
dots lead up and stay as they are written, since what they mean depends on the files.
-/

namespace Undecorate.Path

/-- Whether a path starts at the root of all files. -/
def isAbsolute (path : String) : Bool := path.toList.head? == some '/'

/-- The parts of a path that mean something. -/
def parts (path : String) : List String :=
  (Text.cutAt '/' path).filter fun p => p != "" && p != "."

/-- The steps that a path leads along: its parts with the single dots, which lead nowhere but ask
for a folder. A slash at the end asks for one too. -/
def steps (path : String) : List String :=
  (Text.cutAt '/' path).filter (· != "") ++
    (if path.toList.getLast? == some '/' then ["."] else [])

/-- Parts as a path. -/
def ofParts (parts : List String) : String := "/".intercalate parts

/-- A path in its shortest spelling; one without parts is a single dot. -/
def tidy (path : String) : String :=
  let text := ofParts (parts path)
  if isAbsolute path then "/" ++ text else if text.isEmpty then "." else text

/-- The path of what lies below a folder; an empty path is the folder where one is. -/
def below (folder : String) (relative : List String) : String :=
  tidy (if folder.isEmpty then ofParts relative else folder ++ "/" ++ ofParts relative)

/-- Everything before the last slash of a path. -/
def folderOf (path : String) : String :=
  let cs := path.toList.reverse.dropWhile (· != '/')
  -- a run of slashes goes with the last part, unless nothing else is left
  let trimmed := cs.dropWhile (· == '/')
  String.ofList (if trimmed.isEmpty then cs else trimmed).reverse

/-- The last dot of a name and what follows it. Neither a first nor a last character of a name
opens a suffix. -/
def suffix (name : String) : String :=
  let cs := name.toList
  let tail := cs.reverse.takeWhile (· != '.')
  if tail.isEmpty || cs.length ≤ tail.length + 1 then "" else String.ofList ('.' :: tail.reverse)

/-- Whether parts come before others: by the first part in which they differ, and a shorter list
before its continuations. -/
def comesBefore : List String → List String → Bool
  | [], _ => true
  | _ :: _, [] => false
  | a :: as, b :: bs => if a = b then comesBefore as bs else decide (a < b)

end Undecorate.Path
