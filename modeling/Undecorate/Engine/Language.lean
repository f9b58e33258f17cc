import Undecorate.Text.Lines

/-! # Languages

The languages that can be lowered, and how a file's name tells its language.
-/

namespace Undecorate

/-- A language that can be lowered. -/
inductive Language where
  | javascript
  | typescript
  | tsx
deriving DecidableEq, Repr, Inhabited

namespace Language

/-- The name of a language. -/
def name : Language → String
  | .javascript => "javascript"
  | .typescript => "typescript"
  | .tsx => "tsx"

/-- All languages. -/
def all : List Language := [.javascript, .typescript, .tsx]

/-- The language with a name. -/
def ofName? (s : String) : Option Language := all.find? (·.name == s)

/-- The extensions of files and their languages. -/
def extensions : List (String × Language) :=
  [(".js", .javascript), (".mjs", .javascript), (".cjs", .javascript), (".jsx", .javascript),
    (".ts", .typescript), (".mts", .typescript), (".cts", .typescript), (".tsx", .tsx)]

end Language

/-- The last part of a path. -/
def baseName (path : List Char) : List Char := (path.reverse.takeWhile (· != '/')).reverse

/-- The extension of a path: the last dot of its last part and what follows it. Dots at the start
of that part open no extension. -/
def extension (path : String) : String :=
  let name := (baseName path.toList).dropWhile (· == '.')
  let tail := name.reverse.takeWhile (· != '.')
  String.ofList (if tail.length < name.length then '.' :: tail.reverse else [])

/-- The language of a file, by its extension in any letter case. -/
def Language.ofPath? (path : String) : Option Language :=
  extensions.lookup (String.ofList ((extension path).toList.map Char.toLower))

end Undecorate
