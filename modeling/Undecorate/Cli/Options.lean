import Undecorate.Text.Quoted
import Undecorate.Text.Word

/-! # Options on a command line

How arguments are read before it is known what they ask for:

* an option is written in full, or shortened as long as only one option starts that way;
* an option with a letter is also written as a dash and its letter, and letters can follow each
  other directly, the second also behind an equals sign;
* the value of an option stands behind an equals sign, or is the next argument;
* two dashes on their own end the options;
* everything else is a positional argument, also a negative number and an unknown option with a
  space in it.

Arguments are sorted first, so that an ambiguous one is reported whatever stands before it. Then
they are read from left to right, and the first that stops the reading wins.
-/

namespace Undecorate.Cli

/-- What an option does. -/
inductive Effect where
  /-- It asks for help, which ends the reading. -/
  | help
  /-- It is either given or not. -/
  | flag
  /-- It takes a value, one of the choices if there are any. -/
  | value (choices : List String)
deriving DecidableEq, Repr

/-- An option: its name with two dashes, the letter that stands for it, and what it does. -/
structure Switch where
  name : String
  letter : Option Char := none
  effect : Effect := .flag
deriving DecidableEq, Repr

/-- How messages call an option. -/
def Switch.title (s : Switch) : String :=
  match s.letter with
  | some c => String.ofList ['-', c, '/'] ++ s.name
  | none => s.name

/-- Why arguments cannot be read. -/
inductive Misuse where
  | ambiguous (text : String) (candidates : List String)
  | noValue (option : String)
  | unwantedValue (option value : String)
  | notAChoice (argument value : String) (choices : List String)
  | missing (arguments : List String)
  | unrecognized (arguments : List String)
deriving DecidableEq, Repr

/-- The wording of a misuse. -/
def Misuse.message : Misuse → String
  | .ambiguous text candidates =>
    "ambiguous option: " ++ text ++ " could match " ++ ", ".intercalate candidates
  | .noValue option => "argument " ++ option ++ ": expected one argument"
  | .unwantedValue option value =>
    "argument " ++ option ++ ": ignored explicit argument " ++ Text.quoted value
  | .notAChoice argument value choices =>
    "argument " ++ argument ++ ": invalid choice: " ++ Text.quoted value ++ " (choose from " ++
      ", ".intercalate (choices.map fun (c : String) => Text.quoted c) ++ ")"
  | .missing arguments =>
    "the following arguments are required: " ++ ", ".intercalate arguments
  | .unrecognized arguments => "unrecognized arguments: " ++ " ".intercalate arguments

/-- What ends the reading of arguments early. -/
inductive Stop where
  | help
  | misuse (m : Misuse)
deriving DecidableEq, Repr

/-- The arguments of a command: its options, the positional argument it takes, and the options it
cannot do without. If the positional argument names another command, that takes everything after
it. -/
structure Grammar where
  /-- The command as it is called. -/
  program : String
  help : String
  switches : List Switch
  positional : String
  namesCommand : Bool := false
  required : List String := []
deriving DecidableEq, Repr

/-! ## Sorting arguments -/

/-- A text in the same argument as an option: directly behind its letter, or behind an equals
sign. -/
inductive Attached where
  | nothing
  | tail (text : List Char)
  | assigned (text : String)
deriving DecidableEq, Repr

/-- An argument by its form alone. -/
inductive Token where
  | plain (text : String)
  | marker
  | option (text : String) (s : Switch) (attached : Attached)
  | foreign (text : String)
deriving DecidableEq, Repr

/-- The argument as it was written. -/
def Token.text : Token → String
  | .plain text | .option text _ _ | .foreign text => text
  | .marker => "--"

/-- Whether the characters after a dash are those of a number. -/
def isNumberTail (cs : List Char) : Bool :=
  let cs := if cs.getLast? == some '\n' then cs.dropLast else cs
  match cs.dropWhile Text.isDigit with
  | [] => !cs.isEmpty
  | '.' :: fraction => !fraction.isEmpty && fraction.all Text.isDigit
  | _ => false

namespace Grammar

/-- The option with a letter. -/
def byLetter? (g : Grammar) (c : Char) : Option Switch := g.switches.find? (·.letter == some c)

/-- The option that is written exactly so. -/
def written? (g : Grammar) (text : String) : Option Switch :=
  g.switches.find? fun s => s.name == text || s.letter.any fun c => text.toList == ['-', c]

/-- The options that an argument can mean if it is none written in full. -/
def candidates (g : Grammar) (text : String) : List (Switch × Attached) :=
  match text.toList with
  | '-' :: '-' :: _ =>
    let start := text.toList.takeWhile (· != '=')
    let attached := match text.toList.drop start.length with
      | [] => .nothing
      | _ :: value => .assigned (String.ofList value)
    (g.switches.filter fun s => start.isPrefixOf s.name.toList).map (·, attached)
  | '-' :: c :: rest => (g.byLetter? c).toList.map (·, .tail rest)
  | _ => []

/-- What stands behind the equals sign after an option: behind a letter it is further letters. -/
def attachedTo (start : String) (value : List Char) : Attached :=
  if start.length = 2 && !value.isEmpty then .tail value else .assigned (String.ofList value)

/-- Sorts an argument that may be an option. -/
def classify (g : Grammar) (text : String) : Except Misuse Token :=
  match text.toList with
  | '-' :: c :: rest =>
    let start := String.ofList (text.toList.takeWhile (· != '='))
    match g.written? text, g.written? start, g.candidates text with
    | some s, _, _ => .ok (.option text s .nothing)
    | none, some s, _ => .ok (.option text s (attachedTo start (text.toList.drop (start.length + 1))))
    | none, none, [(s, attached)] => .ok (.option text s attached)
    | none, none, [] =>
      .ok (if isNumberTail (c :: rest) || text.toList.contains ' ' then .plain text
        else .foreign text)
    | none, none, several => .error (.ambiguous text (several.map (·.1.name)))
  | _ => .ok (.plain text)

/-- Sorts arguments; all that follow two dashes are plain. -/
def tokens (g : Grammar) : List String → Except Misuse (List Token)
  | [] => .ok []
  | text :: rest =>
    if text = "--" then .ok (.marker :: rest.map .plain)
    else do return (← g.classify text) :: (← g.tokens rest)

end Grammar

/-! ## Reading arguments -/

/-- An option that was given, with its value if it has one. -/
abbrev Use := Switch × Option String

/-- What was read so far. -/
structure Reading where
  /-- The options by their names, with their values; a flag has an empty one. -/
  given : List (String × String) := []
  positional : List String := []
  extras : List String := []
  /-- The option whose value is the next argument. -/
  awaiting : Option Switch := none
  /-- Whether the last argument was the positional one. -/
  isAfterPositional : Bool := false
deriving DecidableEq, Repr

/-- Reads the letters directly behind the letter of an option. -/
def Grammar.letters (g : Grammar) (s : Switch) : List Char → Except Misuse (List Use)
  | [] => .ok [(s, none)]
  | c :: rest =>
    match s.effect, g.byLetter? c with
    | .value _, _ => .ok [(s, some (String.ofList (c :: rest)))]
    | _, none => .error (.unwantedValue s.title (String.ofList (c :: rest)))
    | _, some next => do return (s, none) :: (← g.letters next rest)

/-- The options that one argument gives. -/
def Grammar.uses (g : Grammar) (s : Switch) : Attached → Except Misuse (List Use)
  | .nothing => .ok [(s, none)]
  | .tail text => g.letters s text
  | .assigned text => match s.effect with
    | .value _ => .ok [(s, some text)]
    | _ => .error (.unwantedValue s.title text)

namespace Reading

/-- Takes note of an option. -/
def take (r : Reading) : Use → Except Stop Reading
  | (s, value) => match s.effect, value with
    | .help, _ => .error .help
    | .flag, _ => .ok { r with given := r.given ++ [(s.name, "")] }
    | .value _, none => .ok { r with awaiting := some s }
    | .value choices, some text =>
      if choices.isEmpty || choices.contains text then
        .ok { r with given := r.given ++ [(s.name, text)], awaiting := none }
      else .error (.misuse (.notAChoice s.title text choices))

/-- Reads one argument. -/
def step (g : Grammar) (r : Reading) (t : Token) : Except Stop Reading :=
  if g.namesCommand && !r.positional.isEmpty then
    .ok { r with positional := r.positional ++ [t.text] }
  else match r.awaiting, t with
    | some s, .plain text => r.take (s, some text)
    | some s, _ => .error (.misuse (.noValue s.title))
    | none, .plain text =>
      if r.positional.isEmpty then .ok { r with positional := [text], isAfterPositional := true }
      else .ok { r with extras := r.extras ++ [text], isAfterPositional := false }
    | none, .marker =>
      if g.namesCommand then .ok { r with positional := [t.text] }
      -- the marker belongs to the positional argument next to it
      else if r.positional.isEmpty || r.isAfterPositional then .ok r
      else .ok { r with extras := r.extras ++ [t.text] }
    | none, .foreign text =>
      .ok { r with extras := r.extras ++ [text], isAfterPositional := false }
    | none, .option _ s attached => do
      let uses ← (g.uses s attached).mapError .misuse
      uses.foldlM take { r with isAfterPositional := false }

/-- Whether an option was given. -/
def has (r : Reading) (name : String) : Bool := r.given.any (·.1 == name)

/-- All values that an option was given. -/
def all (r : Reading) (name : String) : List String :=
  (r.given.filter (·.1 == name)).map (·.2)

/-- The last value that an option was given. -/
def last? (r : Reading) (name : String) : Option String := (r.all name).getLast?

/-- What a grammar asks for and was not given. -/
def missing (g : Grammar) (r : Reading) : List String :=
  (if g.namesCommand || !r.positional.isEmpty then [] else [g.positional]) ++
    g.required.filter (!r.has ·)

end Reading

/-- Reads arguments. What is left over stays in the extras, for the caller to refuse. -/
def Grammar.read (g : Grammar) (arguments : List String) : Except Stop Reading := do
  let tokens ← (g.tokens arguments).mapError .misuse
  let r ← tokens.foldlM (Reading.step g) {}
  if let some s := r.awaiting then throw (.misuse (.noValue s.title))
  let missing := r.missing g
  if !missing.isEmpty then throw (.misuse (.missing missing))
  return r

end Undecorate.Cli
