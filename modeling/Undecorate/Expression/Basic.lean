import Undecorate.Declaration.Key
import Undecorate.Expression.Brackets
import Undecorate.Fault.Number
import Undecorate.Object.Value

/-! # Expressions

The expressions that decorators and computed keys may be: constants, paths of names and calls of
them. Reading an expression never fails; what cannot be read becomes an expression that has no
value, so that a fault comes up only when its turn to be evaluated has come.
-/

namespace Undecorate

/-- An expression. A call keeps the text it was read from, which its diagnostics show. -/
inductive Expression where
  | constant (v : Value)
  | path (text : String)
  | call (text callee : String) (arguments : List Expression)
  | unreadable (f : Fault)

namespace Expression

/-! ## Parentheses -/

/-- What stands between an opening parenthesis at the start and a closing one at the end. -/
def enclosed? : List Char → Option (List Char)
  | '(' :: cs => if cs.getLast? = some ')' then some cs.dropLast else none
  | _ => none

theorem length_lt_of_enclosed? {cs inner : List Char} (h : enclosed? cs = some inner) :
    inner.length < cs.length := by
  unfold enclosed? at h
  split at h
  · split at h
    · obtain rfl := Option.some.inj h
      simp only [List.length_dropLast, List.length_cons]
      omega
    · contradiction
  · contradiction

theorem length_trim_le (cs : List Char) : (Text.trim cs).length ≤ cs.length := by
  simp only [Text.trim, Text.trimBoth, List.length_reverse]
  exact Nat.le_trans (List.dropWhile_sublist _).length_le
    (by simpa using (List.dropWhile_sublist _).length_le)

/-- A text without the parentheses around all of it and the blanks beside them. -/
def bare (cs : List Char) : List Char :=
  match _h : enclosed? cs with
  | some inner => if Brackets.balanced inner then bare (Text.trim inner) else cs
  | none => cs
termination_by cs.length
decreasing_by exact Nat.lt_of_le_of_lt (length_trim_le _) (length_lt_of_enclosed? _h)

/-! ## Constants -/

/-- The value of a keyword. -/
def keyword? (cs : List Char) : Option Value :=
  [("true", Value.bool true), ("false", .bool false), ("null", .absent), ("undefined", .absent)].lookup
    (String.ofList cs)

/-- Whether the text is an exponent or nothing. -/
def isExponent : List Char → Bool
  | [] => true
  | c :: cs =>
    let digits := match cs with
      | '+' :: ds => ds
      | '-' :: ds => ds
      | ds => ds
    (c == 'e' || c == 'E') && !digits.isEmpty && digits.all Text.isDigit

/-- Whether the text is a decimal number without sign. Underscores may stand in its whole part. -/
def isDecimal : List Char → Bool
  | '.' :: cs =>
    let fraction := cs.takeWhile Text.isDigit
    !fraction.isEmpty && isExponent (cs.drop fraction.length)
  | c :: cs =>
    let rest := cs.dropWhile fun c => Text.isDigit c || c == '_'
    let rest := match rest with
      | '.' :: rest => rest
      | rest => rest
    Text.isDigit c && isExponent (rest.dropWhile Text.isDigit)
  | [] => false

/-- Whether the character may stand in a number behind the mark of a base. -/
def isMarkedDigit (base : Nat) (c : Char) : Bool :=
  c == '_' || (if base = 16 then (Number.hexValue? c).isSome
    else '0' ≤ c && c.toNat < '0'.toNat + base)

/-- Whether the text is a whole number behind the mark of a base. -/
def isMarked (cs : List Char) : Bool :=
  match Number.markedBase? cs with
  | some (base, digits) => !digits.isEmpty && digits.all (isMarkedDigit base)
  | none => false

/-- A text without a leading minus sign. -/
def unsigned : List Char → List Char
  | '-' :: cs => cs
  | cs => cs

/-- Whether the text is a number. -/
def isNumber (cs : List Char) : Bool := isDecimal (unsigned cs) || isMarked (unsigned cs)

/-- The value of a number: behind the mark of a base it is whole, and so is a whole decimal one
without a point or an exponent. -/
def readNumber (cs : List Char) : Except Fault Value :=
  let digits := cs.filter (· != '_')
  if (Number.markedBase? (unsigned digits)).isSome then
    (Number.readMarked digits).map (.int · .shared)
  else (Number.readDouble digits).map fun x =>
    if x.isWhole && !digits.any (fun c => c == '.' || c == 'e' || c == 'E') then
      .int x.truncate .shared
    else .float x .shared

/-- The quote of a quoted text and what stands between its quotes. -/
def quotedBody? : List Char → Option (Char × List Char)
  | [] => none
  | c :: cs =>
    if Brackets.isQuote c && cs.getLast? == some c then some (c, cs.dropLast) else none

/-- The value of a quoted text. -/
def readQuoted (quote : Char) (body : List Char) : Except Fault Value :=
  let inner := Key.doubleQuotedBody quote body
  match Json.decodeBody inner with
  | .ok t => .ok (.text t .shared)
  | .error f => .error (.refused (.resolution (.ofChars (quote :: body ++ [quote]))
      (.ofString ("invalid string literal (" ++ f.message ('\x22' :: inner ++ ['\x22']) ++ ")"))))

/-- A constant, or the fault of one that has no value. -/
def ofReading : Except Fault Value → Expression
  | .ok v => .constant v
  | .error f => .unreadable f

/-! ## Paths and calls -/

/-- Whether the text is a name. -/
def isName : List Char → Bool
  | c :: cs => Text.isNameStart c && cs.all Text.isNamePart
  | [] => false

/-- Whether the text is names with dots between them; blanks may stand beside the dots. -/
def isPath (cs : List Char) : Bool := (Text.pieces '.' cs).all fun p => isName (Text.trim p)

/-- Whether the text can be what a call calls. -/
def isCallee : List Char → Bool
  | c :: cs =>
    Text.isNameStart c && cs.all fun c => Text.isNamePart c || c == '.' || Text.isBlank c
  | [] => false

/-- What a call calls and what stands between its parentheses. -/
def callParts? (cs : List Char) : Option (List Char × List Char) :=
  let callee := cs.takeWhile (· != '(')
  match enclosed? (cs.drop callee.length) with
  | some arguments =>
    if isCallee callee && Brackets.balanced arguments then some (Text.trimEnd callee, arguments)
    else none
  | none => none

/-- An expression of no form that can be read. -/
def unsupported (text : String) : Expression :=
  .unreadable (.refused (.resolution text "unsupported expression form"))

/-- Reads an expression in which at most `depth` calls stand one inside another. -/
def parseTo : Nat → String → Expression
  | 0, text => unsupported text
  | depth + 1, text =>
    let cs := bare (Text.trim text.toList)
    match keyword? cs with
    | some v => .constant v
    | none =>
      if isNumber cs then ofReading (readNumber cs)
      else match quotedBody? cs with
        | some (quote, body) => ofReading (readQuoted quote body)
        | none =>
          if isPath cs then .path (String.ofList cs)
          else match callParts? cs with
            | some (callee, arguments) =>
              .call text (String.ofList callee)
                ((Brackets.splitArguments arguments).map fun a => parseTo depth (String.ofList a))
            | none => unsupported text

/-- Reads an expression. A call is longer than what stands inside it, so the length of the text is
depth enough. -/
def parse (text : String) : Expression := parseTo (text.length + 1) text

/-! ## Nesting -/

mutual

/-- How many calls stand one inside another. -/
def nesting : Expression → Nat
  | .call _ _ arguments => nestingOfAll arguments + 1
  | _ => 0

/-- The deepest nesting of several expressions. -/
def nestingOfAll : List Expression → Nat
  | [] => 0
  | e :: es => max e.nesting (nestingOfAll es)

end

end Expression

end Undecorate
