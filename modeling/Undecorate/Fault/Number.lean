import Undecorate.Fault.Diagnostic

/-! # Numbers from texts

Reading a text as a number, and what is reported for a text that is none or has too many digits.
-/

namespace Undecorate

namespace Fault

/-- A text that is no floating number. -/
def noDouble (cs : List Char) : Fault :=
  .badValue (.ofString ("could not convert string to float: " ++ Text.quoted (.ofChars cs)))

/-- A text that is no whole number in a base; base zero is that of the text's own mark. -/
def noWhole (base : Nat) (cs : List Char) : Fault :=
  .badValue (.ofString ("invalid literal for int() with base " ++ toString base ++ ": " ++
    Text.quoted (.ofChars cs)))

end Fault

namespace Number

/-- Reads a floating number. -/
def readDouble (cs : List Char) : Except Fault Double :=
  match readDouble? cs with
  | some x => .ok x
  | none => .error (.noDouble cs)

/-- Reads a whole number behind the mark of a base. -/
def readMarked (cs : List Char) : Except Fault Int :=
  match readMarked? cs with
  | some n => .ok n
  | none => .error (.noWhole 0 cs)

/-- Reads a whole decimal number. -/
def readWhole (cs : List Char) : Except Fault Int :=
  match wholeDigits? cs with
  | none => .error (.noWhole 10 cs)
  | some (negative, digits) =>
    if digitLimit < digits.length then .error (.badValue (tooLongToRead digits.length))
    else .ok (if negative then -(decimalValue digits : Int) else decimalValue digits)

end Number

end Undecorate
