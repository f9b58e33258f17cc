/-! # Long whole numbers

A whole number is written and read in decimal digits only up to a limit; one with more digits is
refused. Numbers in a base that is a power of two have no such limit.
-/

namespace Undecorate.Number

/-- The most decimal digits that a whole number is written or read with. -/
def digitLimit : Nat := 4300

/-- The least number with too many digits. -/
def digitBound : Nat := Nat.pow 10 digitLimit

/-- Whether a whole number can be written. -/
def isWritable (n : Int) : Bool := n.natAbs < digitBound

/-- A whole number in decimal digits, unless it has too many. -/
def text? (n : Int) : Option String := if isWritable n then some (toString n) else none

/-- How messages begin that refuse a number for its digits. -/
def limitText : String :=
  "Exceeds the limit (" ++ toString digitLimit ++ " digits) for integer string conversion"

/-- How they end. -/
def limitAdvice : String := "; use sys.set_int_max_str_digits() to increase the limit"

/-- The message about a number that cannot be written. -/
def tooLongToWrite : String := limitText ++ limitAdvice

/-- The message about so many digits that they cannot be read. -/
def tooLongToRead (digits : Nat) : String :=
  limitText ++ ": value has " ++ toString digits ++ " digits" ++ limitAdvice

end Undecorate.Number
