import Undecorate.Number.Double

/-! # The shortest decimal of a double

The text of a double has the fewest digits that read back as the same double, and of those the
digits closest to it, on a tie the even ones. The search tries one digit, two, and so on up to
seventeen, and at each length the two neighbours of the number on that decimal grid. -/

namespace Undecorate.Double

/-- The decimal digits of a whole number. -/
def decimalDigits (n : Nat) : List Char := Nat.toDigits 10 n

/-- The numbers that round to a double lie between two bounds; all three are whole multiples of
one unit, and the bounds belong to the interval when `closed`. -/
structure Interval where
  low : Nat
  middle : Nat
  high : Nat
  unit : Nat × Nat
  closed : Bool

/-- The interval of the double `significand * 2 ^ exponent`, in quarters of its last place. -/
def interval (significand : Nat) (exponent : Int) : Interval where
  low := if significand = leastNormal ∧ leastExponent < exponent then 4 * significand - 1
    else 4 * significand - 2
  middle := 4 * significand
  high := 4 * significand + 2
  unit := power 2 (exponent - 2)
  closed := significand % 2 = 0

/-- The number of digits before the decimal point; zero or less when zeros follow the point. -/
def pointOf (i : Interval) : Int :=
  (decimalDigits (i.middle * i.unit.1 * Nat.pow 10 400 / i.unit.2)).length - 400

/-- The decimal of `count` digits that lies in the interval closest to its middle, if one does:
its digits as a whole number. Of two that are equally close it is the even one. -/
def candidate? (i : Interval) (point : Int) (count : Nat) : Option Nat :=
  let grid := power 10 (point - count)
  -- all quantities over the common denominator of grid and unit
  let step := grid.1 * i.unit.2
  let scale := i.unit.1 * grid.2
  let middle := i.middle * scale
  let inside (c : Nat) : Bool :=
    if i.closed then i.low * scale ≤ c * step && c * step ≤ i.high * scale
    else i.low * scale < c * step && c * step < i.high * scale
  let below := middle / step
  let above := below + 1
  match inside below, inside above with
  | true, true =>
    let down := middle - below * step
    let up := above * step - middle
    if down < up || down == up && below % 2 == 0 then some below else some above
  | true, false => some below
  | false, true => some above
  | false, false => none

/-- The shortest digits of a positive double and the place of its decimal point. -/
def shortest (significand : Nat) (exponent : Int) : List Char × Int :=
  let i := interval significand exponent
  let point := pointOf i
  match (List.range 17).findSome? fun n => (candidate? i point (n + 1)).map (n + 1, ·) with
  | none => (['0'], 1)
  | some (count, c) =>
    let digits := decimalDigits c
    -- the neighbour above may carry into one more digit
    let point := if count < digits.length then point + 1 else point
    ((digits.reverse.dropWhile (· == '0')).reverse, point)

/-- Positional from `0.0001` up to sixteen digits before the point, with an exponent beyond; a
whole number keeps one zero after the point, and an exponent has a sign and at least two digits. -/
def layOut (digits : List Char) (point : Int) : List Char :=
  if -4 < point ∧ point ≤ 16 then
    if point ≤ 0 then "0.".toList ++ List.replicate (-point).toNat '0' ++ digits
    else
      let n := point.toNat
      if digits.length ≤ n then digits ++ List.replicate (n - digits.length) '0' ++ ".0".toList
      else digits.take n ++ '.' :: digits.drop n
  else
    let x := point - 1
    let size := decimalDigits x.natAbs
    digits.take 1 ++ (if digits.length ≤ 1 then [] else '.' :: digits.drop 1) ++
      ['e', if x < 0 then '-' else '+'] ++ (if size.length < 2 then '0' :: size else size)

/-- The text of a double. -/
def text : Double → String
  | .nan => "nan"
  | .infinite negative => if negative then "-inf" else "inf"
  | .finite negative m e =>
    let sign := if negative then ['-'] else []
    if m = 0 then String.ofList (sign ++ "0.0".toList)
    else
      let (digits, point) := shortest m e
      String.ofList (sign ++ layOut digits point)

end Undecorate.Double
