/-! # Double precision numbers

A double is a sign, a whole significand below `2 ^ 53` and a power of two, kept in exact integer
arithmetic: reading a decimal rounds once, to the nearest double, and a tie goes to the even
significand.
-/

namespace Undecorate

/-- A number of double precision; a finite one is `significand * 2 ^ exponent`. -/
inductive Double where
  | nan
  | infinite (negative : Bool)
  | finite (negative : Bool) (significand : Nat) (exponent : Int)
deriving DecidableEq, Repr, Inhabited

namespace Double

/-- The least exponent, that of the numbers closest to zero. -/
def leastExponent : Int := -1074

/-- The greatest exponent of a finite double. -/
def greatestExponent : Int := 971

/-- The least significand of a number that is not among those closest to zero, `2 ^ 52`. -/
def leastNormal : Nat := 0x10000000000000

/-- The quotient rounded to the nearest whole number, a tie to the even one. -/
def roundDiv (num den : Nat) : Nat :=
  let q := num / den
  let r := num % den
  if 2 * r < den then q
  else if den < 2 * r then q + 1
  else if q % 2 = 0 then q else q + 1

/-- `base ^ x` as a quotient of two whole numbers. -/
def power (base : Nat) (x : Int) : Nat × Nat :=
  if 0 ≤ x then (Nat.pow base x.toNat, 1) else (1, Nat.pow base (-x).toNat)

/-- The double closest to `num / den`. -/
def ofRatio (negative : Bool) (num den : Nat) : Double :=
  if num = 0 then .finite negative 0 leastExponent
  else
    -- the value lies between `2 ^ (k - 1)` and `2 ^ (k + 1)`
    let k : Int := (num.log2 : Int) - den.log2
    let two := power 2 k
    let exact := if den * two.1 ≤ num * two.2 then k - 52 else k - 53
    let exponent := max exact leastExponent
    let unit := power 2 exponent
    let m := roundDiv (num * unit.2) (den * unit.1)
    let (m, exponent) := if m = 2 * leastNormal then (leastNormal, exponent + 1) else (m, exponent)
    if greatestExponent < exponent then .infinite negative else .finite negative m exponent

/-- The double closest to `digits * 10 ^ exponent`. Values beyond every double are settled by
their number of digits alone. -/
def ofDecimal (negative : Bool) (digits : Nat) (exponent : Int) : Double :=
  if digits = 0 then .finite negative 0 leastExponent
  else
    let size : Int := (Nat.toDigits 10 digits).length + exponent
    if 400 < size then .infinite negative
    else if size < -400 then .finite negative 0 leastExponent
    else
      let ten := power 10 exponent
      ofRatio negative (digits * ten.1) ten.2

/-- Whether the number is whole. -/
def isWhole : Double → Bool
  | .finite _ m e => 0 ≤ e || m % Nat.pow 2 (-e).toNat == 0
  | _ => false

/-- The whole part of a finite number, toward zero; zero for the others. -/
def truncate : Double → Int
  | .finite negative m e =>
    let unit := power 2 e
    let n : Int := (m * unit.1 / unit.2 : Nat)
    if negative then -n else n
  | _ => 0

/-- Whether the number is zero, of either sign. -/
def isZero : Double → Bool
  | .finite _ m _ => m == 0
  | _ => false

end Double

end Undecorate
