/-! # Sets of characters

A set of characters is kept as its inversion list: the code points at which membership flips, in
increasing order, starting outside the set.
-/

namespace Undecorate.Text

/-- A set of code points, as the increasing list of points where membership flips. -/
structure CharSet where
  flips : List Nat

/-- A character is in the set when an odd number of flips lies at or below it. -/
def CharSet.contains (s : CharSet) (c : Char) : Bool :=
  (s.flips.takeWhile (· ≤ c.toNat)).length % 2 == 1

end Undecorate.Text
