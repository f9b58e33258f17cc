import Undecorate.Text.Quoted

/-! # Reading UTF-8

A decoder of octets that says, where a text is not UTF-8, which octets are at fault and why. The
octets at fault are the longest beginning of a character that the octets spell before the one that
rules it out.
-/

namespace Undecorate.Text.Utf8

/-- Why octets are not UTF-8. -/
inductive Cause where
  | start
  | continuation
  | ended
deriving DecidableEq, Repr

/-- A place where octets are not UTF-8: the first octet at fault and the octets from `position` to
the one before `stop`. -/
structure Fault where
  octet : Nat
  position : Nat
  stop : Nat
  cause : Cause
deriving DecidableEq, Repr

/-- The wording of a cause. -/
def Cause.text : Cause → String
  | .start => "invalid start byte"
  | .continuation => "invalid continuation byte"
  | .ended => "unexpected end of data"

/-- The wording of a fault: one octet by its value, several by their positions. -/
def Fault.message (f : Fault) : String :=
  let place :=
    if f.stop = f.position + 1 then
      "byte 0x" ++ String.ofList (hexDigits 2 f.octet) ++ " in position " ++ toString f.position
    else "bytes in position " ++ toString f.position ++ "-" ++ toString (f.stop - 1)
  "'utf-8' codec can't decode " ++ place ++ ": " ++ f.cause.text

/-- What the first octet of a character asks for: the range of the second octet, how many octets
follow the first, and the bits that the first contributes. -/
structure Lead where
  low : Nat
  high : Nat
  tails : Nat
  bits : Nat

/-- The lead of a character of more than one octet. -/
def lead? (b : Nat) : Option Lead :=
  if 0xC2 ≤ b ∧ b ≤ 0xDF then some ⟨0x80, 0xBF, 1, b - 0xC0⟩
  else if b = 0xE0 then some ⟨0xA0, 0xBF, 2, 0⟩
  else if b = 0xED then some ⟨0x80, 0x9F, 2, 0xD⟩
  else if 0xE1 ≤ b ∧ b ≤ 0xEF then some ⟨0x80, 0xBF, 2, b - 0xE0⟩
  else if b = 0xF0 then some ⟨0x90, 0xBF, 3, 0⟩
  else if 0xF1 ≤ b ∧ b ≤ 0xF3 then some ⟨0x80, 0xBF, 3, b - 0xF0⟩
  else if b = 0xF4 then some ⟨0x80, 0x8F, 3, 4⟩
  else none

/-- Where the decoder stands: between characters, or inside one that began at `start` with the
octet `first`, with `owed` octets to come, the next of them between `low` and `high`. -/
inductive State where
  | between
  | inside (start first bits owed low high : Nat)

/-- Decodes octets from position `here` on. -/
def decodeFrom : State → Nat → List Nat → Except Fault (List Char)
  | .between, _, [] => .ok []
  | .inside start first _ _ _ _, here, [] => .error ⟨first, start, here, .ended⟩
  | .between, here, b :: bs =>
    if b < 0x80 then (decodeFrom .between (here + 1) bs).map (Char.ofNat b :: ·)
    else match lead? b with
      | none => .error ⟨b, here, here + 1, .start⟩
      | some l => decodeFrom (.inside here b l.bits l.tails l.low l.high) (here + 1) bs
  | .inside start first bits owed low high, here, b :: bs =>
    if low ≤ b ∧ b ≤ high then
      let bits := bits * 64 + (b - 0x80)
      if owed ≤ 1 then (decodeFrom .between (here + 1) bs).map (Char.ofNat bits :: ·)
      else decodeFrom (.inside start first bits (owed - 1) 0x80 0xBF) (here + 1) bs
    else .error ⟨first, start, here, .continuation⟩

/-- Decodes octets, or finds the first fault. -/
def decode (octets : List Nat) : Except Fault String :=
  (decodeFrom .between 0 octets).map String.ofList

end Undecorate.Text.Utf8
