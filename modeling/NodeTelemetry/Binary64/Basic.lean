/-
This file holds IEEE 754 binary64 numbers as bit patterns and computes with them in whole numbers.
The key to all of it is that every finite magnitude is a whole multiple of the smallest one,
`2 ^ -1074`: `units` counts how often it fits, and `ofRatio` rounds a quotient of whole numbers to
the nearest magnitude, a tie to the one with an even last bit.
-/

import NodeTelemetry.Powers

namespace NodeTelemetry

/-- A binary64 number, as its bit pattern. -/
structure Binary64 where
  bits : UInt64
deriving DecidableEq

namespace Binary64

/-! ### The fields of a bit pattern -/

/-- The bits of infinity: a full exponent and an empty fraction. -/
def infinityBits : Nat :=
  2047 * twoTo 52

def isNegative (number : Binary64) : Bool :=
  twoTo 63 ≤ number.bits.toNat

/-- The bits without the sign. Larger magnitudes have larger bits. -/
def magnitudeBits (number : Binary64) : Nat :=
  number.bits.toNat % twoTo 63

def isNaN (number : Binary64) : Bool :=
  infinityBits < number.magnitudeBits

def isInfinite (number : Binary64) : Bool :=
  number.magnitudeBits == infinityBits

/-- How often `2 ^ -1074` fits into the magnitude with these bits. -/
def unitsOfBits (bits : Nat) : Nat :=
  if bits < twoTo 52 then bits
  else (twoTo 52 + bits % twoTo 52) * twoTo (bits / twoTo 52 - 1)

/-- The magnitude of a finite number as a multiple of `2 ^ -1074`. -/
def units (number : Binary64) : Nat :=
  unitsOfBits number.magnitudeBits

/-- The number with these magnitude bits and this sign. -/
def ofMagnitude (negative : Bool) (bits : Nat) : Binary64 :=
  ⟨UInt64.ofNat (bits + if negative then twoTo 63 else 0)⟩

/-- The number with the other sign. -/
def negate (number : Binary64) : Binary64 :=
  ofMagnitude (!number.isNegative) number.magnitudeBits

/-! ### Rounding -/

/-- A quotient rounded to the nearest whole number, a tie to the even one. -/
def roundHalfEven (numerator denominator : Nat) : Nat :=
  let quotient := numerator / denominator
  let twiceRest := 2 * (numerator % denominator)
  if twiceRest < denominator then quotient
  else if denominator < twiceRest then quotient + 1
  else quotient + quotient % 2

/-- The magnitude bits nearest to a quotient. With `2 ^ step` units between neighbours the quotient
has 53 bits or, at the finest step, fewer. A significand that rounds up to 54 bits carries into the
exponent, and a quotient beyond the largest finite number ends at infinity. -/
def magnitudeBitsOfRatio (numerator denominator : Nat) : Nat :=
  let scaled := numerator * twoTo 1074
  let step := Nat.log2 (scaled / denominator) - 52
  min (step * twoTo 52 + roundHalfEven scaled (denominator * twoTo step)) infinityBits

/-- The number nearest to a quotient of whole numbers. -/
def ofRatio (numerator denominator : Nat) : Binary64 :=
  ofMagnitude false (magnitudeBitsOfRatio numerator denominator)

/-- The number nearest to a whole number. -/
def ofNat (number : Nat) : Binary64 :=
  ofRatio number 1

/-- The number nearest to a whole number with a sign. -/
def ofInt (number : Int) : Binary64 :=
  ofMagnitude (number < 0) (magnitudeBitsOfRatio number.natAbs 1)

def zero : Binary64 := ⟨0⟩

def one : Binary64 := ofNat 1

/-! ### Whole numbers -/

/-- The whole part of a finite number. -/
def truncate (number : Binary64) : Int :=
  let magnitude : Nat := number.units / twoTo 1074
  if number.isNegative then -Int.ofNat magnitude else Int.ofNat magnitude

/-- The whole part, brought into a range: beyond it the nearer end, and zero when there is no
number. -/
def clampTo (least greatest : Int) (number : Binary64) : Int :=
  if number.isNaN then 0
  else if number.isInfinite then if number.isNegative then least else greatest
  else max least (min greatest number.truncate)

/-- The whole part as an unsigned word. -/
def toUInt64 (number : Binary64) : UInt64 :=
  UInt64.ofNat (clampTo 0 (twoTo 64 - 1 : Nat) number).toNat

/-- The whole part as a signed word. -/
def toInt64 (number : Binary64) : Int64 :=
  Int64.ofInt (clampTo (-(twoTo 63 : Nat)) (twoTo 63 - 1 : Nat) number)

end Binary64

end NodeTelemetry
