/-
This file scales a number by a power of ten, as the reader of decimal numerals does it: with one
multiplication or one division by the number nearest to that power, each rounded. The result is
not always the number nearest to the numeral.
-/

import NodeTelemetry.Binary64.Basic

namespace NodeTelemetry.Binary64

/-- The number nearest to a power of ten. -/
def powerOfTen (power : Nat) : Binary64 :=
  ofNat (tenTo power)

/-- A product of two finite magnitudes, rounded. -/
def times (left right : Binary64) : Binary64 :=
  ofRatio (left.units * right.units) (twoTo 2148)

/-- A quotient of two finite magnitudes, rounded. -/
def quotient (left right : Binary64) : Binary64 :=
  ofRatio left.units right.units

/-- A finite magnitude times a power of ten, `none` when that is out of range. Powers below the
finite ones are reached in steps of `10 ^ 308`. -/
def scaleByTen (number : Binary64) (power : Int) : Option Binary64 :=
  if 308 < power.natAbs then
    if number.units = 0 then some number
    else if 0 < power then none
    else scaleByTen (number.quotient (powerOfTen 308)) (power + 308)
  else if 0 ≤ power then
    let product := number.times (powerOfTen power.natAbs)
    if product.isInfinite then none else some product
  else some (number.quotient (powerOfTen power.natAbs))
termination_by power.natAbs
decreasing_by omega

end NodeTelemetry.Binary64
