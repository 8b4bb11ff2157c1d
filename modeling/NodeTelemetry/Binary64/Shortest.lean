/-
This file writes a number with the fewest decimal digits that read back as the same number, and of
these digits the ones nearest to it. Numerals are written out in full, without an exponent.
-/

import NodeTelemetry.Binary64.Basic

namespace NodeTelemetry.Binary64

/-! ### The fewest digits -/

/-- The magnitudes that round to a number: those between `value - down` and `value + up`, in units
of `2 ^ -1076`, and the two ends as well if `closed`. -/
structure RoundingRange where
  value : Nat
  down : Nat
  up : Nat
  closed : Bool

/-- The magnitudes that round to a positive finite number. The gap below a power of two is half
the gap above it. Ends round to even significands only. -/
def roundingRange (number : Binary64) : RoundingRange :=
  let bits := number.magnitudeBits
  let halfGap := 2 * twoTo (bits / twoTo 52 - 1)
  { value := 4 * number.units
    down := if twoTo 52 ≤ bits && bits % twoTo 52 == 0 then halfGap / 2 else halfGap
    up := halfGap
    closed := bits % 2 == 0 }

/-- Whether a range holds the quotient of two whole numbers. -/
def RoundingRange.holds (range : RoundingRange) (numerator denominator : Nat) : Bool :=
  let low := (range.value - range.down) * denominator
  let high := (range.value + range.up) * denominator
  if range.closed then low ≤ numerator && numerator ≤ high
  else low < numerator && numerator < high

/-- The first grid with a point in the range, and the point. The grids hold the multiples of
`10 ^ 309`, of `10 ^ 308` and so on; grid `finer` holds those of `10 ^ (309 - finer)`. Of two points
in the range the nearer one is taken and of two equally near ones the greater. The last grid holds
the value itself. -/
def searchGrids (range : RoundingRange) (finer : Nat) : Nat × Nat :=
  let gap := twoTo 1076 * tenTo 309
  let scaled := range.value * tenTo finer
  let below := scaled / gap
  if 1383 ≤ finer then (below, finer)
  else
    let belowHit := range.holds (below * gap) (tenTo finer)
    let aboveHit := range.holds ((below + 1) * gap) (tenTo finer)
    match belowHit, aboveHit with
    | true, false => (below, finer)
    | false, true => (below + 1, finer)
    | true, true => (if 2 * (scaled % gap) < gap then below else below + 1, finer)
    | false, false => searchGrids range (finer + 1)
termination_by 1383 - finer

/-! ### Numerals -/

/-- The digits of a whole number followed by `places` digits behind a point. -/
def pointed (number places : Nat) : List Char :=
  let digits := (Nat.toDigits 10 number).leftpad (places + 1) '0'
  digits.take (digits.length - places) ++ '.' :: digits.drop (digits.length - places)

/-- The numeral of a positive finite number. -/
def positiveNumeral (number : Binary64) : List Char :=
  let (point, finer) := searchGrids number.roundingRange 0
  if finer ≤ 309 then Nat.toDigits 10 point ++ List.replicate (309 - finer) '0'
  else pointed point (finer - 309)

/-- The text of a number. -/
def text (number : Binary64) : String :=
  if number.isNaN then "NaN"
  else
    let magnitude :=
      if number.isInfinite then ['i', 'n', 'f']
      else if number.magnitudeBits = 0 then ['0']
      else number.positiveNumeral
    String.ofList (if number.isNegative then '-' :: magnitude else magnitude)

end NodeTelemetry.Binary64
