/-
This file shows that a whole number of at most 64 bits becomes the binary64 number that is nearest
to it among all of them, those that are not whole included, and of two equally near ones the one
whose last bit is not set. All finite numbers are multiples of the smallest one with significands of
at most 53 bits, and counted in this unit a whole number is rounded as it is when it is counted in
ones.

So there is nothing new to be rounded: the unit is a power of two, by which both the number and all
its candidates are multiplied, and distances are multiplied by it as well. What remains is the tie.
Of the two neighbours the one is taken that can be written with one bit less, and the last bit of
the word is the last bit of the significand, since the exponent stands in front of it.
-/

import NodeTelemetry.Proofs.Binary64.Nearest

namespace NodeTelemetry.Binary64

/-! ### Numbers in the smallest unit -/

theorem twoTo_le_twoTo {less more : Nat} (le : less ≤ more) : twoTo less ≤ twoTo more :=
  Nat.pow_le_pow_right Nat.two_pos le

def isFinite (number : Binary64) : Bool :=
  number.magnitudeBits < infinityBits

/-- Whether a number is the finite one nearest to a whole number, and of two equally near ones the
one that is even in its last bit. Only magnitudes are compared, since of two numbers that differ in
their sign the negative one is not nearer. -/
structure IsNearestTo (number : Nat) (value : Binary64) : Prop where
  finite : value.isFinite = true
  notNegative : value.isNegative = false
  near : ∀ other : Binary64, other.isFinite = true →
    Nat.dist (number * twoTo 1074) value.units ≤ Nat.dist (number * twoTo 1074) other.units
  even : ∀ other : Binary64, other.isFinite = true → other.units ≠ value.units →
    Nat.dist (number * twoTo 1074) other.units = Nat.dist (number * twoTo 1074) value.units →
      value.magnitudeBits % 2 = 0

/-- The significand of a number that is not too small for all its bits. -/
def significand (number : Binary64) : Nat :=
  twoTo 52 + number.magnitudeBits % twoTo 52

theorem significand_lt (number : Binary64) : number.significand < twoTo 53 := by
  have rest := Nat.mod_lt number.magnitudeBits (twoTo_pos 52)
  unfold significand
  rw [twoTo_53]
  rw [twoTo_52] at *
  omega

theorem units_of_normal {number : Binary64} (normal : twoTo 52 ≤ number.magnitudeBits) :
    number.units = number.significand * twoTo (number.magnitudeBits / twoTo 52 - 1) :=
  if_neg (Nat.not_lt.mpr normal)

theorem units_of_small {number : Binary64} (small : number.magnitudeBits < twoTo 52) :
    number.units = number.magnitudeBits :=
  if_pos small

/-- Every finite number has a significand of at most 53 bits in the smallest unit. -/
theorem fits_units (number : Binary64) : Fits 53 number.units := by
  rcases Nat.lt_or_ge number.magnitudeBits (twoTo 52) with small | normal
  · rw [units_of_small small]
    exact ⟨_, 0, Nat.lt_trans small (by decide), (Nat.mul_one _).symm⟩
  · rw [units_of_normal normal]
    exact ⟨_, _, number.significand_lt, rfl⟩

/-- A significand of 53 bits that can be written with 52 is even. -/
theorem even_of_fits {significand exponent : Nat} (long : twoTo 52 ≤ significand)
    (fits : Fits 52 (significand * twoTo exponent)) : significand % 2 = 0 := by
  obtain ⟨shorter, exponentToo, short, same⟩ := fits
  rcases Nat.lt_or_ge exponent exponentToo with further | notFurther
  · have parts : twoTo exponentToo = 2 * twoTo (exponentToo - exponent - 1) * twoTo exponent := by
      rw [show 2 = twoTo 1 from rfl, ← twoTo_add, ← twoTo_add]
      exact congrArg twoTo (by omega)
    rw [parts, ← Nat.mul_assoc] at same
    have equal := Nat.eq_of_mul_eq_mul_right (twoTo_pos exponent) same
    rw [equal, Nat.mul_left_comm]
    exact Nat.mul_mod_right 2 _
  · have parts : twoTo exponent = twoTo (exponent - exponentToo) * twoTo exponentToo := by
      rw [← twoTo_add, Nat.sub_add_cancel notFurther]
    rw [parts, ← Nat.mul_assoc] at same
    have equal := Nat.eq_of_mul_eq_mul_right (twoTo_pos exponentToo) same
    have grown := Nat.le_mul_of_pos_right significand (twoTo_pos (exponent - exponentToo))
    omega

/-- A number of which less than its significand suffices has a last bit that is not set. -/
theorem even_bits_of_fits {number : Binary64} (normal : twoTo 52 ≤ number.magnitudeBits)
    (fits : Fits 52 number.units) : number.magnitudeBits % 2 = 0 := by
  rw [units_of_normal normal] at fits
  have even := even_of_fits (Nat.le_add_right _ _) fits
  rw [twoTo_52] at even
  omega

/-! ### Whole numbers in the smallest unit -/

/-- Rounding does not depend on the unit. -/
theorem nearestWhole_mul_twoTo (number exponent : Nat) :
    nearestWhole (number * twoTo exponent) = nearestWhole number * twoTo exponent := by
  rcases Nat.lt_or_ge 52 number.log2 with long | short
  · have positive := pos_of_log2_pos (Nat.zero_lt_of_lt long)
    have unit : twoTo (number.log2 + exponent - 52) =
        twoTo (number.log2 - 52) * twoTo exponent := by
      rw [← twoTo_add]
      exact congrArg twoTo (by omega)
    rw [nearestWhole, nearestWhole, log2_mul_twoTo positive, unit,
      roundHalfEven_mul_right _ _ (twoTo_pos exponent), Nat.mul_assoc]
  · have small : number < twoTo 53 := Nat.lt_of_lt_of_le (lt_twoTo_log2_add_one number)
      (twoTo_le_twoTo (Nat.succ_le_succ short))
    rw [nearestWhole_of_short short]
    exact nearestWhole_eq_self.mpr ⟨number, exponent, small, rfl⟩

/-- In the smallest unit too a whole number becomes the nearest one. -/
theorem isNearest_units {number : Nat} (small : number < twoTo 64) :
    IsNearest (number * twoTo 1074) (ofNat number).units := by
  rw [(ofNat_of_lt small).2.2, ← nearestWhole_mul_twoTo]
  exact isNearest_nearestWhole _

/-- A whole number of at most 64 bits becomes the nearest number. -/
theorem isNearestTo_ofNat {number : Nat} (small : number < twoTo 64) :
    IsNearestTo number (ofNat number) := by
  obtain ⟨finite, sign, units_eq⟩ := ofNat_of_lt small
  have nearest := isNearest_units small
  refine ⟨decide_eq_true finite, sign, fun other _ => nearest.near _ other.fits_units, ?_⟩
  intro other _ different tie
  have fits := nearest.even _ other.fits_units different tie
  rcases Nat.lt_or_ge (ofNat number).magnitudeBits (twoTo 52) with tiny | normal
  · -- A whole number is that small only if it is zero.
    rw [units_of_small tiny] at units_eq
    have none : nearestWhole number = 0 := by
      by_contra some
      have least := Nat.le_mul_of_pos_left (twoTo 1074) (Nat.pos_of_ne_zero some)
      have above : twoTo 52 ≤ twoTo 1074 := twoTo_le_twoTo (by decide)
      rw [units_eq] at tiny
      exact Nat.not_lt.mpr (Nat.le_trans above least) tiny
    rw [units_eq, none, Nat.zero_mul]
  · exact even_bits_of_fits normal fits

end NodeTelemetry.Binary64
