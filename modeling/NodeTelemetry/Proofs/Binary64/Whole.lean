/-
This file shows that whole numbers of at most 53 bits survive the way into a binary64 number and
back. Their significand needs no rounding, so the magnitude is the number itself, and counts that
are published as binary64 numbers are exact.

A number of at most 53 bits is filled up with zeros to a significand of exactly 53 bits. The
quotient that would be rounded is then exact, so no matter how rounding is done the significand
stays as it is, and the exponent says by how many bits it was moved. Read back, the number of
smallest units is the number itself times the number of units in a one.
-/

import NodeTelemetry.Binary64.Basic

namespace NodeTelemetry

/-! ### Powers of two -/

theorem twoTo_pos (exponent : Nat) : 0 < twoTo exponent :=
  Nat.two_pow_pos exponent

theorem twoTo_add (first second : Nat) : twoTo (first + second) = twoTo first * twoTo second :=
  Nat.pow_add 2 first second

/-- The binary logarithm is the exponent of the greatest power of two not above a number. -/
theorem twoTo_log2_le {number : Nat} (positive : 0 < number) : twoTo number.log2 ≤ number :=
  Nat.log2_self_le (Nat.pos_iff_ne_zero.mp positive)

theorem lt_twoTo_log2_add_one (number : Nat) : number < twoTo (number.log2 + 1) :=
  Nat.lt_log2_self

theorem log2_mul_twoTo {number : Nat} (positive : 0 < number) (exponent : Nat) :
    (number * twoTo exponent).log2 = number.log2 + exponent := by
  have nonzero : number * twoTo exponent ≠ 0 :=
    Nat.pos_iff_ne_zero.mp (Nat.mul_pos positive (twoTo_pos exponent))
  refine (Nat.log2_eq_iff nonzero).mpr ⟨?_, ?_⟩
  · show twoTo (number.log2 + exponent) ≤ _
    rw [twoTo_add]
    exact Nat.mul_le_mul_right _ (twoTo_log2_le positive)
  · show _ < twoTo (number.log2 + exponent + 1)
    rw [Nat.add_right_comm, twoTo_add]
    exact Nat.mul_lt_mul_of_pos_right (lt_twoTo_log2_add_one number) (twoTo_pos exponent)

namespace Binary64

theorem twoTo_52 : twoTo 52 = 4503599627370496 :=
  rfl

theorem twoTo_53 : twoTo 53 = 9007199254740992 :=
  rfl

theorem infinityBits_eq : infinityBits = 9218868437227405312 :=
  rfl

/-! ### Exact quotients -/

/-- An exact quotient is not changed by rounding. -/
theorem roundHalfEven_mul (quotient : Nat) {denominator : Nat} (positive : 0 < denominator) :
    roundHalfEven (quotient * denominator) denominator = quotient := by
  have whole : quotient * denominator / denominator = quotient :=
    Nat.mul_div_cancel quotient positive
  have rest : 2 * (quotient * denominator % denominator) < denominator := by
    rw [Nat.mul_mod_left]
    exact positive
  unfold roundHalfEven
  rw [if_pos rest, whole]

/-- The magnitude with a significand of 53 bits. -/
theorem unitsOfBits_add {significand : Nat} (low : twoTo 52 ≤ significand)
    (high : significand < twoTo 53) (step : Nat) :
    unitsOfBits (step * twoTo 52 + significand) = significand * twoTo step := by
  have normal : ¬step * twoTo 52 + significand < twoTo 52 := by omega
  have exponent : (step * twoTo 52 + significand) / twoTo 52 - 1 = step := by
    rw [twoTo_52] at *
    rw [twoTo_53] at *
    omega
  have fraction : twoTo 52 + (step * twoTo 52 + significand) % twoTo 52 = significand := by
    rw [twoTo_52] at *
    rw [twoTo_53] at *
    omega
  unfold unitsOfBits
  rw [if_neg normal, exponent, fraction]

/-! ### Small whole numbers -/

/-- A whole number of at most 53 bits has a significand that need not be rounded. -/
theorem exists_significand {number : Nat} (positive : 0 < number) (small : number ≤ twoTo 53) :
    ∃ significand, twoTo 52 ≤ significand ∧ significand < twoTo 53 ∧ number.log2 ≤ 53 ∧
      number * twoTo 1074 = significand * twoTo (number.log2 + 1022) := by
  rcases Nat.lt_or_eq_of_le small with below | rfl
  · have bits : number.log2 ≤ 52 :=
      Nat.le_of_lt_succ ((Nat.log2_lt (Nat.pos_iff_ne_zero.mp positive)).mpr below)
    have low := Nat.mul_le_mul_right (twoTo (52 - number.log2)) (twoTo_log2_le positive)
    have high := Nat.mul_lt_mul_of_pos_right (lt_twoTo_log2_add_one number)
      (twoTo_pos (52 - number.log2))
    rw [← twoTo_add, Nat.add_sub_cancel' bits] at low
    rw [← twoTo_add, show number.log2 + 1 + (52 - number.log2) = 53 by omega] at high
    refine ⟨number * twoTo (52 - number.log2), low, high, by omega, ?_⟩
    rw [Nat.mul_assoc, ← twoTo_add,
      show 52 - number.log2 + (number.log2 + 1022) = 1074 by omega]
  · have bits : (twoTo 53).log2 = 53 := Nat.log2_two_pow
    rw [bits]
    refine ⟨twoTo 52, Nat.le_refl _, by decide, Nat.le_refl _, ?_⟩
    rw [show 1074 = 52 + 1022 by rfl, twoTo_add 52, twoTo_add 53, Nat.mul_left_comm]

/-- The bits of such a number: its exponent stands in front of its significand without the first
bit. -/
theorem magnitudeBitsOfRatio_one {number significand : Nat} (positive : 0 < number)
    (high : significand < twoTo 53) (bits : number.log2 ≤ 53)
    (scaled : number * twoTo 1074 = significand * twoTo (number.log2 + 1022)) :
    magnitudeBitsOfRatio number 1 = (number.log2 + 1022) * twoTo 52 + significand ∧
      magnitudeBitsOfRatio number 1 < infinityBits := by
  have step : number.log2 + 1074 - 52 = number.log2 + 1022 := by omega
  have finite : (number.log2 + 1022) * twoTo 52 + significand < infinityBits := by
    rw [twoTo_53] at high
    rw [twoTo_52, infinityBits_eq]
    omega
  have same : magnitudeBitsOfRatio number 1 = (number.log2 + 1022) * twoTo 52 + significand := by
    unfold magnitudeBitsOfRatio
    simp only [Nat.div_one, Nat.one_mul]
    rw [log2_mul_twoTo positive, step, scaled, roundHalfEven_mul significand (twoTo_pos _)]
    exact Nat.min_eq_left (Nat.le_of_lt finite)
  exact ⟨same, same ▸ finite⟩

theorem magnitudeBits_ofMagnitude {bits : Nat} (finite : bits < infinityBits) :
    (ofMagnitude false bits).magnitudeBits = bits ∧ (ofMagnitude false bits).isNegative = false := by
  have small : bits < twoTo 63 := Nat.lt_trans finite (by decide)
  have same : (ofMagnitude false bits).bits.toNat = bits := by
    show (UInt64.ofNat (bits + 0)).toNat = bits
    rw [UInt64.toNat_ofNat', Nat.add_zero]
    exact Nat.mod_eq_of_lt (Nat.lt_trans small (by decide))
  constructor
  · rw [magnitudeBits, same]
    exact Nat.mod_eq_of_lt small
  · rw [isNegative, same]
    exact decide_eq_false (Nat.not_le.mpr small)

/-- What is kept of a whole number of at most 53 bits. -/
theorem ofNat_small {number : Nat} (small : number ≤ twoTo 53) :
    (ofNat number).magnitudeBits < infinityBits ∧ (ofNat number).isNegative = false ∧
      (ofNat number).units = number * twoTo 1074 := by
  rcases Nat.eq_zero_or_pos number with rfl | positive
  · have bits : magnitudeBitsOfRatio 0 1 = 0 := by
      unfold magnitudeBitsOfRatio
      rw [Nat.zero_mul]
      rfl
    unfold ofNat ofRatio units
    rw [bits, Nat.zero_mul]
    decide
  · obtain ⟨significand, low, high, bits, scaled⟩ := exists_significand positive small
    obtain ⟨magnitude, finite⟩ := magnitudeBitsOfRatio_one positive high bits scaled
    obtain ⟨same, sign⟩ := magnitudeBits_ofMagnitude finite
    refine ⟨same.symm ▸ finite, sign, ?_⟩
    show unitsOfBits (ofMagnitude false (magnitudeBitsOfRatio number 1)).magnitudeBits = _
    rw [same, magnitude, unitsOfBits_add low high, scaled]

/-! ### There and back -/

/-- Nothing is cut off where such a number is made whole. -/
theorem truncate_ofNat {number : Nat} (small : number ≤ twoTo 53) :
    (ofNat number).truncate = number := by
  obtain ⟨_, sign, units_eq⟩ := ofNat_small small
  unfold truncate
  rw [sign, units_eq]
  exact congrArg Int.ofNat (Nat.mul_div_cancel number (twoTo_pos 1074))

theorem clampTo_ofNat {number : Nat} (small : number ≤ twoTo 53) {least greatest : Int}
    (notBelow : least ≤ 0) (notAbove : (number : Int) ≤ greatest) :
    clampTo least greatest (ofNat number) = number := by
  obtain ⟨finite, _, _⟩ := ofNat_small small
  have isNumber : (ofNat number).isNaN = false :=
    decide_eq_false (Nat.not_lt.mpr (Nat.le_of_lt finite))
  have isFinite : (ofNat number).isInfinite = false := by
    rw [isInfinite, beq_eq_false_iff_ne]
    exact Nat.ne_of_lt finite
  unfold clampTo
  rw [isNumber, isFinite, truncate_ofNat small, if_neg Bool.false_ne_true,
    if_neg Bool.false_ne_true, Int.min_eq_right notAbove]
  exact Int.max_eq_right (Int.le_trans notBelow (Int.natCast_nonneg number))

/-- As a word without a sign such a number is itself again. -/
theorem toUInt64_ofNat {number : Nat} (small : number ≤ twoTo 53) :
    (ofNat number).toUInt64 = UInt64.ofNat number := by
  have bound : (number : Int) ≤ (twoTo 64 - 1 : Nat) :=
    Int.ofNat_le.mpr (Nat.le_trans small (by decide))
  unfold toUInt64
  rw [clampTo_ofNat small (Int.le_refl 0) bound, Int.toNat_natCast]

end Binary64

end NodeTelemetry
