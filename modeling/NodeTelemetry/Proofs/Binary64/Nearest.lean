/-
This file shows what becomes of a whole number that is turned into a binary64 number. It is rounded
to the nearest whole number with a significand of at most 53 bits, and of two equally near ones to
the one that needs fewer bits. So it is kept exactly if its own significand is no longer than that.

The rounding cuts off as many bits as are too many and rounds the quotient that is left by at most
half a unit. All candidates that are multiples of the same unit are a whole unit apart, so the
rounded one is the nearest of these. A candidate with a shorter unit is a smaller number than any
with the full number of bits, and so it lies a whole unit away as well unless it is itself a
multiple of the unit. This leaves the tie, in which both neighbours are half a unit away and the
even quotient is taken.
-/

import Mathlib.Data.Nat.Dist
import NodeTelemetry.Proofs.Binary64.Whole

namespace NodeTelemetry.Binary64

/-! ### Rounding a quotient -/

/-- A quotient is rounded down, rounded up, or exactly in the middle, where it is moved to the even
neighbour. -/
theorem roundHalfEven_cases (numerator denominator : Nat) :
    (roundHalfEven numerator denominator = numerator / denominator ∧
        2 * (numerator % denominator) < denominator) ∨
      (roundHalfEven numerator denominator = numerator / denominator + 1 ∧
        denominator < 2 * (numerator % denominator)) ∨
      (roundHalfEven numerator denominator =
          numerator / denominator + numerator / denominator % 2 ∧
        2 * (numerator % denominator) = denominator) := by
  unfold roundHalfEven
  simp only
  split
  · next less => exact .inl ⟨rfl, less⟩
  · next notLess =>
    split
    · next more => exact .inr (.inl ⟨rfl, more⟩)
    · next notMore => exact .inr (.inr ⟨rfl, by omega⟩)

/-- Rounding does not depend on the unit. -/
theorem roundHalfEven_mul_right (numerator denominator : Nat) {unit : Nat} (positive : 0 < unit) :
    roundHalfEven (numerator * unit) (denominator * unit) = roundHalfEven numerator denominator := by
  unfold roundHalfEven
  have rest : 2 * (numerator % denominator * unit) = 2 * (numerator % denominator) * unit :=
    (Nat.mul_assoc 2 _ unit).symm
  simp only [Nat.mul_div_mul_right _ _ positive, Nat.mul_mod_mul_right, rest,
    Nat.mul_lt_mul_right positive]

section

variable {numerator denominator : Nat}

/-- A quotient is rounded by half a unit at most, and by so much only to an even number. -/
theorem dist_roundHalfEven (positive : 0 < denominator) :
    2 * Nat.dist numerator (roundHalfEven numerator denominator * denominator) ≤ denominator ∧
      (2 * Nat.dist numerator (roundHalfEven numerator denominator * denominator) = denominator →
        roundHalfEven numerator denominator % 2 = 0) := by
  have parts := Nat.div_add_mod' numerator denominator
  have rest := Nat.mod_lt numerator positive
  have next : (numerator / denominator + 1) * denominator =
      numerator / denominator * denominator + denominator := Nat.succ_mul _ _
  unfold Nat.dist
  rcases roundHalfEven_cases numerator denominator with
    ⟨rounded, less⟩ | ⟨rounded, more⟩ | ⟨rounded, half⟩
  · rw [rounded]
    omega
  · rw [rounded, next]
    omega
  · rcases Nat.mod_two_eq_zero_or_one (numerator / denominator) with even | odd
    · rw [rounded, even, Nat.add_zero]
      omega
    · rw [rounded, odd, next]
      omega

/-- Two multiples of a unit are at least the unit apart. -/
theorem le_dist_add_dist {first second : Nat} (different : first ≠ second)
    (number unit : Nat) :
    unit ≤ Nat.dist number (first * unit) + Nat.dist number (second * unit) := by
  unfold Nat.dist
  rcases Nat.lt_or_gt_of_ne different with less | more
  · have apart := Nat.mul_le_mul_right unit (Nat.succ_le_of_lt less)
    rw [Nat.succ_mul] at apart
    omega
  · have apart := Nat.mul_le_mul_right unit (Nat.succ_le_of_lt more)
    rw [Nat.succ_mul] at apart
    omega

end

/-! ### The nearest whole number -/

/-- Whether a whole number has a significand of so many bits at most. -/
def Fits (bits number : Nat) : Prop :=
  ∃ significand exponent, significand < twoTo bits ∧ number = significand * twoTo exponent

/-- Whether a whole number is the nearest one to another with a significand of at most 53 bits. If
there are two of them it is the one whose significand is even, which needs one bit less. -/
structure IsNearest (number nearest : Nat) : Prop where
  fits : Fits 53 nearest
  near : ∀ other, Fits 53 other → Nat.dist number nearest ≤ Nat.dist number other
  even : ∀ other, Fits 53 other → other ≠ nearest →
    Nat.dist number other = Nat.dist number nearest → Fits 52 nearest

/-- A whole number rounded to a significand of 53 bits. -/
def nearestWhole (number : Nat) : Nat :=
  roundHalfEven number (twoTo (number.log2 - 52)) * twoTo (number.log2 - 52)

/-- A significand that was just rounded up to one bit more fits all the same, since it is a power of
two. -/
theorem fits_of_le {bits significand : Nat} (positive : 0 < bits)
    (small : significand ≤ twoTo bits) (exponent : Nat) :
    Fits bits (significand * twoTo exponent) := by
  rcases Nat.lt_or_eq_of_le small with less | rfl
  · exact ⟨significand, exponent, less, rfl⟩
  · refine ⟨1, bits + exponent, ?_, ?_⟩
    · exact Nat.one_lt_two_pow (Nat.pos_iff_ne_zero.mp positive)
    · rw [Nat.one_mul, twoTo_add]

section

variable {number : Nat}

theorem pos_of_log2_pos (bits : 0 < number.log2) : 0 < number := by
  rcases Nat.eq_zero_or_pos number with rfl | positive
  · cases bits
  · exact positive

/-- The significand to which a number of more than 53 bits is rounded. -/
theorem roundHalfEven_bounds (long : 52 ≤ number.log2) :
    twoTo 52 ≤ roundHalfEven number (twoTo (number.log2 - 52)) ∧
      roundHalfEven number (twoTo (number.log2 - 52)) ≤ twoTo 53 := by
  have positive := pos_of_log2_pos (Nat.zero_lt_of_lt long)
  have least : twoTo 52 * twoTo (number.log2 - 52) ≤ number := by
    rw [← twoTo_add, Nat.add_sub_cancel' long]
    exact twoTo_log2_le positive
  have most : number < twoTo 53 * twoTo (number.log2 - 52) := by
    rw [← twoTo_add, show 53 + (number.log2 - 52) = number.log2 + 1 by omega]
    exact lt_twoTo_log2_add_one number
  have low := (Nat.le_div_iff_mul_le (twoTo_pos _)).mpr least
  have high := (Nat.div_lt_iff_lt_mul (twoTo_pos _)).mpr most
  rcases roundHalfEven_cases number (twoTo (number.log2 - 52)) with
    ⟨rounded, _⟩ | ⟨rounded, _⟩ | ⟨rounded, _⟩ <;> omega

theorem nearestWhole_of_short (short : number.log2 ≤ 52) : nearestWhole number = number := by
  rw [nearestWhole, Nat.sub_eq_zero_of_le short]
  show roundHalfEven number 1 * 1 = number
  simpa using roundHalfEven_mul number Nat.one_pos

theorem dist_nearestWhole (number : Nat) :
    2 * Nat.dist number (nearestWhole number) ≤ twoTo (number.log2 - 52) ∧
      (2 * Nat.dist number (nearestWhole number) = twoTo (number.log2 - 52) →
        roundHalfEven number (twoTo (number.log2 - 52)) % 2 = 0) :=
  dist_roundHalfEven (twoTo_pos _)

/-- A number with a shorter unit lies below all numbers with as many bits as the rounded one. -/
theorem lt_of_shorter {significand exponent : Nat} (small : significand < twoTo 53)
    (shorter : exponent < number.log2 - 52) : significand * twoTo exponent < twoTo number.log2 :=
  calc significand * twoTo exponent
    _ < twoTo 53 * twoTo exponent := Nat.mul_lt_mul_of_pos_right small (twoTo_pos _)
    _ = twoTo (53 + exponent) := (twoTo_add _ _).symm
    _ ≤ twoTo number.log2 := Nat.pow_le_pow_right Nat.two_pos (by omega)

/-- Any other number with as short a significand is farther away, or a whole unit lies between it
and the rounded number. -/
theorem dist_of_fits (long : 52 < number.log2) {other : Nat} (fits : Fits 53 other)
    (different : other ≠ nearestWhole number) :
    Nat.dist number (nearestWhole number) < Nat.dist number other ∨
      twoTo (number.log2 - 52) ≤
        Nat.dist number (nearestWhole number) + Nat.dist number other := by
  have apart {multiple : Nat} (notSame : multiple * twoTo (number.log2 - 52) ≠ nearestWhole number) :
      twoTo (number.log2 - 52) ≤ Nat.dist number (nearestWhole number) +
        Nat.dist number (multiple * twoTo (number.log2 - 52)) :=
    le_dist_add_dist (fun same => notSame (congrArg (· * _) same.symm)) number _
  obtain ⟨significand, exponent, small, rfl⟩ := fits
  rcases Nat.lt_or_ge exponent (number.log2 - 52) with shorter | longer
  · -- The other number lies below the least one with as many bits, and this one is a multiple.
    left
    have below := lt_of_shorter small shorter
    have least := twoTo_log2_le (pos_of_log2_pos (Nat.zero_lt_of_lt long))
    have multiple : twoTo number.log2 = twoTo 52 * twoTo (number.log2 - 52) := by
      rw [← twoTo_add, Nat.add_sub_cancel' (Nat.le_of_lt long)]
    have near : Nat.dist number (nearestWhole number) ≤ Nat.dist number (twoTo number.log2) := by
      by_cases same : twoTo number.log2 = nearestWhole number
      · rw [same]
      · have half := (dist_nearestWhole number).1
        have unit := apart (multiple ▸ same)
        rw [← multiple] at unit
        omega
    refine Nat.lt_of_le_of_lt near ?_
    unfold Nat.dist
    omega
  · right
    have multiple : significand * twoTo exponent =
        significand * twoTo (exponent - (number.log2 - 52)) * twoTo (number.log2 - 52) := by
      rw [Nat.mul_assoc, ← twoTo_add, Nat.sub_add_cancel longer]
    rw [multiple] at different ⊢
    exact apart different

/-- The rounded number is the nearest one. -/
theorem isNearest_nearestWhole (number : Nat) : IsNearest number (nearestWhole number) := by
  rcases Nat.lt_or_ge 52 number.log2 with long | short
  · obtain ⟨_, small⟩ := roundHalfEven_bounds (Nat.le_of_lt long)
    obtain ⟨half, even⟩ := dist_nearestWhole number
    refine ⟨fits_of_le (by decide) small _, fun other fits => ?_, fun other fits different tie => ?_⟩
    · by_cases same : other = nearestWhole number
      · rw [same]
      · rcases dist_of_fits long fits same with farther | unit <;> omega
    · have isEven : roundHalfEven number (twoTo (number.log2 - 52)) % 2 = 0 := by
        refine even ?_
        rcases dist_of_fits long fits different with farther | unit <;> omega
      have halved := Nat.div_add_mod (roundHalfEven number (twoTo (number.log2 - 52))) 2
      rw [isEven, Nat.add_zero] at halved
      rw [nearestWhole, ← halved, Nat.mul_comm 2, Nat.mul_assoc, Nat.mul_comm 2]
      refine fits_of_le (by decide) ?_ (number.log2 - 52 + 1)
      rw [twoTo_53] at small
      rw [twoTo_52]
      omega
  · have fits : Fits 53 number := ⟨number, 0, Nat.lt_of_lt_of_le (lt_twoTo_log2_add_one number)
      (Nat.pow_le_pow_right Nat.two_pos (Nat.succ_le_succ short)), (Nat.mul_one number).symm⟩
    rw [nearestWhole_of_short short]
    refine ⟨fits, fun other _ => ?_, fun other _ different tie => absurd ?_ different⟩
    · rw [Nat.dist_self]
      exact Nat.zero_le _
    · rw [Nat.dist_self] at tie
      exact (Nat.eq_of_dist_eq_zero tie).symm

/-- Exactly the numbers with a short enough significand are kept. -/
theorem nearestWhole_eq_self : nearestWhole number = number ↔ Fits 53 number := by
  obtain ⟨fits, near, _⟩ := isNearest_nearestWhole number
  constructor
  · intro same
    rwa [same] at fits
  · intro own
    have none := near number own
    rw [Nat.dist_self, Nat.le_zero] at none
    exact (Nat.eq_of_dist_eq_zero none).symm

/-! ### There and back -/

/-- The magnitude with a significand of 53 bits, also when it has just been rounded up to 54. -/
theorem unitsOfBits_add_of_le {significand : Nat} (low : twoTo 52 ≤ significand)
    (high : significand ≤ twoTo 53) (step : Nat) :
    unitsOfBits (step * twoTo 52 + significand) = significand * twoTo step := by
  rcases Nat.lt_or_eq_of_le high with below | rfl
  · exact unitsOfBits_add low below step
  · have carried : step * twoTo 52 + twoTo 53 = (step + 1) * twoTo 52 + twoTo 52 := by
      rw [twoTo_52, twoTo_53]
      omega
    rw [carried, unitsOfBits_add (Nat.le_refl _) (by decide), Nat.add_comm step 1, twoTo_add 1,
      ← Nat.mul_assoc, ← twoTo_add]

/-- The bits of a longer number: its exponent stands in front of the rounded significand, which may
carry into it. -/
theorem magnitudeBitsOfRatio_one_eq (long : 52 < number.log2) :
    magnitudeBitsOfRatio number 1 = min ((number.log2 + 1022) * twoTo 52 +
      roundHalfEven number (twoTo (number.log2 - 52))) infinityBits := by
  have positive := pos_of_log2_pos (Nat.zero_lt_of_lt long)
  have step : number.log2 + 1074 - 52 = number.log2 + 1022 := by omega
  have unit : twoTo (number.log2 + 1022) = twoTo (number.log2 - 52) * twoTo 1074 := by
    rw [← twoTo_add]
    exact congrArg twoTo (by omega)
  unfold magnitudeBitsOfRatio
  simp only [Nat.div_one, Nat.one_mul]
  rw [log2_mul_twoTo positive, step, unit, roundHalfEven_mul_right _ _ (twoTo_pos 1074)]

/-- What is kept of a whole number of at most 64 bits. -/
theorem ofNat_of_lt (small : number < twoTo 64) :
    (ofNat number).magnitudeBits < infinityBits ∧ (ofNat number).isNegative = false ∧
      (ofNat number).units = nearestWhole number * twoTo 1074 := by
  rcases Nat.lt_or_ge 52 number.log2 with long | short
  · have positive := pos_of_log2_pos (Nat.zero_lt_of_lt long)
    have bits : number.log2 < 64 := (Nat.log2_lt (Nat.pos_iff_ne_zero.mp positive)).mpr small
    obtain ⟨low, high⟩ := roundHalfEven_bounds (Nat.le_of_lt long)
    have finite : (number.log2 + 1022) * twoTo 52 +
        roundHalfEven number (twoTo (number.log2 - 52)) < infinityBits := by
      rw [twoTo_53] at high
      rw [twoTo_52, infinityBits_eq]
      omega
    have magnitude := magnitudeBitsOfRatio_one_eq long
    rw [Nat.min_eq_left (Nat.le_of_lt finite)] at magnitude
    obtain ⟨same, sign⟩ := magnitudeBits_ofMagnitude finite
    have unit : number.log2 + 1022 = number.log2 - 52 + 1074 := by omega
    unfold ofNat ofRatio units
    rw [magnitude, same, unitsOfBits_add_of_le low high, nearestWhole, Nat.mul_assoc, ← twoTo_add,
      ← unit]
    exact ⟨finite, sign, rfl⟩
  · have below : number ≤ twoTo 53 :=
      Nat.le_trans (Nat.le_of_lt (lt_twoTo_log2_add_one number))
        (Nat.pow_le_pow_right Nat.two_pos (Nat.succ_le_succ short))
    rw [nearestWhole_of_short short]
    exact ofNat_small below

/-- What was rounded is whole already, so truncation gives the rounded number. -/
theorem truncate_ofNat_of_lt (small : number < twoTo 64) :
    (ofNat number).truncate = nearestWhole number := by
  obtain ⟨_, sign, units_eq⟩ := ofNat_of_lt small
  unfold truncate
  rw [sign, units_eq]
  exact congrArg Int.ofNat (Nat.mul_div_cancel _ (twoTo_pos 1074))

theorem clampTo_ofNat_of_lt (small : number < twoTo 64) (least greatest : Int) :
    clampTo least greatest (ofNat number) = max least (min greatest (nearestWhole number)) := by
  obtain ⟨finite, _, _⟩ := ofNat_of_lt small
  have isNumber : (ofNat number).isNaN = false :=
    decide_eq_false (Nat.not_lt.mpr (Nat.le_of_lt finite))
  have isFinite : (ofNat number).isInfinite = false := by
    rw [isInfinite, beq_eq_false_iff_ne]
    exact Nat.ne_of_lt finite
  unfold clampTo
  rw [isNumber, isFinite, truncate_ofNat_of_lt small, if_neg Bool.false_ne_true,
    if_neg Bool.false_ne_true]

/-- As a signed word the rounded number ends at the greatest one. -/
theorem toInt64_ofNat_of_lt (small : number < twoTo 64) :
    (ofNat number).toInt64.toInt = min (nearestWhole number : Int) (twoTo 63 - 1 : Nat) := by
  have lowest : -(twoTo 63 : Int) ≤ min ((twoTo 63 - 1 : Nat) : Int) (nearestWhole number) :=
    Int.le_trans (by decide) (Int.le_min.mpr ⟨by decide, Int.natCast_nonneg _⟩)
  have notAbove : min ((twoTo 63 - 1 : Nat) : Int) (nearestWhole number) < 2 ^ 63 :=
    Int.lt_of_le_of_lt (Int.min_le_left _ _) (by decide)
  unfold toInt64
  rw [clampTo_ofNat_of_lt small, Int.max_eq_right lowest, Int64.toInt_ofInt_of_le lowest notAbove,
    Int.min_comm]

theorem nearestWhole_greatest : nearestWhole (twoTo 63 - 1) = twoTo 63 := by
  decide

/-- On the way into a binary64 number and back to a signed word, a whole number is kept if it needs
no rounding, and so is the greatest signed word. -/
theorem toInt64_ofNat_eq_self (small : number < twoTo 63) :
    (ofNat number).toInt64.toInt = number ↔ Fits 53 number ∨ number = twoTo 63 - 1 := by
  rw [toInt64_ofNat_of_lt (Nat.lt_trans small (by decide)), ← nearestWhole_eq_self]
  constructor
  · intro kept
    by_cases greatest : number = twoTo 63 - 1
    · exact .inr greatest
    · left
      omega
  · rintro (exact | rfl)
    · rw [exact]
      omega
    · rw [nearestWhole_greatest]
      decide

end

end NodeTelemetry.Binary64
