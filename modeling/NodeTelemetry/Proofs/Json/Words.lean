/-
This file says which numbers are read as unsigned words: those that are written with decimal digits
alone and fit into 64 bits. Every other number is refused, however long it is, since digits that do
not fit make it a number that is not whole.

A number is read as a whole one if it has neither a point nor an exponent and all its digits are
absorbed by a word. A digit is absorbed if the number that results still fits, and digits only make
a number greater, so all of them are absorbed exactly if the number that they write fits. A number
with more digits than that is read as a binary64 number with an exponent, and such a number is
refused where a word is expected, just as one with a fraction, with an exponent or with a sign.
-/

import NodeTelemetry.Proofs.Json.Answers

namespace NodeTelemetry.Json

variable {raw : List Char} {numeral : Numeral}

/-! ### Digits -/

/-- Whether a text holds digits and nothing else. -/
def AreDigits (raw : List Char) : Prop :=
  raw.all Char.isDigit = true

instance (raw : List Char) : Decidable (AreDigits raw) :=
  inferInstanceAs (Decidable (raw.all Char.isDigit = true))

/-- The values of digits make the number that the digits write. -/
theorem numberOfDigits_map (raw : List Char) :
    numberOfDigits (raw.map fun character => character.toNat - '0'.toNat) =
      Nat.ofDigitChars 10 raw 0 := by
  rw [numberOfDigits, List.foldl_map, Nat.ofDigitChars_eq_foldl]
  simp only [Nat.mul_comm]

theorem IsFraction.eq_nil (isFraction : IsFraction raw []) : raw = [] := by
  generalize digits : [] = none at isFraction
  cases isFraction with
  | absent => rfl
  | present isDigits =>
    obtain ⟨present, _, rfl⟩ := isDigits
    exact absurd (List.map_eq_nil_iff.mp digits.symm) present

/-- A number without a sign, a point and an exponent is its whole part. -/
theorem IsNumeral.isDigits (isNumeral : IsNumeral raw numeral)
    (parts : numeral.negative = false ∧ numeral.fraction = [] ∧ numeral.exponent = none) :
    IsDigits raw numeral.whole := by
  obtain ⟨notNegative, noFraction, noExponent⟩ := parts
  obtain ⟨⟨whole, fraction, exponent, rfl, isWhole, isFraction, isExponent⟩, _⟩ := isNumeral
  rw [noFraction] at isFraction
  rw [noExponent] at isExponent
  obtain rfl := isFraction.eq_nil
  cases isExponent
  rw [notNegative, if_neg Bool.false_ne_true, List.append_nil, List.append_nil, List.nil_append]
  exact isWhole

/-- The whole part is all there is to a number that is written with digits alone. -/
theorem IsNumeral.areDigits_iff (isNumeral : IsNumeral raw numeral) :
    AreDigits raw ↔ numeral.negative = false ∧ numeral.fraction = [] ∧ numeral.exponent = none := by
  constructor
  · intro areDigits
    obtain ⟨negative, _, fractionDigits, exponentDigits⟩ := numeral
    obtain ⟨⟨whole, fraction, exponent, rfl, _, isFraction, isExponent⟩, _⟩ := isNumeral
    have unlike {character : Char} (other : character.isDigit = false) :
        character ∉ (if negative then ['-'] else []) ++ (whole ++ (fraction ++ exponent)) := by
      intro member
      rw [List.all_eq_true.mp areDigits character member] at other
      cases other
    refine ⟨?_, ?_, ?_⟩
    · cases negative with
      | false => rfl
      | true => exact absurd List.mem_cons_self (@unlike '-' rfl)
    · cases isFraction with
      | absent => rfl
      | present => exact absurd (by simp) (@unlike '.' rfl)
    · cases isExponent with
      | absent => rfl
      | @present mark _ _ _ _ isMark =>
        have other : mark.isDigit = false := by
          rcases isMark with rfl | rfl <;> rfl
        exact absurd (by simp) (unlike other)
  · intro parts
    exact List.all_eq_true.mpr (isNumeral.isDigits parts).2.1

/-- The value of a number that is written with digits alone. -/
theorem IsNumeral.numberOfDigits_whole (isNumeral : IsNumeral raw numeral)
    (areDigits : AreDigits raw) : numberOfDigits numeral.whole = Nat.ofDigitChars 10 raw 0 := by
  rw [(isNumeral.isDigits (isNumeral.areDigits_iff.mp areDigits)).2.2, numberOfDigits_map]

/-! ### Words -/

/-- Digits that are all absorbed write a number that fits. -/
theorem foldl_lt_of_absorb (digits : List Nat) {significand : Nat} (small : significand < twoTo 64)
    (absorbed : (absorb significand digits).2 = []) :
    digits.foldl (fun number digit => number * 10 + digit) significand < twoTo 64 := by
  induction digits generalizing significand with
  | nil => exact small
  | cons digit others inductionHypothesis =>
    rw [absorb] at absorbed
    split at absorbed
    · next fits => exact inductionHypothesis fits absorbed
    · cases absorbed

/-- A number that is read as a whole one and not below zero is written with its digits alone. -/
theorem Numeral.of_number_whole {value : Int} (whole : numeral.number = .ok (.whole value))
    (notBelow : 0 ≤ value) :
    numeral.negative = false ∧ numeral.fraction = [] ∧ numeral.exponent = none ∧
      numberOfDigits numeral.whole < twoTo 64 := by
  obtain ⟨negative, wholeDigits, fractionDigits, exponentDigits⟩ := numeral
  unfold Numeral.number at whole
  dsimp only at whole
  split at whole
  · next integer =>
    simp only [Bool.and_eq_true, List.isEmpty_iff, Option.isNone_iff_eq_none,
      Bool.not_eq_true'] at integer
    obtain ⟨⟨⟨absorbed, noFraction⟩, noExponent⟩, notNegative⟩ := integer
    exact ⟨notNegative, noFraction, noExponent, foldl_lt_of_absorb _ (by decide) absorbed⟩
  · split at whole
    · next integer =>
      simp only [Bool.and_eq_true, decide_eq_true_eq] at integer
      obtain rfl := Number.whole.inj (Except.ok.inj whole)
      omega
    · split at whole
      · cases whole
      · cases whole

/-- Digits alone that write a number of at most 64 bits write a word. -/
theorem isWord_of_areDigits (isNumeral : IsNumeral raw numeral) (areDigits : AreDigits raw)
    (small : Nat.ofDigitChars 10 raw 0 < twoTo 64) :
    IsWord raw (UInt64.ofNat (Nat.ofDigitChars 10 raw 0)) := by
  obtain ⟨notNegative, noFraction, noExponent⟩ := isNumeral.areDigits_iff.mp areDigits
  refine ⟨numeral, isNumeral, notNegative, noFraction, noExponent, ?_⟩
  rw [isNumeral.numberOfDigits_whole areDigits, UInt64.toNat_ofNat', Nat.mod_eq_of_lt small]

/-- A number that is not written with digits alone, or that does not fit, is refused. -/
theorem wordReader_answers_error (isNumeral : IsNumeral raw numeral)
    (noWord : ¬(AreDigits raw ∧ Nat.ofDigitChars 10 raw 0 < twoTo 64)) :
    ∃ fault, wordReader.Answers raw (.error fault) := by
  have answers := numberReader_answers_number isNumeral
  cases number : numeral.number with
  | error fault => exact ⟨fault, (number ▸ answers).refine_error _⟩
  | ok value =>
    rw [number] at answers
    refine ⟨.misfit, answers.refine_misfit ?_⟩
    cases value with
    | real value => rfl
    | whole value =>
      by_cases notBelow : 0 ≤ value
      · obtain ⟨notNegative, noFraction, noExponent, small⟩ :=
          Numeral.of_number_whole number notBelow
        have areDigits := isNumeral.areDigits_iff.mpr ⟨notNegative, noFraction, noExponent⟩
        rw [isNumeral.numberOfDigits_whole areDigits] at small
        exact absurd ⟨areDigits, small⟩ noWord
      · exact if_neg notBelow

end NodeTelemetry.Json
