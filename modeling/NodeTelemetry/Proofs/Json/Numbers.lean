/-
This file shows that numbers are read as they are written. A number has no mark at its end, so what
stands behind it must not go on with it: between the tokens of JSON this is a gap, a comma, a
closing bracket or nothing.

A number is taken in parts: a sign, whole digits, a fraction behind a point, and an exponent behind
its mark. Each part is as long as it can be, so it is left behind exactly at its end only if no
character follows that it would take as well. Behind the digits this is a digit, behind the whole
part also a point, and behind the fraction a mark of an exponent. None of the characters that may
stand behind a value is any of these, and where a further part follows, it begins with a character
of another kind.
-/

import NodeTelemetry.Json.Scalar
import NodeTelemetry.Proofs.Json.Grammar

namespace NodeTelemetry.Json

variable {raw : List Char} {digits : List Nat} {rest : Input}

/-! ### Behind a value -/

/-- Whether an input begins with what may stand behind a value. -/
def Ends (rest : Input) : Prop :=
  ∀ character ∈ rest.head?,
    character ∈ [some ' ', some '\t', some '\n', some '\r', some ',', some ']', some '}']

/-- Whether an input does not begin with a character of some kind. -/
def Lacks (kind : Option Char → Bool) (rest : Input) : Prop :=
  ∀ character ∈ rest.head?, kind character = false

/-- None of what may stand behind a value goes on with a number. -/
theorem Ends.lacks {kind : Option Char → Bool} (ends : Ends rest)
    (unlike : [some ' ', some '\t', some '\n', some '\r', some ',', some ']', some '}'].all
      (!kind ·) = true) : Lacks kind rest := by
  intro character first
  have other := List.all_eq_true.mp unlike character (ends character first)
  exact Bool.not_eq_true' _ |>.mp other

theorem Lacks.cons {kind : Option Char → Bool} {character : Option Char}
    (unlike : kind character = false) (rest : Input) : Lacks kind (character :: rest) := by
  intro first same
  obtain rfl := Option.some.inj same
  exact unlike

/-! ### Digits -/

/-- Digits are taken up to the first character that is none. -/
theorem takeDigits_of_isDigits (isDigits : IsDigits raw digits) (stops : Lacks isDigit rest) :
    takeDigits (raw.map some ++ rest) = .ok (digits, rest) := by
  obtain ⟨present, areDigits, rfl⟩ := isDigits
  have all : ∀ character ∈ raw.map some, isDigit character = true := by
    intro character member
    obtain ⟨digit, among, rfl⟩ := List.mem_map.mp member
    exact areDigits digit among
  have none : rest.takeWhile isDigit = [] ∧ rest.dropWhile isDigit = rest := by
    cases rest with
    | nil => exact ⟨rfl, rfl⟩
    | cons character others =>
      have stopped := stops character rfl
      rw [List.takeWhile_cons, List.dropWhile_cons, stopped]
      exact ⟨rfl, rfl⟩
  unfold takeDigits
  rw [List.takeWhile_append_of_pos all, List.dropWhile_append_of_pos all, none.1, none.2,
    List.append_nil]
  split
  · next empty => exact absurd (List.map_eq_nil_iff.mp empty) present
  · rw [List.map_map]
    rfl

/-- The whole part is taken if a zero in front of it stands alone. -/
theorem takeWhole_of_isDigits (isDigits : IsDigits raw digits)
    (zeroAlone : ∀ others, digits = 0 :: others → others = []) (stops : Lacks isDigit rest) :
    takeWhole (raw.map some ++ rest) = .ok (digits, rest) := by
  unfold takeWhole
  rw [takeDigits_of_isDigits isDigits stops]
  split
  · next failed => cases failed
  · next read =>
    obtain ⟨same, _⟩ := Prod.mk.inj (Except.ok.inj read)
    exact absurd (zeroAlone _ same) (List.cons_ne_nil _ _)
  · next read => rw [read]

/-! ### The parts of a number -/

/-- Whether a character goes on with a number at its point. -/
def isPoint (character : Option Char) : Bool :=
  character == some '.'

/-- The fraction is taken with its point, if there is one. -/
theorem takeFraction_of_isFraction (isFraction : IsFraction raw digits)
    (noDigit : Lacks isDigit rest) (noPoint : Lacks isPoint rest) :
    takeFraction (raw.map some ++ rest) = .ok (digits, rest) := by
  cases isFraction with
  | absent =>
    rw [List.map_nil, List.nil_append]
    unfold takeFraction
    split
    · exact absurd (noPoint (some '.') rfl) (by decide)
    · rfl
  | present isDigits => exact takeDigits_of_isDigits isDigits noDigit

/-- The sign of an exponent is taken if there is one, and otherwise nothing. -/
theorem takeSign_of_isSign {down : Bool} (isSign : IsSign raw down) {first : Char}
    (firstDigit : isDigit (some first) = true) (others : Input) :
    takeSign (raw.map some ++ some first :: others) = (down, some first :: others) := by
  cases isSign with
  | absent =>
    unfold takeSign
    split
    · next same =>
      obtain rfl := Option.some.inj (List.cons.inj same).1
      exact absurd firstDigit (by decide)
    · next same =>
      obtain rfl := Option.some.inj (List.cons.inj same).1
      exact absurd firstDigit (by decide)
    · rfl
  | plus => rfl
  | minus => rfl

/-- The exponent is taken with its mark, if there is one. -/
theorem takeExponent_of_isExponent {exponent : Option (Bool × List Nat)}
    (isExponent : IsExponent raw exponent) (noDigit : Lacks isDigit rest)
    (noMark : Lacks isExponentMark rest) :
    takeExponent (raw.map some ++ rest) = .ok (exponent, rest) := by
  cases isExponent with
  | absent =>
    cases rest with
    | nil => rfl
    | cons character others =>
      have unmarked := noMark character rfl
      simp [takeExponent, unmarked]
  | @present mark sign raw down digits isMark isSign isDigits =>
    have marked : isExponentMark (some mark) = true := by
      rcases isMark with rfl | rfl <;> rfl
    have read := takeDigits_of_isDigits isDigits noDigit
    obtain ⟨present, areDigits, _⟩ := isDigits
    obtain ⟨first, others, rfl⟩ := List.exists_cons_of_ne_nil present
    have signed := takeSign_of_isSign isSign (areDigits first List.mem_cons_self)
      (others.map some ++ rest)
    rw [List.map_cons, List.map_append, List.cons_append, List.append_assoc]
    simp only [takeExponent, marked, if_true]
    rw [List.map_cons, List.cons_append] at read ⊢
    rw [signed, read]

/-- Where a number ends that is written as it should be. -/
theorem take_of_isNumeral {numeral : Numeral} (isNumeral : IsNumeral raw numeral)
    (ends : Ends rest) : Numeral.take (raw.map some ++ rest) = .ok (numeral, rest) := by
  obtain ⟨negative, wholeDigits, fractionDigits, exponentDigits⟩ := numeral
  obtain ⟨⟨whole, fraction, exponent, rfl, isWhole, isFraction, isExponent⟩, zeroAlone⟩ := isNumeral
  dsimp only at isWhole isFraction isExponent zeroAlone
  -- A part ends where the next one begins or, if all of these are absent, where the number ends.
  have noDigit : Lacks isDigit rest := ends.lacks (by decide)
  have noPoint : Lacks isPoint rest := ends.lacks (by decide)
  have noMark : Lacks isExponentMark rest := ends.lacks (by decide)
  have behindFraction : Lacks isDigit (exponent.map some ++ rest) ∧
      Lacks isPoint (exponent.map some ++ rest) := by
    cases isExponent with
    | absent => exact ⟨noDigit, noPoint⟩
    | present isMark => rcases isMark with rfl | rfl <;> exact ⟨.cons rfl _, .cons rfl _⟩
  have behindWhole : Lacks isDigit (fraction.map some ++ (exponent.map some ++ rest)) := by
    cases isFraction with
    | absent => exact behindFraction.1
    | present => exact .cons rfl _
  have unsigned (negative : Bool) : Numeral.takeUnsigned negative
      (whole.map some ++ (fraction.map some ++ (exponent.map some ++ rest))) =
        .ok (⟨negative, wholeDigits, fractionDigits, exponentDigits⟩, rest) := by
    unfold Numeral.takeUnsigned
    rw [takeWhole_of_isDigits isWhole zeroAlone behindWhole]
    simp only [takeFraction_of_isFraction isFraction behindFraction.1 behindFraction.2,
      takeExponent_of_isExponent isExponent noDigit noMark]
  simp only [List.map_append, List.append_assoc]
  cases negative with
  | true => exact unsigned true
  | false =>
    refine Eq.trans ?_ (unsigned false)
    obtain ⟨first, others, rfl⟩ := List.exists_cons_of_ne_nil isWhole.1
    have firstDigit := isWhole.2.1 first List.mem_cons_self
    simp only [Bool.false_eq_true, if_false, List.map_nil, List.nil_append, List.map_cons,
      List.cons_append]
    unfold Numeral.take
    split
    · next same =>
      obtain rfl := Option.some.inj (List.cons.inj same).1
      exact absurd firstDigit (by decide)
    · rfl

end NodeTelemetry.Json
