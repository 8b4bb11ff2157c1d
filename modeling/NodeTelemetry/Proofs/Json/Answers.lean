/-
This file says what it means that a reader answers a text, and shows it for the readers of single
values. An answer does not depend on the gap in front of the text, nor on what stands behind it.

A reader gets all that is left of the input and hands back what it has not taken. So that readers of
values can be put together to readers of lists and records, each must stop exactly behind its own
value, wherever the value stands. What follows may be anything that can follow a value: a gap, a
comma, a closing bracket, or the end. Only numbers need this, since they have no mark at their own
end. A string ends with its quote, and `null` with its last letter.
-/

import NodeTelemetry.Json.Scalar
import NodeTelemetry.Proofs.Json.Skipping

namespace NodeTelemetry.Json

variable {Value First Second : Type} {raw : List Char}

/-- Whether a reader answers a text, wherever it stands, by a value behind which it stops, or by a
fault. -/
def Reader.Answers (reader : Reader Value) (raw : List Char) (result : Except Fault Value) : Prop :=
  ∀ (gap : List Char) (rest : Input), IsGap gap → Ends rest →
    reader.read (gap.map some ++ (raw.map some ++ rest)) = result.map (·, rest)

namespace Reader.Answers

theorem map {reader : Reader First} {result : Except Fault First}
    (answers : reader.Answers raw result) (change : First → Second) :
    (reader.map change).Answers raw (result.map change) := by
  intro gap rest isGap ends
  simp only [Reader.map, answers gap rest isGap ends]
  cases result with
  | error fault => rfl
  | ok value => rfl

/-- An answer that is accepted stays one. -/
theorem refine {reader : Reader First} {value : First} (answers : reader.Answers raw (.ok value))
    {accept : First → Option Second} {accepted : Second} (accepts : accept value = some accepted) :
    (reader.refine accept).Answers raw (.ok accepted) := by
  intro gap rest isGap ends
  simp only [Reader.refine, answers gap rest isGap ends, Except.map, accepts]

theorem refine_error {reader : Reader First} {fault : Fault}
    (answers : reader.Answers raw (.error fault)) (accept : First → Option Second) :
    (reader.refine accept).Answers raw (.error fault) := by
  intro gap rest isGap ends
  simp only [Reader.refine, answers gap rest isGap ends, Except.map]

/-- An answer that is not accepted is a fault of its own, behind the same text. -/
theorem refine_misfit {reader : Reader First} {value : First}
    (answers : reader.Answers raw (.ok value)) {accept : First → Option Second}
    (refuses : accept value = none) : (reader.refine accept).Answers raw (.error .misfit) := by
  intro gap rest isGap ends
  simp only [Reader.refine, answers gap rest isGap ends, Except.map, refuses]

end Reader.Answers

/-! ### Nothing -/

/-- Whether a text begins as a value does that is not `null`. -/
def Begins (raw : List Char) : Prop :=
  ∃ first others, raw = first :: others ∧ IsFirst first ∧ first ≠ 'n'

theorem Begins.starts (begins : Begins raw) : Starts raw := by
  obtain ⟨first, others, same, isFirst, _⟩ := begins
  exact ⟨first, others, same, isFirst⟩

namespace Reader

/-- Where `null` is allowed it is an answer. -/
theorem answers_orNull_null (reader : Reader Value) :
    reader.orNull.Answers ['n', 'u', 'l', 'l'] (.ok none) := by
  intro gap rest isGap _
  have skipped := skipGap_append_cons isGap (some 'n') rfl
    (['u', 'l', 'l'].map some ++ rest)
  simp only [List.map_cons, List.cons_append] at skipped ⊢
  rw [orNull]
  simp only [skipped]
  rfl

/-- Where `null` is allowed other values are answered as before. -/
theorem Answers.orNull {reader : Reader Value} {result : Except Fault Value}
    (answers : reader.Answers raw result) (begins : Begins raw) :
    reader.orNull.Answers raw (result.map some) := by
  intro gap rest isGap ends
  have skipped := skipGap_of_starts isGap begins.starts rest
  have direct := answers [] rest (List.forall_mem_nil _) ends
  rw [List.map_nil, List.nil_append] at direct
  obtain ⟨first, others, rfl, _, notNull⟩ := begins
  simp only [Reader.orNull, skipped]
  split
  · next same => exact absurd (Option.some.inj (List.cons.inj same).1) notNull
  · rw [direct]
    cases result with
    | error fault => rfl
    | ok value => rfl

/-- What may hold nothing instead of a value is read as what it holds, and turned into a change. -/
theorem answers_orNull {reader : Reader Value} {Means : List Char → Value → Prop}
    (begins : ∀ {raw value}, Means raw value → Begins raw)
    (answers : ∀ {raw value}, Means raw value → reader.Answers raw (.ok value))
    {held : Option Value} (holds : OrNull Means raw held) (change : Option Value → First) :
    Starts raw ∧ (reader.orNull.map change).Answers raw (.ok (change held)) := by
  cases held with
  | none =>
    obtain rfl := holds
    exact ⟨⟨'n', _, rfl, .inl (by decide)⟩, reader.answers_orNull_null.map change⟩
  | some value => exact ⟨(begins holds).starts, ((answers holds).orNull (begins holds)).map change⟩

end Reader

/-! ### Any value -/

theorem skipValue_answers (isValue : IsValue raw) : skipValue.Answers raw (.ok ()) := by
  intro gap rest isGap ends
  simp only [skipValue, passValueIn_of_isValue isValue isGap ends]
  rfl

/-! ### Strings -/

theorem begins_of_isText {text : String} (isText : IsText raw text) : Begins raw := by
  obtain ⟨inside, rfl, _⟩ := isText
  exact ⟨'"', _, rfl, .inl (by decide), by decide⟩

theorem textReader_answers {text : String} (isText : IsText raw text) :
    textReader.Answers raw (.ok text) := by
  intro gap rest isGap _
  have skipped := skipGap_of_starts isGap (begins_of_isText isText).starts rest
  obtain ⟨inside, rfl, spells⟩ := isText
  have decoded := textFrom_of_spells spells [] rest
  simp only [List.reverse_nil, List.map_nil, List.nil_append, String.ofList_toList] at decoded
  simp only [textReader, skipped]
  simp only [List.map_cons, List.map_append, List.map_nil, List.cons_append, List.append_assoc,
    List.nil_append, decoded]
  rfl

/-! ### Numbers -/

theorem begins_of_isNumeral {numeral : Numeral} (isNumeral : IsNumeral raw numeral) :
    Begins raw := by
  obtain ⟨first, others, rfl, rfl | digit⟩ := exists_cons_of_isNumeral isNumeral
  · exact ⟨'-', others, rfl, .inl (by decide), by decide⟩
  · refine ⟨first, others, rfl, .inr digit, ?_⟩
    rintro rfl
    cases digit

/-- A number is read to its end, also when it is out of range. -/
theorem numberReader_answers_number {numeral : Numeral} (isNumeral : IsNumeral raw numeral) :
    numberReader.Answers raw numeral.number := by
  intro gap rest isGap ends
  have skipped := skipGap_of_starts isGap (begins_of_isNumeral isNumeral).starts rest
  have begins : beginsNumber (raw.map some ++ rest) = true := by
    obtain ⟨first, others, rfl, rfl | digit⟩ := exists_cons_of_isNumeral isNumeral
    · rfl
    · exact Bool.or_eq_true_iff.mpr (.inl digit)
  simp only [numberReader, skipped, begins, if_true, Number.take, take_of_isNumeral isNumeral ends]
  cases numeral.number with
  | error fault => rfl
  | ok number => rfl

theorem numberReader_answers {numeral : Numeral} {number : Number}
    (isNumeral : IsNumeral raw numeral) (inRange : numeral.number = .ok number) :
    numberReader.Answers raw (.ok number) :=
  inRange ▸ numberReader_answers_number isNumeral

theorem realReader_answers {value : Binary64} (isReal : IsReal raw value) :
    realReader.Answers raw (.ok value) := by
  obtain ⟨numeral, number, isNumeral, inRange, rfl⟩ := isReal
  have answers := (numberReader_answers isNumeral inRange).map Number.toBinary64
  cases number with
  | whole whole => exact answers
  | real real => exact answers

/-- A number does not get smaller with further digits. -/
theorem le_foldl_digits (digits : List Nat) (significand : Nat) :
    significand ≤ digits.foldl (fun number digit => number * 10 + digit) significand := by
  induction digits generalizing significand with
  | nil => exact Nat.le_refl _
  | cons digit others inductionHypothesis =>
    have further := inductionHypothesis (significand * 10 + digit)
    rw [List.foldl_cons]
    omega

/-- Digits whose number fits into 64 bits are all absorbed. -/
theorem absorb_eq (digits : List Nat) {significand : Nat}
    (small : digits.foldl (fun number digit => number * 10 + digit) significand < twoTo 64) :
    absorb significand digits =
      (digits.foldl (fun number digit => number * 10 + digit) significand, []) := by
  induction digits generalizing significand with
  | nil => rfl
  | cons digit others inductionHypothesis =>
    have fits : significand * 10 + digit < twoTo 64 :=
      Nat.lt_of_le_of_lt (le_foldl_digits others _) small
    rw [absorb, if_pos fits]
    exact inductionHypothesis small

/-- A whole number that fits into a word is answered by this word. -/
theorem wordReader_answers {word : UInt64} (isWord : IsWord raw word) :
    wordReader.Answers raw (.ok word) := by
  obtain ⟨numeral, isNumeral, positive, noFraction, noExponent, same⟩ := isWord
  have absorbed : absorb 0 numeral.whole = (word.toNat, []) := by
    have small : numberOfDigits numeral.whole < twoTo 64 := same ▸ word.toNat_lt
    rw [← same]
    exact absorb_eq numeral.whole small
  have whole : numeral.number = .ok (.whole word.toNat) := by
    simp [Numeral.number, absorbed, positive, noFraction, noExponent]
  refine (numberReader_answers isNumeral whole).refine ?_
  simp [Number.toWord?]

theorem begins_of_isWord {word : UInt64} (isWord : IsWord raw word) : Begins raw := by
  obtain ⟨numeral, isNumeral, _⟩ := isWord
  exact begins_of_isNumeral isNumeral

theorem begins_of_isReal {value : Binary64} (isReal : IsReal raw value) : Begins raw := by
  obtain ⟨numeral, _, isNumeral, _⟩ := isReal
  exact begins_of_isNumeral isNumeral

end NodeTelemetry.Json
