/-
This file says which numbers are accepted as the height of a block: those that are written with
decimal digits alone and fit into 64 bits. Such a height is observed as the nearest binary64 number.
Any other number makes its line one that shows nothing, so a height is never wrapped or brought into
range.

The record may have any layout, and the number may be of any length and form that JSON allows. What
the reader of words makes of the number is known for itself, and it is carried over to the record:
if the number is a word, the record is one that is written with this height, and if it is refused,
the record is refused for this fault, since nothing else is wrong with it. An observation is a
binary64 number, so a height beyond 53 bits may be rounded there.
-/

import NodeTelemetry.Family
import NodeTelemetry.Proofs.Binary64.NearestNumber
import NodeTelemetry.Proofs.Json.Failures
import NodeTelemetry.Proofs.Json.Words
import NodeTelemetry.Proofs.Line.Layouts

namespace NodeTelemetry.Line.BlockTime

open Json (AreDigits IsNumeral IsWord Numeral WritesRecord)

variable {raw literal : List Char} {line : String} {record : BlockTime} {numeral : Numeral}

/-- Whether a text is a record in some layout whose height is written as some text, and whose other
fields are written as those of a record. -/
def HasHeight (literal : List Char) (record : BlockTime) : List Char → Prop :=
  WritesRecord names fun name held =>
    if name = "height" then held = some literal else record.Writes name held

/-- A record whose height is a word is one that is written with this height. -/
theorem isWritten_of_hasHeight {height : UInt64} (hasHeight : HasHeight literal record raw)
    (isWord : IsWord literal height) : IsWritten { record with height := some height } raw := by
  refine hasHeight.imp fun name held written => ?_
  by_cases isHeight : name = "height"
  · subst isHeight
    obtain rfl : held = some literal := written
    exact ⟨fun _ => isWord, fun same => absurd same (by decide), fun same => absurd same (by decide)⟩
  · rw [if_neg isHeight] at written
    exact ⟨fun same => absurd same isHeight, written.2⟩

/-- A record is refused if its height is. -/
theorem reader_of_hasHeight {fault : Json.Fault} (hasHeight : HasHeight literal record raw)
    (begins : Json.Begins literal) (answers : Json.wordReader.Answers literal (.error fault)) :
    reader.Answers raw (.error fault) := by
  have writes : WritesRecord (Json.fieldNames fields) _ raw := hasHeight
  refine Json.recordReader_error "height" (by decide) ?_ ?_ writes blank
  · rw [if_pos rfl]
    exact Option.some_ne_none literal ∘ Eq.symm
  · intro field member value written
    by_cases isHeight : field.name = "height"
    · rw [if_pos isHeight] at written
      obtain rfl := Option.some.inj written
      refine ⟨begins.starts, ?_⟩
      rw [if_pos isHeight]
      simp only [fields, List.mem_cons, List.not_mem_nil, or_false] at member
      rcases member with rfl | rfl | rfl
      · exact (answers.orNull begins).map _
      · exact absurd isHeight (by decide)
      · exact absurd isHeight (by decide)
    · rw [if_neg isHeight] at written
      obtain ⟨starts, accepted⟩ := answers_put field member value written
      refine ⟨starts, ?_⟩
      rw [if_neg isHeight]
      exact ⟨_, accepted⟩

/-- The observation of a height that is given as a number. -/
theorem heightObservation_ofNat {number : Nat} (small : number < twoTo 64) :
    heightObservation (UInt64.ofNat number) =
      { name := "block_height"
        labels := []
        change := .set (Binary64.ofNat number) } := by
  rw [heightObservation, UInt64.toNat_ofNat', Nat.mod_eq_of_lt small]
  rfl

/-- A number of any length in the place of the height, in a record where nothing else is wrong. If
it is written with digits alone and fits into 64 bits, the line is accepted and shows the binary64
number nearest to it. If not, the line is refused for what it is as JSON and shows nothing. -/
theorem observe_of_height (isLine : IsLine raw line) (hasHeight : HasHeight literal record raw)
    (isNumeral : IsNumeral literal numeral) :
    (AreDigits literal ∧ Nat.ofDigitChars 10 literal 0 ≤ twoTo 64 - 1 →
      Binary64.IsNearestTo (Nat.ofDigitChars 10 literal 0)
        (Binary64.ofNat (Nat.ofDigitChars 10 literal 0)) ∧
      observe line = .ok
        ({ name := "block_height"
           labels := []
           change := .set (Binary64.ofNat (Nat.ofDigitChars 10 literal 0)) } ::
          (record.applyDuration.map durationObservation).toList)) ∧
    (¬(AreDigits literal ∧ Nat.ofDigitChars 10 literal 0 ≤ twoTo 64 - 1) →
      (∃ fault, observe line = .error (.json fault)) ∧
        ∀ table, Family.blocks.recorded table line = []) := by
  have bound : Nat.ofDigitChars 10 literal 0 ≤ twoTo 64 - 1 ↔
      Nat.ofDigitChars 10 literal 0 < twoTo 64 := Nat.le_sub_one_iff_lt (by decide)
  rw [bound]
  constructor
  · rintro ⟨areDigits, small⟩
    have isWord := Json.isWord_of_areDigits isNumeral areDigits small
    have read := readJson_of_answers (reader_of_isWritten (isWritten_of_hasHeight hasHeight isWord))
      isLine
    have shown := heightObservation_ofNat small
    refine ⟨Binary64.isNearestTo_ofNat small, ?_⟩
    rw [observe, read, ← shown]
    rfl
  · intro noWord
    obtain ⟨fault, answers⟩ := Json.wordReader_answers_error isNumeral noWord
    have read := readJson_of_answers (reader_of_hasHeight hasHeight
      (Json.begins_of_isNumeral isNumeral) answers) isLine
    have refused : observe line = .error (.json fault) := by
      rw [observe, read]
      rfl
    refine ⟨⟨fault, refused⟩, fun table => ?_⟩
    rw [Family.recorded, show Family.blocks.observe table line = _ from refused]

/-! ### Heights at the bound -/

/-- A record as a list with some height and nothing else. -/
def heightLine (literal : List Char) : String :=
  String.ofList ('[' :: (literal ++ ",null,null]".toList))

/-- Whatever stands in the place of the height is its text. -/
theorem hasHeight_heightLine (literal : List Char) :
    HasHeight literal blank (heightLine literal).toList ∧
      IsLine (heightLine literal).toList (heightLine literal) := by
  have noGap := List.forall_mem_nil (· ∈ [' ', '\t', '\n', '\r'])
  have isElement (value : List Char) : Json.IsElement value value :=
    ⟨[], [], noGap, noGap, by rw [List.append_nil, List.nil_append]⟩
  have null {name : String} (other : name ≠ "height") :
      if name = "height" then some "null".toList = some literal
        else blank.Writes name (some "null".toList) := by
    rw [if_neg other]
    exact ⟨fun _ => rfl, fun _ => rfl, fun _ => rfl⟩
  refine ⟨?_, [], [], noGap, noGap, by rw [List.append_nil, List.nil_append]⟩
  rw [heightLine, String.toList_ofList]
  refine .list ⟨_, .more (isElement literal) (.more (isElement "null".toList)
    (.last (isElement "null".toList))), ?_⟩ (.cons rfl (.cons (null (by decide))
      (.cons (null (by decide)) .nil)))
  rw [List.append_assoc]
  rfl

theorem isNumeral_of_digits {first : Char} {others : List Char}
    (areDigits : AreDigits (first :: others)) (notZero : first.toNat - '0'.toNat ≠ 0) :
    IsNumeral (first :: others)
      ⟨false, (first :: others).map fun character => character.toNat - '0'.toNat, [], none⟩ := by
  refine ⟨⟨_, [], [], (List.append_nil _).symm, ⟨List.cons_ne_nil _ _,
    List.all_eq_true.mp areDigits, rfl⟩, .absent, .absent⟩, fun rest same => ?_⟩
  exact absurd (List.cons.inj same).1 notZero

/-- The greatest height, which is rounded up, the next one, and one that is written with a point. -/
theorem observe_greatestHeight :
    observe (heightLine "18446744073709551615".toList) = .ok
      [{ name := "block_height"
         labels := []
         change := .set ⟨0x43F0000000000000⟩ }] ∧
    (∃ fault, observe (heightLine "18446744073709551616".toList) = .error (.json fault)) ∧
    ∃ fault, observe (heightLine "7.0".toList) = .error (.json fault) := by
  obtain ⟨hasHeight, isLine⟩ := hasHeight_heightLine "18446744073709551615".toList
  obtain ⟨hasHeightToo, isLineToo⟩ := hasHeight_heightLine "18446744073709551616".toList
  obtain ⟨hasPoint, isLineWithPoint⟩ := hasHeight_heightLine "7.0".toList
  have withPoint : IsNumeral "7.0".toList ⟨false, [7], [0], none⟩ := by
    have whole : Json.IsDigits ['7'] [7] := ⟨by decide, List.forall_mem_singleton.mpr rfl, rfl⟩
    have fraction : Json.IsDigits ['0'] [0] := ⟨by decide, List.forall_mem_singleton.mpr rfl, rfl⟩
    refine ⟨⟨['7'], ['.', '0'], [], rfl, whole, .present fraction, .absent⟩, fun rest same => ?_⟩
    cases same
  have greatest := (observe_of_height isLine hasHeight
    (isNumeral_of_digits (by decide) (by decide))).1 (by decide)
  have nearest : Binary64.ofNat (Nat.ofDigitChars 10 "18446744073709551615".toList 0) =
      ⟨0x43F0000000000000⟩ := by
    decide +kernel
  rw [nearest] at greatest
  exact ⟨greatest.2,
    ((observe_of_height isLineToo hasHeightToo
      (isNumeral_of_digits (by decide) (by decide))).2 (by decide)).1,
    ((observe_of_height isLineWithPoint hasPoint withPoint).2 (by decide)).1⟩

end NodeTelemetry.Line.BlockTime
