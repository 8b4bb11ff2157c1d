/-
This file shows that texts are ordered like the bytes that encode them. Of two characters the
greater one has the greater bytes, and neither is encoded as the beginning of the other, so the
first characters that differ decide for the bytes as well.

A character is encoded in one to four bytes. The first of these tells how many there are, and it is
the greater the more there are, so of two characters of different lengths the first bytes decide.
With the same length the bytes hold the bits of the character, six in each and the highest ones in
front, so two bytes differ for the first time where the numbers of the characters do, and the
greater number has the greater byte there. By induction over the texts the order of the characters
is then that of the bytes.
-/

import Mathlib.Tactic.SplitIfs
import NodeTelemetry.Text.Utf8

namespace NodeTelemetry.Text.Utf8

/-! ### Bytes of a text -/

/-- The bytes of an array are listed from some index on. -/
theorem toList_loop_eq (bytes : ByteArray) (index : Nat) (read : List UInt8) :
    ByteArray.toList.loop bytes index read = read.reverse ++ bytes.data.toList.drop index := by
  fun_induction ByteArray.toList.loop bytes index read with
  | case1 index read inside inductionHypothesis =>
    have within : index < bytes.data.toList.length := inside
    rw [inductionHypothesis, List.drop_eq_getElem_cons within, List.reverse_cons,
      List.append_assoc, List.singleton_append]
    simp [ByteArray.get!, inside]
  | case2 index read outside =>
    have beyond : bytes.data.toList.length ≤ index := Nat.not_lt.mp outside
    rw [List.drop_eq_nil_of_le beyond, List.append_nil]

/-- A text is encoded character by character. -/
theorem encode_eq_flatMap (text : String) :
    encode text = text.toList.flatMap String.utf8EncodeChar := by
  rw [encode, ByteArray.toList, toList_loop_eq]
  show [] ++ text.toByteArray.data.toList = _
  rw [List.nil_append, ← String.utf8Encode_toList, List.utf8Encode, List.toList_data_toByteArray]

/-! ### The order of the bytes -/

/-- The first byte decides. -/
theorem ofNat_cons_lt_of_lt {first second : Nat} (rest others : List UInt8) (small : second < 256)
    (less : first < second) : UInt8.ofNat first :: rest < UInt8.ofNat second :: others :=
  List.cons_lt_cons_iff.mpr
    (.inl ((UInt8.ofNat_lt_iff_lt (Nat.lt_trans less small) small).mpr less))

/-- The first byte decides unless it is the same. -/
theorem ofNat_cons_lt_of_le {first second : Nat} {rest others : List UInt8} (small : second < 256)
    (notGreater : first ≤ second) (further : first = second → rest < others) :
    UInt8.ofNat first :: rest < UInt8.ofNat second :: others := by
  rcases Nat.lt_or_eq_of_le notGreater with less | same
  · exact ofNat_cons_lt_of_lt rest others small less
  · exact List.cons_lt_cons_iff.mpr (.inr ⟨congrArg UInt8.ofNat same, further same⟩)

theorem toNat_val_lt (character : Char) : character.val.toNat < 0x110000 := by
  rcases character.valid with below | ⟨_, below⟩
  · exact Nat.lt_trans below (by decide)
  · exact below

theorem exists_utf8EncodeChar_eq_cons (character : Char) :
    ∃ byte more, String.utf8EncodeChar character = byte :: more := by
  refine List.exists_cons_of_length_pos ?_
  rw [String.length_utf8EncodeChar]
  exact character.utf8Size_pos

/-- The bytes of a lesser character come first, whatever stands behind them. -/
theorem utf8EncodeChar_append_lt {first second : Char} (less : first < second)
    (rest others : List UInt8) :
    String.utf8EncodeChar first ++ rest < String.utf8EncodeChar second ++ others := by
  have numbers : first.val.toNat < second.val.toNat := less
  have bounded := toNat_val_lt second
  dsimp only [String.utf8EncodeChar]
  generalize first.val.toNat = value at numbers
  generalize second.val.toNat = other at numbers bounded
  -- A longer encoding begins with a greater byte. Where both are of the same length, the bytes are
  -- the digits of the numbers.
  split_ifs <;> try omega
  · exact ofNat_cons_lt_of_lt _ _ (by omega) (by omega)
  · exact ofNat_cons_lt_of_lt _ _ (by omega) (by omega)
  · exact ofNat_cons_lt_of_lt _ _ (by omega) (by omega)
  · exact ofNat_cons_lt_of_lt _ _ (by omega) (by omega)
  · refine ofNat_cons_lt_of_le (by omega) (by omega) fun _ => ?_
    exact ofNat_cons_lt_of_lt _ _ (by omega) (by omega)
  · exact ofNat_cons_lt_of_lt _ _ (by omega) (by omega)
  · exact ofNat_cons_lt_of_lt _ _ (by omega) (by omega)
  · refine ofNat_cons_lt_of_le (by omega) (by omega) fun _ => ?_
    refine ofNat_cons_lt_of_le (by omega) (by omega) fun _ => ?_
    exact ofNat_cons_lt_of_lt _ _ (by omega) (by omega)
  · exact ofNat_cons_lt_of_lt _ _ (by omega) (by omega)
  · refine ofNat_cons_lt_of_le (by omega) (by omega) fun _ => ?_
    refine ofNat_cons_lt_of_le (by omega) (by omega) fun _ => ?_
    refine ofNat_cons_lt_of_le (by omega) (by omega) fun _ => ?_
    exact ofNat_cons_lt_of_lt _ _ (by omega) (by omega)

/-- Texts are ordered like the bytes that encode them. -/
theorem encode_lt_encode {first second : String} (less : first < second) :
    encode first < encode second := by
  rw [encode_eq_flatMap, encode_eq_flatMap]
  rw [String.lt_iff] at less
  generalize first.toList = characters at less
  generalize second.toList = others at less
  induction characters generalizing others with
  | nil =>
    cases others with
    | nil => exact absurd less (List.lt_irrefl [])
    | cons other rest =>
      obtain ⟨byte, more, encoded⟩ := exists_utf8EncodeChar_eq_cons other
      rw [List.flatMap_cons, encoded]
      exact List.nil_lt_cons _ _
  | cons character rest inductionHypothesis =>
    cases others with
    | nil => exact absurd less (List.not_lt_nil _)
    | cons other others =>
      rw [List.flatMap_cons, List.flatMap_cons]
      rcases List.cons_lt_cons_iff.mp less with before | ⟨rfl, further⟩
      · exact utf8EncodeChar_append_lt before _ _
      · exact List.append_left_lt (inductionHypothesis others further)

end NodeTelemetry.Text.Utf8
