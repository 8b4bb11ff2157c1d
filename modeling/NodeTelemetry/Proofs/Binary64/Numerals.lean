/-
This file says which characters the text of a number is made of: digits, a sign and a point, or the
letters of `inf` and `NaN`. So whatever the number is, its text ends no line and needs no quotes.

The text is put together from few parts. The number is chosen among several, and the shortest that
reads back is taken, but for the characters it does not matter which one it is: each way through the
definition ends in these parts, so the cases follow the branches of the printer. The text of
infinity and of what is no number is fixed.
-/

import NodeTelemetry.Binary64.Shortest

namespace NodeTelemetry.Binary64

/-- Whether a character can stand in the text of a number. -/
def isNumeral (character : Char) : Bool :=
  character.isDigit || "-.infNa".toList.contains character

theorem isNumeral_of_mem_toDigits {number : Nat} {character : Char}
    (member : character ∈ Nat.toDigits 10 number) : isNumeral character = true :=
  Bool.or_eq_true_iff.mpr
    (.inl (Nat.isDigit_of_mem_toDigits (by decide) (Nat.le_refl 10) member))

/-- The point is put between digits, with zeros in front if there are too few. -/
theorem isNumeral_of_mem_pointed {number places : Nat} {character : Char}
    (member : character ∈ pointed number places) : isNumeral character = true := by
  have digits : ∀ other ∈ (Nat.toDigits 10 number).leftpad (places + 1) '0',
      isNumeral other = true := by
    intro other among
    rcases List.mem_append.mp among with padding | digit
    · rw [List.eq_of_mem_replicate padding]
      rfl
    · exact isNumeral_of_mem_toDigits digit
  unfold pointed at member
  rcases List.mem_append.mp member with before | behind
  · exact digits character (List.mem_of_mem_take before)
  · rcases List.mem_cons.mp behind with rfl | further
    · rfl
    · exact digits character (List.mem_of_mem_drop further)

theorem isNumeral_of_mem_positiveNumeral {number : Binary64} {character : Char}
    (member : character ∈ number.positiveNumeral) : isNumeral character = true := by
  unfold positiveNumeral at member
  dsimp only at member
  split at member
  · rcases List.mem_append.mp member with digit | zero
    · exact isNumeral_of_mem_toDigits digit
    · rw [List.eq_of_mem_replicate zero]
      rfl
  · exact isNumeral_of_mem_pointed member

/-- Whatever the number is, its text is made of these characters. -/
theorem isNumeral_of_mem_text {number : Binary64} {character : Char}
    (member : character ∈ number.text.toList) : isNumeral character = true := by
  have magnitude : ∀ other ∈ (if number.isInfinite then ['i', 'n', 'f']
      else if number.magnitudeBits = 0 then ['0'] else number.positiveNumeral),
      isNumeral other = true := by
    intro other among
    split at among
    · exact List.all_eq_true.mp (show ['i', 'n', 'f'].all isNumeral = true by decide) other among
    split at among
    · rw [List.mem_singleton.mp among]
      rfl
    · exact isNumeral_of_mem_positiveNumeral among
  unfold text at member
  split at member
  · exact List.all_eq_true.mp (show "NaN".toList.all isNumeral = true by decide) character member
  · dsimp only at member
    rw [String.toList_ofList] at member
    split at member
    · rcases List.mem_cons.mp member with rfl | further
      · rfl
      · exact magnitude character further
    · exact magnitude character member

end NodeTelemetry.Binary64
