/-
This file shows what is left of a text without the blanks at its ends: a text with no blank at
either end, and every such text is left as it is.

Trimming drops the characters in front as long as they are blanks, and then those behind. What drops
in front ends at a character that is none, and this is still the first one when those behind are
dropped, unless nothing is left at all. What was dropped consists of blanks only, in front and
behind, so the text falls into three parts, and as the middle one neither begins nor ends with a
blank there is only one way to divide it.

A blank is a character of white space, as Unicode has it. The property is given here by the list of
its code points, apart from the ranges that are run, and the two are compared once for all
characters.
-/

import Mathlib.Data.List.TakeWhile
import NodeTelemetry.Text.Blank

namespace NodeTelemetry.Text

variable {characters : List Char}

/-- Whether there is no blank at either end. -/
structure IsTrimmed (characters : List Char) : Prop where
  head : ∀ character ∈ characters.head?, isBlank character = false
  last : ∀ character ∈ characters.getLast?, isBlank character = false

theorem dropWhile_isBlank (head : ∀ character ∈ characters.head?, isBlank character = false) :
    characters.dropWhile isBlank = characters := by
  cases characters with
  | nil => rfl
  | cons character others => rw [List.dropWhile_cons, head character rfl, if_neg Bool.false_ne_true]

theorem head?_dropWhile_isBlank (characters : List Char) :
    ∀ character ∈ (characters.dropWhile isBlank).head?, isBlank character = false := by
  intro character isHead
  have first := List.head?_dropWhile_not isBlank characters
  rw [Option.mem_def.mp isHead] at first
  exact first

/-- A text without a blank at its ends is left as it is. -/
theorem IsTrimmed.trimmed_eq (isTrimmed : IsTrimmed characters) : trimmed characters = characters := by
  have last : ∀ character ∈ characters.reverse.head?, isBlank character = false := by
    rw [List.head?_reverse]
    exact isTrimmed.last
  rw [trimmed, dropWhile_isBlank isTrimmed.head, dropWhile_isBlank last, List.reverse_reverse]

/-- What is dropped behind is behind what is left. -/
theorem exists_trimmed_append (characters : List Char) :
    ∃ blanks, trimmed characters ++ blanks = characters.dropWhile isBlank := by
  have front := (@List.dropWhile_suffix _ (characters.dropWhile isBlank).reverse isBlank).reverse
  rwa [List.reverse_reverse] at front

/-- What is left has no blank at either end. -/
theorem isTrimmed_trimmed (characters : List Char) : IsTrimmed (trimmed characters) where
  head character isHead := by
    obtain ⟨blanks, parts⟩ := exists_trimmed_append characters
    refine head?_dropWhile_isBlank characters character ?_
    rw [← parts, List.head?_append, Option.mem_def.mp isHead]
    rfl
  last character isLast := by
    rw [trimmed, List.getLast?_reverse] at isLast
    exact head?_dropWhile_isBlank _ character isLast

/-- The code points with the Unicode property `White_Space`. -/
def whiteSpace : List Nat :=
  [0x9, 0xA, 0xB, 0xC, 0xD, 0x20, 0x85, 0xA0, 0x1680, 0x2000, 0x2001, 0x2002, 0x2003, 0x2004,
    0x2005, 0x2006, 0x2007, 0x2008, 0x2009, 0x200A, 0x2028, 0x2029, 0x202F, 0x205F, 0x3000]

/-- A blank is a character of white space. -/
theorem isBlank_iff {character : Char} :
    isBlank character = true ↔ character.toNat ∈ whiteSpace := by
  simp only [isBlank, whiteSpace, Bool.or_eq_true, Bool.and_eq_true, decide_eq_true_eq, beq_iff_eq,
    List.mem_cons, List.not_mem_nil, or_false]
  constructor <;> intro isOneOf <;> omega

theorem isBlank_eq_false_iff {character : Char} :
    isBlank character = false ↔ character.toNat ∉ whiteSpace := by
  rw [← isBlank_iff, Bool.not_eq_true]

/-- Whether a text is what is left of another one without the white space at its ends. -/
structure IsTrimOf (text trimmed : String) : Prop where
  parts : ∃ front behind, text.toList = front ++ trimmed.toList ++ behind ∧
    ∀ character ∈ front ++ behind, character.toNat ∈ whiteSpace
  head : ∀ character ∈ trimmed.toList.head?, character.toNat ∉ whiteSpace
  last : ∀ character ∈ trimmed.toList.getLast?, character.toNat ∉ whiteSpace

theorem isBlank_of_mem_takeWhile {character : Char}
    (member : character ∈ characters.takeWhile isBlank) : character.toNat ∈ whiteSpace :=
  isBlank_iff.mp (List.mem_takeWhile_imp member)

/-- Trimming leaves what is between the white space at the ends of a text. -/
theorem isTrimOf_trim (text : String) : IsTrimOf text (trim text) := by
  obtain ⟨head, last⟩ := isTrimmed_trimmed text.toList
  simp only [isBlank_eq_false_iff] at head last
  refine ⟨⟨text.toList.takeWhile isBlank,
    ((text.toList.dropWhile isBlank).reverse.takeWhile isBlank).reverse, ?_, ?_⟩, ?_, ?_⟩
  · rw [trim, String.toList_ofList, trimmed, List.append_assoc, ← List.reverse_append,
      List.takeWhile_append_dropWhile, List.reverse_reverse, List.takeWhile_append_dropWhile]
  · intro character member
    rcases List.mem_append.mp member with front | behind
    · exact isBlank_of_mem_takeWhile front
    · exact isBlank_of_mem_takeWhile (List.mem_reverse.mp behind)
  · rwa [trim, String.toList_ofList]
  · rwa [trim, String.toList_ofList]

theorem trim_trim (text : String) : trim (trim text) = trim text := by
  rw [trim, trim, String.toList_ofList, (isTrimmed_trimmed _).trimmed_eq]

theorem IsTrimmed.trim_eq {text : String} (isTrimmed : IsTrimmed text.toList) : trim text = text := by
  rw [trim, isTrimmed.trimmed_eq, String.ofList_toList]

theorem isBlank_of_isDigit {character : Char} (isDigit : character.isDigit = true) :
    isBlank character = false := by
  obtain ⟨low, high⟩ : 48 ≤ character.toNat ∧ character.toNat ≤ 57 :=
    Char.isDigit_iff_toNat.mp isDigit
  simp only [isBlank, Bool.or_eq_false_iff, Bool.and_eq_false_iff, decide_eq_false_iff_not,
    beq_eq_false_iff_ne]
  omega

end NodeTelemetry.Text
