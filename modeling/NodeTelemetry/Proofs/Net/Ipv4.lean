/-
This file shows that the numbers in addresses are read as they are written: the digits of a number
come back as the number, in base ten and in base sixteen, as long as no digit follows them. So an
IPv4 address is read as it is written, octet by octet.

Digits are taken as long as there are any, so a number is over where something stands that is no
digit, and this must be said of whatever follows. The digits that are written for a number are its
remainders by the base, the last one last, and the number is put together from them again by
multiplying and adding, which is an induction on the number by its last digit.
-/

import NodeTelemetry.Net.Ipv4

namespace NodeTelemetry.Net

variable {base number : Nat} {text rest : List Char}

/-! ### Digits -/

/-- Whether a text does not begin with a digit. -/
def Stops (base : Nat) (rest : List Char) : Prop :=
  ∀ character ∈ rest.head?, digit? base character = none

theorem stops_cons {character : Char} (noDigit : digit? base character = none) (rest : List Char) :
    Stops base (character :: rest) := by
  intro first same
  obtain rfl := Option.some.inj same
  exact noDigit

/-- The values of the digits in a text. -/
def digitsOf (base : Nat) (text : List Char) : List Nat :=
  text.filterMap (digit? base)

theorem length_digitsOf_le (base : Nat) (text : List Char) :
    (digitsOf base text).length ≤ text.length :=
  List.length_filterMap_le _ _

/-- Digits are taken up to the first character that is none. -/
theorem takeDigits_append (digits : ∀ character ∈ text, (digit? base character).isSome = true)
    (stops : Stops base rest) : takeDigits base (text ++ rest) = (digitsOf base text, rest) := by
  induction text with
  | nil =>
    cases rest with
    | nil => rfl
    | cons character others =>
      rw [List.nil_append, takeDigits, stops character rfl]
      rfl
  | cons character text inductionHypothesis =>
    obtain ⟨first, others⟩ := List.forall_mem_cons.mp digits
    obtain ⟨value, isDigit⟩ := Option.isSome_iff_exists.mp first
    rw [List.cons_append, takeDigits, isDigit, digitsOf, List.filterMap_cons_some isDigit]
    simp only [inductionHypothesis others]
    rfl

theorem takeDigits_of_stops (stops : Stops base rest) : takeDigits base rest = ([], rest) :=
  @takeDigits_append base [] rest (List.forall_mem_nil _) stops

/-! ### The digits of a number -/

/-- Whether numbers are written in a base with digits that are read in it. -/
structure IsBase (base : Nat) : Prop where
  one_lt : 1 < base
  read : ∀ value < base, digit? base (Nat.digitChar value) = some value

theorem isBase_ten : IsBase 10 :=
  ⟨by decide, by decide⟩

theorem isBase_sixteen : IsBase 16 :=
  ⟨by decide, by decide⟩

namespace IsBase

/-- What is written for a number are digits that are read. -/
theorem digit?_of_mem_toDigits (isBase : IsBase base) {character : Char}
    (member : character ∈ Nat.toDigits base number) :
    (digit? base character).isSome = true := by
  induction number using Nat.base_induction base isBase.one_lt with
  | single value less =>
    rw [Nat.toDigits_of_lt_base less] at member
    obtain rfl := List.mem_singleton.mp member
    rw [isBase.read value less]
    rfl
  | digit number value less positive inductionHypothesis =>
    rw [← Nat.toDigits_append_toDigits isBase.one_lt positive less,
      Nat.toDigits_of_lt_base less] at member
    rcases List.mem_append.mp member with before | last
    · exact inductionHypothesis before
    · obtain rfl := List.mem_singleton.mp last
      rw [isBase.read value less]
      rfl

theorem digitsOf_toDigits_of_lt (isBase : IsBase base) (less : number < base) :
    digitsOf base (Nat.toDigits base number) = [number] := by
  rw [Nat.toDigits_of_lt_base less, digitsOf, List.filterMap_cons_some (isBase.read number less),
    List.filterMap_nil]

/-- The last digit of a number is what is left over by the base. -/
theorem digitsOf_toDigits_append (isBase : IsBase base) {value : Nat} (positive : 0 < number)
    (less : value < base) : digitsOf base (Nat.toDigits base (base * number + value)) =
      digitsOf base (Nat.toDigits base number) ++ [value] := by
  rw [← Nat.toDigits_append_toDigits isBase.one_lt positive less, digitsOf, List.filterMap_append]
  exact congrArg _ (isBase.digitsOf_toDigits_of_lt less)

/-- A number is put together again from its digits. -/
theorem numberOf_toDigits (isBase : IsBase base) (number : Nat) :
    numberOf base (digitsOf base (Nat.toDigits base number)) = number := by
  induction number using Nat.base_induction base isBase.one_lt with
  | single value less =>
    rw [isBase.digitsOf_toDigits_of_lt less]
    exact (congrArg (· + value) (Nat.zero_mul base)).trans (Nat.zero_add value)
  | digit number value less positive inductionHypothesis =>
    rw [isBase.digitsOf_toDigits_append positive less, numberOf, List.foldl_append, ← numberOf,
      inductionHypothesis, Nat.mul_comm]
    rfl

theorem digitsOf_toDigits_ne_nil (isBase : IsBase base) (number : Nat) :
    digitsOf base (Nat.toDigits base number) ≠ [] := by
  induction number using Nat.base_induction base isBase.one_lt with
  | single value less =>
    rw [isBase.digitsOf_toDigits_of_lt less]
    exact List.cons_ne_nil _ _
  | digit number value less positive _ =>
    rw [isBase.digitsOf_toDigits_append positive less]
    exact List.append_ne_nil_of_right_ne_nil _ (List.cons_ne_nil _ _)

/-- Of all numbers only zero is written with a zero in front. -/
theorem eq_nil_of_digitsOf_eq_zero_cons (isBase : IsBase base) {others : List Nat}
    (zero : digitsOf base (Nat.toDigits base number) = 0 :: others) : others = [] := by
  induction number using Nat.base_induction base isBase.one_lt generalizing others with
  | single value less =>
    rw [isBase.digitsOf_toDigits_of_lt less] at zero
    exact (List.cons.inj zero).2.symm
  | digit number value less positive inductionHypothesis =>
    rw [isBase.digitsOf_toDigits_append positive less] at zero
    obtain ⟨first, behind, front⟩ :=
      List.exists_cons_of_ne_nil (isBase.digitsOf_toDigits_ne_nil number)
    rw [front, List.cons_append] at zero
    obtain rfl := (List.cons.inj zero).1
    have same := isBase.numberOf_toDigits number
    rw [front, inductionHypothesis front] at same
    have nothing : number = 0 := same.symm.trans (Nat.zero_mul base)
    omega

theorem takeDigits_toDigits (isBase : IsBase base) (number : Nat) (stops : Stops base rest) :
    takeDigits base (Nat.toDigits base number ++ rest) =
      (digitsOf base (Nat.toDigits base number), rest) :=
  takeDigits_append (fun _ member => isBase.digit?_of_mem_toDigits member) stops

end IsBase

/-! ### Numbers in base ten -/

theorem takeNumber_toDigits {bound : Nat} (small : number < bound) (stops : Stops 10 rest) :
    takeNumber bound (Nat.toDigits 10 number ++ rest) = some (number, rest) := by
  have present := isBase_ten.digitsOf_toDigits_ne_nil number
  simp only [takeNumber, isBase_ten.takeDigits_toDigits number stops, isBase_ten.numberOf_toDigits,
    List.isEmpty_eq_false_iff.mpr present, decide_eq_false (Nat.not_le.mpr small), Bool.or_self,
    Bool.false_eq_true, if_false]

theorem takeOctet_octetText (octet : UInt8) (stops : Stops 10 rest) :
    takeOctet (Ipv4.octetText octet ++ rest) = some (octet, rest) := by
  have small : octet.toNat < 256 := octet.toNat_lt
  have present := isBase_ten.digitsOf_toDigits_ne_nil octet.toNat
  have short : (digitsOf 10 (Nat.toDigits 10 octet.toNat)).length ≤ 3 :=
    Nat.le_trans (length_digitsOf_le 10 _)
      ((Nat.length_toDigits_le_iff (by decide) (by decide)).mpr (Nat.lt_trans small (by decide)))
  unfold takeOctet Ipv4.octetText
  rw [isBase_ten.takeDigits_toDigits octet.toNat stops]
  split
  · next same => exact absurd (congrArg Prod.fst same) present
  · next same =>
    have alone := isBase_ten.eq_nil_of_digitsOf_eq_zero_cons (congrArg Prod.fst same)
    cases alone
  · next same =>
    obtain ⟨rfl, rfl⟩ := Prod.mk.inj same
    rw [isBase_ten.numberOf_toDigits, decide_eq_false (Nat.not_lt.mpr short),
      decide_eq_false (Nat.not_le.mpr small), UInt8.ofNat_toNat]
    rfl

/-! ### Marks -/

theorem takeMark_cons (mark : Char) (rest : List Char) : takeMark mark (mark :: rest) = some rest :=
  if_pos rfl

theorem takeMark_eq_none {mark : Char} (noMark : text.head? ≠ some mark) :
    takeMark mark text = none := by
  cases text with
  | nil => rfl
  | cons character rest => exact if_neg fun same => noMark (congrArg some same)

/-! ### IPv4 addresses -/

theorem stops_point (rest : List Char) : Stops 10 ('.' :: rest) :=
  stops_cons (by decide) rest

/-- An address is read as it is written, if no digit follows. -/
theorem Ipv4.take_text (address : Ipv4) (stops : Stops 10 rest) :
    Ipv4.take (address.text ++ rest) = some (address, rest) := by
  simp only [Ipv4.take, Ipv4.text, List.append_assoc, List.cons_append,
    takeOctet_octetText _ (stops_point _), takeOctet_octetText _ stops, takeMark_cons,
    Option.bind_eq_bind, Option.bind_some, Option.pure_def]

end NodeTelemetry.Net
