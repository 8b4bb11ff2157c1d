/-
This file reads the numbers of JSON. `Numeral.take` finds where a numeral ends and keeps its digits,
and `Numeral.number` says which number it is: a whole number if it is written as one and fits into
64 bits, else a binary64 number. The latter takes as many digits as fit into 64 bits and scales
once, so the last bit of a long numeral may differ from that of the nearest number.
-/

import NodeTelemetry.Binary64.Scaling
import NodeTelemetry.Json.Reader

namespace NodeTelemetry.Json

/-- A number as it is written: the digits before and behind the point, and the exponent with its
sign, `true` for a negative one. -/
structure Numeral where
  negative : Bool
  whole : List Nat
  fraction : List Nat
  exponent : Option (Bool × List Nat)

/-! ### Where a numeral ends -/

def isDigit : Option Char → Bool
  | some character => '0' ≤ character && character ≤ '9'
  | none => false

def digitValue : Option Char → Nat
  | some character => character.toNat - '0'.toNat
  | none => 0

/-- Takes all digits at the front, of which there must be one. -/
def takeDigits (input : Input) : Except Fault (List Nat × Input) :=
  match input.takeWhile isDigit with
  | [] => .error (stopAt input)
  | digits => .ok (digits.map digitValue, input.dropWhile isDigit)

theorem length_lt_of_takeDigits {input rest : Input} {digits : List Nat}
    (taken : takeDigits input = .ok (digits, rest)) : rest.length < input.length := by
  unfold takeDigits at taken
  split at taken
  · cases taken
  · next present =>
    simp only [Except.ok.injEq, Prod.mk.injEq] at taken
    have whole := congrArg List.length (List.takeWhile_append_dropWhile (p := isDigit) (l := input))
    have some_digit := List.length_pos_iff.mpr present
    rw [List.length_append, taken.2] at whole
    omega

/-- Takes the digits before the point: a zero stands alone. -/
def takeWhole (input : Input) : Except Fault (List Nat × Input) :=
  match takeDigits input with
  | .error fault => .error fault
  | .ok (0 :: _ :: _, _) => .error .malformed
  | .ok (digits, rest) => .ok (digits, rest)

theorem length_lt_of_takeWhole {input rest : Input} {digits : List Nat}
    (taken : takeWhole input = .ok (digits, rest)) : rest.length < input.length := by
  unfold takeWhole at taken
  split at taken
  · cases taken
  · cases taken
  · next read =>
    simp only [Except.ok.injEq, Prod.mk.injEq] at taken
    exact taken.2 ▸ length_lt_of_takeDigits read

/-- Takes a point and the digits behind it, if there is a point. -/
def takeFraction (input : Input) : Except Fault (List Nat × Input) :=
  match input with
  | some '.' :: rest => takeDigits rest
  | _ => .ok ([], input)

theorem length_le_of_takeFraction {input rest : Input} {digits : List Nat}
    (taken : takeFraction input = .ok (digits, rest)) : rest.length ≤ input.length := by
  unfold takeFraction at taken
  split at taken
  · have shorter := length_lt_of_takeDigits taken
    simp only [List.length_cons]
    omega
  · simp only [Except.ok.injEq, Prod.mk.injEq] at taken
    exact Nat.le_of_eq (congrArg List.length taken.2.symm)

/-- Takes the sign of an exponent, `true` for a negative one. -/
def takeSign (input : Input) : Bool × Input :=
  match input with
  | some '+' :: rest => (false, rest)
  | some '-' :: rest => (true, rest)
  | _ => (false, input)

theorem length_takeSign_le (input : Input) : (takeSign input).2.length ≤ input.length := by
  unfold takeSign
  split <;> simp

def isExponentMark : Option Char → Bool
  | some 'e' | some 'E' => true
  | _ => false

/-- Takes an exponent, if there is one. -/
def takeExponent (input : Input) : Except Fault (Option (Bool × List Nat) × Input) :=
  match input with
  | [] => .ok (none, input)
  | mark :: rest =>
    if isExponentMark mark then
      match takeDigits (takeSign rest).2 with
      | .error fault => .error fault
      | .ok (digits, remaining) => .ok (some ((takeSign rest).1, digits), remaining)
    else .ok (none, input)

theorem length_le_of_takeExponent {input rest : Input} {exponent : Option (Bool × List Nat)}
    (taken : takeExponent input = .ok (exponent, rest)) : rest.length ≤ input.length := by
  unfold takeExponent at taken
  split at taken
  · simp only [Except.ok.injEq, Prod.mk.injEq] at taken
    exact Nat.le_of_eq (congrArg List.length taken.2.symm)
  · next mark remaining =>
    split at taken
    · split at taken
      · cases taken
      · next read =>
        simp only [Except.ok.injEq, Prod.mk.injEq] at taken
        have shorter := length_lt_of_takeDigits read
        have sign := length_takeSign_le remaining
        rw [taken.2] at shorter
        simp only [List.length_cons]
        omega
    · simp only [Except.ok.injEq, Prod.mk.injEq] at taken
      exact Nat.le_of_eq (congrArg List.length taken.2.symm)

/-- Takes a numeral without its sign. -/
def Numeral.takeUnsigned (negative : Bool) (input : Input) : Except Fault (Numeral × Input) :=
  match takeWhole input with
  | .error fault => .error fault
  | .ok (whole, rest) =>
    match takeFraction rest with
    | .error fault => .error fault
    | .ok (fraction, rest) =>
      match takeExponent rest with
      | .error fault => .error fault
      | .ok (exponent, rest) => .ok (⟨negative, whole, fraction, exponent⟩, rest)

theorem Numeral.length_lt_of_takeUnsigned {negative : Bool} {input rest : Input}
    {numeral : Numeral} (taken : takeUnsigned negative input = .ok (numeral, rest)) :
    rest.length < input.length := by
  unfold takeUnsigned at taken
  split at taken
  · cases taken
  · next whole =>
    split at taken
    · cases taken
    · next fraction =>
      split at taken
      · cases taken
      · next exponent =>
        simp only [Except.ok.injEq, Prod.mk.injEq] at taken
        have first := length_lt_of_takeWhole whole
        have second := length_le_of_takeFraction fraction
        have third := length_le_of_takeExponent exponent
        rw [taken.2] at third
        omega

/-- Takes a numeral. -/
def Numeral.take (input : Input) : Except Fault (Numeral × Input) :=
  match input with
  | some '-' :: rest => takeUnsigned true rest
  | _ => takeUnsigned false input

theorem Numeral.length_lt_of_take {input rest : Input} {numeral : Numeral}
    (taken : take input = .ok (numeral, rest)) : rest.length < input.length := by
  unfold take at taken
  split at taken
  · have shorter := length_lt_of_takeUnsigned taken
    simp only [List.length_cons]
    omega
  · exact length_lt_of_takeUnsigned taken

/-! ### Which number a numeral is -/

/-- A number: a whole one of at most 64 bits, or any other. -/
inductive Number
  | whole (value : Int)
  | real (value : Binary64)

/-- The number that digits write. -/
def numberOfDigits (digits : List Nat) : Nat :=
  digits.foldl (fun number digit => number * 10 + digit) 0

/-- Appends digits to a significand while it fits into 64 bits, and gives the digits that are left
over as well. -/
def absorb (significand : Nat) : List Nat → Nat × List Nat
  | [] => (significand, [])
  | digit :: digits =>
    if significand * 10 + digit < twoTo 64 then absorb (significand * 10 + digit) digits
    else (significand, digit :: digits)

/-- A whole number brought into the range of 32 bits. -/
def clampWord (value : Int) : Int :=
  max (-(twoTo 31 : Nat)) (min (twoTo 31 - 1 : Nat) value)

/-- A significand times a power of ten with a written exponent on top. A written exponent beyond 31
bits leaves only zero, or nothing in range. -/
def scaleSignificand (significand : Nat) (power : Int) (exponent : Option (Bool × List Nat)) :
    Option Binary64 :=
  match exponent with
  | none => (Binary64.ofNat significand).scaleByTen power
  | some (down, digits) =>
    let written := numberOfDigits digits
    if twoTo 31 ≤ written then
      if down || significand == 0 then some Binary64.zero else none
    else
      (Binary64.ofNat significand).scaleByTen
        (clampWord (if down then power - written else power + written))

/-- The binary64 number of a numeral. Digits before the point that do not fit count as factors of
ten and those behind it not at all. -/
def Numeral.real (numeral : Numeral) : Except Fault Binary64 :=
  let (head, dropped) := absorb 0 numeral.whole
  let (significand, ignored) := absorb head numeral.fraction
  let places := numeral.fraction.length - ignored.length
  match scaleSignificand significand ((dropped.length : Int) - places) numeral.exponent with
  | none => .error .malformed
  | some magnitude => .ok (if numeral.negative then magnitude.negate else magnitude)

/-- The number of a numeral. -/
def Numeral.number (numeral : Numeral) : Except Fault Number :=
  let (magnitude, dropped) := absorb 0 numeral.whole
  let isInteger := dropped.isEmpty && numeral.fraction.isEmpty && numeral.exponent.isNone
  if isInteger && !numeral.negative then .ok (.whole magnitude)
  else if isInteger && 0 < magnitude && magnitude ≤ twoTo 63 then .ok (.whole (-(magnitude : Int)))
  else
    match numeral.real with
    | .error fault => .error fault
    | .ok value => .ok (.real value)

/-- Takes a numeral and gives its number. -/
def Number.take (input : Input) : Except Fault (Number × Input) :=
  match Numeral.take input with
  | .error fault => .error fault
  | .ok (numeral, rest) =>
    match numeral.number with
    | .error fault => .error fault
    | .ok number => .ok (number, rest)

theorem Number.length_lt_of_take {input rest : Input} {number : Number}
    (taken : take input = .ok (number, rest)) : rest.length < input.length := by
  unfold take at taken
  split at taken
  · cases taken
  · next numeral =>
    split at taken
    · cases taken
    · simp only [Except.ok.injEq, Prod.mk.injEq] at taken
      exact taken.2 ▸ Numeral.length_lt_of_take numeral

end NodeTelemetry.Json
