/-
This file reads values whose type is known beforehand. A scalar of another type is read to its end
before it is refused, so a fault in it wins; a list or an object is refused at once.
-/

import NodeTelemetry.Json.Numeral
import NodeTelemetry.Json.Text
import NodeTelemetry.Json.Word

namespace NodeTelemetry.Json

/-! ### Values of another type -/

/-- The fault of something that is read only to be refused. -/
def refused {Result : Type} : Except Fault Result → Fault
  | .error fault => fault
  | .ok _ => .misfit

/-- The fault of a value of another type than was asked for. -/
def misfitAt (token : Input) : Fault :=
  match token with
  | [] => .unfinished
  | some '[' :: _ | some '{' :: _ => .misfit
  | some '"' :: rest => refused (textFrom [] rest)
  | some 'n' :: rest => refused (takeWord ['u', 'l', 'l'] rest)
  | some 't' :: rest => refused (takeWord ['r', 'u', 'e'] rest)
  | some 'f' :: rest => refused (takeWord ['a', 'l', 's', 'e'] rest)
  | _ => refused (Number.take token)

/-- A reader that accepts only some of the values of another one. -/
def Reader.refine {First Second : Type} (accept : First → Option Second)
    (reader : Reader First) : Reader Second where
  read input :=
    match reader.read input with
    | .error fault => .error fault
    | .ok (value, rest) =>
      match accept value with
      | none => .error .misfit
      | some accepted => .ok (accepted, rest)
  shorter := by
    intro input rest value success
    split at success
    · cases success
    · next read =>
      split at success
      · cases success
      · simp only [Except.ok.injEq, Prod.mk.injEq] at success
        exact success.2 ▸ reader.shorter read

/-! ### Readers of one type -/

/-- Reads a string. -/
def textReader : Reader String where
  read input :=
    match skipGap input with
    | some '"' :: rest => textFrom [] rest
    | token => .error (misfitAt token)
  shorter := by
    intro input rest value success
    split at success
    · next quote =>
      have first := length_lt_of_skipGap quote
      have second := length_lt_of_textFrom success
      omega
    · cases success

def beginsNumber : Input → Bool
  | character :: _ => isDigit character || character == some '-'
  | [] => false

/-- Reads a number. -/
def numberReader : Reader Number where
  read input :=
    if beginsNumber (skipGap input) then Number.take (skipGap input)
    else .error (misfitAt (skipGap input))
  shorter := by
    intro input rest value success
    split at success
    · have first := length_skipGap_le input
      have second := Number.length_lt_of_take success
      omega
    · cases success

/-- The number as an unsigned word, if it is one. -/
def Number.toWord? : Number → Option UInt64
  | .whole value => if 0 ≤ value then some (UInt64.ofNat value.toNat) else none
  | .real _ => none

/-- The binary64 number nearest to a number. -/
def Number.toBinary64 : Number → Binary64
  | .whole value => Binary64.ofInt value
  | .real value => value

/-- Reads an unsigned word. -/
def wordReader : Reader UInt64 :=
  numberReader.refine Number.toWord?

/-- Reads a binary64 number. -/
def realReader : Reader Binary64 :=
  numberReader.map Number.toBinary64

/-- Reads `null` as nothing and leaves any other value to a reader. -/
def Reader.orNull {Value : Type} (reader : Reader Value) : Reader (Option Value) where
  read input :=
    match skipGap input with
    | some 'n' :: rest =>
      match takeWord ['u', 'l', 'l'] rest with
      | .error fault => .error fault
      | .ok rest => .ok (none, rest)
    | token =>
      match reader.read token with
      | .error fault => .error fault
      | .ok (value, rest) => .ok (some value, rest)
  shorter := by
    intro input rest value success
    have gap := length_skipGap_le input
    split at success
    · next letter =>
      split at success
      · cases success
      · next word =>
        simp only [Except.ok.injEq, Prod.mk.injEq] at success
        have first := length_lt_of_skipGap letter
        have second := length_takeWord_le word
        rw [success.2] at second
        omega
    · split at success
      · cases success
      · next read =>
        simp only [Except.ok.injEq, Prod.mk.injEq] at success
        have second := reader.shorter read
        rw [success.2] at second
        omega

end NodeTelemetry.Json
