/-
This file holds what all readers of JSON share: the input, what can be wrong with it, and the type
of readers. An input is read once from left to right and the first fault met decides, so every
reader leaves a shorter input than it was given, which is also why reading ends.
-/

namespace NodeTelemetry.Json

/-- Why an input is not what was asked for. -/
inductive Fault
  /-- The input ends inside a value. -/
  | unfinished
  /-- The input is no JSON, or a number or a nesting in it is out of range. -/
  | malformed
  /-- So far the input is JSON, but of another shape than was asked for. -/
  | misfit
deriving DecidableEq, Repr

/-- Characters decoded from UTF-8, with `none` for each unreadable one. -/
abbrev Input := List (Option Char)

/-- The input that a text is. -/
def Input.ofText (text : String) : Input :=
  text.toList.map some

/-- The fault of an input that does not go on as it must. -/
def stopAt : Input → Fault
  | [] => .unfinished
  | _ :: _ => .malformed

/-! ### Gaps between tokens -/

def isGap : Option Char → Bool
  | some ' ' | some '\t' | some '\n' | some '\r' => true
  | _ => false

/-- What follows the gap at the front. -/
def skipGap (input : Input) : Input :=
  input.dropWhile isGap

theorem length_skipGap_le (input : Input) : (skipGap input).length ≤ input.length :=
  (List.dropWhile_sublist isGap).length_le

theorem length_lt_of_skipGap {input rest : Input} {first : Option Char}
    (skipped : skipGap input = first :: rest) : rest.length < input.length := by
  have shorter := length_skipGap_le input
  rw [skipped, List.length_cons] at shorter
  omega

/-! ### Readers -/

/-- A reader takes a value off the front of an input, or says what is wrong with it. -/
structure Reader (Value : Type) where
  read : Input → Except Fault (Value × Input)
  shorter : ∀ {input rest : Input} {value : Value},
    read input = .ok (value, rest) → rest.length < input.length

/-- A reader of the same inputs that passes on something else. -/
def Reader.map {First Second : Type} (change : First → Second) (reader : Reader First) :
    Reader Second where
  read input :=
    match reader.read input with
    | .error fault => .error fault
    | .ok (value, rest) => .ok (change value, rest)
  shorter := by
    intro input rest value success
    split at success
    · cases success
    · next first remaining read =>
      simp only [Except.ok.injEq, Prod.mk.injEq] at success
      exact success.2 ▸ reader.shorter read

/-- Reads a whole input, which must hold one value and nothing else. -/
def Reader.readAll {Value : Type} (reader : Reader Value) (input : Input) : Except Fault Value :=
  match reader.read input with
  | .error fault => .error fault
  | .ok (value, rest) =>
    match skipGap rest with
    | [] => .ok value
    | _ :: _ => .error .malformed

end NodeTelemetry.Json
