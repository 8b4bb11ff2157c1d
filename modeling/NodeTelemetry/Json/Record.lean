/-
This file reads records: objects with known fields. An object may leave out any field and hold
others, which are passed over, but it must not name a known field twice. A list of the values in the
order of the fields is a record as well; it must not be longer, and only fields that say so may be
missing at its end.
-/

import NodeTelemetry.Json.Collection
import NodeTelemetry.Json.Scalar
import NodeTelemetry.Json.Skip

namespace NodeTelemetry.Json

/-- A field of a record: its name, how its value is read into the record, and whether a list may
end before it. -/
structure Field (Record : Type) where
  name : String
  reader : Reader (Record → Record)
  mayLack : Bool

variable {Record : Type}

/-! ### Records as objects -/

/-- How the value behind a key is read, after the fields with the `seen` names. -/
def fieldReader (fields : List (Field Record)) (state : List String × Record) (key : String) :
    Except Fault (Reader (List String × Record)) :=
  match fields.find? (·.name == key) with
  | none => .ok (skipValue.map fun _ => state)
  | some field =>
    if state.1.contains key then .error .misfit
    else .ok (field.reader.map fun change => (key :: state.1, change state.2))

/-- Reads a record behind an opening brace. -/
def recordFromObject (fields : List (Field Record)) (blank : Record) (input : Input) :
    Except Fault (Record × Input) :=
  match membersOf (fieldReader fields) ([], blank) true input with
  | .error fault => .error fault
  | .ok ((_, record), rest) => .ok (record, rest)

theorem length_lt_of_recordFromObject {fields : List (Field Record)} {blank record : Record}
    {input rest : Input} (success : recordFromObject fields blank input = .ok (record, rest)) :
    rest.length < input.length := by
  unfold recordFromObject at success
  split at success
  · cases success
  · next read =>
    simp only [Except.ok.injEq, Prod.mk.injEq] at success
    exact success.2 ▸ length_lt_of_membersOf read

/-! ### Records as lists -/

/-- Takes the bracket behind the last field. -/
def endList (input : Input) : Except Fault Input :=
  match skipGap input with
  | some ']' :: rest => .ok rest
  | other => .error (stopAt other)

theorem length_lt_of_endList {input rest : Input} (ended : endList input = .ok rest) :
    rest.length < input.length := by
  unfold endList at ended
  split at ended
  · next bracket =>
    simp only [Except.ok.injEq] at ended
    exact ended ▸ length_lt_of_skipGap bracket
  · cases ended

/-- Reads the values of the fields that are left, behind those already in the record. -/
def recordFromList (fields : List (Field Record)) (record : Record) (first : Bool)
    (input : Input) : Except Fault (Record × Input) :=
  match fields with
  | [] =>
    match endList input with
    | .error fault => .error fault
    | .ok rest => .ok (record, rest)
  | field :: others =>
    match nextElement first input with
    | .error fault => .error fault
    | .ok (.closed, rest) =>
      if field.mayLack && others.all (·.mayLack) then .ok (record, rest) else .error .misfit
    | .ok (.item (), rest) =>
      match field.reader.read rest with
      | .error fault => .error fault
      | .ok (change, rest) => recordFromList others (change record) false rest

theorem length_le_of_recordFromList {fields : List (Field Record)} {record final : Record}
    {first : Bool} {input rest : Input}
    (success : recordFromList fields record first input = .ok (final, rest)) :
    rest.length ≤ input.length := by
  induction fields generalizing record first input with
  | nil =>
    unfold recordFromList at success
    split at success
    · cases success
    · next ended =>
      simp only [Except.ok.injEq, Prod.mk.injEq] at success
      exact success.2 ▸ Nat.le_of_lt (length_lt_of_endList ended)
  | cons field others inductionHypothesis =>
    unfold recordFromList at success
    split at success
    · cases success
    · next turn =>
      split at success
      · simp only [Except.ok.injEq, Prod.mk.injEq] at success
        exact success.2 ▸ length_le_of_nextElement turn
      · cases success
    · next turn =>
      split at success
      · cases success
      · next read =>
        have first := length_le_of_nextElement turn
        have second := field.reader.shorter read
        have third := inductionHypothesis success
        omega

/-! ### Records -/

/-- Reads a record in either form, beginning with a blank one. -/
def recordReader (fields : List (Field Record)) (blank : Record) : Reader Record where
  read input :=
    match skipGap input with
    | some '[' :: rest => recordFromList fields blank true rest
    | some '{' :: rest => recordFromObject fields blank rest
    | token => .error (misfitAt token)
  shorter := by
    intro input rest record success
    split at success
    · next bracket =>
      have first := length_lt_of_skipGap bracket
      have second := length_le_of_recordFromList success
      omega
    · next bracket =>
      have first := length_lt_of_skipGap bracket
      have second := length_lt_of_recordFromObject success
      omega
    · cases success

/-- Reads a list of values. -/
def listReader {Value : Type} (reader : Reader Value) : Reader (List Value) where
  read input :=
    match skipGap input with
    | some '[' :: rest => elementsOf reader [] true rest
    | token => .error (misfitAt token)
  shorter := by
    intro input rest values success
    split at success
    · next bracket =>
      have first := length_lt_of_skipGap bracket
      have second := length_le_of_elementsOf success
      omega
    · cases success

end NodeTelemetry.Json
