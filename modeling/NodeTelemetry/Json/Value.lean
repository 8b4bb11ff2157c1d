/-
This file reads a value of any type. All strings are decoded and all numbers must be in range, and
values may be nested up to a limit.
-/

import NodeTelemetry.Json.Collection
import NodeTelemetry.Json.Numeral
import NodeTelemetry.Json.Word

namespace NodeTelemetry.Json

/-- A value. The members of an object stand in the order in which they were written, and a key may
occur more than once. -/
inductive Value
  | null
  | boolean (value : Bool)
  | number (value : Number)
  | text (value : String)
  | list (items : List Value)
  | object (members : List (String × Value))

/-! ### Parts of a value -/

/-- The element of a list at a position. -/
def Value.item? (position : Nat) : Value → Option Value
  | .list items => items[position]?
  | _ => none

/-- The member of an object with a key: the last one written. -/
def Value.member? (key : String) : Value → Option Value
  | .object members => members.reverse.lookup key
  | _ => none

def Value.text? : Value → Option String
  | .text value => some value
  | _ => none

def Value.list? : Value → Option (List Value)
  | .list items => some items
  | _ => none

theorem Value.text?_eq_some {value : Value} {text : String} :
    value.text? = some text ↔ value = .text text := by
  cases value <;> simp [Value.text?]

theorem Value.list?_eq_some {value : Value} {items : List Value} :
    value.list? = some items ↔ value = .list items := by
  cases value <;> simp [Value.list?]

theorem Value.item?_eq_some {value item : Value} {position : Nat} :
    value.item? position = some item ↔
      ∃ items, value = .list items ∧ items[position]? = some item := by
  cases value <;> simp [Value.item?]

/-! ### Reading -/

/-- Gives a word of JSON the value it stands for. -/
def readWord (word : List Char) (value : Value) (input : Input) : Except Fault (Value × Input) :=
  match takeWord word input with
  | .error fault => .error fault
  | .ok rest => .ok (value, rest)

theorem length_le_of_readWord {word : List Char} {meaning value : Value} {input rest : Input}
    (success : readWord word meaning input = .ok (value, rest)) :
    rest.length ≤ input.length := by
  unfold readWord at success
  split at success
  · cases success
  · next taken =>
    simp only [Except.ok.injEq, Prod.mk.injEq] at success
    exact success.2 ▸ length_takeWord_le taken

/-- Reads a list with a reader for its elements, behind the opening bracket. -/
def readList (reader : Reader Value) (input : Input) : Except Fault (Value × Input) :=
  match elementsOf reader [] true input with
  | .error fault => .error fault
  | .ok (items, rest) => .ok (.list items, rest)

theorem length_le_of_readList {reader : Reader Value} {value : Value} {input rest : Input}
    (success : readList reader input = .ok (value, rest)) : rest.length ≤ input.length := by
  unfold readList at success
  split at success
  · cases success
  · next read =>
    simp only [Except.ok.injEq, Prod.mk.injEq] at success
    exact success.2 ▸ length_le_of_elementsOf read

/-- Reads an object with a reader for the values of its members, behind the opening brace. -/
def readObject (reader : Reader Value) (input : Input) : Except Fault (Value × Input) :=
  match membersOf (fun members key => .ok (reader.map fun value => (key, value) :: members)) []
    true input with
  | .error fault => .error fault
  | .ok (members, rest) => .ok (.object members.reverse, rest)

theorem length_lt_of_readObject {reader : Reader Value} {value : Value} {input rest : Input}
    (success : readObject reader input = .ok (value, rest)) : rest.length < input.length := by
  unfold readObject at success
  split at success
  · cases success
  · next read =>
    simp only [Except.ok.injEq, Prod.mk.injEq] at success
    exact success.2 ▸ length_lt_of_membersOf read

/-- Reads a value with a reader for the values inside it, if it may have any. -/
def readValue (inner : Option (Reader Value)) (input : Input) : Except Fault (Value × Input) :=
  match skipGap input with
  | [] => .error .unfinished
  | some '[' :: rest =>
    match inner with
    | none => .error .malformed
    | some reader => readList reader rest
  | some '{' :: rest =>
    match inner with
    | none => .error .malformed
    | some reader => readObject reader rest
  | some '"' :: rest =>
    match textFrom [] rest with
    | .error fault => .error fault
    | .ok (text, rest) => .ok (.text text, rest)
  | some 'n' :: rest => readWord ['u', 'l', 'l'] .null rest
  | some 't' :: rest => readWord ['r', 'u', 'e'] (.boolean true) rest
  | some 'f' :: rest => readWord ['a', 'l', 's', 'e'] (.boolean false) rest
  | token =>
    match Number.take token with
    | .error fault => .error fault
    | .ok (number, rest) => .ok (.number number, rest)

theorem length_lt_of_readValue {inner : Option (Reader Value)} {value : Value}
    {input rest : Input} (success : readValue inner input = .ok (value, rest)) :
    rest.length < input.length := by
  have gap := length_skipGap_le input
  unfold readValue at success
  split at success
  · cases success
  · next bracket =>
    have first := length_lt_of_skipGap bracket
    split at success
    · cases success
    · have second := length_le_of_readList success
      omega
  · next bracket =>
    have first := length_lt_of_skipGap bracket
    split at success
    · cases success
    · have second := length_lt_of_readObject success
      omega
  · next quote =>
    have first := length_lt_of_skipGap quote
    split at success
    · cases success
    · next text =>
      simp only [Except.ok.injEq, Prod.mk.injEq] at success
      have second := length_lt_of_textFrom text
      rw [success.2] at second
      omega
  · next letter =>
    have first := length_lt_of_skipGap letter
    have second := length_le_of_readWord success
    omega
  · next letter =>
    have first := length_lt_of_skipGap letter
    have second := length_le_of_readWord success
    omega
  · next letter =>
    have first := length_lt_of_skipGap letter
    have second := length_le_of_readWord success
    omega
  · split at success
    · cases success
    · next taken =>
      simp only [Except.ok.injEq, Prod.mk.injEq] at success
      have second := Number.length_lt_of_take taken
      rw [success.2] at second
      omega

/-- Reads a value with at most so many lists and objects inside each other. -/
def valueReader : Nat → Reader Value
  | 0 => ⟨readValue none, length_lt_of_readValue⟩
  | depth + 1 => ⟨readValue (some (valueReader depth)), length_lt_of_readValue⟩

/-- How many lists and objects may stand inside each other. -/
def nestingLimit : Nat :=
  127

end NodeTelemetry.Json
