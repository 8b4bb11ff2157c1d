/-
This file reads lists and objects. `elementsOf` reads the elements of a list with one reader, and
`membersOf` folds over the members of an object with a reader chosen by the key. Both begin behind
the opening bracket and end behind the closing one.
-/

import NodeTelemetry.Json.Text

namespace NodeTelemetry.Json

/-- What comes next inside a bracket: its end, or an item. -/
inductive Turn (Item : Type)
  | closed
  | item (item : Item)

/-! ### Lists -/

/-- Goes to the next element of a list. The `first` one has no comma in front. -/
def nextElement (first : Bool) (input : Input) : Except Fault (Turn Unit × Input) :=
  match skipGap input with
  | some ']' :: rest => .ok (.closed, rest)
  | some ',' :: rest =>
    if first then .ok (.item (), some ',' :: rest)
    else
      match skipGap rest with
      | [] => .error .unfinished
      | some ']' :: _ => .error .malformed
      | element => .ok (.item (), element)
  | [] => .error .unfinished
  | element => if first then .ok (.item (), element) else .error .malformed

theorem length_le_of_nextElement {first : Bool} {input rest : Input} {turn : Turn Unit}
    (next : nextElement first input = .ok (turn, rest)) : rest.length ≤ input.length := by
  have gap := length_skipGap_le input
  unfold nextElement at next
  split at next
  · next same =>
    simp only [Except.ok.injEq, Prod.mk.injEq] at next
    exact next.2 ▸ Nat.le_of_lt (length_lt_of_skipGap same)
  · next following same =>
    split at next
    · simp only [Except.ok.injEq, Prod.mk.injEq] at next
      rw [← next.2, ← same]
      exact gap
    · have second := length_skipGap_le following
      have first := length_lt_of_skipGap same
      split at next
      · cases next
      · cases next
      · simp only [Except.ok.injEq, Prod.mk.injEq] at next
        rw [next.2] at second
        omega
  · cases next
  · split at next
    · simp only [Except.ok.injEq, Prod.mk.injEq] at next
      rw [← next.2]
      exact gap
    · cases next

/-- Reads the elements of a list, of which some are collected already, the latest first. -/
def elementsOf {Value : Type} (reader : Reader Value) (collected : List Value) (first : Bool)
    (input : Input) : Except Fault (List Value × Input) :=
  match _turn : nextElement first input with
  | .error fault => .error fault
  | .ok (.closed, rest) => .ok (collected.reverse, rest)
  | .ok (.item (), rest) =>
    match _element : reader.read rest with
    | .error fault => .error fault
    | .ok (value, rest) => elementsOf reader (value :: collected) false rest
termination_by input.length
decreasing_by
  have first := length_le_of_nextElement _turn
  have second := reader.shorter _element
  omega

theorem length_le_of_elementsOf {Value : Type} {reader : Reader Value}
    {collected values : List Value} {first : Bool} {input rest : Input}
    (success : elementsOf reader collected first input = .ok (values, rest)) :
    rest.length ≤ input.length := by
  fun_induction elementsOf reader collected first input with
  | case1 => cases success
  | case2 collected first input following turn =>
    simp only [Except.ok.injEq, Prod.mk.injEq] at success
    exact success.2 ▸ length_le_of_nextElement turn
  | case3 => cases success
  | case4 collected first input following turn value remaining element inductionHypothesis =>
    have first := length_le_of_nextElement turn
    have second := reader.shorter element
    have third := inductionHypothesis success
    omega

/-! ### Objects -/

/-- Reads the key of a member, behind its opening quote, and the colon is left to come. -/
def keyTurn (rest : Input) : Except Fault (Turn String × Input) :=
  match textFrom [] rest with
  | .error fault => .error fault
  | .ok (key, rest) => .ok (.item key, rest)

theorem length_lt_of_keyTurn {input rest : Input} {turn : Turn String}
    (success : keyTurn input = .ok (turn, rest)) : rest.length < input.length := by
  unfold keyTurn at success
  split at success
  · cases success
  · next key =>
    simp only [Except.ok.injEq, Prod.mk.injEq] at success
    exact success.2 ▸ length_lt_of_textFrom key

/-- Goes to the next member of an object and reads its key. The `first` one has no comma in
front. -/
def nextKey (first : Bool) (input : Input) : Except Fault (Turn String × Input) :=
  match skipGap input with
  | some '}' :: rest => .ok (.closed, rest)
  | some ',' :: rest =>
    if first then .error .malformed
    else
      match skipGap rest with
      | some '"' :: rest => keyTurn rest
      | other => .error (stopAt other)
  | some '"' :: rest => if first then keyTurn rest else .error .malformed
  | other => .error (stopAt other)

theorem length_lt_of_nextKey {first : Bool} {input rest : Input} {turn : Turn String}
    (next : nextKey first input = .ok (turn, rest)) : rest.length < input.length := by
  unfold nextKey at next
  split at next
  · next same =>
    simp only [Except.ok.injEq, Prod.mk.injEq] at next
    exact next.2 ▸ length_lt_of_skipGap same
  · next comma =>
    split at next
    · cases next
    · split at next
      · next quote =>
        have first := length_lt_of_skipGap comma
        have second := length_lt_of_skipGap quote
        have third := length_lt_of_keyTurn next
        omega
      · cases next
  · next quote =>
    split at next
    · have first := length_lt_of_skipGap quote
      have second := length_lt_of_keyTurn next
      omega
    · cases next
  · cases next

/-- Takes the colon between a key and its value. -/
def takeColon (input : Input) : Except Fault Input :=
  match skipGap input with
  | some ':' :: rest => .ok rest
  | other => .error (stopAt other)

theorem length_lt_of_takeColon {input rest : Input} (taken : takeColon input = .ok rest) :
    rest.length < input.length := by
  unfold takeColon at taken
  split at taken
  · next colon =>
    simp only [Except.ok.injEq] at taken
    exact taken ▸ length_lt_of_skipGap colon
  · cases taken

/-- Reads the members of an object. Each key decides, together with what was read so far, how its
value is read on, or that it must not stand here. -/
def membersOf {State : Type} (onKey : State → String → Except Fault (Reader State))
    (state : State) (first : Bool) (input : Input) : Except Fault (State × Input) :=
  match _turn : nextKey first input with
  | .error fault => .error fault
  | .ok (.closed, rest) => .ok (state, rest)
  | .ok (.item key, rest) =>
    match onKey state key with
    | .error fault => .error fault
    | .ok reader =>
      match _colon : takeColon rest with
      | .error fault => .error fault
      | .ok rest =>
        match _value : reader.read rest with
        | .error fault => .error fault
        | .ok (state, rest) => membersOf onKey state false rest
termination_by input.length
decreasing_by
  have first := length_lt_of_nextKey _turn
  have second := length_lt_of_takeColon _colon
  have third := reader.shorter _value
  omega

theorem length_lt_of_membersOf {State : Type}
    {onKey : State → String → Except Fault (Reader State)} {state final : State} {first : Bool}
    {input rest : Input} (success : membersOf onKey state first input = .ok (final, rest)) :
    rest.length < input.length := by
  fun_induction membersOf onKey state first input with
  | case1 => cases success
  | case2 state first input following turn =>
    simp only [Except.ok.injEq, Prod.mk.injEq] at success
    exact success.2 ▸ length_lt_of_nextKey turn
  | case3 => cases success
  | case4 => cases success
  | case5 => cases success
  | case6 state first input key following turn reader _ behind colon next remaining value
      inductionHypothesis =>
    have first := length_lt_of_nextKey turn
    have second := length_lt_of_takeColon colon
    have third := reader.shorter value
    have fourth := inductionHypothesis success
    omega

end NodeTelemetry.Json
