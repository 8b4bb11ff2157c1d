/-
This file passes over a value of JSON without reading it. Only its form is checked, so strings need
not be decodable and numbers need not be in range, and values may be nested to any depth: the open
lists and objects are kept in a list, the innermost one first.
-/

import NodeTelemetry.Json.Numeral
import NodeTelemetry.Json.Text
import NodeTelemetry.Json.Word

namespace NodeTelemetry.Json

/-- What can be open around a value. -/
inductive Nest
  | list
  | object
deriving DecidableEq

/-- What the first token of a value does: open a list or an object, or be the whole value. -/
inductive Opening
  | opens (nest : Nest)
  | complete

/-- What is open behind the first token of a value. -/
def Opening.inside (nests : List Nest) : Opening → List Nest
  | .opens nest => nest :: nests
  | .complete => nests

/-- Whether the first token was the whole value. -/
def Opening.isComplete : Opening → Bool
  | .opens _ => false
  | .complete => true

/-- Takes the first token of a value. -/
def passToken (input : Input) : Except Fault (Opening × Input) :=
  match skipGap input with
  | [] => .error .unfinished
  | some '[' :: rest => .ok (.opens .list, rest)
  | some '{' :: rest => .ok (.opens .object, rest)
  | some '"' :: rest => (passText rest).map (.complete, ·)
  | some 'n' :: rest => (takeWord ['u', 'l', 'l'] rest).map (.complete, ·)
  | some 't' :: rest => (takeWord ['r', 'u', 'e'] rest).map (.complete, ·)
  | some 'f' :: rest => (takeWord ['a', 'l', 's', 'e'] rest).map (.complete, ·)
  | token =>
    match Numeral.take token with
    | .error _ => .error .malformed
    | .ok (_, rest) => .ok (.complete, rest)

private theorem rest_of_map {result : Except Fault Input} {opening : Opening} {rest : Input}
    (success : result.map (Opening.complete, ·) = .ok (opening, rest)) : result = .ok rest := by
  cases result with
  | error fault => cases success
  | ok remaining =>
    simp only [Except.map, Except.ok.injEq, Prod.mk.injEq] at success
    rw [success.2]

theorem length_lt_of_passToken {input rest : Input} {opening : Opening}
    (passed : passToken input = .ok (opening, rest)) : rest.length < input.length := by
  have gap := length_skipGap_le input
  unfold passToken at passed
  split at passed
  · cases passed
  · next same =>
    simp only [Except.ok.injEq, Prod.mk.injEq] at passed
    exact passed.2 ▸ length_lt_of_skipGap same
  · next same =>
    simp only [Except.ok.injEq, Prod.mk.injEq] at passed
    exact passed.2 ▸ length_lt_of_skipGap same
  · next same =>
    have first := length_lt_of_skipGap same
    have second := length_lt_of_passText (rest_of_map passed)
    omega
  · next same =>
    have first := length_lt_of_skipGap same
    have second := length_takeWord_le (rest_of_map passed)
    omega
  · next same =>
    have first := length_lt_of_skipGap same
    have second := length_takeWord_le (rest_of_map passed)
    omega
  · next same =>
    have first := length_lt_of_skipGap same
    have second := length_takeWord_le (rest_of_map passed)
    omega
  · split at passed
    · cases passed
    · next taken =>
      simp only [Except.ok.injEq, Prod.mk.injEq] at passed
      have shorter := Numeral.length_lt_of_take taken
      rw [passed.2] at shorter
      omega

/-- Passes over the key of a member and the colon behind it. -/
def passKey (input : Input) : Except Fault Input :=
  match skipGap input with
  | some '"' :: rest =>
    match passText rest with
    | .error fault => .error fault
    | .ok rest =>
      match skipGap rest with
      | some ':' :: rest => .ok rest
      | other => .error (stopAt other)
  | other => .error (stopAt other)

theorem length_le_of_passKey {input rest : Input} (passed : passKey input = .ok rest) :
    rest.length ≤ input.length := by
  unfold passKey at passed
  split at passed
  · next opened =>
    split at passed
    · cases passed
    · next text =>
      split at passed
      · next colon =>
        simp only [Except.ok.injEq] at passed
        have first := length_lt_of_skipGap opened
        have second := length_lt_of_passText text
        have third := length_lt_of_skipGap colon
        rw [passed] at third
        omega
      · cases passed
  · cases passed

/-- Goes to the next value inside a list or an object. -/
def passToItem (nest : Nest) (input : Input) : Except Fault Input :=
  match nest with
  | .list => .ok input
  | .object => passKey input

theorem length_le_of_passToItem {nest : Nest} {input rest : Input}
    (passed : passToItem nest input = .ok rest) : rest.length ≤ input.length := by
  cases nest with
  | list =>
    simp only [passToItem, Except.ok.injEq] at passed
    exact Nat.le_of_eq (congrArg List.length passed.symm)
  | object => exact length_le_of_passKey passed

def closes (nest : Nest) : Option Char → Bool
  | some ']' => nest == .list
  | some '}' => nest == .object
  | _ => false

/-- Closes what ends here and goes to the next value inside what is still open. Behind a value, with
`settled`, a comma must come before the next one. -/
def passClosers (nests : List Nest) (settled : Bool) (input : Input) :
    Except Fault (List Nest × Input) :=
  match nests with
  | [] => .ok ([], input)
  | nest :: outer =>
    match _skipped : skipGap input with
    | [] => .error .unfinished
    | character :: rest =>
      if settled && character == some ',' then (passToItem nest rest).map (nest :: outer, ·)
      else if closes nest character then passClosers outer true rest
      else if settled then .error .malformed
      else (passToItem nest (character :: rest)).map (nest :: outer, ·)
termination_by input.length
decreasing_by exact length_lt_of_skipGap _skipped

private theorem rest_of_item {result : Except Fault Input} {nests remaining : List Nest}
    {rest : Input} (success : result.map (nests, ·) = .ok (remaining, rest)) :
    result = .ok rest := by
  cases result with
  | error fault => cases success
  | ok input =>
    simp only [Except.map, Except.ok.injEq, Prod.mk.injEq] at success
    rw [success.2]

theorem length_le_of_passClosers {nests remaining : List Nest} {settled : Bool}
    {input rest : Input} (passed : passClosers nests settled input = .ok (remaining, rest)) :
    rest.length ≤ input.length := by
  fun_induction passClosers nests settled input with
  | case1 =>
    simp only [Except.ok.injEq, Prod.mk.injEq] at passed
    exact Nat.le_of_eq (congrArg List.length passed.2.symm)
  | case2 => cases passed
  | case3 settled input nest outer character following skipped _ =>
    have first := length_lt_of_skipGap skipped
    have second := length_le_of_passToItem (rest_of_item passed)
    omega
  | case4 settled input nest outer character following skipped _ _ inductionHypothesis =>
    have first := length_lt_of_skipGap skipped
    have second := inductionHypothesis passed
    omega
  | case5 => cases passed
  | case6 settled input nest outer character following skipped _ _ _ =>
    have first := length_skipGap_le input
    have second := length_le_of_passToItem (rest_of_item passed)
    rw [skipped] at first
    omega

/-- Passes over a value and over what is open around it. -/
def passValueIn (nests : List Nest) (input : Input) : Except Fault Input :=
  match _token : passToken input with
  | .error fault => .error fault
  | .ok (opening, rest) =>
    match _closers : passClosers (opening.inside nests) opening.isComplete rest with
    | .error fault => .error fault
    | .ok ([], rest) => .ok rest
    | .ok (nests, rest) => passValueIn nests rest
termination_by input.length
decreasing_by
  have first := length_lt_of_passToken _token
  have second := length_le_of_passClosers _closers
  omega

theorem length_lt_of_passValueIn {nests : List Nest} {input rest : Input}
    (passed : passValueIn nests input = .ok rest) : rest.length < input.length := by
  fun_induction passValueIn nests input with
  | case1 => cases passed
  | case2 => cases passed
  | case3 nests input opening following token remaining closers =>
    simp only [Except.ok.injEq] at passed
    have first := length_lt_of_passToken token
    have second := length_le_of_passClosers closers
    rw [passed] at second
    omega
  | case4 nests input opening following token inner remaining _ closers inductionHypothesis =>
    have first := length_lt_of_passToken token
    have second := length_le_of_passClosers closers
    have third := inductionHypothesis passed
    omega

/-- Passes over a value. -/
def skipValue : Reader Unit where
  read input := (passValueIn [] input).map ((), ·)
  shorter := by
    intro input rest _ success
    cases passed : passValueIn [] input with
    | error fault =>
      rw [passed] at success
      cases success
    | ok remaining =>
      simp only [passed, Except.map, Except.ok.injEq, Prod.mk.injEq] at success
      exact success.2 ▸ length_lt_of_passValueIn passed

end NodeTelemetry.Json
