/-
This file says what can be wrong with a line of a log.
-/

import NodeTelemetry.Json.Reader

namespace NodeTelemetry.Line

/-- What a consensus record lacks. -/
inductive Shape
  | noState
  | jailedNotList
  | jailedNotText
  | roundsNotList
  | roundWithoutStakes
  | stakeWithoutValidator
deriving DecidableEq

def Shape.description : Shape → String
  | .noState => "expected [_, [_, \x7bstate\x7d]]"
  | .jailedNotList => "jailed_validators is not a list"
  | .jailedNotText => "jailed validator is not a string"
  | .roundsNotList => "round_to_stakes is not a list"
  | .roundWithoutStakes => "round entry has no stake list"
  | .stakeWithoutValidator => "stake entry has no validator"

/-- Why a line is dropped. -/
inductive Fault
  | json (fault : Json.Fault)
  | missingField (fields : String)
  | unexpectedShape (shape : Shape)
deriving DecidableEq

/-- The message of a fault. What is wrong with the JSON is not part of it. -/
def Fault.message? : Fault → Option String
  | .json _ => none
  | .missingField fields => some ("missing field \x60" ++ fields ++ "\x60")
  | .unexpectedShape shape => some ("unexpected record shape: " ++ shape.description)

/-- Reads a line as JSON. -/
def readJson {Value : Type} (reader : Json.Reader Value) (line : String) : Except Fault Value :=
  match reader.readAll (Json.Input.ofText line) with
  | .error fault => .error (.json fault)
  | .ok value => .ok value

end NodeTelemetry.Line
