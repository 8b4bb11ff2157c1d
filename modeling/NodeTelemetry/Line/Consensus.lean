/-
This file reads the lines of the consensus logs. A line holds the state of the consensus: which
validators are jailed and which have a stake in some round. Each of the latter is reported with
whether it is jailed. The lines use short addresses, which the table of validators resolves when the
report is turned into observations.
-/

import NodeTelemetry.Json.Value
import NodeTelemetry.Line.Fault
import NodeTelemetry.Observation
import NodeTelemetry.Validator.Table

namespace NodeTelemetry.Line.Consensus

/-! ### Sets of addresses -/

/-- Puts a text into an ascending list without repetitions. -/
def insertAscending (text : String) : List String → List String
  | [] => [text]
  | head :: tail =>
    if text < head then text :: head :: tail
    else if text = head then head :: tail
    else head :: insertAscending text tail

/-- The different texts of a list in ascending order. -/
def ascending (texts : List String) : List String :=
  texts.foldl (fun set text => insertAscending text set) []

/-! ### The state of the consensus -/

/-- The state in a record. -/
def stateOf (record : Json.Value) : Except Fault Json.Value :=
  match (record.item? 1).bind (Json.Value.item? 1) with
  | some (.object members) => .ok (.object members)
  | _ => .error (.unexpectedShape .noState)

def jailedAddress (entry : Json.Value) : Except Fault String :=
  match entry.text? with
  | some address => .ok address
  | none => .error (.unexpectedShape .jailedNotText)

/-- The short addresses of the jailed validators. -/
def jailedAddresses (state : Json.Value) : Except Fault (List String) :=
  match state.member? "jailed_validators" with
  | none | some .null => .ok []
  | some (.list entries) => entries.mapM jailedAddress
  | some _ => .error (.unexpectedShape .jailedNotList)

def stakeAddress (stake : Json.Value) : Except Fault String :=
  match (stake.item? 0).bind Json.Value.text? with
  | some address => .ok address
  | none => .error (.unexpectedShape .stakeWithoutValidator)

/-- The short addresses of the validators with a stake in a round. -/
def roundAddresses (round : Json.Value) : Except Fault (List String) :=
  match (round.item? 1).bind Json.Value.list? with
  | some stakes => stakes.mapM stakeAddress
  | none => .error (.unexpectedShape .roundWithoutStakes)

/-- The short addresses of the validators with a stake in some round, as often as they occur. -/
def stakeAddresses (state : Json.Value) : Except Fault (List String) :=
  match (state.member? "execution_state").bind (Json.Value.member? "round_to_stakes") with
  | none | some .null => .ok []
  | some (.list rounds) => (rounds.mapM roundAddresses).map List.flatten
  | some _ => .error (.unexpectedShape .roundsNotList)

/-! ### The report -/

/-- Whether a validator is jailed. -/
structure Status where
  shortAddress : String
  jailed : Bool
deriving DecidableEq

/-- The status of each validator with a stake, by ascending short address. -/
def report (record : Json.Value) : Except Fault (List Status) := do
  let state ← stateOf record
  let jailed ← jailedAddresses state
  let holders ← stakeAddresses state
  return (ascending holders).map fun address => ⟨address, jailed.contains address⟩

/-- What a status shows of the validator that its address resolves to. -/
def Status.observation (status : Status) (validator : Validator) : Observation :=
  { name := Metric.jailedStatus.name
    labels := [("validator", validator.fullAddress), ("name", validator.name)]
    change := .set (if status.jailed then Binary64.one else Binary64.zero) }

/-- What a line shows, with its addresses resolved by a table. -/
def observe (table : ValidatorTable) (line : String) : Except Fault (List Observation) :=
  match readJson (Json.valueReader Json.nestingLimit) line with
  | .error fault => .error fault
  | .ok record =>
    match report record with
    | .error fault => .error fault
    | .ok statuses =>
      .ok (statuses.map fun status => status.observation (table.resolve status.shortAddress))

end NodeTelemetry.Line.Consensus
