/-
This file reads the lines of the proposal logs. A line is the record of a command, and if it names
the validator that proposed the block, this validator has made one more proposal.
-/

import NodeTelemetry.Json.Record
import NodeTelemetry.Line.Fault
import NodeTelemetry.Observation

namespace NodeTelemetry.Line.Proposal

/-- The fields of a block: who proposed it. -/
def blockFields : List (Json.Field (Option String)) :=
  [⟨"proposer", Json.textReader.orNull.map fun proposer _ => proposer, false⟩]

/-- The fields of a command: the block it belongs to, of which only the proposer is kept. -/
def commandFields : List (Json.Field (Option String)) :=
  [⟨"abci_block",
    (Json.recordReader blockFields none).orNull.map fun block _ => block.getD none, false⟩]

/-- Reads the proposer in the record of a command. -/
def proposerReader : Json.Reader (Option String) :=
  Json.recordReader commandFields none

def countObservation (proposer : String) : Observation :=
  { name := Metric.proposerCount.name
    labels := [("proposer", proposer)]
    change := .increment Binary64.one }

/-- What a proposer shows: a proposal, if there is a name. -/
def observations : Option String → List Observation
  | none => []
  | some proposer => if proposer.isEmpty then [] else [countObservation proposer]

/-- What a line shows. -/
def observe (line : String) : Except Fault (List Observation) :=
  match readJson proposerReader line with
  | .error fault => .error fault
  | .ok proposer => .ok (observations proposer)

end NodeTelemetry.Line.Proposal
