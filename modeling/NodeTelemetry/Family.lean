/-
This file holds the families of logs that a node writes. All logs of a family lie below one
directory and are read line by line in the same way.
-/

import NodeTelemetry.Line.BlockTime
import NodeTelemetry.Line.Consensus
import NodeTelemetry.Line.Proposal

namespace NodeTelemetry

inductive Family
  | proposals
  | blocks
  | consensus
deriving DecidableEq

namespace Family

def all : List Family :=
  [.proposals, .blocks, .consensus]

def name : Family → String
  | .proposals => "proposals"
  | .blocks => "blocks"
  | .consensus => "consensus"

def ofName? (name : String) : Option Family :=
  all.find? (·.name == name)

/-- What a line of a family shows. -/
def observe (family : Family) (table : ValidatorTable) (line : String) :
    Except Line.Fault (List Observation) :=
  match family with
  | .proposals => Line.Proposal.observe line
  | .blocks => Line.BlockTime.observe line
  | .consensus => Line.Consensus.observe table line

/-- What is recorded for a line: nothing if something is wrong with it. -/
def recorded (family : Family) (table : ValidatorTable) (line : String) : List Observation :=
  match family.observe table line with
  | .error _ => []
  | .ok observations => observations

end Family

end NodeTelemetry
