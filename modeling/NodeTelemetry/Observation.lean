/-
This file holds what the logs and the validator directory tell about the node, in the form in which
it is handed to the metrics: a change of one metric, which may be kept apart by labels.
-/

import NodeTelemetry.Binary64.Basic

namespace NodeTelemetry

/-- The metrics that are published. -/
inductive Metric
  | proposerCount
  | blockHeight
  | applyDuration
  | jailedStatus
  | validatorCount
deriving DecidableEq

/-- The name under which observations address a metric. -/
def Metric.name : Metric → String
  | .proposerCount => "proposer_count"
  | .blockHeight => "block_height"
  | .applyDuration => "apply_duration"
  | .jailedStatus => "validator_jailed_status"
  | .validatorCount => "validator_count"

/-- What happens to the value of a metric. -/
inductive Change
  | increment (amount : Binary64)
  | set (value : Binary64)
deriving DecidableEq

/-- A change of the metric with a name, under labels that are pairs of a key and a value. -/
structure Observation where
  name : String
  labels : List (String × String)
  change : Change
deriving DecidableEq

end NodeTelemetry
