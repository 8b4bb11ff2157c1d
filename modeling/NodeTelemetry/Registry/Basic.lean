/-
This file holds the published values. An observation changes one of them or is rejected: it must
name a metric, change it in the way that suits the metric, and carry as many labels as the metric
has, if it has any. The keys of labels are not looked at.
-/

import NodeTelemetry.Observation
import NodeTelemetry.Registry.Samples

namespace NodeTelemetry

/-- The values of all metrics. -/
structure Registry where
  proposerCount : Samples UInt64
  blockHeight : Int64
  applyDuration : Binary64
  jailedStatus : Samples Binary64
  validatorCount : Int64
deriving DecidableEq

namespace Registry

/-- The values before anything was observed. -/
def empty : Registry :=
  { proposerCount := []
    blockHeight := 0
    applyDuration := Binary64.zero
    jailedStatus := []
    validatorCount := 0 }

/-- The values after an observation, `none` if it is rejected. -/
def accept? (registry : Registry) (observation : Observation) : Option Registry :=
  let labels := observation.labels.map (·.2)
  match observation.change with
  | .increment amount =>
    if observation.name = Metric.proposerCount.name && labels.length == 1 then
      some { registry with
        proposerCount := registry.proposerCount.update labels 0 (· + amount.toUInt64) }
    else none
  | .set value =>
    if observation.name = Metric.blockHeight.name then
      some { registry with blockHeight := value.toInt64 }
    else if observation.name = Metric.applyDuration.name then
      some { registry with applyDuration := value }
    else if observation.name = Metric.jailedStatus.name && labels.length == 2 then
      some { registry with
        jailedStatus := registry.jailedStatus.update labels Binary64.zero fun _ => value }
    else if observation.name = Metric.validatorCount.name then
      some { registry with validatorCount := value.toInt64 }
    else none

/-- The values after an observation, the same as before if it is rejected. -/
def record (registry : Registry) (observation : Observation) : Registry :=
  (registry.accept? observation).getD registry

/-- The values after several observations. -/
def recordAll (registry : Registry) (observations : List Observation) : Registry :=
  observations.foldl record registry

end Registry

end NodeTelemetry
