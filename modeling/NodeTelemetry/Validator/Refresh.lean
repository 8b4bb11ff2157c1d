/-
This file keeps the table of validators up to date. A good answer of the directory replaces the
whole table, and an answer that failed leaves everything as it was.
-/

import NodeTelemetry.Observation
import NodeTelemetry.Validator.Directory

namespace NodeTelemetry.Directory

/-- How many validators an answer lists, those with the same short address counted apart. -/
def countObservation (summaries : List Summary) : Observation :=
  { name := Metric.validatorCount.name
    labels := []
    change := .set (Binary64.ofNat summaries.length) }

/-- The table after an answer and what is observed. -/
def refresh (table : ValidatorTable) (answer : Answer) : ValidatorTable × List Observation :=
  match answer with
  | .error _ => (table, [])
  | .ok summaries => (tableOf summaries, [countObservation summaries])

/-- The table after several answers and what is observed. -/
def refreshAll (table : ValidatorTable) (answers : List Answer) :
    ValidatorTable × List Observation :=
  answers.foldl (fun state answer =>
    let (table, observations) := refresh state.1 answer
    (table, state.2 ++ observations)) (table, [])

end NodeTelemetry.Directory
