/-
This file shows that the families of logs do not get in each other's way. The lines of each family
are handled in order, but in between any lines of other families may be handled. As each metric is
fed by one family at most, this makes no difference to the values that are published.

What a line shows names only metrics of its own family, and no metric belongs to two families. So of
all that is recorded, the observations that name a given metric come from the lines of a single
family, in the order of these lines, however they are interleaved with others. And what becomes of a
metric is settled by the observations that name it. Two interleavings of the same lines therefore
agree on every metric, and so they lead to the same registry.
-/

import NodeTelemetry.Exporter
import NodeTelemetry.Proofs.Line.Consensus
import NodeTelemetry.Proofs.Registry.Exposition

namespace NodeTelemetry

/-! ### The metrics of a family -/

namespace Family

/-- The metrics that the lines of a family feed. -/
def metrics : Family → List Metric
  | .proposals => [.proposerCount]
  | .blocks => [.blockHeight, .applyDuration]
  | .consensus => [.jailedStatus]

theorem exists_of_mem_proposal {line : String} {observations : List Observation}
    (accepted : Line.Proposal.observe line = .ok observations) {observation : Observation}
    (member : observation ∈ observations) :
    ∃ proposer, observation = Line.Proposal.countObservation proposer := by
  unfold Line.Proposal.observe at accepted
  split at accepted
  · cases accepted
  · next proposer _ =>
    obtain rfl := Except.ok.inj accepted
    unfold Line.Proposal.observations at member
    split at member
    · cases member
    · split at member
      · cases member
      · exact ⟨_, List.mem_singleton.mp member⟩

theorem exists_of_mem_blockTime {line : String} {observations : List Observation}
    (accepted : Line.BlockTime.observe line = .ok observations) {observation : Observation}
    (member : observation ∈ observations) :
    (∃ height, observation = Line.BlockTime.heightObservation height) ∨
      ∃ duration, observation = Line.BlockTime.durationObservation duration := by
  unfold Line.BlockTime.observe at accepted
  split at accepted
  · cases accepted
  · next record _ =>
    unfold Line.BlockTime.observations at accepted
    split at accepted
    · cases accepted
    · obtain rfl := Except.ok.inj accepted
      rcases List.mem_append.mp member with height | duration
      · obtain ⟨value, _, rfl⟩ := Option.map_eq_some_iff.mp (Option.mem_toList.mp height)
        exact .inl ⟨value, rfl⟩
      · obtain ⟨value, _, rfl⟩ := Option.map_eq_some_iff.mp (Option.mem_toList.mp duration)
        exact .inr ⟨value, rfl⟩

theorem exists_of_mem_consensus {table : ValidatorTable} {line : String}
    {observations : List Observation}
    (accepted : Line.Consensus.observe table line = .ok observations) {observation : Observation}
    (member : observation ∈ observations) :
    ∃ (status : Line.Consensus.Status) (validator : Validator),
      observation = status.observation validator := by
  obtain ⟨jailed, holders, _, rfl⟩ := Line.Consensus.observe_eq_ok accepted
  obtain ⟨address, _, rfl⟩ := List.mem_map.mp member
  exact ⟨_, _, rfl⟩

/-- A line names only metrics of its family. -/
theorem exists_metric_of_mem_recorded {family : Family} {table : ValidatorTable} {line : String}
    {observation : Observation} (member : observation ∈ family.recorded table line) :
    ∃ metric ∈ family.metrics, observation.name = metric.name := by
  unfold recorded at member
  split at member
  · cases member
  · next observations accepted =>
    cases family with
    | proposals =>
      obtain ⟨proposer, rfl⟩ := exists_of_mem_proposal accepted member
      exact ⟨.proposerCount, List.mem_cons_self, rfl⟩
    | blocks =>
      rcases exists_of_mem_blockTime accepted member with ⟨height, rfl⟩ | ⟨duration, rfl⟩
      · exact ⟨.blockHeight, List.mem_cons_self, rfl⟩
      · exact ⟨.applyDuration, List.mem_cons_of_mem _ List.mem_cons_self, rfl⟩
    | consensus =>
      obtain ⟨status, validator, rfl⟩ := exists_of_mem_consensus accepted member
      exact ⟨.jailedStatus, List.mem_cons_self, rfl⟩

/-- Of the lines of a family nothing is recorded for a metric that it does not feed. -/
theorem filter_recorded_eq_nil {family : Family} {metric : Metric}
    (notFed : metric ∉ family.metrics) (table : ValidatorTable) (line : String) :
    (family.recorded table line).filter (·.name = metric.name) = [] := by
  refine List.filter_eq_nil_iff.mpr fun observation member => ?_
  obtain ⟨fed, among, named⟩ := exists_metric_of_mem_recorded member
  rw [decide_eq_true_iff, named]
  intro same
  exact notFed (Metric.name_injective same ▸ among)

/-- No metric is fed by more than one family. -/
theorem exists_only_family (metric : Metric) :
    ∃ family : Family, ∀ other : Family, metric ∈ other.metrics → other = family := by
  cases metric with
  | proposerCount => exact ⟨.proposals, fun other => by cases other <;> decide⟩
  | blockHeight | applyDuration => exact ⟨.blocks, fun other => by cases other <;> decide⟩
  | jailedStatus | validatorCount => exact ⟨.consensus, fun other => by cases other <;> decide⟩

end Family

/-! ### Lines of all families -/

namespace Exporter

/-- Handles lines of several families. -/
def handleLines (exporter : Exporter) (lines : List (Family × String)) : Exporter :=
  lines.foldl (fun exporter line => exporter.handleLine line.1 line.2) exporter

/-- The lines of one family among others. -/
def linesOf (family : Family) (lines : List (Family × String)) : List String :=
  (lines.filter (·.1 == family)).map Prod.snd

/-- Whether lines are an interleaving of one sequence of lines for each family. -/
def Interleaves (lines : List (Family × String)) (sequences : Family → List String) : Prop :=
  ∀ family, linesOf family lines = sequences family

/-- What is recorded for lines of several families. -/
def recordedOf (table : ValidatorTable) (lines : List (Family × String)) : List Observation :=
  lines.flatMap fun line => line.1.recorded table line.2

theorem recordAll_append (exporter : Exporter) (first second : List Observation) :
    exporter.recordAll (first ++ second) = (exporter.recordAll first).recordAll second := by
  simp only [recordAll, Registry.recordAll, List.foldl_append]

/-- Handling lines is recording all that they show, with the table as it is. -/
theorem handleLines_eq (exporter : Exporter) (lines : List (Family × String)) :
    exporter.handleLines lines = exporter.recordAll (recordedOf exporter.table lines) := by
  induction lines generalizing exporter with
  | nil => rfl
  | cons line others inductionHypothesis =>
    rw [recordedOf, List.flatMap_cons, recordAll_append]
    exact inductionHypothesis _

/-- What is recorded for a metric is settled by the lines of the family that feeds it. -/
theorem filter_recordedOf {metric : Metric} {family : Family}
    (only : ∀ other : Family, metric ∈ other.metrics → other = family) (table : ValidatorTable)
    (lines : List (Family × String)) :
    (recordedOf table lines).filter (·.name = metric.name) =
      ((linesOf family lines).flatMap (family.recorded table)).filter (·.name = metric.name) := by
  induction lines with
  | nil => rfl
  | cons line others inductionHypothesis =>
    obtain ⟨source, text⟩ := line
    rw [recordedOf, List.flatMap_cons, List.filter_append, ← recordedOf, inductionHypothesis,
      linesOf, linesOf]
    by_cases own : source = family
    · subst own
      rw [List.filter_cons_of_pos (by simp), List.map_cons, List.flatMap_cons, List.filter_append]
    · have notFed : metric ∉ source.metrics := fun fed => own (only source fed)
      rw [List.filter_cons_of_neg (by simpa using own), Family.filter_recorded_eq_nil notFed,
        List.nil_append]

/-- However the lines of the families are interleaved, as long as each family keeps its own order,
the same values come out and the same text is published. This text would also be the same if the
samples of a metric had come into being in another order. -/
theorem handleLines_eq_of_interleaves (exporter : Exporter) (sequences : Family → List String)
    (first second : List (Family × String)) (interleaves : Interleaves first sequences)
    (interleavesToo : Interleaves second sequences) :
    exporter.handleLines first = exporter.handleLines second ∧
      (exporter.handleLines first).registry.expose =
        (exporter.handleLines second).registry.expose ∧
      ∀ earlier, exporter.registry = Registry.empty.recordAll earlier →
        ∀ other, Registry.Reordered (exporter.handleLines first).registry other →
          other.expose = (exporter.handleLines second).registry.expose := by
  have recorded : exporter.registry.recordAll (recordedOf exporter.table first) =
      exporter.registry.recordAll (recordedOf exporter.table second) := by
    refine Registry.recordAll_eq_of_filters (fun metric => ?_) exporter.registry
    obtain ⟨family, only⟩ := Family.exists_only_family metric
    rw [filter_recordedOf only, filter_recordedOf only, interleaves, interleavesToo]
  have same : exporter.handleLines first = exporter.handleLines second := by
    rw [handleLines_eq, handleLines_eq, recordAll, recordAll, recorded]
  refine ⟨same, by rw [same], fun earlier reached other reordered => ?_⟩
  have wellKept : (exporter.handleLines first).registry.WellKept := by
    rw [handleLines_eq, recordAll, reached]
    exact (Registry.wellKept_empty.recordAll earlier).recordAll _
  rw [← same]
  exact (Registry.expose_eq_of_reordered wellKept reordered).symm

/-- A few lines of each family. -/
def fewLines : Family → List String
  | .proposals => [
      "\x7b\"abci_block\":\x7b\"proposer\":\"b\"\x7d\x7d",
      "\x7b\"abci_block\":\x7b\"proposer\":\"a\"\x7d\x7d"]
  | .blocks => ["\x7b\"height\":7\x7d"]
  | .consensus => [
      "[0,[0,\x7b\"execution_state\":\x7b\"round_to_stakes\":[[0,[[\"c\"]]]]\x7d\x7d]]"]

/-- The lines family by family. -/
def inBlocks : List (Family × String) :=
  Family.all.flatMap fun family => (fewLines family).map fun line => (family, line)

/-- The lines with those of the first family around the others. -/
def inTurns : List (Family × String) :=
  match inBlocks with
  | first :: second :: others => first :: others ++ [second]
  | lines => lines

/-- An exporter that has handled nothing yet. -/
def fresh : Exporter :=
  .ofSettings .default

theorem registry_inBlocks : (fresh.handleLines inBlocks).registry =
    { proposerCount := [⟨["b"], 1⟩, ⟨["a"], 1⟩]
      blockHeight := 7
      applyDuration := Binary64.zero
      jailedStatus := [⟨["c", "Unknown"], Binary64.zero⟩]
      validatorCount := 0 } := by
  decide +kernel

/-- Two interleavings of the same lines, and the samples of a metric in another order. -/
theorem handleLines_inTurns :
    Interleaves inBlocks fewLines ∧ Interleaves inTurns fewLines ∧ inBlocks ≠ inTurns ∧
      fresh.handleLines inBlocks = fresh.handleLines inTurns ∧
      Registry.expose
        { (fresh.handleLines inBlocks).registry with
          proposerCount := [⟨["a"], 1⟩, ⟨["b"], 1⟩] } =
        (fresh.handleLines inTurns).registry.expose := by
  have interleaves : Interleaves inBlocks fewLines := fun family => by cases family <;> rfl
  have interleavesToo : Interleaves inTurns fewLines := fun family => by cases family <;> rfl
  obtain ⟨same, _, anyOrder⟩ :=
    handleLines_eq_of_interleaves fresh fewLines inBlocks inTurns interleaves interleavesToo
  refine ⟨interleaves, interleavesToo, by decide, same, anyOrder [] rfl _ ?_⟩
  rw [registry_inBlocks]
  exact ⟨.swap _ _ _, rfl, rfl, .refl _, rfl⟩

end Exporter

end NodeTelemetry
