/-
This file says which observations are recorded: those that name a metric, change it in the way that
suits it and carry as many labels as it is kept apart by. All that the logs and the validator
directory show is of this kind, so none of it gets lost. Any other observation leaves no trace, not
even a sample without a value, and one that is recorded touches a single sample of a single metric.

Whether an observation is accepted is decided by its name, by the kind of its change and by how many
labels it has, and not by the values that are there already. So it is a property of the observation
alone, and observations that suit their metrics are all accepted one after the other, whatever they
do to the registry in between.

Each of the kinds of observations that are made is built with the name, the change and the labels of
its metric, so it suits this metric by the way it is built.
-/

import Mathlib.Data.List.Induction
import NodeTelemetry.Proofs.Registry.Interleaving

namespace NodeTelemetry

/-! ### Observations that suit a metric -/

/-- Whether a metric counts something, and does not just show its latest value. -/
def Metric.counts : Metric → Bool
  | .proposerCount => true
  | .blockHeight | .applyDuration | .jailedStatus | .validatorCount => false

/-- By how many labels a metric is kept apart, if it is. -/
def Metric.labelCount? : Metric → Option Nat
  | .proposerCount => some 1
  | .jailedStatus => some 2
  | .blockHeight | .applyDuration | .validatorCount => none

def Change.isIncrement : Change → Bool
  | .increment _ => true
  | .set _ => false

/-- Whether an observation is one of a metric. A metric that is not kept apart takes any labels. -/
structure Observation.Suits (observation : Observation) (metric : Metric) : Prop where
  named : observation.name = metric.name
  changed : observation.change.isIncrement = metric.counts
  labelled : ∀ count, metric.labelCount? = some count → observation.labels.length = count

variable {registry after : Registry} {observation : Observation} {metric : Metric}

/-- The labels are not looked at where a metric is not kept apart by any. -/
theorem Observation.suits_of_undivided (named : observation.name = metric.name)
    (changed : observation.change.isIncrement = metric.counts)
    (undivided : metric.labelCount? = none) : observation.Suits metric where
  named := named
  changed := changed
  labelled count divided := by
    rw [undivided] at divided
    cases divided

/-! ### One sample among the others -/

namespace Samples

variable {Value : Type}

/-- What becomes of samples when the one under some labels is touched: it has another value, or it
is new and stands behind the others. -/
inductive Touched (labels : List String) : Samples Value → Samples Value → Prop
  | changed (before after : Samples Value) (sample : Sample Value) (value : Value)
      (found : sample.key = String.join labels) :
      Touched labels (before ++ sample :: after) (before ++ ⟨sample.labels, value⟩ :: after)
  | created (samples : Samples Value) (value : Value)
      (absent : ∀ sample ∈ samples, sample.key ≠ String.join labels) :
      Touched labels samples (samples ++ [⟨labels, value⟩])

/-- A sample under other labels in front of the touched one stays as it is. -/
theorem Touched.behind {labels : List String} {samples others : Samples Value}
    (touched : Touched labels samples others) {first : Sample Value}
    (apart : first.key ≠ String.join labels) :
    Touched labels (first :: samples) (first :: others) := by
  cases touched with
  | changed before after sample value found => exact .changed (first :: before) after sample value found
  | created _ value absent =>
    exact .created (first :: samples) value (List.forall_mem_cons.mpr ⟨apart, absent⟩)

/-- Changing the sample under some labels touches no other one. -/
theorem touched_update (samples : Samples Value) (labels : List String) (initial : Value)
    (change : Value → Value) : Touched labels samples (samples.update labels initial change) := by
  induction samples with
  | nil => exact .created [] _ (fun _ member => by cases member)
  | cons sample others inductionHypothesis =>
    by_cases here : sample.key = String.join labels
    · rw [update_cons_self others here]
      exact .changed [] others sample _ here
    · rw [update_cons_of_ne others here]
      exact inductionHypothesis.behind here

/-- A changed sample is still found under its labels, and a new one has the labels it was changed
under. -/
theorem find?_update (samples : Samples Value) (labels : List String) (initial : Value)
    (change : Value → Value) :
    (samples.update labels initial change).find? labels =
      some ⟨((samples.find? labels).map Sample.labels).getD labels,
        change (((samples.find? labels).map Sample.value).getD initial)⟩ := by
  rw [find?_update_self rfl]
  cases samples.find? labels <;> rfl

end Samples

namespace Registry

/-- Whether some values differ from others in one metric at most, and in one sample of it at most if
it is kept apart by labels. -/
structure Touched (metric : Metric) (labels : List String) (before after : Registry) : Prop where
  others : ∀ other, other ≠ metric → AgreesOn other before after
  proposerCount : metric = .proposerCount →
    before.proposerCount.Touched labels after.proposerCount
  jailedStatus : metric = .jailedStatus → before.jailedStatus.Touched labels after.jailedStatus

/-- What an observation leaves behind of the metric that it suits. A value is taken over, in a
metric of whole numbers without what is behind the point, and an amount is added to what was counted
before. Where labels keep samples apart, the sample that is found under them has this value, and the
labels it was created with. -/
def Leaves (observation : Observation) (before after : Registry) : Metric → Prop
  | .proposerCount => ∃ amount, observation.change = .increment amount ∧
      let labels := observation.labels.map (·.2)
      let found := before.proposerCount.find? labels
      after.proposerCount.find? labels =
        some ⟨(found.map Sample.labels).getD labels,
          (found.map Sample.value).getD 0 + amount.toUInt64⟩
  | .blockHeight => ∃ value, observation.change = .set value ∧ after.blockHeight = value.toInt64
  | .applyDuration => ∃ value, observation.change = .set value ∧ after.applyDuration = value
  | .jailedStatus => ∃ value, observation.change = .set value ∧
      let labels := observation.labels.map (·.2)
      after.jailedStatus.find? labels =
        some ⟨((before.jailedStatus.find? labels).map Sample.labels).getD labels, value⟩
  | .validatorCount => ∃ value, observation.change = .set value ∧
      after.validatorCount = value.toInt64

/-- An observation that suits a metric is accepted, touches nothing but this metric and leaves its
value there. -/
theorem exists_touched_of_suits (registry : Registry) (suits : observation.Suits metric) :
    ∃ after, registry.accept? observation = some after ∧
      Touched metric (observation.labels.map (·.2)) registry after ∧
      Leaves observation registry after metric := by
  obtain ⟨name, labels, change⟩ := observation
  obtain ⟨rfl, changed, labelled⟩ := suits
  cases metric with
  | proposerCount =>
    cases change with
    | increment amount =>
      have single : labels.length = 1 := labelled 1 rfl
      refine ⟨{ registry with proposerCount := registry.proposerCount.update _ 0 _ },
        by simp only [accept?, List.length_map, single]; rfl,
        ⟨?_, fun _ => Samples.touched_update _ _ _ _, (fun same => by cases same)⟩,
        amount, rfl, Samples.find?_update _ _ _ _⟩
      intro other apart
      cases other with
      | proposerCount => exact absurd rfl apart
      | _ => rfl
    | set value => cases changed
  | jailedStatus =>
    cases change with
    | increment amount => cases changed
    | set value =>
      have pair : labels.length = 2 := labelled 2 rfl
      refine ⟨{ registry with jailedStatus := registry.jailedStatus.update _ Binary64.zero _ },
        by simp only [accept?, List.length_map, pair]; rfl,
        ⟨?_, (fun same => by cases same), fun _ => Samples.touched_update _ _ _ _⟩,
        value, rfl, Samples.find?_update _ _ _ _⟩
      intro other apart
      cases other with
      | jailedStatus => exact absurd rfl apart
      | _ => rfl
  | blockHeight | applyDuration | validatorCount =>
    cases change with
    | increment amount => cases changed
    | set value =>
      refine ⟨_, rfl, ⟨fun other apart => ?_, (fun same => by cases same), (fun same => by cases same)⟩,
        value, rfl, rfl⟩
      cases other <;> first | rfl | exact absurd rfl apart

/-- What is accepted suits the metric that it names. -/
theorem exists_suits_of_accept? (accepted : registry.accept? observation = some after) :
    ∃ metric, observation.Suits metric := by
  obtain ⟨name, labels, change⟩ := observation
  unfold accept? at accepted
  cases change with
  | increment amount =>
    dsimp only at accepted
    split at accepted
    · next fits =>
      simp only [Bool.and_eq_true, decide_eq_true_eq, beq_iff_eq, List.length_map] at fits
      exact ⟨.proposerCount, fits.1, rfl, fun count divided => Option.some.inj divided ▸ fits.2⟩
    · cases accepted
  | set value =>
    dsimp only at accepted
    split at accepted
    · next named => exact ⟨.blockHeight, Observation.suits_of_undivided named rfl rfl⟩
    split at accepted
    · next named => exact ⟨.applyDuration, Observation.suits_of_undivided named rfl rfl⟩
    split at accepted
    · next fits =>
      simp only [Bool.and_eq_true, decide_eq_true_eq, beq_iff_eq, List.length_map] at fits
      exact ⟨.jailedStatus, fits.1, rfl, fun count divided => Option.some.inj divided ▸ fits.2⟩
    split at accepted
    · next named => exact ⟨.validatorCount, Observation.suits_of_undivided named rfl rfl⟩
    · cases accepted

/-- Just the observations that suit a metric are accepted, whatever the values are. -/
theorem accept?_eq_none_iff :
    registry.accept? observation = none ↔ ∀ metric, ¬observation.Suits metric := by
  constructor
  · intro rejected metric suits
    obtain ⟨after, accepted, _⟩ := exists_touched_of_suits registry suits
    rw [rejected] at accepted
    cases accepted
  · intro unsuited
    refine Option.eq_none_iff_forall_ne_some.mpr fun after accepted => ?_
    obtain ⟨metric, suits⟩ := exists_suits_of_accept? accepted
    exact unsuited metric suits

theorem record_of_accept? (accepted : registry.accept? observation = some after) :
    registry.record observation = after := by
  rw [record, accepted, Option.getD_some]

/-- The values after several observations, `none` if one of them is rejected. -/
def acceptAll? (registry : Registry) (observations : List Observation) : Option Registry :=
  observations.foldlM accept? registry

/-- Observations that suit some metric each are all accepted. -/
theorem acceptAll?_of_suits {observations : List Observation}
    (suit : ∀ observation ∈ observations, ∃ metric, observation.Suits metric) (registry : Registry) :
    registry.acceptAll? observations = some (registry.recordAll observations) := by
  induction observations generalizing registry with
  | nil => rfl
  | cons observation others inductionHypothesis =>
    obtain ⟨⟨metric, suits⟩, suitOthers⟩ := List.forall_mem_cons.mp suit
    obtain ⟨after, accepted, _⟩ := exists_touched_of_suits registry suits
    have recorded := record_of_accept? accepted
    rw [acceptAll?, List.foldlM_cons, accepted, Option.bind_eq_bind, Option.bind_some, recordAll,
      List.foldl_cons, recorded]
    exact inductionHypothesis suitOthers after

end Registry

/-! ### What the logs and the directory show -/

theorem Line.Proposal.suits_countObservation (proposer : String) :
    (Line.Proposal.countObservation proposer).Suits .proposerCount where
  named := rfl
  changed := rfl
  labelled _ divided := Option.some.inj divided

theorem Line.BlockTime.suits_heightObservation (height : UInt64) :
    (Line.BlockTime.heightObservation height).Suits .blockHeight :=
  Observation.suits_of_undivided rfl rfl rfl

theorem Line.BlockTime.suits_durationObservation (duration : Binary64) :
    (Line.BlockTime.durationObservation duration).Suits .applyDuration :=
  Observation.suits_of_undivided rfl rfl rfl

theorem Line.Consensus.Status.suits_observation (status : Line.Consensus.Status)
    (validator : Validator) : (status.observation validator).Suits .jailedStatus where
  named := rfl
  changed := rfl
  labelled _ divided := Option.some.inj divided

theorem Directory.suits_countObservation (summaries : List Directory.Summary) :
    (Directory.countObservation summaries).Suits .validatorCount :=
  Observation.suits_of_undivided rfl rfl rfl

/-- Answers of the directory show nothing but how many validators they list. -/
theorem Directory.exists_of_mem_refreshAll {table : ValidatorTable}
    {answers : List Directory.Answer} {observation : Observation}
    (member : observation ∈ (Directory.refreshAll table answers).2) :
    ∃ summaries, observation = Directory.countObservation summaries := by
  induction answers using List.reverseRecOn with
  | nil => cases member
  | append_singleton answers answer inductionHypothesis =>
    rw [Directory.refreshAll, List.foldl_append] at member
    rcases List.mem_append.mp member with earlier | last
    · exact inductionHypothesis earlier
    · cases answer with
      | error fault => cases last
      | ok summaries => exact ⟨summaries, List.mem_singleton.mp last⟩

/-- Whatever a line shows suits a metric of its family. -/
theorem Family.exists_suits_of_mem {family : Family} {table : ValidatorTable} {line : String}
    {observations : List Observation} (accepted : family.observe table line = .ok observations)
    (member : observation ∈ observations) :
    ∃ metric ∈ family.metrics, observation.Suits metric := by
  cases family with
  | proposals =>
    obtain ⟨proposer, rfl⟩ := exists_of_mem_proposal accepted member
    exact ⟨_, List.mem_cons_self, Line.Proposal.suits_countObservation proposer⟩
  | blocks =>
    rcases exists_of_mem_blockTime accepted member with ⟨height, rfl⟩ | ⟨duration, rfl⟩
    · exact ⟨_, List.mem_cons_self, Line.BlockTime.suits_heightObservation height⟩
    · exact ⟨_, List.mem_cons_of_mem _ List.mem_cons_self,
        Line.BlockTime.suits_durationObservation duration⟩
  | consensus =>
    obtain ⟨status, validator, rfl⟩ := exists_of_mem_consensus accepted member
    exact ⟨_, List.mem_cons_self, status.suits_observation validator⟩

/-! ### Accepted or without effect -/

namespace Exporter

theorem handleLine_of_error {exporter : Exporter} {family : Family} {line : String}
    {fault : Line.Fault} (wrong : family.observe exporter.table line = .error fault) :
    exporter.handleLine family line = exporter := by
  rw [handleLine, Family.recorded, wrong]
  rfl

theorem registry_handleLine_of_ok {exporter : Exporter} {family : Family} {line : String}
    {observations : List Observation}
    (accepted : family.observe exporter.table line = .ok observations) :
    (exporter.handleLine family line).registry = exporter.registry.recordAll observations := by
  rw [handleLine, Family.recorded, accepted]
  rfl

/-- A line that something is wrong with changes nothing. What any other line shows is all accepted,
and so is what answers of the directory show. An observation in general is accepted if it suits a
metric. It touches only this metric and at most one sample of it then, and leaves its value there.
If it suits none it is rejected and changes nothing. -/
theorem accepted_or_unchanged (exporter : Exporter) :
    (∀ family line fault, family.observe exporter.table line = .error fault →
      exporter.handleLine family line = exporter) ∧
    (∀ family line observations, family.observe exporter.table line = .ok observations →
      (∀ observation ∈ observations, ∀ registry : Registry,
        registry.accept? observation ≠ none) ∧
      exporter.registry.acceptAll? observations =
        some (exporter.handleLine family line).registry) ∧
    (∀ answers,
      exporter.registry.acceptAll? (Directory.refreshAll exporter.table answers).2 =
        some (exporter.handleAnswers answers).registry) ∧
    ∀ observation : Observation,
      ((∀ metric, ¬observation.Suits metric) ∧
        exporter.registry.accept? observation = none ∧
        exporter.registry.record observation = exporter.registry) ∨
      ∃ metric, observation.Suits metric ∧
        exporter.registry.accept? observation = some (exporter.registry.record observation) ∧
        Registry.Touched metric (observation.labels.map (·.2)) exporter.registry
          (exporter.registry.record observation) ∧
        Registry.Leaves observation exporter.registry (exporter.registry.record observation)
          metric := by
  refine ⟨fun family line fault => handleLine_of_error,
    fun family line observations accepted => ?_, fun answers => ?_, fun observation => ?_⟩
  · have suit : ∀ observation ∈ observations, ∃ metric, observation.Suits metric := by
      intro observation member
      obtain ⟨metric, _, suits⟩ := Family.exists_suits_of_mem accepted member
      exact ⟨metric, suits⟩
    refine ⟨fun observation member registry rejected => ?_, ?_⟩
    · obtain ⟨metric, suits⟩ := suit observation member
      exact Registry.accept?_eq_none_iff.mp rejected metric suits
    · rw [registry_handleLine_of_ok accepted]
      exact Registry.acceptAll?_of_suits suit exporter.registry
  · refine Registry.acceptAll?_of_suits (fun observation member => ?_) exporter.registry
    obtain ⟨summaries, rfl⟩ := Directory.exists_of_mem_refreshAll member
    exact ⟨.validatorCount, Directory.suits_countObservation summaries⟩
  · by_cases suited : ∃ metric, observation.Suits metric
    · obtain ⟨metric, suits⟩ := suited
      obtain ⟨after, accepted, touched, leaves⟩ :=
        Registry.exists_touched_of_suits exporter.registry suits
      obtain rfl := Registry.record_of_accept? accepted
      exact .inr ⟨metric, suits, accepted, touched, leaves⟩
    · have unsuited := not_exists.mp suited
      have rejected : exporter.registry.accept? observation = none :=
        Registry.accept?_eq_none_iff.mpr unsuited
      exact .inl ⟨unsuited, rejected, by rw [Registry.record, rejected, Option.getD_none]⟩

/-- An observation of the count of proposals that does not count but set it. -/
def setCount : Observation :=
  { name := Metric.proposerCount.name
    labels := [("proposer", "a")]
    change := .set Binary64.one }

/-- A line in which one validator has a stake. -/
def strangerLine : String :=
  "[0,[0,\x7b\"execution_state\":\x7b\"round_to_stakes\":[[0,[[\"c\"]]]]\x7d\x7d]]"

/-- What the line shows when nothing is known about the validator. -/
def strangerStatus : Observation :=
  { name := Metric.jailedStatus.name
    labels := [("validator", "c"), ("name", "Unknown")]
    change := .set Binary64.zero }

theorem suits_strangerStatus : strangerStatus.Suits .jailedStatus where
  named := rfl
  changed := rfl
  labelled _ divided := Option.some.inj divided

/-- A line that is cut off, one that is not, what this one leaves behind, and an observation that
suits no metric though it names one. -/
theorem accepted_or_unchanged_fresh :
    Family.blocks.observe fresh.table "\x7b\"height\":" = .error (.json .unfinished) ∧
      fresh.handleLine .blocks "\x7b\"height\":" = fresh ∧
      Family.consensus.observe fresh.table strangerLine = .ok [strangerStatus] ∧
      fresh.registry.acceptAll? [strangerStatus] =
        some (fresh.handleLine .consensus strangerLine).registry ∧
      (fresh.registry.record strangerStatus).jailedStatus.find? ["c", "Unknown"] =
        some ⟨["c", "Unknown"], Binary64.zero⟩ ∧
      fresh.registry.accept? setCount = none ∧ fresh.registry.record setCount = fresh.registry := by
  obtain ⟨unchanged, accepted, _, touched⟩ := accepted_or_unchanged fresh
  have wrong : Family.blocks.observe fresh.table "\x7b\"height\":" = .error (.json .unfinished) := by
    with_unfolding_all exact rfl
  have shown : Family.consensus.observe fresh.table strangerLine = .ok [strangerStatus] := by
    with_unfolding_all exact rfl
  refine ⟨wrong, unchanged _ _ _ wrong, shown, (accepted _ _ _ shown).2, ?_, ?_⟩
  · rcases touched strangerStatus with ⟨unsuited, _⟩ | ⟨metric, suits, _, _, leaves⟩
    · exact absurd suits_strangerStatus (unsuited _)
    · obtain rfl : Metric.jailedStatus = metric := Metric.name_injective suits.named
      obtain ⟨value, isSet, found⟩ := leaves
      obtain rfl : Binary64.zero = value := Change.set.inj isSet
      exact found
  · rcases touched setCount with ⟨_, rejected, same⟩ | ⟨metric, suits, _⟩
    · exact ⟨rejected, same⟩
    · obtain rfl : Metric.proposerCount = metric := Metric.name_injective suits.named
      cases suits.changed

end Exporter

end NodeTelemetry
