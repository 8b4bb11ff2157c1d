/-
This file says what the published status of a validator is after a line of the consensus logs. Each
validator with a stake in the line has a sample, but validators whose labels join to the same text
have one sample between them. It shows the status of the last of them by short address, under the
labels it was created with, so a sample with exactly the labels and the status of a validator need
not exist.

A sample is found under its label values joined without anything between them, so two pairs of
labels can lead to one sample. The statuses of a line are recorded one after the other, by ascending
short address. For one joined text those that matter are the peers: the validators of the line whose
labels join to it. The first peer creates the sample if it was not there, and gives it its labels,
and each peer sets its value, so in the end the value is that of the last one.
-/

import NodeTelemetry.Family
import NodeTelemetry.Proofs.Line.Consensus
import NodeTelemetry.Proofs.Registry.Samples
import NodeTelemetry.Registry.Basic

namespace NodeTelemetry

open Line

/-! ### Recording a status -/

/-- The label values of the status of the validator that an address resolves to. -/
def ValidatorTable.statusLabels (table : ValidatorTable) (address : String) : List String :=
  [(table.resolve address).fullAddress, (table.resolve address).name]

/-- The number that stands for the status of an address. -/
def statusNumber (jailed : List String) (address : String) : Binary64 :=
  if jailed.contains address then Binary64.one else Binary64.zero

namespace Registry

/-- The samples after the statuses of some addresses were recorded. -/
def statusesAfter (table : ValidatorTable) (jailed addresses : List String)
    (samples : Samples Binary64) : Samples Binary64 :=
  addresses.foldl (fun samples address =>
    samples.update (table.statusLabels address) Binary64.zero fun _ => statusNumber jailed address)
    samples

/-- Recording a status changes the sample under the labels of its validator. -/
theorem record_status (registry : Registry) (table : ValidatorTable) (jailed : List String)
    (address : String) :
    registry.record (Consensus.Status.observation ⟨address, jailed.contains address⟩
      (table.resolve address)) =
      { registry with
        jailedStatus := registry.jailedStatus.update (table.statusLabels address) Binary64.zero
          fun _ => statusNumber jailed address } := by
  have notHeight : Metric.jailedStatus.name ≠ Metric.blockHeight.name := by decide
  have notDuration : Metric.jailedStatus.name ≠ Metric.applyDuration.name := by decide
  simp only [record, accept?, Consensus.Status.observation, if_neg notHeight, if_neg notDuration,
    List.map_cons, List.map_nil, List.length_cons, List.length_nil, decide_true, Bool.true_and,
    BEq.rfl, if_true, Option.getD_some]
  rfl

theorem recordAll_statuses (registry : Registry) (table : ValidatorTable)
    (jailed addresses : List String) :
    (registry.recordAll (addresses.map fun address =>
      Consensus.Status.observation ⟨address, jailed.contains address⟩
        (table.resolve address))).jailedStatus =
      statusesAfter table jailed addresses registry.jailedStatus := by
  induction addresses generalizing registry with
  | nil => rfl
  | cons address others inductionHypothesis =>
    refine (inductionHypothesis _).trans ?_
    rw [record_status]
    rfl

/-! ### Validators with one sample between them -/

/-- The addresses among some whose labels join to the same text as those of an address. -/
def peers (table : ValidatorTable) (addresses : List String) (address : String) : List String :=
  addresses.filter fun other =>
    String.join (table.statusLabels other) = String.join (table.statusLabels address)

theorem mem_peers {table : ValidatorTable} {addresses : List String} {address other : String} :
    other ∈ peers table addresses address ↔ other ∈ addresses ∧
      String.join (table.statusLabels other) = String.join (table.statusLabels address) := by
  rw [peers, List.mem_filter, decide_eq_true_iff]

/-- The sample that validators have between them is created for the first of them, if it was not
there before, and shows the status of the last one. -/
theorem find?_statusesAfter (table : ValidatorTable) (jailed addresses : List String)
    (address : String) (samples : Samples Binary64) :
    (statusesAfter table jailed addresses samples).find? (table.statusLabels address) =
      match (peers table addresses address).head?, (peers table addresses address).getLast? with
      | some first, some last =>
        some ⟨((samples.find? (table.statusLabels address)).map Sample.labels).getD
          (table.statusLabels first), statusNumber jailed last⟩
      | _, _ => samples.find? (table.statusLabels address) := by
  induction addresses generalizing samples with
  | nil => rfl
  | cons next others inductionHypothesis =>
    refine (inductionHypothesis _).trans ?_
    by_cases shares : String.join (table.statusLabels next) =
        String.join (table.statusLabels address)
    · have joined : peers table (next :: others) address = next :: peers table others address :=
        List.filter_cons_of_pos (by simpa using shares)
      rw [joined, Samples.find?_update_self shares.symm]
      cases found : samples.find? (table.statusLabels address) with
      | none =>
        cases later : peers table others address with
        | nil => rfl
        | cons first rest => rfl
      | some sample =>
        cases later : peers table others address with
        | nil => rfl
        | cons first rest => rfl
    · have apart : peers table (next :: others) address = peers table others address :=
        List.filter_cons_of_neg (by simpa using shares)
      rw [apart, Samples.find?_update_of_ne (Ne.symm shares)]

theorem distinct_statusesAfter {samples : Samples Binary64} (distinct : samples.Distinct)
    (table : ValidatorTable) (jailed addresses : List String) :
    (statusesAfter table jailed addresses samples).Distinct := by
  induction addresses generalizing samples with
  | nil => exact distinct
  | cons address others inductionHypothesis =>
    exact inductionHypothesis (distinct.update _ _ _)

/-! ### Registries that observations lead to -/

theorem distinct_empty : empty.jailedStatus.Distinct :=
  List.nodup_nil

/-- Whatever is recorded, samples can be told apart. -/
theorem distinct_record {registry : Registry} (distinct : registry.jailedStatus.Distinct)
    (observation : Observation) : (registry.record observation).jailedStatus.Distinct := by
  unfold record
  cases accepted : registry.accept? observation with
  | none => exact distinct
  | some changed =>
    show changed.jailedStatus.Distinct
    unfold accept? at accepted
    simp only at accepted
    split at accepted
    · split at accepted
      · cases accepted
        exact distinct
      · cases accepted
    · split at accepted
      · cases accepted
        exact distinct
      split at accepted
      · cases accepted
        exact distinct
      split at accepted
      · cases accepted
        exact distinct.update _ _ _
      split at accepted
      · cases accepted
        exact distinct
      · cases accepted

theorem distinct_recordAll {registry : Registry} (distinct : registry.jailedStatus.Distinct)
    (observations : List Observation) :
    (registry.recordAll observations).jailedStatus.Distinct := by
  induction observations generalizing registry with
  | nil => exact distinct
  | cons observation others inductionHypothesis =>
    exact inductionHypothesis (distinct_record distinct observation)

/-! ### After a line -/

theorem statusNumber_eq_iff {jailed : List String} {first second : String} :
    statusNumber jailed first = statusNumber jailed second ↔
      (first ∈ jailed ↔ second ∈ jailed) := by
  have different : Binary64.one ≠ Binary64.zero := by decide +kernel
  unfold statusNumber
  by_cases left : first ∈ jailed <;> by_cases right : second ∈ jailed <;>
    simp [left, right, different, Ne.symm different]

/-- What a line leaves behind are the statuses of the validators with a stake in it. -/
theorem jailedStatus_recorded {table : ValidatorTable} {line : String}
    {jailed holders : List String} (registry : Registry)
    (lists : Consensus.addressesOf line = .ok (jailed, holders)) :
    (registry.recordAll (Family.consensus.recorded table line)).jailedStatus =
      statusesAfter table jailed (Consensus.ascending holders) registry.jailedStatus := by
  have accepted := Consensus.observe_eq table line
  rw [lists] at accepted
  rw [Family.recorded, Family.observe, accepted]
  exact recordAll_statuses registry table jailed (Consensus.ascending holders)

/-- The sample that a validator has after a line. -/
theorem find?_statusesAfter_ascending (table : ValidatorTable) (jailed : List String)
    {holders : List String}
    {address : String} (holds : address ∈ holders) (samples : Samples Binary64) :
    ∃ first last,
      (first ∈ peers table holders address ∧
        ∀ peer ∈ peers table holders address, first ≤ peer) ∧
      (last ∈ peers table holders address ∧
        ∀ peer ∈ peers table holders address, peer ≤ last) ∧
      (statusesAfter table jailed (Consensus.ascending holders) samples).find?
          (table.statusLabels address) =
        some ⟨((samples.find? (table.statusLabels address)).map Sample.labels).getD
          (table.statusLabels first), statusNumber jailed last⟩ := by
  have found := find?_statusesAfter table jailed (Consensus.ascending holders) address samples
  have ordered : (peers table (Consensus.ascending holders) address).Pairwise (· < ·) :=
    (Consensus.pairwise_ascending holders).filter _
  have same (peer : String) : peer ∈ peers table (Consensus.ascending holders) address ↔
      peer ∈ peers table holders address := by
    rw [mem_peers, mem_peers, Consensus.mem_ascending]
  have some : peers table (Consensus.ascending holders) address ≠ [] :=
    List.ne_nil_of_mem ((same address).mpr (mem_peers.mpr ⟨holds, rfl⟩))
  have isFirst := List.head?_eq_some_head some
  have isLast := List.getLast?_eq_some_getLast some
  obtain ⟨firstPeer, below⟩ := Consensus.le_of_head? ordered isFirst
  obtain ⟨lastPeer, above⟩ := Consensus.le_of_getLast? ordered isLast
  rw [isFirst, isLast] at found
  exact ⟨_, _, ⟨(same _).mp firstPeer, fun peer member => below peer ((same peer).mpr member)⟩,
    ⟨(same _).mp lastPeer, fun peer member => above peer ((same peer).mpr member)⟩, found⟩

/-- After a line, every validator with a stake in it has a sample. The sample shows the status of
the last validator that shares it, under the labels of the first one if it was not there before. It
is exactly the validator's own if it carries the validator's labels and that last validator is
jailed like it. -/
theorem jailedStatus_of_accepted (table : ValidatorTable) (earlier : List Observation)
    (line : String) (observations : List Observation)
    (accepted : Consensus.observe table line = .ok observations) :
    ∃ jailed holders, Consensus.addressesOf line = .ok (jailed, holders) ∧
      ∀ address ∈ holders, ∃ first last sample,
        (first ∈ peers table holders address ∧
          ∀ peer ∈ peers table holders address, first ≤ peer) ∧
        (last ∈ peers table holders address ∧
          ∀ peer ∈ peers table holders address, peer ≤ last) ∧
        ((empty.recordAll earlier).recordAll
          (Family.consensus.recorded table line)).jailedStatus.find? (table.statusLabels address) =
            some sample ∧
        sample.labels = (((empty.recordAll earlier).jailedStatus.find?
          (table.statusLabels address)).map Sample.labels).getD (table.statusLabels first) ∧
        sample.value = statusNumber jailed last ∧
        (⟨table.statusLabels address, statusNumber jailed address⟩ ∈
            ((empty.recordAll earlier).recordAll
              (Family.consensus.recorded table line)).jailedStatus ↔
          sample.labels = table.statusLabels address ∧ (last ∈ jailed ↔ address ∈ jailed)) := by
  obtain ⟨jailed, holders, lists, rfl⟩ := Consensus.observe_eq_ok accepted
  refine ⟨jailed, holders, lists, fun address holds => ?_⟩
  have before : (empty.recordAll earlier).jailedStatus.Distinct :=
    distinct_recordAll distinct_empty earlier
  have distinct := distinct_statusesAfter before table jailed (Consensus.ascending holders)
  obtain ⟨first, last, isFirst, isLast, found⟩ := find?_statusesAfter_ascending table jailed
    holds (empty.recordAll earlier).jailedStatus
  rw [jailedStatus_recorded _ lists]
  refine ⟨first, last, _, isFirst, isLast, found, rfl, rfl, ?_⟩
  rw [distinct.mem_iff, found, Option.some.injEq, Sample.mk.injEq, statusNumber_eq_iff]

/-- Two validators whose labels join to the same text. -/
def alikeTable : ValidatorTable :=
  .ofList [.ofAddress "ab" (some "c"), .ofAddress "a" (some "bc")]

/-- A line in which both have a stake and one of them is jailed. -/
def alikeLine : String :=
  "[0,[0,\x7b\"jailed_validators\":[\"ab\"],\"execution_state\":" ++
    "\x7b\"round_to_stakes\":[[0,[[\"a\"],[\"ab\"]]]]\x7d\x7d]]"

theorem addressesOf_alikeLine :
    Consensus.addressesOf alikeLine = .ok (["ab"], ["a", "ab"]) := by
  have lists : (Consensus.addressesOf alikeLine).toOption = some (["ab"], ["a", "ab"]) := by
    decide +kernel
  cases read : Consensus.addressesOf alikeLine with
  | error fault =>
    rw [read] at lists
    cases lists
  | ok addresses =>
    rw [read] at lists
    rw [Option.some.inj lists]

theorem observe_alikeLine :
    ∃ observations, Consensus.observe alikeTable alikeLine = .ok observations := by
  rw [Consensus.observe_eq, addressesOf_alikeLine]
  exact ⟨_, rfl⟩

theorem jailedStatus_alikeLine :
    (empty.recordAll (Family.consensus.recorded alikeTable alikeLine)).jailedStatus =
      [⟨["a", "bc"], Binary64.one⟩] := by
  decide +kernel

/-- The two validators have one sample, with the labels of one of them and the status of the other.
-/
theorem shared_alikeLine :
    ∃ observations sample, Consensus.observe alikeTable alikeLine = .ok observations ∧
      ((empty.recordAll []).recordAll
        (Family.consensus.recorded alikeTable alikeLine)).jailedStatus.find? ["ab", "c"] =
          some sample ∧
      sample.labels = ["a", "bc"] ∧ sample.value = statusNumber ["ab"] "ab" := by
  obtain ⟨observations, accepted⟩ := observe_alikeLine
  obtain ⟨jailed, holders, lists, statuses⟩ :=
    jailedStatus_of_accepted alikeTable [] alikeLine observations accepted
  obtain ⟨rfl, rfl⟩ := Prod.mk.inj (Except.ok.inj (addressesOf_alikeLine.symm.trans lists))
  obtain ⟨first, last, sample, ⟨firstPeer, below⟩, ⟨lastPeer, above⟩, found, labels, value, _⟩ :=
    statuses "ab" (by decide)
  have both : peers alikeTable ["a", "ab"] "ab" = ["a", "ab"] := by decide +kernel
  rw [both] at firstPeer below lastPeer above
  have isFirst : first = "a" := by
    rcases List.mem_cons.mp firstPeer with same | other
    · exact same
    · rw [List.mem_singleton.mp other] at below
      exact absurd (below "a" (by decide)) (by decide)
  have isLast : last = "ab" := by
    rcases List.mem_cons.mp lastPeer with other | same
    · rw [other] at above
      exact absurd (above "ab" (by decide)) (by decide)
    · exact List.mem_singleton.mp same
  subst isFirst isLast
  have ofOther : alikeTable.statusLabels "a" = ["a", "bc"] := by decide +kernel
  have ofItself : alikeTable.statusLabels "ab" = ["ab", "c"] := by decide +kernel
  rw [ofItself] at found
  refine ⟨observations, sample, accepted, found, labels.trans ?_, value⟩
  rw [← ofOther]
  rfl

/-- Not every validator with a stake in a line has a sample of its own with its status. -/
theorem exact_status_fails :
    ¬∀ (table : ValidatorTable) (earlier : List Observation) (line : String)
      (observations : List Observation),
      Consensus.observe table line = .ok observations →
        ∃ jailed holders, Consensus.addressesOf line = .ok (jailed, holders) ∧
          ∀ address ∈ holders, ⟨table.statusLabels address, statusNumber jailed address⟩ ∈
            ((empty.recordAll earlier).recordAll
              (Family.consensus.recorded table line)).jailedStatus := by
  intro exact
  obtain ⟨observations, accepted⟩ := observe_alikeLine
  obtain ⟨jailed, holders, lists, statuses⟩ := exact alikeTable [] alikeLine observations accepted
  obtain ⟨rfl, rfl⟩ := Prod.mk.inj (Except.ok.inj (addressesOf_alikeLine.symm.trans lists))
  have missing := statuses "ab" (by decide)
  rw [show empty.recordAll [] = empty from rfl, jailedStatus_alikeLine] at missing
  have labels := congrArg Sample.labels (List.mem_singleton.mp missing)
  exact absurd labels (by decide +kernel)

end Registry

end NodeTelemetry
