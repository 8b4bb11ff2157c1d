/-
This file says what the lines of the proposal logs do to the published values. Every line counts for
one proposer or for none, whatever is wrong with it, so the count of each proposer grows by the
number of lines that name them, and nothing else changes. Counts are words and start over behind the
last.

A line that cannot be read, that has no proposer or an empty one, shows nothing, and any other line
shows one proposal. Samples are found under their joined labels, and with a single label this is the
label itself, so proposers with different names never share a sample, and the sample of each grows
by as often as the name is in the list, by induction over the list.
-/

import NodeTelemetry.Proofs.Binary64.Whole
import NodeTelemetry.Proofs.Registry.Interleaving

namespace NodeTelemetry

/-! ### What a line counts for -/

namespace Line.Proposal

/-- The proposer that a line counts for. -/
def proposer? (line : String) : Option String :=
  match readJson proposerReader line with
  | .ok (some proposer) => if proposer.isEmpty then none else some proposer
  | _ => none

/-- A line records one proposal if it counts for somebody. -/
theorem recorded_eq (table : ValidatorTable) (line : String) :
    Family.proposals.recorded table line = ((proposer? line).map countObservation).toList := by
  unfold Family.recorded Family.observe observe proposer?
  cases readJson proposerReader line with
  | error fault => rfl
  | ok proposer =>
    cases proposer with
    | none => rfl
    | some proposer => cases missing : proposer.isEmpty <;> simp [observations, missing]

theorem countObservation_injective {first second : String}
    (same : countObservation first = countObservation second) : first = second := by
  have labels := congrArg Observation.labels same
  exact congrArg Prod.snd (List.singleton_inj.mp labels)

/-- A line shows one proposal of the proposer that it counts for. -/
theorem observe_eq_ok_iff {line proposer : String} :
    observe line = .ok [countObservation proposer] ↔ proposer? line = some proposer := by
  unfold observe proposer?
  cases readJson proposerReader line with
  | error fault => simp
  | ok named =>
    cases named with
    | none => simp [observations]
    | some named =>
      cases missing : named.isEmpty with
      | true => simp [observations, missing]
      | false =>
        simp only [observations, missing, Bool.false_eq_true, if_false, Except.ok.injEq,
          List.singleton_inj, Option.some.injEq]
        exact ⟨countObservation_injective, congrArg countObservation⟩

theorem proposer?_ne_empty (line : String) : proposer? line ≠ some "" := by
  intro named
  unfold proposer? at named
  split at named
  · split at named
    · cases named
    · next present =>
      obtain rfl := Option.some.inj named
      exact present rfl
  · cases named

/-- How many lines show a proposal of a proposer. -/
def timesNamed (lines : List String) (proposer : String) : Nat :=
  lines.countP fun line => observe line = .ok [countObservation proposer]

/-- How often a proposer is named is how often it is among those that are counted. -/
theorem timesNamed_eq_count (lines : List String) (proposer : String) :
    timesNamed lines proposer = (lines.filterMap proposer?).count proposer := by
  rw [timesNamed, List.count_filterMap]
  refine List.countP_congr fun line _ => ?_
  rw [decide_eq_true_iff, observe_eq_ok_iff, beq_iff_eq]

theorem timesNamed_empty (lines : List String) : timesNamed lines "" = 0 := by
  refine List.countP_eq_zero.mpr fun line _ => ?_
  rw [decide_eq_true_iff, observe_eq_ok_iff]
  exact proposer?_ne_empty line

end Line.Proposal

open Line.Proposal

/-! ### Counting -/

namespace Samples

/-- The counts after one more proposal of each of some proposers. -/
def counted (counts : Samples UInt64) (proposers : List String) : Samples UInt64 :=
  proposers.foldl (fun counts proposer => counts.update [proposer] 0 (· + 1)) counts

/-- What becomes of the sample of a proposer with so many more proposals. -/
def grown (proposer : String) (times : Nat) : Option (Sample UInt64) → Option (Sample UInt64)
  | none => if times = 0 then none else some ⟨[proposer], UInt64.ofNat (times % twoTo 64)⟩
  | some sample =>
    some ⟨sample.labels, UInt64.ofNat ((sample.value.toNat + times) % twoTo 64)⟩

theorem join_singleton (text : String) : String.join [text] = text := by
  simp [String.join]

theorem grown_zero (proposer : String) (sample : Option (Sample UInt64)) :
    grown proposer 0 sample = sample := by
  cases sample with
  | none => rfl
  | some sample =>
    have small : sample.value.toNat % twoTo 64 = sample.value.toNat :=
      Nat.mod_eq_of_lt sample.value.toNat_lt
    rw [grown, Nat.add_zero, small, UInt64.ofNat_toNat]

/-- One proposal and then some more. -/
theorem grown_find?_update (counts : Samples UInt64) (proposer : String) (times : Nat) :
    grown proposer times ((counts.update [proposer] 0 (· + 1)).find? [proposer]) =
      grown proposer (times + 1) (counts.find? [proposer]) := by
  rw [find?_update_self rfl]
  cases counts.find? [proposer] with
  | none =>
    rw [grown, grown, if_neg (Nat.succ_ne_zero times), UInt64.zero_add, UInt64.toNat_one,
      Nat.add_comm]
  | some sample =>
    have sum : ((sample.value + 1).toNat + times) % twoTo 64 =
        (sample.value.toNat + (times + 1)) % twoTo 64 := by
      rw [UInt64.toNat_add, UInt64.toNat_one, Nat.mod_add_mod, Nat.add_assoc, Nat.add_comm 1]
    rw [grown, grown, sum]

/-- The count of each proposer grows by as often as they are among those that are counted. -/
theorem find?_counted (counts : Samples UInt64) (proposers : List String) (proposer : String) :
    (counts.counted proposers).find? [proposer] =
      grown proposer (proposers.count proposer) (counts.find? [proposer]) := by
  induction proposers generalizing counts with
  | nil => exact (grown_zero proposer _).symm
  | cons first others inductionHypothesis =>
    refine (inductionHypothesis _).trans ?_
    by_cases same : first = proposer
    · subst same
      rw [List.count_cons_self, grown_find?_update]
    · have apart : String.join [proposer] ≠ String.join [first] := by
        rw [join_singleton, join_singleton]
        exact Ne.symm same
      rw [List.count_cons_of_ne same, find?_update_of_ne apart]

theorem key_of_find? {Value : Type} {samples : Samples Value} {labels : List String}
    {sample : Sample Value} (found : samples.find? labels = some sample) :
    sample.key = String.join labels := by
  unfold find? at found
  have same := List.find?_some found
  exact eq_of_beq same

/-- Where samples have one label each, the sample that is found is the one with that label. -/
theorem find?_singleton_eq_some_iff {Value : Type} {samples : Samples Value}
    (labelled : samples.Labelled 1) (distinct : samples.Distinct) {label : String}
    {sample : Sample Value} :
    samples.find? [label] = some sample ↔ sample ∈ samples ∧ sample.labels = [label] := by
  constructor
  · intro found
    have member := mem_of_find? found
    obtain ⟨own, single⟩ := List.length_eq_one_iff.mp (labelled sample member)
    have same := key_of_find? found
    rw [Sample.key, single, join_singleton, join_singleton] at same
    exact ⟨member, same ▸ single⟩
  · rintro ⟨member, labels⟩
    exact labels ▸ distinct.find?_eq_some member

end Samples

/-! ### Recording -/

namespace Registry

theorem record_countObservation (registry : Registry) (proposer : String) :
    registry.record (countObservation proposer) =
      { registry with
        proposerCount := registry.proposerCount.update [proposer] 0 (· + 1) } := by
  have one : Binary64.one.toUInt64 = 1 := Binary64.toUInt64_ofNat (Nat.one_le_two_pow)
  simp only [record, accept?, countObservation, List.map_cons, List.map_nil, List.length_cons,
    List.length_nil, decide_true, Bool.true_and, BEq.rfl, if_true, Option.getD_some, one]

/-- Recording proposals counts them and does nothing else. -/
theorem recordAll_countObservations (registry : Registry) (proposers : List String) :
    registry.recordAll (proposers.map countObservation) =
      { registry with proposerCount := registry.proposerCount.counted proposers } := by
  induction proposers generalizing registry with
  | nil => rfl
  | cons proposer others inductionHypothesis =>
    refine (inductionHypothesis (registry.record (countObservation proposer))).trans ?_
    rw [record_countObservation]
    rfl

end Registry

/-! ### Lines of the proposal logs -/

namespace Exporter

/-- What lines show are proposals of those that they count for. -/
theorem recordedOf_proposals (table : ValidatorTable) (lines : List String) :
    recordedOf table (lines.map fun line => (.proposals, line)) =
      (lines.filterMap proposer?).map countObservation := by
  induction lines with
  | nil => rfl
  | cons line others inductionHypothesis =>
    rw [List.map_cons, recordedOf, List.flatMap_cons, ← recordedOf, inductionHypothesis,
      recorded_eq]
    cases named : proposer? line with
    | none => rw [List.filterMap_cons_none named]; rfl
    | some proposer => rw [List.filterMap_cons_some named]; rfl

/-- However good or bad the lines of the proposal logs are, the sample of each proposer grows by the
number of lines that show a proposal of theirs, and comes into being if there is such a line. No
line counts for a proposer without a name, and nothing but the counts changes. In a registry where
samples can be told apart, the sample of a proposer is the one with their name as its label. -/
theorem proposerCount_handleLines (exporter : Exporter) (lines : List String) :
    ∃ counts : Samples UInt64,
      exporter.handleLines (lines.map fun line => (.proposals, line)) =
        { exporter with registry := { exporter.registry with proposerCount := counts } } ∧
      (∀ proposer, counts.find? [proposer] = Samples.grown proposer (timesNamed lines proposer)
        (exporter.registry.proposerCount.find? [proposer])) ∧
      timesNamed lines "" = 0 ∧
      (exporter.registry.WellKept → ∀ proposer sample,
        counts.find? [proposer] = some sample ↔ sample ∈ counts ∧ sample.labels = [proposer]) := by
  have handled : exporter.handleLines (lines.map fun line => (.proposals, line)) =
      { exporter with
        registry := { exporter.registry with
          proposerCount :=
            exporter.registry.proposerCount.counted (lines.filterMap proposer?) } } := by
    rw [handleLines_eq, recordedOf_proposals, recordAll, Registry.recordAll_countObservations]
  refine ⟨_, handled, fun proposer => ?_, timesNamed_empty lines, fun wellKept => ?_⟩
  · rw [timesNamed_eq_count]
    exact Samples.find?_counted _ _ proposer
  · have after := wellKept.recordAll ((lines.filterMap proposer?).map countObservation)
    rw [Registry.recordAll_countObservations] at after
    intro proposer sample
    exact Samples.find?_singleton_eq_some_iff after.proposersLabelled after.proposersDistinct

/-- The line of a proposal. -/
def proposalLine (proposer : String) : String :=
  "\x7b\"abci_block\":\x7b\"proposer\":\"" ++ proposer ++ "\"\x7d\x7d"

/-- Lines of two proposers, among them one that is cut off and one without a name. -/
def mixedLines : List String :=
  [proposalLine "a", "\x7b\"abci_block\":", proposalLine "b", proposalLine "", proposalLine "a"]

/-- An exporter in which one proposer has as many proposals as can be counted. -/
def nearlyOver : Exporter :=
  { fresh with
    registry := { Registry.empty with
      proposerCount := [⟨["a"], UInt64.ofNat (twoTo 64 - 1)⟩] } }

theorem filterMap_mixedLines : mixedLines.filterMap proposer? = ["a", "b", "a"] := by
  with_unfolding_all exact rfl

theorem wellKept_nearlyOver : nearlyOver.registry.WellKept where
  proposersLabelled := fun sample member => by
    obtain rfl := List.mem_singleton.mp member
    rfl
  proposersDistinct := List.nodup_singleton _
  statusLabelled := fun _ member => by cases member
  statusDistinct := List.nodup_nil

/-- The count that was full starts over, and the other proposer gets a count. -/
theorem proposerCount_mixedLines :
    nearlyOver.registry.WellKept ∧ ∃ counts : Samples UInt64,
      nearlyOver.handleLines (mixedLines.map fun line => (.proposals, line)) =
        { nearlyOver with registry := { nearlyOver.registry with proposerCount := counts } } ∧
      ⟨["a"], 1⟩ ∈ counts ∧ ⟨["b"], 1⟩ ∈ counts := by
  obtain ⟨counts, handled, grown, _, found⟩ := proposerCount_handleLines nearlyOver mixedLines
  have ofFirst := grown "a"
  have ofSecond := grown "b"
  rw [timesNamed_eq_count, filterMap_mixedLines] at ofFirst ofSecond
  exact ⟨wellKept_nearlyOver, counts, handled,
    ((found wellKept_nearlyOver "a" _).mp ofFirst).1,
    ((found wellKept_nearlyOver "b" _).mp ofSecond).1⟩

end Exporter

end NodeTelemetry
