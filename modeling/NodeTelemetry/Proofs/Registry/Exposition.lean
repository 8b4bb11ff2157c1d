/-
This file shows that what is published does not depend on the order in which samples came into
being. The samples of a metric are written in the order of their label values, and no two of them
have the same, so there is only one order in which they can be written.

Samples are found under their labels joined to one text, and an observation never creates a second
sample under the same text. So samples that are kept in this way differ in their joined labels, and
then they differ in their labels as well. The order by which they are sorted compares label values
one after the other; it is total and transitive, and two samples that come before each other have
the same values. Sorting a permutation of samples with different values therefore gives one and the
same list.
-/

import Mathlib.Data.List.Nodup
import NodeTelemetry.Proofs.Registry.Recording
import NodeTelemetry.Registry.Exposition

namespace NodeTelemetry

namespace Samples

variable {Value : Type} {samples : Samples Value}

/-- Whether all samples have so many labels. -/
def Labelled (samples : Samples Value) (count : Nat) : Prop :=
  ∀ sample ∈ samples, sample.labels.length = count

/-- A change keeps the number of labels, if it is made under as many. -/
theorem Labelled.update {count : Nat} (labelled : samples.Labelled count) {labels : List String}
    (fits : labels.length = count) (initial : Value) (change : Value → Value) :
    (samples.update labels initial change).Labelled count := by
  induction samples with
  | nil => exact List.forall_mem_singleton.mpr fits
  | cons sample others inductionHypothesis =>
    obtain ⟨first, rest⟩ := List.forall_mem_cons.mp labelled
    by_cases here : sample.key = String.join labels
    · rw [update_cons_self others here]
      exact List.forall_mem_cons.mpr ⟨first, rest⟩
    · rw [update_cons_of_ne others here]
      exact List.forall_mem_cons.mpr ⟨first, inductionHypothesis rest⟩

end Samples

namespace Registry

/-! ### The order of label values -/

/-- Labels come first if the values of the others are not less. -/
theorem labelsPrecede_iff {first second : List (String × String)} :
    labelsPrecede first second = true ↔ ¬second.map Prod.snd < first.map Prod.snd := by
  induction first generalizing second with
  | nil => exact iff_of_true rfl (List.not_lt_nil _)
  | cons label others inductionHypothesis =>
    cases second with
    | nil => exact iff_of_false Bool.false_ne_true (not_not_intro (List.nil_lt_cons _ _))
    | cons other rest =>
      rw [List.map_cons, List.map_cons, List.cons_lt_cons_iff, labelsPrecede]
      by_cases less : label.2 < other.2
      · refine iff_of_true (if_pos less) ?_
        rintro (greater | ⟨same, _⟩)
        · exact String.lt_asymm less greater
        · exact absurd (same ▸ less) (String.lt_irrefl _)
      by_cases greater : other.2 < label.2
      · rw [if_neg less, if_pos greater]
        exact iff_of_false Bool.false_ne_true (not_not_intro (.inl greater))
      · have same : other.2 = label.2 :=
          String.le_antisymm (String.not_lt.mp less) (String.not_lt.mp greater)
        rw [if_neg less, if_neg greater, inductionHypothesis]
        exact not_congr ⟨fun further => .inr ⟨same, further⟩,
          fun precedes => (precedes.resolve_left greater).2⟩

theorem labelsPrecede_total (first second : List (String × String)) :
    (labelsPrecede first second || labelsPrecede second first) = true := by
  rw [Bool.or_eq_true, labelsPrecede_iff, labelsPrecede_iff, List.not_lt, List.not_lt]
  exact List.le_total _ _

theorem labelsPrecede_trans (first second third : List (String × String))
    (precedes : labelsPrecede first second = true) (next : labelsPrecede second third = true) :
    labelsPrecede first third = true := by
  rw [labelsPrecede_iff, List.not_lt] at precedes next ⊢
  exact List.le_trans precedes next

theorem values_eq_of_labelsPrecede {first second : List (String × String)}
    (precedes : labelsPrecede first second = true) (follows : labelsPrecede second first = true) :
    first.map Prod.snd = second.map Prod.snd := by
  rw [labelsPrecede_iff, List.not_lt] at precedes follows
  exact List.le_antisymm precedes follows

/-! ### Sorted samples -/

theorem pairwise_sorted (samples : List (List (String × String) × Binary64)) :
    (sorted samples).Pairwise fun first second => labelsPrecede first.1 second.1 = true :=
  List.pairwise_mergeSort
    (fun first second third => labelsPrecede_trans first.1 second.1 third.1)
    (fun first second => labelsPrecede_total first.1 second.1) samples

/-- There is only one way to sort samples with different label values. -/
theorem sorted_eq_of_perm {samples others : List (List (String × String) × Binary64)}
    (permuted : samples.Perm others)
    (distinct : (samples.map fun sample => sample.1.map Prod.snd).Nodup) :
    sorted samples = sorted others := by
  have toSamples : (sorted samples).Perm samples := List.mergeSort_perm samples _
  have toOthers : (sorted others).Perm others := List.mergeSort_perm others _
  refine List.Perm.eq_of_pairwise (fun first second member memberToo precedes follows => ?_)
    (pairwise_sorted samples) (pairwise_sorted others)
    ((toSamples.trans permuted).trans toOthers.symm)
  exact List.inj_on_of_nodup_map distinct (toSamples.mem_iff.mp member)
    (permuted.mem_iff.mpr (toOthers.mem_iff.mp memberToo))
    (values_eq_of_labelsPrecede precedes follows)

/-- Samples that can be told apart are written with different label values, if what is written shows
how they are told apart. -/
theorem nodup_values {Value : Type} {samples : Samples Value} (distinct : samples.Distinct)
    (written : Sample Value → List (String × String) × Binary64) (keyOf : List String → String)
    (keyed : ∀ sample ∈ samples, keyOf ((written sample).1.map Prod.snd) = sample.key) :
    ((samples.map written).map fun sample => sample.1.map Prod.snd).Nodup := by
  have keys : (((samples.map written).map fun sample => sample.1.map Prod.snd).map keyOf) =
      samples.map Sample.key := by
    rw [List.map_map, List.map_map]
    exact List.map_congr_left keyed
  exact List.Nodup.of_map keyOf (keys ▸ distinct)

/-- Samples are written in the same order whenever they came into being. -/
theorem sorted_map_eq_of_perm {Value : Type} {samples others : Samples Value}
    (permuted : samples.Perm others) (distinct : samples.Distinct)
    (written : Sample Value → List (String × String) × Binary64)
    (keyOf : List String → String)
    (keyed : ∀ sample ∈ samples, keyOf ((written sample).1.map Prod.snd) = sample.key) :
    sorted (samples.map written) = sorted (others.map written) :=
  sorted_eq_of_perm (permuted.map written) (nodup_values distinct written keyOf keyed)

/-! ### Registries that observations lead to -/

/-- Whether the samples of each metric have as many labels as they should and can be told apart. -/
structure WellKept (registry : Registry) : Prop where
  proposersLabelled : registry.proposerCount.Labelled 1
  proposersDistinct : registry.proposerCount.Distinct
  statusLabelled : registry.jailedStatus.Labelled 2
  statusDistinct : registry.jailedStatus.Distinct

theorem wellKept_empty : empty.WellKept where
  proposersLabelled := fun _ member => by cases member
  proposersDistinct := List.nodup_nil
  statusLabelled := fun _ member => by cases member
  statusDistinct := List.nodup_nil

/-- Whatever an observation does, a registry stays well kept. -/
theorem WellKept.effect {registry : Registry} {observation : Observation}
    {effect : Registry → Registry} (wellKept : registry.WellKept)
    (acts : Effect observation effect) : (effect registry).WellKept := by
  cases acts with
  | rejected => exact wellKept
  | proposerCount labels change named labelled =>
    exact { wellKept with
      proposersLabelled := wellKept.proposersLabelled.update labelled _ _
      proposersDistinct := wellKept.proposersDistinct.update _ _ _ }
  | blockHeight | applyDuration | validatorCount => exact { wellKept with }
  | jailedStatus labels value named labelled =>
    exact { wellKept with
      statusLabelled := wellKept.statusLabelled.update labelled _ _
      statusDistinct := wellKept.statusDistinct.update _ _ _ }

theorem WellKept.recordAll {registry : Registry} (wellKept : registry.WellKept)
    (observations : List Observation) : (registry.recordAll observations).WellKept := by
  induction observations generalizing registry with
  | nil => exact wellKept
  | cons observation others inductionHypothesis =>
    have recorded := wellKept.effect (effect_record observation)
    exact inductionHypothesis recorded

/-- A count of proposals is found under the label that is written. -/
theorem WellKept.proposersKeyed {registry : Registry} (wellKept : registry.WellKept) :
    ∀ sample ∈ registry.proposerCount,
      String.join ((["proposer"].zip sample.labels).map Prod.snd) = sample.key := by
  intro sample member
  obtain ⟨label, single⟩ := List.length_eq_one_iff.mp (wellKept.proposersLabelled sample member)
  rw [Sample.key, single]
  rfl

/-- A status is found under the labels that are written, the last one first. -/
theorem WellKept.statusKeyed {registry : Registry} (wellKept : registry.WellKept) :
    ∀ sample ∈ registry.jailedStatus,
      String.join (((["validator", "name"].zip sample.labels).reverse.map Prod.snd).reverse) =
        sample.key := by
  intro sample member
  obtain ⟨validator, name, pair⟩ :=
    List.length_eq_two.mp (wellKept.statusLabelled sample member)
  rw [Sample.key, pair]
  rfl

/-! ### The text that is published -/

/-- Whether two registries hold the same, except that samples came into being in another order. -/
structure Reordered (first second : Registry) : Prop where
  proposerCount : first.proposerCount.Perm second.proposerCount
  blockHeight : first.blockHeight = second.blockHeight
  applyDuration : first.applyDuration = second.applyDuration
  jailedStatus : first.jailedStatus.Perm second.jailedStatus
  validatorCount : first.validatorCount = second.validatorCount

variable {first second : Registry}

theorem exposedProposers_eq (wellKept : first.WellKept) (reordered : Reordered first second) :
    first.exposedProposers = second.exposedProposers := by
  unfold exposedProposers
  rw [sorted_map_eq_of_perm reordered.proposerCount wellKept.proposersDistinct _ String.join
    wellKept.proposersKeyed]

theorem exposedJailed_eq (wellKept : first.WellKept) (reordered : Reordered first second) :
    first.exposedJailed = second.exposedJailed := by
  unfold exposedJailed
  rw [sorted_map_eq_of_perm reordered.jailedStatus wellKept.statusDistinct _
    (fun values => String.join values.reverse) wellKept.statusKeyed]

/-- The same is published in whatever order samples came into being. -/
theorem expose_eq_of_reordered (wellKept : first.WellKept) (reordered : Reordered first second) :
    first.expose = second.expose := by
  unfold expose exposed
  rw [exposedProposers_eq wellKept reordered, exposedJailed_eq wellKept reordered, exposedDuration,
    exposedHeight, exposedValidators, reordered.applyDuration, reordered.blockHeight,
    reordered.validatorCount]
  rfl

end Registry

end NodeTelemetry
