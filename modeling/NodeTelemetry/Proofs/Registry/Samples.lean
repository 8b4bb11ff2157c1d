/-
This file says what becomes of the samples of a metric when one of them is changed. The sample under
the joined labels is the only one that changes. If there is none it is created with the labels that
were given, and it keeps the labels it was created with.

Samples are kept in the order in which they were created, and they are looked through from the
front. What decides is the text to which the labels join, so different labels may lead to the same
sample, and it is the first one with this text that is found. A change goes through the samples in
the same way, so by induction over them it changes the very sample that is found, and what is found
under any other text is not touched.
-/

import NodeTelemetry.Registry.Samples

namespace NodeTelemetry.Samples

variable {Value : Type}

/-- Whether the samples can be told apart by the text under which they are found. -/
def Distinct (samples : Samples Value) : Prop :=
  (samples.map Sample.key).Nodup

/-! ### Finding -/

theorem mem_of_find? {samples : Samples Value} {labels : List String} {sample : Sample Value}
    (found : samples.find? labels = some sample) : sample ∈ samples :=
  List.mem_of_find?_eq_some found

theorem find?_cons_self {sample : Sample Value} (others : Samples Value) {labels : List String}
    (same : sample.key = String.join labels) : find? (sample :: others) labels = some sample :=
  List.find?_cons_of_pos (by simpa using same)

theorem find?_cons_of_ne {sample : Sample Value} (others : Samples Value) {labels : List String}
    (different : sample.key ≠ String.join labels) :
    find? (sample :: others) labels = others.find? labels :=
  List.find?_cons_of_neg (by simpa using different)

/-- Every sample is found under its own labels. -/
theorem Distinct.find?_eq_some {samples : Samples Value} (distinct : samples.Distinct)
    {sample : Sample Value} (member : sample ∈ samples) :
    samples.find? sample.labels = some sample := by
  induction samples with
  | nil => cases member
  | cons first others inductionHypothesis =>
    obtain ⟨unlike, distinctOthers⟩ := List.nodup_cons.mp distinct
    rcases List.mem_cons.mp member with rfl | later
    · exact find?_cons_self others rfl
    · have different : first.key ≠ String.join sample.labels := by
        intro same
        exact unlike (List.mem_map.mpr ⟨sample, later, same.symm⟩)
      rw [find?_cons_of_ne others different, inductionHypothesis distinctOthers later]

/-- A sample is there if it is the one that is found under its labels. -/
theorem Distinct.mem_iff {samples : Samples Value} (distinct : samples.Distinct)
    (sample : Sample Value) : sample ∈ samples ↔ samples.find? sample.labels = some sample :=
  ⟨distinct.find?_eq_some, mem_of_find?⟩

/-! ### Changing -/

theorem update_cons_self {sample : Sample Value} (others : Samples Value) {labels : List String}
    (same : sample.key = String.join labels) (initial : Value) (change : Value → Value) :
    update (sample :: others) labels initial change =
      ⟨sample.labels, change sample.value⟩ :: others :=
  if_pos (by simpa using same)

theorem update_cons_of_ne {sample : Sample Value} (others : Samples Value) {labels : List String}
    (different : sample.key ≠ String.join labels) (initial : Value) (change : Value → Value) :
    update (sample :: others) labels initial change =
      sample :: others.update labels initial change :=
  if_neg (by simpa using different)

/-- A changed sample keeps the labels it was created with. -/
theorem find?_update_self {labels other : List String}
    (same : String.join other = String.join labels) (samples : Samples Value) (initial : Value)
    (change : Value → Value) :
    (samples.update labels initial change).find? other =
      some (match samples.find? other with
        | none => ⟨labels, change initial⟩
        | some sample => ⟨sample.labels, change sample.value⟩) := by
  induction samples with
  | nil => exact find?_cons_self [] same.symm
  | cons sample others inductionHypothesis =>
    by_cases here : sample.key = String.join labels
    · rw [update_cons_self others here, find?_cons_self others (here.trans same.symm)]
      exact find?_cons_self others (here.trans same.symm)
    · have elsewhere : sample.key ≠ String.join other := fun found => here (found.trans same)
      rw [update_cons_of_ne others here, find?_cons_of_ne _ elsewhere,
        find?_cons_of_ne _ elsewhere, inductionHypothesis]

/-- Under other joined labels the same is found as before. -/
theorem find?_update_of_ne {labels other : List String}
    (different : String.join other ≠ String.join labels) (samples : Samples Value)
    (initial : Value) (change : Value → Value) :
    (samples.update labels initial change).find? other = samples.find? other := by
  induction samples with
  | nil => exact find?_cons_of_ne [] (Ne.symm different)
  | cons sample others inductionHypothesis =>
    by_cases here : sample.key = String.join labels
    · have elsewhere : sample.key ≠ String.join other := by
        rw [here]
        exact Ne.symm different
      rw [update_cons_self others here, find?_cons_of_ne others elsewhere]
      exact find?_cons_of_ne others elsewhere
    · rw [update_cons_of_ne others here]
      by_cases found : sample.key = String.join other
      · rw [find?_cons_self _ found, find?_cons_self _ found]
      · rw [find?_cons_of_ne _ found, find?_cons_of_ne _ found, inductionHypothesis]

/-- Only the joined labels of a change can be new among those of the samples. -/
theorem mem_map_key_update {samples : Samples Value} {labels : List String} {initial : Value}
    {change : Value → Value} {key : String}
    (member : key ∈ (samples.update labels initial change).map Sample.key) :
    key = String.join labels ∨ key ∈ samples.map Sample.key := by
  induction samples with
  | nil => exact .inl (List.mem_singleton.mp member)
  | cons sample others inductionHypothesis =>
    by_cases here : sample.key = String.join labels
    · rw [update_cons_self others here] at member
      exact .inr member
    · rw [update_cons_of_ne others here] at member
      rcases List.mem_cons.mp member with first | later
      · exact .inr (List.mem_cons.mpr (.inl first))
      · exact (inductionHypothesis later).imp_right (List.mem_cons_of_mem _)

/-- A change leaves samples that can be told apart. -/
theorem Distinct.update {samples : Samples Value} (distinct : samples.Distinct)
    (labels : List String) (initial : Value) (change : Value → Value) :
    (samples.update labels initial change).Distinct := by
  induction samples with
  | nil => exact List.nodup_cons.mpr ⟨List.not_mem_nil, List.nodup_nil⟩
  | cons sample others inductionHypothesis =>
    obtain ⟨unlike, distinctOthers⟩ := List.nodup_cons.mp distinct
    by_cases here : sample.key = String.join labels
    · rw [update_cons_self others here]
      exact distinct
    · rw [update_cons_of_ne others here]
      refine List.nodup_cons.mpr ⟨fun member => ?_, inductionHypothesis distinctOthers⟩
      rcases mem_map_key_update member with same | present
      · exact here same
      · exact unlike present

end NodeTelemetry.Samples
