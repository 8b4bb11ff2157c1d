/-
This file says what the lines of the published text are: for each metric with samples two lines that
describe it, and then one line for each sample, which says just what is stored. As label values
cannot break a line or leave their quotes, no text in them adds a line or changes what another one
says, and what is stored can be read off the text again.

The text is a list of lines, each with a line feed behind it, and no line holds one itself, so
splitting the text gives the lines back. Lines that describe a metric begin with a mark and a blank.
They are read as nothing, while the line of a sample is read as the name, the labels and the number
of this sample. Every metric has a name of its own. So what the lines of the text say about a metric
is what its samples say, and nothing is said about it in the lines of any other metric.

Two texts that are the same say the same. What they say about a metric is a permutation of what is
stored, so the label values are the same in both registries but for their order. This is how one
text can never come from two sets of labels, whatever characters these are made of.
-/

import NodeTelemetry.Line.Proposal
import NodeTelemetry.Proofs.Registry.Exposition
import NodeTelemetry.Proofs.Registry.SampleLines

namespace NodeTelemetry

/-- The name under which a metric is published. -/
def Metric.publishedName (metric : Metric) : String :=
  "hl_" ++ metric.name

/-- All metrics by ascending name. -/
def Metric.byName : List Metric :=
  [.applyDuration, .blockHeight, .proposerCount, .validatorCount, .jailedStatus]

theorem Metric.mem_byName (metric : Metric) : metric ∈ byName := by
  cases metric <;> decide

theorem Metric.pairwise_byName : (byName.map publishedName).Pairwise (· < ·) := by
  decide

theorem Metric.publishedName_injective {first second : Metric}
    (same : first.publishedName = second.publishedName) : first = second := by
  revert same
  cases first <;> cases second <;> decide

namespace Registry

/-! ### What is stored -/

/-- The samples of a metric with their labels by ascending key. -/
def stored (registry : Registry) : Metric → List (List (String × String) × Binary64)
  | .proposerCount => registry.proposerCount.map fun sample =>
      (["proposer"].zip sample.labels, Binary64.ofNat sample.value.toNat)
  | .blockHeight => [([], Binary64.ofInt registry.blockHeight.toInt)]
  | .applyDuration => [([], registry.applyDuration)]
  | .jailedStatus => registry.jailedStatus.map fun sample =>
      (["name", "validator"].zip sample.labels.reverse, sample.value)
  | .validatorCount => [([], Binary64.ofInt registry.validatorCount.toInt)]

/-- A metric as it is written. -/
def exposedOf (registry : Registry) : Metric → Exposed
  | .proposerCount => registry.exposedProposers
  | .blockHeight => registry.exposedHeight
  | .applyDuration => registry.exposedDuration
  | .jailedStatus => registry.exposedJailed
  | .validatorCount => registry.exposedValidators

theorem exposed_eq (registry : Registry) :
    registry.exposed = Metric.byName.map registry.exposedOf :=
  rfl

theorem fullName_exposedOf (registry : Registry) (metric : Metric) :
    (registry.exposedOf metric).fullName = metric.publishedName := by
  cases metric <;> rfl

theorem isPlain_publishedName (metric : Metric) : isPlain metric.publishedName = true := by
  cases metric <;> decide

variable {registry : Registry}

theorem zip_reverse_of_pair {labels : List String} (pair : labels.length = 2) :
    (["validator", "name"].zip labels).reverse = ["name", "validator"].zip labels.reverse := by
  obtain ⟨validator, name, rfl⟩ := List.length_eq_two.mp pair
  rfl

/-- The labels of a status are stored in one order and written in the other. -/
theorem samples_jailed (wellKept : registry.WellKept) :
    registry.exposedJailed.samples = sorted (registry.stored .jailedStatus) := by
  refine congrArg sorted (List.map_congr_left fun sample member => ?_)
  rw [zip_reverse_of_pair (wellKept.statusLabelled sample member)]

/-- All samples are written, and each of them once. -/
theorem samples_perm_stored (wellKept : registry.WellKept) (metric : Metric) :
    (registry.exposedOf metric).samples.Perm (registry.stored metric) := by
  cases metric with
  | proposerCount => exact List.mergeSort_perm _ _
  | jailedStatus =>
    show registry.exposedJailed.samples.Perm _
    rw [samples_jailed wellKept]
    exact List.mergeSort_perm _ _
  | blockHeight | applyDuration | validatorCount => exact List.Perm.refl _

/-- Different values that are sorted ascend. -/
theorem pairwise_values_sorted {samples : List (List (String × String) × Binary64)}
    (distinct : (samples.map fun sample => sample.1.map Prod.snd).Nodup) :
    ((sorted samples).map fun sample => sample.1.map Prod.snd).Pairwise (· < ·) := by
  have apart : ((sorted samples).map fun sample => sample.1.map Prod.snd).Nodup :=
    ((List.mergeSort_perm samples _).map _).nodup_iff.mpr distinct
  refine List.pairwise_map.mpr ?_
  refine ((pairwise_sorted samples).and (List.pairwise_map.mp apart)).imp ?_
  intro first second ⟨precedes, different⟩
  rw [labelsPrecede_iff, List.not_lt, List.le_iff_lt_or_eq] at precedes
  exact precedes.resolve_right different

/-- Samples are written by ascending label values, and no two have the same. -/
theorem pairwise_values (wellKept : registry.WellKept) (metric : Metric) :
    ((registry.exposedOf metric).samples.map fun sample => sample.1.map Prod.snd).Pairwise
      (· < ·) := by
  cases metric with
  | proposerCount =>
    exact pairwise_values_sorted
      (nodup_values wellKept.proposersDistinct _ String.join wellKept.proposersKeyed)
  | jailedStatus =>
    exact pairwise_values_sorted
      (nodup_values wellKept.statusDistinct _ (fun values => String.join values.reverse)
        wellKept.statusKeyed)
  | blockHeight | applyDuration | validatorCount => exact List.pairwise_singleton _ _

/-- The keys of labels hold nothing that divides a line. -/
theorem isPlain_of_mem_stored {metric : Metric} {sample : List (String × String) × Binary64}
    (member : sample ∈ registry.stored metric) : ∀ label ∈ sample.1, isPlain label.1 = true := by
  intro label among
  cases metric with
  | proposerCount =>
    obtain ⟨_, _, rfl⟩ := List.mem_map.mp member
    have key := (List.of_mem_zip among).1
    rw [List.mem_singleton.mp key]
    decide
  | jailedStatus =>
    obtain ⟨_, _, rfl⟩ := List.mem_map.mp member
    have key := (List.of_mem_zip among).1
    rcases List.mem_cons.mp key with name | validator
    · rw [name]
      decide
    · rw [List.mem_singleton.mp validator]
      decide
  | blockHeight | applyDuration | validatorCount =>
    rw [List.mem_singleton.mp member] at among
    cases among

/-! ### The lines of a metric -/

def Exposed.helpLine (exposed : Exposed) : String :=
  "# HELP " ++ exposed.fullName ++ " " ++ exposed.help

def Exposed.typeLine (exposed : Exposed) : String :=
  "# TYPE " ++ exposed.fullName ++ " " ++ exposed.kind.text

theorem Exposed.toList_helpLine (exposed : Exposed) :
    exposed.helpLine.toList =
      '#' :: ' ' :: ("HELP " ++ exposed.fullName ++ " " ++ exposed.help).toList := by
  simp [Exposed.helpLine]

theorem Exposed.toList_typeLine (exposed : Exposed) :
    exposed.typeLine.toList =
      '#' :: ' ' :: ("TYPE " ++ exposed.fullName ++ " " ++ exposed.kind.text).toList := by
  simp [Exposed.typeLine]

/-- A metric with samples has two lines that describe it, and one for each sample. -/
theorem Exposed.lines_eq {exposed : Exposed} (present : exposed.samples ≠ []) :
    exposed.lines =
      exposed.helpLine :: exposed.typeLine :: exposed.samples.map exposed.sampleLine := by
  have notEmpty : exposed.samples.isEmpty = false := List.isEmpty_eq_false_iff.mpr present
  rw [Exposed.lines, notEmpty]
  rfl

theorem Exposed.lines_eq_nil {exposed : Exposed} (absent : exposed.samples = []) :
    exposed.lines = [] := by
  rw [Exposed.lines, absent]
  rfl

/-- A metric is described in the same way whatever is stored. -/
theorem descriptions_eq (registry : Registry) (metric : Metric) :
    (registry.exposedOf metric).helpLine = (empty.exposedOf metric).helpLine ∧
      (registry.exposedOf metric).typeLine = (empty.exposedOf metric).typeLine := by
  cases metric <;>
    simp only [exposedOf, exposedProposers, exposedHeight, exposedDuration, exposedJailed,
      exposedValidators, Exposed.helpLine, Exposed.typeLine, Exposed.fullName, and_self]

theorem lineFeed_notMem_descriptions (registry : Registry) (metric : Metric) :
    '\n' ∉ (registry.exposedOf metric).helpLine.toList ∧
      '\n' ∉ (registry.exposedOf metric).typeLine.toList := by
  obtain ⟨help, type⟩ := descriptions_eq registry metric
  rw [help, type]
  cases metric <;> decide

/-- No line is broken, whatever the label values are. -/
theorem lineFeed_notMem_lines (wellKept : registry.WellKept) (metric : Metric) :
    ∀ line ∈ (registry.exposedOf metric).lines, '\n' ∉ line.toList := by
  intro line member
  by_cases absent : (registry.exposedOf metric).samples = []
  · rw [Exposed.lines_eq_nil absent] at member
    cases member
  rw [Exposed.lines_eq absent] at member
  obtain ⟨help, type⟩ := lineFeed_notMem_descriptions registry metric
  rcases List.mem_cons.mp member with rfl | further
  · exact help
  rcases List.mem_cons.mp further with rfl | sampled
  · exact type
  obtain ⟨sample, among, rfl⟩ := List.mem_map.mp sampled
  have inStore := (samples_perm_stored wellKept metric).mem_iff.mp among
  exact lineFeed_notMem_sampleLine
    (fullName_exposedOf registry metric ▸ isPlain_publishedName metric)
    (isPlain_of_mem_stored inStore)

/-- What a sample of a metric says. -/
def saying (metric : Metric) (sample : List (String × String) × Binary64) : Said :=
  ⟨metric.publishedName, sample.1, sample.2.text⟩

/-- The line of a sample is read as what is stored. -/
theorem readSample?_of_mem (wellKept : registry.WellKept) {metric : Metric}
    {sample : List (String × String) × Binary64}
    (member : sample ∈ (registry.exposedOf metric).samples) :
    readSample? ((registry.exposedOf metric).sampleLine sample) = some (saying metric sample) := by
  have inStore := (samples_perm_stored wellKept metric).mem_iff.mp member
  have named := fullName_exposedOf registry metric
  rw [readSample?_sampleLine (named ▸ isPlain_publishedName metric)
    (isPlain_of_mem_stored inStore), Exposed.said, named]
  rfl

/-! ### Lines of text -/

/-- Lines are found again by splitting at the line feeds. -/
theorem splitOn_join {lines : List String} (unbroken : ∀ line ∈ lines, '\n' ∉ line.toList) :
    (String.join (lines.map (· ++ "\n"))).toList.splitOn '\n' =
      lines.map String.toList ++ [[]] := by
  induction lines with
  | nil => rfl
  | cons line others inductionHypothesis =>
    obtain ⟨first, further⟩ := List.forall_mem_cons.mp unbroken
    have opened : (String.join ((line :: others).map (· ++ "\n"))).toList =
        line.toList ++ '\n' :: (String.join (others.map (· ++ "\n"))).toList := by
      simp [String.toList_join]
    rw [opened, List.splitOn_append_cons_self_of_not_mem first, inductionHypothesis further]
    rfl

/-! ### What is read off a text -/

/-- What the lines among some say about a metric. -/
def saidOf (metric : Metric) (lines : List String) : List Said :=
  (lines.filterMap readSample?).filter (·.name = metric.publishedName)

theorem saidOf_flatMap {Source : Type} (metric : Metric) (sources : List Source)
    (lines : Source → List String) :
    saidOf metric (sources.flatMap lines) =
      sources.flatMap fun source => saidOf metric (lines source) := by
  simp [saidOf, List.filterMap_flatMap, List.filter_flatMap]

/-- A line that begins like a description says nothing about any metric. -/
theorem saidOf_cons_description (metric : Metric) {line : String} {rest : List Char}
    (begins : line.toList = '#' :: ' ' :: rest) (others : List String) :
    saidOf metric (line :: others) = saidOf metric others := by
  have read : readSample? line = some ⟨"#", [], String.ofList rest⟩ := by
    rw [readSample?, begins]
    rfl
  have apart : "#" ≠ metric.publishedName := by cases metric <;> decide
  rw [saidOf, List.filterMap_cons_some read, List.filter_cons_of_neg (by simpa using apart)]
  rfl

/-- The lines of a metric say what its samples say, and nothing about any other metric. -/
theorem saidOf_lines (wellKept : registry.WellKept) (metric other : Metric) :
    saidOf other (registry.exposedOf metric).lines =
      if metric = other then (registry.exposedOf metric).samples.map (saying metric) else [] := by
  by_cases absent : (registry.exposedOf metric).samples = []
  · rw [Exposed.lines_eq_nil absent, absent]
    split <;> rfl
  have read : ((registry.exposedOf metric).samples.map
      (registry.exposedOf metric).sampleLine).filterMap readSample? =
      (registry.exposedOf metric).samples.map (saying metric) := by
    rw [List.filterMap_map, ← List.filterMap_eq_map]
    exact List.filterMap_congr fun sample member => readSample?_of_mem wellKept member
  rw [Exposed.lines_eq absent, saidOf_cons_description other (Exposed.toList_helpLine _),
    saidOf_cons_description other (Exposed.toList_typeLine _), saidOf, read]
  split
  · next same =>
    subst same
    refine List.filter_eq_self.mpr fun said member => ?_
    obtain ⟨sample, _, rfl⟩ := List.mem_map.mp member
    exact decide_eq_true rfl
  · next different =>
    refine List.filter_eq_nil_iff.mpr fun said member => ?_
    obtain ⟨sample, _, rfl⟩ := List.mem_map.mp member
    rw [decide_eq_true_iff]
    exact fun same => different (Metric.publishedName_injective same)

/-- What is said about a metric in a text is what is stored. -/
theorem saidOf_text (wellKept : registry.WellKept) (metric : Metric) :
    saidOf metric (registry.exposed.flatMap Exposed.lines) =
      (registry.exposedOf metric).samples.map (saying metric) := by
  rw [exposed_eq, List.flatMap_map, saidOf_flatMap]
  simp only [saidOf_lines wellKept]
  cases metric <;> simp [Metric.byName]

/-! ### The whole text -/

/-- The metrics with samples, by ascending name. -/
def shown (registry : Registry) : List Metric :=
  Metric.byName.filter fun metric => !(registry.stored metric).isEmpty

/-- The two lines that describe a metric. They do not depend on what is stored. -/
def descriptionOf (metric : Metric) : List String :=
  [(empty.exposedOf metric).helpLine, (empty.exposedOf metric).typeLine]

/-- The lines of the samples of a metric. -/
def sampleLinesOf (registry : Registry) (metric : Metric) : List String :=
  (registry.exposedOf metric).samples.map (registry.exposedOf metric).sampleLine

theorem mem_shown {metric : Metric} : metric ∈ registry.shown ↔ registry.stored metric ≠ [] := by
  simp [shown, Metric.mem_byName]

theorem pairwise_shown (registry : Registry) :
    (registry.shown.map Metric.publishedName).Pairwise (· < ·) :=
  Metric.pairwise_byName.sublist (List.filter_sublist.map _)

/-- A metric has lines exactly if it has samples. -/
theorem lines_exposedOf (wellKept : registry.WellKept) (metric : Metric) :
    (registry.exposedOf metric).lines =
      if registry.stored metric = [] then []
      else descriptionOf metric ++ registry.sampleLinesOf metric := by
  have permuted := samples_perm_stored wellKept metric
  split
  · next nothing =>
    rw [nothing] at permuted
    exact Exposed.lines_eq_nil permuted.eq_nil
  · next present =>
    obtain ⟨help, type⟩ := descriptions_eq registry metric
    rw [Exposed.lines_eq fun absent => present (absent ▸ permuted).nil_eq.symm, help, type]
    rfl

/-- The text consists of the descriptions and the samples of the metrics that have any. -/
theorem flatMap_lines_eq (wellKept : registry.WellKept) :
    registry.exposed.flatMap Exposed.lines =
      registry.shown.flatMap fun metric =>
        descriptionOf metric ++ registry.sampleLinesOf metric := by
  rw [exposed_eq, List.flatMap_map, shown]
  generalize Metric.byName = metrics
  induction metrics with
  | nil => rfl
  | cons metric others inductionHypothesis =>
    rw [List.flatMap_cons, inductionHypothesis, lines_exposedOf wellKept]
    by_cases nothing : registry.stored metric = []
    · rw [if_pos nothing, List.filter_cons_of_neg (by simp [nothing])]
      rfl
    · rw [if_neg nothing, List.filter_cons_of_pos (by simp [nothing]), List.flatMap_cons]

/-- The text is split into its lines, with nothing behind the last one. -/
theorem splitOn_expose (wellKept : registry.WellKept) :
    registry.expose.toList.splitOn '\n' =
      (registry.exposed.flatMap Exposed.lines).map String.toList ++ [[]] := by
  refine splitOn_join fun line member => ?_
  rw [exposed_eq, List.flatMap_map] at member
  obtain ⟨metric, _, among⟩ := List.mem_flatMap.mp member
  exact lineFeed_notMem_lines wellKept metric line among

/-- From the same text the same is read about each metric. -/
theorem perm_of_expose_eq {other : Registry} (wellKept : registry.WellKept)
    (wellKeptToo : other.WellKept) (same : registry.expose = other.expose) (metric : Metric) :
    ((registry.stored metric).map (saying metric)).Perm
      ((other.stored metric).map (saying metric)) := by
  have lines : registry.exposed.flatMap Exposed.lines = other.exposed.flatMap Exposed.lines := by
    have cut := splitOn_expose wellKept
    rw [same, splitOn_expose wellKeptToo] at cut
    exact (List.map_inj_right fun _ _ => String.toList_injective).mp
      (List.append_cancel_right cut).symm
  have said := congrArg (saidOf metric) lines
  rw [saidOf_text wellKept, saidOf_text wellKeptToo] at said
  refine ((samples_perm_stored wellKept metric).map (saying metric)).symm.trans ?_
  rw [said]
  exact (samples_perm_stored wellKeptToo metric).map (saying metric)

/-! ### What is read is what was stored -/

/-- The label values that something says. -/
def Said.values (said : Said) : List String :=
  said.labels.map Prod.snd

theorem values_stored_proposers (wellKept : registry.WellKept) :
    ((registry.stored .proposerCount).map (saying .proposerCount)).map Said.values =
      registry.proposerCount.map Sample.labels := by
  simp only [stored, List.map_map]
  refine List.map_congr_left fun sample member => ?_
  obtain ⟨label, single⟩ := List.length_eq_one_iff.mp (wellKept.proposersLabelled sample member)
  simp [saying, Said.values, single]

theorem values_stored_jailed (wellKept : registry.WellKept) :
    ((registry.stored .jailedStatus).map (saying .jailedStatus)).map Said.values =
      registry.jailedStatus.map fun sample => sample.labels.reverse := by
  simp only [stored, List.map_map]
  refine List.map_congr_left fun sample member => ?_
  obtain ⟨validator, name, pair⟩ :=
    List.length_eq_two.mp (wellKept.statusLabelled sample member)
  simp [saying, Said.values, pair]

/-- Whether observations lead to a registry. -/
def Reached (registry : Registry) : Prop :=
  ∃ observations, empty.recordAll observations = registry

theorem Reached.wellKept (reached : registry.Reached) : registry.WellKept := by
  obtain ⟨observations, rfl⟩ := reached
  exact wellKept_empty.recordAll observations

/-- Split at its line feeds, the published text consists of two lines of description and one line
for each stored sample, by ascending metric and in a metric by ascending label values. Each sample
line is read as just what is stored, so the label values come back as they were, whatever they are.
From two registries with different labels there never comes the same text. -/
theorem published_text_tells_stored (reached : registry.Reached) :
    (registry.shown.map Metric.publishedName).Pairwise (· < ·) ∧
    (∀ metric, metric ∈ registry.shown ↔ registry.stored metric ≠ []) ∧
    (∃ sampleLines : Metric → List String,
      registry.expose.toList.splitOn '\n' =
        (registry.shown.flatMap fun metric =>
          descriptionOf metric ++ sampleLines metric).map String.toList ++ [[]] ∧
      ∀ metric, ∃ samples : List (List (String × String) × Binary64),
        samples.Perm (registry.stored metric) ∧
        (samples.map fun sample => sample.1.map Prod.snd).Pairwise (· < ·) ∧
        (sampleLines metric).map readSample? =
          samples.map fun sample => some (saying metric sample)) ∧
    ((registry.stored .proposerCount).map (saying .proposerCount)).map Said.values =
      registry.proposerCount.map Sample.labels ∧
    ((registry.stored .jailedStatus).map (saying .jailedStatus)).map Said.values =
      registry.jailedStatus.map (fun sample => sample.labels.reverse) ∧
    ∀ other : Registry, other.Reached → registry.expose = other.expose →
      (registry.proposerCount.map Sample.labels).Perm (other.proposerCount.map Sample.labels) ∧
      (registry.jailedStatus.map Sample.labels).Perm (other.jailedStatus.map Sample.labels) := by
  have wellKept := reached.wellKept
  refine ⟨pairwise_shown registry, fun _ => mem_shown, ⟨registry.sampleLinesOf, ?_, ?_⟩,
    values_stored_proposers wellKept, values_stored_jailed wellKept, ?_⟩
  · rw [splitOn_expose wellKept, flatMap_lines_eq wellKept]
  · intro metric
    refine ⟨(registry.exposedOf metric).samples, samples_perm_stored wellKept metric,
      pairwise_values wellKept metric, ?_⟩
    rw [sampleLinesOf, List.map_map]
    exact List.map_congr_left fun sample member => readSample?_of_mem wellKept member
  · intro other reachedToo same
    have wellKeptToo := reachedToo.wellKept
    have proposers := (perm_of_expose_eq wellKept wellKeptToo same .proposerCount).map Said.values
    have jailed := (perm_of_expose_eq wellKept wellKeptToo same .jailedStatus).map Said.values
    rw [values_stored_proposers wellKept, values_stored_proposers wellKeptToo] at proposers
    rw [values_stored_jailed wellKept, values_stored_jailed wellKeptToo] at jailed
    have forwards := jailed.map List.reverse
    simp only [List.map_map, Function.comp_def, List.reverse_reverse] at forwards
    exact ⟨proposers, forwards⟩

/-- The values after proposals of some proposers. -/
def afterProposals (proposers : List String) : Registry :=
  empty.recordAll (proposers.map Line.Proposal.countObservation)

/-- A name that looks like the end of its own line and the beginning of another one. -/
def forgery : String :=
  "a\"\x7d 1\nhl_proposer_count\x7bproposer=\"b"

/-- One proposer with such a name is not mistaken for two. -/
theorem published_text_of_forgery :
    (afterProposals [forgery]).Reached ∧ (afterProposals ["a", "b"]).Reached ∧
      (afterProposals [forgery]).expose ≠ (afterProposals ["a", "b"]).expose := by
  have reached (proposers : List String) : (afterProposals proposers).Reached := ⟨_, rfl⟩
  obtain ⟨_, _, _, _, _, distinct⟩ := published_text_tells_stored (reached [forgery])
  refine ⟨reached _, reached _, fun same => ?_⟩
  have sizes := (distinct _ (reached ["a", "b"]) same).1.length_eq
  have apart : ((afterProposals [forgery]).proposerCount.map Sample.labels).length ≠
      ((afterProposals ["a", "b"]).proposerCount.map Sample.labels).length := by
    decide
  exact apart sizes

end Registry

end NodeTelemetry
