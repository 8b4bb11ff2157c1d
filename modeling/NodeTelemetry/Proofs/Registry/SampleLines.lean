/-
This file reads the line of a sample back. A label value may hold anything, also quotes, backslashes
and line feeds, or a text that looks like a sample, and yet the line falls into the name, the labels
and the number in one way only. Nor does it hold a line feed, so it is a line indeed.

The reader is written for this file, as somebody would write it who knows the format and nothing of
the writer. A label value is taken up to the next quote that has no backslash in front of it. The
writer puts a backslash in front of quotes and backslashes and writes line feeds as a letter behind
one, so each character of a value is taken back by one step of the reader, and the first quote that
ends the value is the one that was written for this.
-/

import NodeTelemetry.Proofs.Binary64.Numerals
import NodeTelemetry.Registry.Exposition

namespace NodeTelemetry.Registry

/-! ### Reading -/

/-- The character that a letter behind a backslash stands for. -/
def unescaped? : Char → Option Char
  | '\\' => some '\\'
  | 'n' => some '\n'
  | '"' => some '"'
  | _ => none

/-- Takes a label value up to its closing quote, without the escapes. -/
def takeLabelValue : List Char → Option (List Char × List Char)
  | [] => none
  | '"' :: rest => some ([], rest)
  | '\\' :: letter :: rest =>
    match unescaped? letter with
    | none => none
    | some character =>
      (takeLabelValue rest).map fun (characters, rest) => (character :: characters, rest)
  | character :: rest =>
    (takeLabelValue rest).map fun (characters, rest) => (character :: characters, rest)

/-- Takes the key of a label and the opening quote of its value. -/
def takeLabelKey : List Char → Option (List Char × List Char)
  | '=' :: '"' :: rest => some ([], rest)
  | [] => none
  | character :: rest =>
    (takeLabelKey rest).map fun (characters, rest) => (character :: characters, rest)

/-- Takes a label. -/
def takeLabel (input : List Char) : Option ((String × String) × List Char) :=
  match takeLabelKey input with
  | none => none
  | some (key, rest) =>
    (takeLabelValue rest).map fun (value, rest) => ((String.ofList key, String.ofList value), rest)

/-- Takes labels with commas between them up to the closing brace, at most so many. -/
def takeLabels : Nat → List Char → Option (List (String × String) × List Char)
  | 0, _ => none
  | limit + 1, input =>
    match takeLabel input with
    | some (label, '}' :: rest) => some ([label], rest)
    | some (label, ',' :: rest) =>
      (takeLabels limit rest).map fun (labels, rest) => (label :: labels, rest)
    | _ => none

/-- What a line says: the name of a metric, labels, and a number as it is written. -/
structure Said where
  name : String
  labels : List (String × String)
  number : String
deriving DecidableEq

/-- The name at the front of a line ends with a brace or a blank. -/
def isInName (character : Char) : Bool :=
  character != '{' && character != ' '

/-- Reads the line of a sample. A line has more characters than labels. -/
def readSample? (line : String) : Option Said :=
  let name := line.toList.takeWhile isInName
  match line.toList.dropWhile isInName with
  | ' ' :: number => some ⟨String.ofList name, [], String.ofList number⟩
  | '{' :: rest =>
    match takeLabels rest.length rest with
    | some (labels, ' ' :: number) => some ⟨String.ofList name, labels, String.ofList number⟩
    | _ => none
  | _ => none

/-! ### What is written is read -/

/-- A value is taken back from its escapes, whatever characters it has. -/
theorem takeLabelValue_escaped (value rest : List Char) :
    takeLabelValue (value.flatMap escapedCharacter ++ '"' :: rest) = some (value, rest) := by
  induction value with
  | nil => rfl
  | cons character others inductionHypothesis =>
    rw [List.flatMap_cons, List.append_assoc]
    by_cases backslash : character = '\\'
    · subst backslash
      simp [escapedCharacter, takeLabelValue, unescaped?, inductionHypothesis]
    by_cases lineFeed : character = '\n'
    · subst lineFeed
      simp [escapedCharacter, takeLabelValue, unescaped?, inductionHypothesis]
    by_cases quote : character = '"'
    · subst quote
      simp [escapedCharacter, takeLabelValue, unescaped?, inductionHypothesis]
    · simp [escapedCharacter, takeLabelValue, backslash, inductionHypothesis]

theorem takeLabelKey_append {key : List Char} (plain : '=' ∉ key) (rest : List Char) :
    takeLabelKey (key ++ '=' :: '"' :: rest) = some (key, rest) := by
  induction key with
  | nil => rfl
  | cons character others inductionHypothesis =>
    simp only [List.mem_cons, not_or] at plain
    simp [takeLabelKey, Ne.symm plain.1, inductionHypothesis plain.2]

/-- Whether nothing that a line is divided by occurs in a name. -/
def isPlain (name : String) : Bool :=
  name.toList.all fun character => isInName character && character != '=' && character != '\n'

/-- A label is read as it is written. -/
theorem takeLabel_labelText {label : String × String} (plain : isPlain label.1 = true)
    (rest : List Char) : takeLabel ((labelText label).toList ++ rest) = some (label, rest) := by
  have written : (labelText label).toList ++ rest =
      label.1.toList ++ '=' :: '"' :: (label.2.toList.flatMap escapedCharacter ++ '"' :: rest) := by
    simp [labelText, escapedLabel]
  have undivided : '=' ∉ label.1.toList := by
    intro member
    have ends := List.all_eq_true.mp plain '=' member
    cases ends
  rw [written, takeLabel, takeLabelKey_append undivided]
  exact Option.map_eq_some_iff.mpr ⟨_, takeLabelValue_escaped _ _, by simp⟩

/-- There are no more labels than commas and one. -/
theorem length_le_length_intercalate (texts : List (List Char)) :
    texts.length ≤ ([','].intercalate texts).length + 1 := by
  induction texts with
  | nil => exact Nat.zero_le _
  | cons text others inductionHypothesis =>
    by_cases last : others = []
    · simp [last]
    · rw [List.intercalate_cons_of_ne_nil last]
      simp only [List.length_append, List.length_cons, List.length_nil]
      omega

/-- Labels are read as they are written, up to the brace behind them. -/
theorem takeLabels_written {labels : List (String × String)} (present : labels ≠ [])
    (plain : ∀ label ∈ labels, isPlain label.1 = true) {limit : Nat}
    (room : labels.length ≤ limit) (rest : List Char) :
    takeLabels limit ([','].intercalate (labels.map fun label => (labelText label).toList) ++
      '}' :: rest) =
      some (labels, rest) := by
  induction labels generalizing limit with
  | nil => exact absurd rfl present
  | cons label others inductionHypothesis =>
    obtain ⟨plainFirst, plainOthers⟩ := List.forall_mem_cons.mp plain
    obtain ⟨limit, rfl⟩ : ∃ less, limit = less + 1 :=
      Nat.exists_eq_succ_of_ne_zero (by rw [List.length_cons] at room; omega)
    have roomOthers : others.length ≤ limit := Nat.le_of_succ_le_succ room
    by_cases last : others = []
    · subst last
      rw [List.map_singleton, List.intercalate_singleton, takeLabels,
        takeLabel_labelText plainFirst]
      rfl
    · have further := inductionHypothesis last plainOthers roomOthers
      have behind : others.map (fun label => (labelText label).toList) ≠ [] := by simpa using last
      rw [List.map_cons, List.intercalate_cons_of_ne_nil behind, List.append_assoc,
        List.append_assoc, takeLabels, takeLabel_labelText plainFirst, List.singleton_append]
      exact Option.map_eq_some_iff.mpr ⟨_, further, rfl⟩

/-- What a sample says. -/
def Exposed.said (exposed : Exposed) (sample : List (String × String) × Binary64) : Said :=
  ⟨exposed.fullName, sample.1, sample.2.text⟩

/-- The line of a sample is read as what the sample says, whatever its label values are. -/
theorem readSample?_sampleLine {exposed : Exposed}
    {sample : List (String × String) × Binary64} (plain : isPlain exposed.fullName = true)
    (plainKeys : ∀ label ∈ sample.1, isPlain label.1 = true) :
    readSample? (exposed.sampleLine sample) = some (exposed.said sample) := by
  obtain ⟨labels, number⟩ := sample
  have inName : ∀ character ∈ exposed.fullName.toList, isInName character = true := by
    intro character member
    have undivided := List.all_eq_true.mp plain character member
    simp only [Bool.and_eq_true] at undivided
    exact undivided.1.1
  have line : (exposed.sampleLine (labels, number)).toList =
      exposed.fullName.toList ++ ((labelsText labels).toList ++ ' ' :: number.text.toList) := by
    simp [Exposed.sampleLine]
  unfold readSample?
  rw [line, List.takeWhile_append_of_pos inName, List.dropWhile_append_of_pos inName]
  by_cases unlabelled : labels = []
  · subst unlabelled
    simp [labelsText, isInName, Exposed.said]
  · have written : (labelsText labels).toList ++ ' ' :: number.text.toList =
        '{' :: ([','].intercalate (labels.map fun label => (labelText label).toList) ++
          '}' :: ' ' :: number.text.toList) := by
      simp [labelsText, unlabelled, Function.comp_def]
    rw [written, List.takeWhile_cons_of_neg (by decide), List.dropWhile_cons_of_neg (by decide)]
    generalize inside : [','].intercalate (labels.map fun label => (labelText label).toList) ++
      '}' :: ' ' :: number.text.toList = input
    have room : labels.length ≤ input.length := by
      have commas := length_le_length_intercalate
        (labels.map fun label => (labelText label).toList)
      rw [List.length_map] at commas
      rw [← inside, List.length_append, List.length_cons]
      omega
    have taken := takeLabels_written unlabelled plainKeys room (' ' :: number.text.toList)
    rw [inside] at taken
    simp [taken, Exposed.said]

/-! ### One line -/

theorem isPlain_lineFeed {name : String} (plain : isPlain name = true) : '\n' ∉ name.toList := by
  intro member
  have ends := List.all_eq_true.mp plain '\n' member
  cases ends

/-- No character leaves a line feed behind when it is escaped. -/
theorem lineFeed_notMem_escapedCharacter (character : Char) :
    '\n' ∉ escapedCharacter character := by
  unfold escapedCharacter
  split
  · decide
  · decide
  · decide
  · next notLineFeed _ => exact fun member => notLineFeed (List.mem_singleton.mp member).symm

theorem lineFeed_notMem_labelText {label : String × String} (plain : isPlain label.1 = true) :
    '\n' ∉ (labelText label).toList := by
  have escaped : '\n' ∉ label.2.toList.flatMap escapedCharacter := fun member => by
    obtain ⟨character, _, among⟩ := List.mem_flatMap.mp member
    exact lineFeed_notMem_escapedCharacter character among
  simp [labelText, escapedLabel, isPlain_lineFeed plain, escaped]

theorem lineFeed_notMem_intercalate {texts : List (List Char)}
    (unbroken : ∀ text ∈ texts, '\n' ∉ text) : '\n' ∉ [','].intercalate texts := by
  induction texts with
  | nil => exact List.not_mem_nil
  | cons text others inductionHypothesis =>
    obtain ⟨first, further⟩ := List.forall_mem_cons.mp unbroken
    by_cases last : others = []
    · rw [last, List.intercalate_singleton]
      exact first
    · rw [List.intercalate_cons_of_ne_nil last]
      simp [first, inductionHypothesis further]

/-- All labels of a sample are written on one line. -/
theorem lineFeed_notMem_labelsText {labels : List (String × String)}
    (plainKeys : ∀ label ∈ labels, isPlain label.1 = true) :
    '\n' ∉ (labelsText labels).toList := by
  have inside : '\n' ∉ [','].intercalate (labels.map fun label => (labelText label).toList) := by
    refine lineFeed_notMem_intercalate fun text member => ?_
    obtain ⟨label, among, rfl⟩ := List.mem_map.mp member
    exact lineFeed_notMem_labelText (plainKeys label among)
  unfold labelsText
  split
  · decide
  · simp only [String.toList_append, String.toList_intercalate, List.map_map]
    simpa [Function.comp_def] using inside

theorem lineFeed_notMem_text (number : Binary64) : '\n' ∉ number.text.toList := by
  intro member
  have ends := Binary64.isNumeral_of_mem_text member
  cases ends

/-- Whatever its label values are, a sample is written on one line. -/
theorem lineFeed_notMem_sampleLine {exposed : Exposed}
    {sample : List (String × String) × Binary64} (plain : isPlain exposed.fullName = true)
    (plainKeys : ∀ label ∈ sample.1, isPlain label.1 = true) :
    '\n' ∉ (exposed.sampleLine sample).toList := by
  simp [Exposed.sampleLine, isPlain_lineFeed plain, lineFeed_notMem_labelsText plainKeys,
    lineFeed_notMem_text]

end NodeTelemetry.Registry
