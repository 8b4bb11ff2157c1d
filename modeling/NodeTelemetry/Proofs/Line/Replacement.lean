/-
This file looks at a line of the consensus logs while the table of validators is being replaced. The
short addresses of a line are looked up one after the other, and every look-up sees the table of its
moment. So the labels of a line are those of one table as long as no replacement falls between its
look-ups, but otherwise they may be a mix of several tables.

A line under way is a small machine: at each moment it looks up its next status or finds that the
table was replaced. The run of the machine is compared with a list that says which status was looked
up in which table, by induction over the moments. From this list it can be read off when the labels
are those of a single table, namely if that table gives the same labels to all of them.

That a line may mix tables is by design: the table is handed out for each look-up and not for a
line.
-/

import NodeTelemetry.Proofs.Line.Consensus

namespace NodeTelemetry.Line.Consensus

/-! ### A line under way -/

/-- What happens next while a line is labelled: one of its validators is looked up, or the table is
replaced. -/
inductive Moment
  | lookup
  | replacement (table : ValidatorTable)

/-- A line under way, with the table of the moment and the statuses that are not labelled yet. -/
structure Labelling where
  table : ValidatorTable
  waiting : List Status
  observations : List Observation

namespace Labelling

def start (table : ValidatorTable) (statuses : List Status) : Labelling :=
  ⟨table, statuses, []⟩

def step (labelling : Labelling) : Moment → Labelling
  | .replacement table => { labelling with table := table }
  | .lookup =>
    match labelling.waiting with
    | [] => labelling
    | status :: waiting =>
      { labelling with
        waiting := waiting
        observations := labelling.observations ++
          [status.observation (labelling.table.resolve status.shortAddress)] }

def run (labelling : Labelling) (moments : List Moment) : Labelling :=
  moments.foldl step labelling

end Labelling

/-- The tables that are current at some moment. -/
def tablesDuring (table : ValidatorTable) : List Moment → List ValidatorTable
  | [] => [table]
  | .lookup :: moments => tablesDuring table moments
  | .replacement next :: moments => table :: tablesDuring next moments

/-- Which status is labelled by which table. -/
def lookups (table : ValidatorTable) : List Status → List Moment → List (Status × ValidatorTable)
  | _, [] => []
  | statuses, .replacement next :: moments => lookups next statuses moments
  | [], .lookup :: moments => lookups table [] moments
  | status :: statuses, .lookup :: moments => (status, table) :: lookups table statuses moments

/-- What a status shows, labelled by a table. -/
def labelled (lookup : Status × ValidatorTable) : Observation :=
  lookup.1.observation (lookup.2.resolve lookup.1.shortAddress)

theorem head_mem_tablesDuring (table : ValidatorTable) (moments : List Moment) :
    table ∈ tablesDuring table moments := by
  induction moments with
  | nil => exact List.mem_singleton_self table
  | cons moment others inductionHypothesis =>
    cases moment with
    | lookup => exact inductionHypothesis
    | replacement next => exact List.mem_cons_self

/-- Every look-up sees the table of its moment. -/
theorem mem_tablesDuring_of_mem_lookups {table : ValidatorTable} {statuses : List Status}
    {moments : List Moment} {lookup : Status × ValidatorTable}
    (member : lookup ∈ lookups table statuses moments) : lookup.2 ∈ tablesDuring table moments := by
  induction moments generalizing table statuses with
  | nil => cases member
  | cons moment others inductionHypothesis =>
    cases moment with
    | replacement next => exact List.mem_cons_of_mem _ (inductionHypothesis member)
    | lookup =>
      cases statuses with
      | nil => exact inductionHypothesis member
      | cons status rest =>
        rcases List.mem_cons.mp member with rfl | later
        · exact head_mem_tablesDuring table others
        · exact inductionHypothesis later

/-- The statuses are labelled in their order, and those that are not are still waiting. -/
theorem run_eq (table : ValidatorTable) (waiting : List Status) (observations : List Observation)
    (moments : List Moment) :
    (Labelling.run ⟨table, waiting, observations⟩ moments).observations =
        observations ++ (lookups table waiting moments).map labelled ∧
      (lookups table waiting moments).map Prod.fst ++
        (Labelling.run ⟨table, waiting, observations⟩ moments).waiting = waiting := by
  induction moments generalizing table waiting observations with
  | nil => exact ⟨(List.append_nil observations).symm, rfl⟩
  | cons moment others inductionHypothesis =>
    cases moment with
    | replacement next => exact inductionHypothesis next waiting observations
    | lookup =>
      cases waiting with
      | nil => exact inductionHypothesis table [] observations
      | cons status rest =>
        obtain ⟨shown, same⟩ := inductionHypothesis table rest
          (observations ++ [status.observation (table.resolve status.shortAddress)])
        refine ⟨?_, congrArg (status :: ·) same⟩
        rw [List.append_assoc] at shown
        exact shown

/-! ### Labels of one table -/

/-- The statuses that a line lists. -/
def statusesOf (line : String) : Except Fault (List Status) :=
  match readJson (Json.valueReader Json.nestingLimit) line with
  | .error fault => .error fault
  | .ok record => report record

/-- A line that is not disturbed shows its statuses with the labels of one table. -/
theorem observe_of_statusesOf {line : String} {statuses : List Status}
    (listed : statusesOf line = .ok statuses) (table : ValidatorTable) :
    observe table line = .ok (statuses.map fun status => labelled (status, table)) := by
  unfold statusesOf at listed
  unfold observe
  cases read : readJson (Json.valueReader Json.nestingLimit) line with
  | error fault =>
    rw [read] at listed
    cases listed
  | ok record =>
    rw [read] at listed
    simp only [listed]
    rfl

/-- Two observations of a status are the same if their labels are. -/
theorem observation_inj {status : Status} {first second : Validator} :
    status.observation first = status.observation second ↔
      first.fullAddress = second.fullAddress ∧ first.name = second.name := by
  simp [Status.observation]

/-- Whether a look-up would have found the same labels in some table. -/
def Agrees (single : ValidatorTable) (lookup : Status × ValidatorTable) : Prop :=
  (single.resolve lookup.1.shortAddress).fullAddress =
      (lookup.2.resolve lookup.1.shortAddress).fullAddress ∧
    (single.resolve lookup.1.shortAddress).name = (lookup.2.resolve lookup.1.shortAddress).name

/-- Labels are those of one table if every look-up would have found the same in it. -/
theorem map_labelled_eq_iff {lookups : List (Status × ValidatorTable)} {single : ValidatorTable} :
    ((lookups.map Prod.fst).map fun status => labelled (status, single)) =
        lookups.map labelled ↔
      ∀ lookup ∈ lookups, Agrees single lookup := by
  rw [List.map_map, List.map_inj_left]
  exact forall₂_congr fun lookup _ => observation_inj

/-! ### No replacement in between -/

theorem lookups_nil (table : ValidatorTable) (moments : List Moment) :
    lookups table [] moments = [] := by
  induction moments generalizing table with
  | nil => rfl
  | cons moment others inductionHypothesis =>
    cases moment with
    | lookup => exact inductionHypothesis table
    | replacement next => exact inductionHypothesis next

/-- Of several replacements before a look-up the last one counts. -/
theorem lookups_replacements (table : ValidatorTable) (statuses : List Status)
    (tables : List ValidatorTable) (moments : List Moment) :
    lookups table statuses (tables.map .replacement ++ moments) =
      lookups (tables.getLast?.getD table) statuses moments := by
  induction tables generalizing table with
  | nil => rfl
  | cons next others inductionHypothesis =>
    refine (inductionHypothesis next).trans ?_
    rw [List.getLast?_cons]
    rfl

/-- Look-ups without a replacement in between all see the same table. -/
theorem lookups_replicate (table : ValidatorTable) (statuses : List Status)
    (moments : List Moment) :
    lookups table statuses (List.replicate statuses.length .lookup ++ moments) =
      statuses.map fun status => (status, table) := by
  induction statuses with
  | nil => exact lookups_nil table moments
  | cons status others inductionHypothesis => exact congrArg (_ :: ·) inductionHypothesis

/-- A line whose statuses have all been looked up is labelled in their order, each by the table of
the moment of its look-up. The labels are those of one table exactly if every look-up would have
found the same in it. So they are if no replacement falls between the look-ups. -/
theorem labels_of_replacements (line : String) (statuses : List Status)
    (listed : statusesOf line = .ok statuses) (table : ValidatorTable) (moments : List Moment)
    (complete : ((Labelling.start table statuses).run moments).waiting = []) :
    (lookups table statuses moments).map Prod.fst = statuses ∧
    (∀ lookup ∈ lookups table statuses moments, lookup.2 ∈ tablesDuring table moments) ∧
    ((Labelling.start table statuses).run moments).observations =
      (lookups table statuses moments).map labelled ∧
    (∀ single : ValidatorTable,
      observe single line = .ok ((Labelling.start table statuses).run moments).observations ↔
        ∀ lookup ∈ lookups table statuses moments, Agrees single lookup) ∧
    ∀ earlier later : List ValidatorTable,
      moments = earlier.map .replacement ++ (List.replicate statuses.length .lookup ++
        later.map .replacement) →
      observe (earlier.getLast?.getD table) line =
        .ok ((Labelling.start table statuses).run moments).observations := by
  obtain ⟨shown, same⟩ := run_eq table statuses [] moments
  have all : (lookups table statuses moments).map Prod.fst = statuses := by
    rw [Labelling.start] at complete
    rw [complete, List.append_nil] at same
    exact same
  have byOne (single : ValidatorTable) :
      observe single line = .ok ((Labelling.start table statuses).run moments).observations ↔
        ∀ lookup ∈ lookups table statuses moments, Agrees single lookup := by
    rw [observe_of_statusesOf listed single, Except.ok.injEq, Labelling.start, shown,
      List.nil_append, ← map_labelled_eq_iff, all]
  refine ⟨all, fun lookup => mem_tablesDuring_of_mem_lookups, shown, byOne,
    fun earlier later undivided => (byOne _).mpr fun lookup member => ?_⟩
  rw [undivided, lookups_replacements, lookups_replicate] at member
  obtain ⟨status, _, rfl⟩ := List.mem_map.mp member
  exact ⟨rfl, rfl⟩

/-- A line in which two validators have a stake. -/
def twoHoldersLine : String :=
  "[0,[0,\x7b\"execution_state\":\x7b\"round_to_stakes\":[[0,[[\"a\"],[\"b\"]]]]\x7d\x7d]]"

/-- A table in which both validators have the same name. -/
def namedAlike (name : String) : ValidatorTable :=
  .ofList [.ofAddress "a" (some name), .ofAddress "b" (some name)]

theorem statusesOf_twoHoldersLine :
    statusesOf twoHoldersLine = .ok [⟨"a", false⟩, ⟨"b", false⟩] := by
  with_unfolding_all exact rfl

/-- Replacements before and behind the look-ups do no harm. -/
theorem labels_undivided :
    observe (namedAlike "two") twoHoldersLine =
      .ok ((Labelling.start (namedAlike "one") [⟨"a", false⟩, ⟨"b", false⟩]).run
        [.replacement (namedAlike "two"), .lookup, .lookup,
          .replacement (namedAlike "three")]).observations := by
  obtain ⟨_, _, _, _, undivided⟩ := labels_of_replacements twoHoldersLine _
    statusesOf_twoHoldersLine (namedAlike "one")
    [.replacement (namedAlike "two"), .lookup, .lookup, .replacement (namedAlike "three")] rfl
  exact undivided [namedAlike "two"] [namedAlike "three"] rfl

/-- Not every line is labelled from one table. -/
theorem labels_of_one_table_fail :
    ¬∀ (line : String) (statuses : List Status), statusesOf line = .ok statuses →
      ∀ (table : ValidatorTable) (moments : List Moment),
        ((Labelling.start table statuses).run moments).waiting = [] →
          ∃ single ∈ tablesDuring table moments,
            ((Labelling.start table statuses).run moments).observations =
              statuses.map fun status => labelled (status, single) := by
  intro oneTable
  obtain ⟨single, current, same⟩ := oneTable twoHoldersLine _ statusesOf_twoHoldersLine
    (namedAlike "one") [.lookup, .replacement (namedAlike "two"), .lookup] rfl
  obtain ⟨ofFirst, ofSecond⟩ := List.cons.inj same
  rcases List.mem_cons.mp current with rfl | second
  · exact absurd ofSecond (by decide)
  · obtain rfl := List.mem_singleton.mp second
    exact absurd ofFirst (by decide)

end NodeTelemetry.Line.Consensus
