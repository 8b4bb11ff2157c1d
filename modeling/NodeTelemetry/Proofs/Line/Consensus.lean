/-
This file says when a line of the consensus logs is accepted and what is observed then: one status
for each of the validators that have a stake, by ascending short address and each of them once.

The addresses of all stakes are put one by one into an ascending list. As it ascends strictly, no
address is in it twice, its first one is the least of all, and its last one is the greatest.

Reading a line and reporting on it are kept apart. The record of a line lists the validators that
are jailed and those with a stake, or it has a fault; the table of validators plays no part in this.
So whether a line is accepted does not depend on the table.
-/

import NodeTelemetry.Line.Consensus

namespace NodeTelemetry.Line.Consensus

/-! ### Sets of addresses -/

/-- Inserting a text adds this one and takes none away. -/
theorem mem_insertAscending {text other : String} {texts : List String} :
    other ∈ insertAscending text texts ↔ other = text ∨ other ∈ texts := by
  induction texts with
  | nil => exact List.mem_singleton.trans (or_iff_left List.not_mem_nil).symm
  | cons head tail inductionHypothesis =>
    unfold insertAscending
    split
    · exact List.mem_cons
    split
    · next same =>
      subst same
      rw [List.mem_cons, ← or_assoc, or_self]
    · rw [List.mem_cons, inductionHypothesis, List.mem_cons, or_left_comm]

/-- Inserting a text keeps the order strict. -/
theorem pairwise_insertAscending {text : String} {texts : List String}
    (ordered : texts.Pairwise (· < ·)) : (insertAscending text texts).Pairwise (· < ·) := by
  induction texts with
  | nil => exact List.pairwise_singleton _ _
  | cons head tail inductionHypothesis =>
    obtain ⟨before, orderedTail⟩ := List.pairwise_cons.mp ordered
    unfold insertAscending
    split
    · next less =>
      refine List.pairwise_cons.mpr ⟨fun other member => ?_, ordered⟩
      rcases List.mem_cons.mp member with rfl | later
      · exact less
      · exact String.lt_trans less (before other later)
    split
    · exact ordered
    · next notLess different =>
      refine List.pairwise_cons.mpr ⟨fun other member => ?_, inductionHypothesis orderedTail⟩
      rcases mem_insertAscending.mp member with rfl | later
      · have notEqual : ¬other ≤ head := fun below =>
          different (String.le_antisymm below (String.not_lt.mp notLess))
        exact String.not_le.mp notEqual
      · exact before other later

theorem mem_foldl_insertAscending {other : String} (texts set : List String) :
    other ∈ texts.foldl (fun set text => insertAscending text set) set ↔
      other ∈ texts ∨ other ∈ set := by
  induction texts generalizing set with
  | nil => exact (or_iff_right List.not_mem_nil).symm
  | cons text others inductionHypothesis =>
    rw [List.foldl_cons, inductionHypothesis, mem_insertAscending, List.mem_cons, or_left_comm,
      or_assoc]

theorem mem_ascending {text : String} {texts : List String} :
    text ∈ ascending texts ↔ text ∈ texts :=
  (mem_foldl_insertAscending texts []).trans (or_iff_left List.not_mem_nil)

theorem pairwise_ascending (texts : List String) : (ascending texts).Pairwise (· < ·) := by
  have ordered (set : List String) (before : set.Pairwise (· < ·)) :
      (texts.foldl (fun set text => insertAscending text set) set).Pairwise (· < ·) := by
    induction texts generalizing set with
    | nil => exact before
    | cons text others inductionHypothesis =>
      exact inductionHypothesis _ (pairwise_insertAscending before)
  exact ordered [] List.Pairwise.nil

/-- The first of ascending texts is the least one. -/
theorem le_of_head? {texts : List String} (ordered : texts.Pairwise (· < ·)) {first : String}
    (isFirst : texts.head? = some first) : first ∈ texts ∧ ∀ text ∈ texts, first ≤ text := by
  obtain ⟨others, rfl⟩ := List.head?_eq_some_iff.mp isFirst
  refine ⟨List.mem_cons_self,
    List.forall_mem_cons.mpr ⟨String.le_refl first, fun text member => ?_⟩⟩
  exact String.not_lt.mp (String.lt_asymm ((List.pairwise_cons.mp ordered).1 text member))

/-- The last of ascending texts is the greatest one. -/
theorem le_of_getLast? {texts : List String} (ordered : texts.Pairwise (· < ·)) {last : String}
    (isLast : texts.getLast? = some last) : last ∈ texts ∧ ∀ text ∈ texts, text ≤ last := by
  obtain ⟨others, rfl⟩ := List.getLast?_eq_some_iff.mp isLast
  refine ⟨List.mem_append_right _ (List.mem_singleton_self last), fun text member => ?_⟩
  rcases List.mem_append.mp member with earlier | same
  · have less := (List.pairwise_append.mp ordered).2.2 text earlier last
      (List.mem_singleton_self last)
    exact String.not_lt.mp (String.lt_asymm less)
  · obtain rfl := List.mem_singleton.mp same
    exact String.le_refl text

/-! ### Accepted lines -/

/-- The validators that a record lists as jailed and those that have a stake in it. -/
def addressesIn (record : Json.Value) : Except Fault (List String × List String) := do
  let state ← stateOf record
  let jailed ← jailedAddresses state
  let holders ← stakeAddresses state
  return (jailed, holders)

/-- The validators that a line lists as jailed and those that have a stake in it. -/
def addressesOf (line : String) : Except Fault (List String × List String) :=
  match readJson (Json.valueReader Json.nestingLimit) line with
  | .error fault => .error fault
  | .ok record => addressesIn record

/-- A report gives a status to each address with a stake, in their order. -/
theorem report_eq (record : Json.Value) :
    report record = (addressesIn record).map fun (jailed, holders) =>
      (ascending holders).map fun address => ⟨address, jailed.contains address⟩ := by
  unfold report addressesIn
  cases stateOf record with
  | error fault => rfl
  | ok state =>
    simp only [bind, Except.bind]
    cases jailedAddresses state with
    | error fault => rfl
    | ok jailed =>
      cases stakeAddresses state with
      | error fault => rfl
      | ok holders => rfl

/-- What is observed for a line: the status of every validator with a stake in it. -/
theorem observe_eq (table : ValidatorTable) (line : String) :
    observe table line = (addressesOf line).map fun (jailed, holders) =>
      (ascending holders).map fun address =>
        Status.observation ⟨address, jailed.contains address⟩ (table.resolve address) := by
  unfold observe addressesOf
  cases readJson (Json.valueReader Json.nestingLimit) line with
  | error fault => rfl
  | ok record =>
    simp only [report_eq]
    cases addressesIn record with
    | error fault => rfl
    | ok addresses =>
      simp only [Except.map, List.map_map]
      rfl

/-- Where a line is accepted, its observations are those of the addresses it lists. -/
theorem observe_eq_ok {table : ValidatorTable} {line : String} {observations : List Observation}
    (accepted : observe table line = .ok observations) :
    ∃ jailed holders, addressesOf line = .ok (jailed, holders) ∧
      observations = (ascending holders).map fun address =>
        Status.observation ⟨address, jailed.contains address⟩ (table.resolve address) := by
  rw [observe_eq] at accepted
  cases lists : addressesOf line with
  | error fault =>
    rw [lists] at accepted
    cases accepted
  | ok addresses =>
    rw [lists] at accepted
    exact ⟨addresses.1, addresses.2, rfl, (Except.ok.inj accepted).symm⟩

end NodeTelemetry.Line.Consensus
