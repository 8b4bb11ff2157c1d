/-
This file says which slices a pause asks for. None of them is empty, long or goes past the deadline,
and none is asked for once the pause is cancelled. There are no more of them than a pause needs
whose clock is never late, and such a pause asks for just its length.

Slices are asked for at looks, and the moment of a look is known from the slices in front of it and
from how late the clock was behind each of them.

The number of slices is the length divided by the longest slice, rounded up. Each slice either is a
longest one, and then one less is needed for what is left, or it ends at the deadline and is the
last. A clock that is late leaves less to be slept, which takes no more slices. Together with the
count of looks this also says that a pause ends whatever the clock does: one look more than there
can be slices is enough, and `courseWithin` reaches the end in as many.
-/

import Mathlib.Algebra.Order.Floor.Div
import NodeTelemetry.Proofs.Pause

namespace NodeTelemetry.Pause

variable {surroundings : Surroundings} {deadline sleeps now : Nat}

/-! ### The looks of a pause -/

/-- The moment of the look behind some slices, counted from a look behind a number of sleeps. -/
def lookBehind (surroundings : Surroundings) (sleeps now : Nat) : List Nat → Nat
  | [] => now
  | slice :: slices =>
    lookBehind surroundings (sleeps + 1) (now + slice + surroundings.excess sleeps) slices

/-- The course of a pause, `none` if it goes on behind a number of looks. -/
def courseWithin (surroundings : Surroundings) (deadline looks sleeps now : Nat) : Option Course :=
  match looks with
  | 0 => none
  | looks + 1 =>
    match next (surroundings.isCancelled now) deadline now with
    | .cancelled => some ⟨false, [], now⟩
    | .complete => some ⟨true, [], now⟩
    | .sleep length =>
      (courseWithin surroundings deadline looks (sleeps + 1)
        (now + length + surroundings.excess sleeps)).map fun rest =>
          { rest with slices := length :: rest.slices }

/-- A pause looks once more than it sleeps. -/
theorem courseWithin_eq_courseFrom {looks : Nat}
    (enough : (courseFrom surroundings deadline sleeps now).slices.length < looks) :
    courseWithin surroundings deadline looks sleeps now =
      some (courseFrom surroundings deadline sleeps now) := by
  induction looks generalizing sleeps now with
  | zero => exact absurd enough (Nat.not_lt_zero _)
  | succ looks inductionHypothesis =>
    rw [courseWithin]
    cases decided : next (surroundings.isCancelled now) deadline now with
    | cancelled => rw [courseFrom_of_cancelled decided]
    | complete => rw [courseFrom_of_complete decided]
    | sleep length =>
      rw [courseFrom_of_sleep decided] at enough ⊢
      simp only [List.length_cons, Nat.add_lt_add_iff_right] at enough
      simp only [inductionHypothesis enough, Option.map_some]

/-- A pause ends at the look behind its last slice. -/
theorem finish_courseFrom (surroundings : Surroundings) (deadline sleeps now : Nat) :
    (courseFrom surroundings deadline sleeps now).finish =
      lookBehind surroundings sleeps now (courseFrom surroundings deadline sleeps now).slices := by
  induction sleeps, now using courseFrom.induct surroundings deadline with
  | case1 sleeps now stopped =>
    rw [courseFrom_of_cancelled stopped]
    rfl
  | case2 sleeps now complete =>
    rw [courseFrom_of_complete complete]
    rfl
  | case3 sleeps now length slept inductionHypothesis =>
    rw [courseFrom_of_sleep slept]
    exact inductionHypothesis

/-! ### One slice -/

theorem not_isCancelled_of_sleep {cancelled : Bool} {length : Nat}
    (slept : next cancelled deadline now = .sleep length) : cancelled = false := by
  cases cancelled with
  | false => rfl
  | true =>
    rw [next_eq_cancelled_iff.mpr rfl] at slept
    cases slept

/-- What is asked for at a look: as much as is left, or as much as a slice holds. -/
theorem length_of_sleep {cancelled : Bool} {length : Nat}
    (slept : next cancelled deadline now = .sleep length) :
    length = min (deadline - now) sliceLimit := by
  obtain ⟨early, _⟩ := next_sleep slept
  obtain rfl := not_isCancelled_of_sleep slept
  rw [next, if_neg Bool.false_ne_true, if_neg (Nat.not_le.mpr early)] at slept
  exact (Decision.sleep.inj slept).symm

/-- The first slice is asked for at the first look, and the others behind it. -/
theorem next_of_slices_eq_cons {slice : Nat} {slices : List Nat}
    (asked : (courseFrom surroundings deadline sleeps now).slices = slice :: slices) :
    next (surroundings.isCancelled now) deadline now = .sleep slice ∧
      (courseFrom surroundings deadline (sleeps + 1)
        (now + slice + surroundings.excess sleeps)).slices = slices := by
  cases decided : next (surroundings.isCancelled now) deadline now with
  | cancelled =>
    rw [courseFrom_of_cancelled decided] at asked
    cases asked
  | complete =>
    rw [courseFrom_of_complete decided] at asked
    cases asked
  | sleep length =>
    rw [courseFrom_of_sleep decided] at asked
    obtain ⟨rfl, rest⟩ := List.cons.inj asked
    exact ⟨rfl, rest⟩

/-- A slice is asked for at a look, and the slices in front of it tell when this is. -/
theorem next_lookBehind {before after : List Nat} {slice : Nat}
    (asked : (courseFrom surroundings deadline sleeps now).slices = before ++ slice :: after) :
    next (surroundings.isCancelled (lookBehind surroundings sleeps now before)) deadline
      (lookBehind surroundings sleeps now before) = .sleep slice := by
  induction before generalizing sleeps now with
  | nil => exact (next_of_slices_eq_cons asked).1
  | cons first before inductionHypothesis =>
    exact inductionHypothesis (next_of_slices_eq_cons asked).2

/-! ### The number of slices -/

/-- How many slices a length takes if none of them is late. -/
def sliceCount (length : Nat) : Nat :=
  length ⌈/⌉ sliceLimit

theorem sliceLimit_pos : 0 < sliceLimit := by
  decide

/-- A slice that is as long as it may be leaves one less to be asked for. -/
theorem sliceCount_of_pos {length : Nat} (positive : 0 < length) :
    sliceCount length = sliceCount (length - min length sliceLimit) + 1 := by
  have limit := sliceLimit_pos
  unfold sliceCount
  rw [Nat.ceilDiv_eq_add_pred_div, Nat.ceilDiv_eq_add_pred_div]
  rcases Nat.le_total length sliceLimit with short | long
  · have one : (length + sliceLimit - 1) / sliceLimit = 1 :=
      Nat.div_eq_of_lt_le (by omega) (by omega)
    have none : (0 + sliceLimit - 1) / sliceLimit = 0 := Nat.div_eq_of_lt (by omega)
    rw [Nat.min_eq_left short, Nat.sub_self, one, none]
  · rw [Nat.min_eq_right long, ← Nat.add_div_right _ limit]
    exact congrArg (· / sliceLimit) (by omega)

theorem sliceCount_mono {shorter longer : Nat} (less : shorter ≤ longer) :
    sliceCount shorter ≤ sliceCount longer := by
  unfold sliceCount
  rw [Nat.ceilDiv_eq_add_pred_div, Nat.ceilDiv_eq_add_pred_div]
  exact Nat.div_le_div_right (by omega)

/-- A late clock saves slices and never costs any. -/
theorem length_slices_le (surroundings : Surroundings) (deadline sleeps now : Nat) :
    (courseFrom surroundings deadline sleeps now).slices.length ≤ sliceCount (deadline - now) := by
  induction sleeps, now using courseFrom.induct surroundings deadline with
  | case1 sleeps now stopped =>
    rw [courseFrom_of_cancelled stopped]
    exact Nat.zero_le _
  | case2 sleeps now complete =>
    rw [courseFrom_of_complete complete]
    exact Nat.zero_le _
  | case3 sleeps now length slept inductionHypothesis =>
    obtain ⟨early, _⟩ := next_sleep slept
    have asked := length_of_sleep slept
    have left : deadline - (now + length + surroundings.excess sleeps) ≤
        deadline - now - min (deadline - now) sliceLimit := by omega
    rw [courseFrom_of_sleep slept, sliceCount_of_pos (Nat.sub_pos_of_lt early)]
    exact Nat.succ_le_succ (Nat.le_trans inductionHypothesis (sliceCount_mono left))

/-- With a clock that is never late, a pause that is not cut short asks for what is left of it, in
as few slices as this takes. -/
theorem slices_of_punctual (punctual : ∀ sleep, surroundings.excess sleep = 0) (early : now ≤ deadline)
    (completed : (courseFrom surroundings deadline sleeps now).completed = true) :
    (courseFrom surroundings deadline sleeps now).slices.length = sliceCount (deadline - now) ∧
      (courseFrom surroundings deadline sleeps now).slices.sum = deadline - now := by
  induction sleeps, now using courseFrom.induct surroundings deadline with
  | case1 sleeps now stopped =>
    rw [courseFrom_of_cancelled stopped] at completed
    cases completed
  | case2 sleeps now complete =>
    have late := (next_eq_complete_iff.mp complete).2
    rw [courseFrom_of_complete complete, Nat.sub_eq_zero_of_le late]
    exact ⟨rfl, rfl⟩
  | case3 sleeps now length slept inductionHypothesis =>
    obtain ⟨notLate, _, _, inTime⟩ := next_sleep slept
    have asked := length_of_sleep slept
    have left : deadline - (now + length + surroundings.excess sleeps) =
        deadline - now - min (deadline - now) sliceLimit := by
      rw [punctual]
      omega
    rw [courseFrom_of_sleep slept] at completed ⊢
    obtain ⟨count, sum⟩ := inductionHypothesis (by rw [punctual]; omega) completed
    rw [left] at count sum
    simp only [List.length_cons, List.sum_cons, count, sum,
      ← sliceCount_of_pos (Nat.sub_pos_of_lt notLate), true_and]
    omega

/-! ### Whole pauses -/

/-- A pause that is cancelled is over by the end of the sleep during which this happens. -/
theorem finish_le_of_cancellation {moment slack : Nat}
    (stops : surroundings.cancellation = some moment)
    (hurried : ∀ sleep, surroundings.excess sleep ≤ slack) (early : now ≤ moment + sliceLimit + slack) :
    (courseFrom surroundings deadline sleeps now).finish ≤ moment + sliceLimit + slack := by
  induction sleeps, now using courseFrom.induct surroundings deadline with
  | case1 sleeps now stopped =>
    rw [courseFrom_of_cancelled stopped]
    exact early
  | case2 sleeps now complete =>
    rw [courseFrom_of_complete complete]
    exact early
  | case3 sleeps now length slept inductionHypothesis =>
    have notYet := not_isCancelled_of_sleep slept
    simp only [Surroundings.isCancelled, stops, decide_eq_false_iff_not, Nat.not_le] at notYet
    obtain ⟨_, _, short, _⟩ := next_sleep slept
    have onTime := hurried sleeps
    rw [courseFrom_of_sleep slept]
    exact inductionHypothesis (by omega)

/-- A pause of any length ends, whatever the clock does and whenever it is cancelled. Its slices are
not empty, not long and not past the deadline, and it is not cancelled when it asks for them. It is
completed if it has lasted its length and is not cancelled at its last look. When it is cancelled it
asks for no further slice and is not completed, so it is over by the end of the sleep it is in. With
a clock that is never late, a pause that is not cancelled asks for just its length in as few slices
as this takes. -/
theorem course_in_slices (surroundings : Surroundings) (length : Nat) :
    courseWithin surroundings length (sliceCount length + 1) 0 0 = some (course surroundings length) ∧
    (∀ before slice after, (course surroundings length).slices = before ++ slice :: after →
      0 < slice ∧ slice ≤ sliceLimit ∧ lookBehind surroundings 0 0 before + slice ≤ length ∧
        surroundings.isCancelled (lookBehind surroundings 0 0 before) = false) ∧
    (course surroundings length).finish =
      lookBehind surroundings 0 0 (course surroundings length).slices ∧
    ((course surroundings length).completed = true ↔ length ≤ (course surroundings length).finish ∧
      surroundings.isCancelled (course surroundings length).finish = false) ∧
    (∀ moment, surroundings.cancellation = some moment →
      (∀ before after, (course surroundings length).slices = before ++ after →
        moment ≤ lookBehind surroundings 0 0 before →
          after = [] ∧ (course surroundings length).completed = false) ∧
      ∀ slack, (∀ sleep, surroundings.excess sleep ≤ slack) →
        (course surroundings length).finish ≤ moment + sliceLimit + slack) ∧
    ((∀ sleep, surroundings.excess sleep = 0) → surroundings.cancellation = none →
      (course surroundings length).completed = true ∧
        (course surroundings length).slices.length = sliceCount length ∧
        (course surroundings length).slices.sum = length) := by
  have ended := completed_courseFrom surroundings length 0 0
  have finish := finish_courseFrom surroundings length 0 0
  have lasted := deadline_le_finish surroundings length 0 0
  refine ⟨?_, fun before slice after asked => ?_, finish, ?_, fun moment stops => ⟨?_, ?_⟩, ?_⟩
  · exact courseWithin_eq_courseFrom (Nat.lt_succ_of_le (length_slices_le surroundings length 0 0))
  · have slept := next_lookBehind asked
    obtain ⟨_, positive, short, inTime⟩ := next_sleep slept
    exact ⟨positive, short, inTime, not_isCancelled_of_sleep slept⟩
  · constructor
    · intro completed
      refine ⟨lasted completed, ?_⟩
      rwa [course, ended, Bool.not_eq_true'] at completed
    · rintro ⟨_, going⟩
      rwa [course, ended, Bool.not_eq_true']
  · intro before after asked passed
    have stopped : surroundings.isCancelled (lookBehind surroundings 0 0 before) = true := by
      simpa only [Surroundings.isCancelled, stops, decide_eq_true_eq] using passed
    cases after with
    | nil =>
      rw [List.append_nil] at asked
      rw [course, ended, finish, ← course, asked, stopped]
      exact ⟨rfl, rfl⟩
    | cons slice after =>
      have going := not_isCancelled_of_sleep (next_lookBehind asked)
      rw [stopped] at going
      cases going
  · intro slack hurried
    exact finish_le_of_cancellation stops hurried (Nat.zero_le _)
  · intro punctual never
    have completed : (course surroundings length).completed = true := by
      rw [course, ended, Surroundings.isCancelled, never, Bool.not_false]
    exact ⟨completed, slices_of_punctual punctual (Nat.zero_le _) completed⟩

/-- A clock that is late by five milliseconds each time, and a cancellation after sixty. -/
def interrupted : Surroundings where
  excess _ := 5 * millisecond
  cancellation := some (60 * millisecond)

/-- A clock that is never late, and no cancellation. -/
def undisturbed : Surroundings where
  excess _ := 0
  cancellation := none

/-- Of a pause of 120 milliseconds, the last slice is short or is not asked for. -/
theorem course_in_threeSlices :
    ((course undisturbed (120 * millisecond)).slices =
        [50 * millisecond, 50 * millisecond, 20 * millisecond] ∧
      (course undisturbed (120 * millisecond)).slices.length = sliceCount (120 * millisecond) ∧
      (course undisturbed (120 * millisecond)).slices.sum = 120 * millisecond) ∧
    (course interrupted (120 * millisecond)).slices = [50 * millisecond, 50 * millisecond] ∧
    (course interrupted (120 * millisecond)).completed = false ∧
    (course interrupted (120 * millisecond)).finish ≤ 60 * millisecond + sliceLimit + 5 * millisecond := by
  obtain ⟨calm, _, _, _, _, exact⟩ := course_in_slices undisturbed (120 * millisecond)
  obtain ⟨cut, _, _, _, prompt, _⟩ := course_in_slices interrupted (120 * millisecond)
  have calmSlices : (course undisturbed (120 * millisecond)).slices =
      [50 * millisecond, 50 * millisecond, 20 * millisecond] :=
    (congrArg Course.slices (Option.some.inj calm)).symm
  have cutSlices : (course interrupted (120 * millisecond)).slices =
      [50 * millisecond, 50 * millisecond] :=
    (congrArg Course.slices (Option.some.inj cut)).symm
  obtain ⟨_, count, sum⟩ := exact (fun _ => rfl) rfl
  obtain ⟨stops, soon⟩ := prompt (60 * millisecond) rfl
  refine ⟨⟨calmSlices, count, sum⟩, cutSlices, ?_, soon _ fun _ => Nat.le_refl _⟩
  exact (stops _ [] (cutSlices.trans (List.append_nil _).symm) (by decide)).2

end NodeTelemetry.Pause
