/-
This file says how a pause goes. It is completed if it is not found cancelled at its end, it is
never completed before its time, and it outlasts its time by no more than a single sleep takes too
long.

A pause is a recursion over its looks at the clock. At each of them one of three things is decided:
it is cancelled, it is complete, or it sleeps for a slice and looks again. So what holds of a whole
pause is proved by following this recursion from its last look backwards. The last look decides how
the pause ended, and no slice is added behind it.
-/

import NodeTelemetry.Pause

namespace NodeTelemetry.Pause

variable {surroundings : Surroundings} {deadline sleeps now : Nat}

/-! ### The parts of a pause -/

theorem courseFrom_of_cancelled
    (stopped : next (surroundings.isCancelled now) deadline now = .cancelled) :
    courseFrom surroundings deadline sleeps now = ⟨false, [], now⟩ := by
  rw [courseFrom]
  split <;> simp_all

theorem courseFrom_of_complete
    (complete : next (surroundings.isCancelled now) deadline now = .complete) :
    courseFrom surroundings deadline sleeps now = ⟨true, [], now⟩ := by
  rw [courseFrom]
  split <;> simp_all

/-- Behind a slice the pause looks again, later by the slice and by what the clock adds. -/
theorem courseFrom_of_sleep {length : Nat}
    (slept : next (surroundings.isCancelled now) deadline now = .sleep length) :
    courseFrom surroundings deadline sleeps now =
      let rest := courseFrom surroundings deadline (sleeps + 1)
        (now + length + surroundings.excess sleeps)
      { rest with slices := length :: rest.slices } := by
  rw [courseFrom]
  split <;> simp_all

/-- Being cancelled is looked at first. -/
theorem next_eq_cancelled_iff {cancelled : Bool} :
    next cancelled deadline now = .cancelled ↔ cancelled = true := by
  cases cancelled <;> by_cases late : deadline ≤ now <;> simp [next, late]

/-- A pause is complete at its deadline, unless it is cancelled then. -/
theorem next_eq_complete_iff {cancelled : Bool} :
    next cancelled deadline now = .complete ↔ cancelled = false ∧ deadline ≤ now := by
  cases cancelled <;> by_cases late : deadline ≤ now <;> simp [next, late]

/-! ### The end of a pause -/

/-- The last look at the cancellation decides how the pause ended. -/
theorem completed_courseFrom (surroundings : Surroundings) (deadline sleeps now : Nat) :
    (courseFrom surroundings deadline sleeps now).completed =
      !surroundings.isCancelled (courseFrom surroundings deadline sleeps now).finish := by
  induction sleeps, now using courseFrom.induct surroundings deadline with
  | case1 sleeps now stopped =>
    rw [courseFrom_of_cancelled stopped, next_eq_cancelled_iff.mp stopped, Bool.not_true]
  | case2 sleeps now complete =>
    rw [courseFrom_of_complete complete, (next_eq_complete_iff.mp complete).1, Bool.not_false]
  | case3 sleeps now length slept inductionHypothesis =>
    rw [courseFrom_of_sleep slept]
    exact inductionHypothesis

/-- A pause that is completed has lasted up to its deadline. -/
theorem deadline_le_finish (surroundings : Surroundings) (deadline sleeps now : Nat)
    (completed : (courseFrom surroundings deadline sleeps now).completed = true) :
    deadline ≤ (courseFrom surroundings deadline sleeps now).finish := by
  induction sleeps, now using courseFrom.induct surroundings deadline with
  | case1 sleeps now stopped =>
    rw [courseFrom_of_cancelled stopped] at completed
    cases completed
  | case2 sleeps now complete =>
    rw [courseFrom_of_complete complete]
    exact (next_eq_complete_iff.mp complete).2
  | case3 sleeps now length slept inductionHypothesis =>
    rw [courseFrom_of_sleep slept] at completed ⊢
    exact inductionHypothesis completed

/-- Every sleep begins before the deadline and is asked to end by it. -/
theorem finish_le_deadline_add {slack : Nat}
    (hurried : ∀ sleep, surroundings.excess sleep ≤ slack) (early : now ≤ deadline + slack) :
    (courseFrom surroundings deadline sleeps now).finish ≤ deadline + slack := by
  induction sleeps, now using courseFrom.induct surroundings deadline with
  | case1 sleeps now stopped =>
    rw [courseFrom_of_cancelled stopped]
    exact early
  | case2 sleeps now complete =>
    rw [courseFrom_of_complete complete]
    exact early
  | case3 sleeps now length slept inductionHypothesis =>
    rw [courseFrom_of_sleep slept]
    obtain ⟨_, _, _, inTime⟩ := next_sleep slept
    exact inductionHypothesis (Nat.add_le_add inTime (hurried sleeps))

end NodeTelemetry.Pause
