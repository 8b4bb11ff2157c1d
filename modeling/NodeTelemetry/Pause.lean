/-
This file holds the pause between two pieces of work. A pause sleeps in short slices and looks
before each of them whether it was cancelled, so a cancelled pause ends soon. Moments and lengths
are in nanoseconds.

Moments are numbers without a bound, counted from the beginning of the pause. A clock has a range,
and a pause whose deadline lies beyond the range of the clock panics where the deadline is computed,
before it looks or sleeps for the first time. Such a pause has no course and is not represented
here: a course stands for a pause whose deadline the clock can show.
-/

namespace NodeTelemetry.Pause

def millisecond : Nat :=
  1000000

/-- How long one slice is at most. -/
def sliceLimit : Nat :=
  50 * millisecond

/-! ### One look -/

/-- What a pause does next. -/
inductive Decision
  | sleep (length : Nat)
  | complete
  | cancelled
deriving DecidableEq

/-- What a pause does when it looks at the clock. The last slice ends at the deadline. -/
def next (cancelled : Bool) (deadline now : Nat) : Decision :=
  if cancelled then .cancelled
  else if deadline ≤ now then .complete
  else .sleep (min (deadline - now) sliceLimit)

/-- A slice is not empty, and it is short. -/
theorem next_sleep {cancelled : Bool} {deadline now length : Nat}
    (slept : next cancelled deadline now = .sleep length) :
    now < deadline ∧ 0 < length ∧ length ≤ sliceLimit ∧ now + length ≤ deadline := by
  unfold next at slept
  split at slept
  · cases slept
  · split at slept
    · cases slept
    · simp only [Decision.sleep.injEq] at slept
      unfold sliceLimit millisecond at *
      omega

/-! ### The whole pause -/

/-- What goes on during a pause that begins at moment zero. -/
structure Surroundings where
  /-- How much longer each sleep takes than was asked for. -/
  excess : Nat → Nat
  /-- The moment of the cancellation. -/
  cancellation : Option Nat

/-- Whether the pause was cancelled by some moment. -/
def Surroundings.isCancelled (surroundings : Surroundings) (now : Nat) : Bool :=
  match surroundings.cancellation with
  | none => false
  | some moment => decide (moment ≤ now)

/-- How a pause went. -/
structure Course where
  completed : Bool
  slices : List Nat
  finish : Nat

/-- The course of a pause from some moment on, behind a number of sleeps. -/
def courseFrom (surroundings : Surroundings) (deadline sleeps now : Nat) : Course :=
  match _ : next (surroundings.isCancelled now) deadline now with
  | .cancelled => ⟨false, [], now⟩
  | .complete => ⟨true, [], now⟩
  | .sleep length =>
    let rest := courseFrom surroundings deadline (sleeps + 1)
      (now + length + surroundings.excess sleeps)
    { rest with slices := length :: rest.slices }
termination_by deadline - now
decreasing_by
  have bounds := next_sleep ‹_ = Decision.sleep _›
  omega

/-- The course of a pause of some length. -/
def course (surroundings : Surroundings) (length : Nat) : Course :=
  courseFrom surroundings length 0 0

end NodeTelemetry.Pause
