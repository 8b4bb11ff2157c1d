/-
This file lets the threads of the exporter wait and tells them when to stop.
-/

import NodeTelemetry.Pause

namespace NodeTelemetry.Machine

/-- A mark that all threads look at. Once it is set they come to an end. -/
abbrev Cancellation := IO.Ref Bool

/-- Waits for some milliseconds and tells whether it was not cancelled meanwhile. -/
def wait (cancellation : Cancellation) (milliseconds : Nat) : IO Bool := do
  let deadline := (← IO.monoNanosNow) + milliseconds * Pause.millisecond
  let mut completed := none
  while completed.isNone do
    match Pause.next (← cancellation.get) deadline (← IO.monoNanosNow) with
    | .cancelled => completed := some false
    | .complete => completed := some true
    | .sleep length =>
      IO.sleep (UInt32.ofNat ((length + Pause.millisecond - 1) / Pause.millisecond))
  return completed.getD false

end NodeTelemetry.Machine
