/-
This file steps a tailer until it has to wait, with the files around it unchanged meanwhile.
-/

import NodeTelemetry.Tail.Tailer

namespace NodeTelemetry.Tail

/-- What several steps give. -/
structure Draining where
  outcome : Outcome
  steps : Nat

/-- Steps until the tailer has to wait, at most `limit + 1` times. -/
def drain (pace : Pace) (view : View) (limit : Nat) (tailer : Tailer) : Draining :=
  let outcome := tailer.step pace view
  match limit, outcome.next with
  | limit + 1, .again =>
    let further := drain pace view limit outcome.tailer
    { outcome := { further.outcome with
        segments := outcome.segments ++ further.outcome.segments }
      steps := further.steps + 1 }
  | _, _ => ⟨outcome, 1⟩

/-- A number of steps that is enough for all the files of a tree. Each step that does not make the
tailer wait reads a line or opens a file, and with nothing changing it opens at most two. -/
def stepLimit (tree : FileTree) : Nat :=
  tree.contents.foldl (fun total contents => total + contents.2.bytes.length) 2

end NodeTelemetry.Tail
