/-
This file reads the three words of JSON: `null`, `true` and `false`.
-/

import NodeTelemetry.Json.Reader

namespace NodeTelemetry.Json

/-- Takes the given characters off the front of an input. -/
def takeWord : List Char → Input → Except Fault Input
  | [], input => .ok input
  | _ :: _, [] => .error .unfinished
  | letter :: letters, character :: rest =>
    if character = some letter then takeWord letters rest else .error .malformed

theorem length_takeWord_le {word : List Char} {input rest : Input}
    (taken : takeWord word input = .ok rest) : rest.length ≤ input.length := by
  induction word generalizing input with
  | nil =>
    simp only [takeWord, Except.ok.injEq] at taken
    exact taken ▸ Nat.le_refl _
  | cons letter letters inductionHypothesis =>
    cases input with
    | nil => cases taken
    | cons character remaining =>
      simp only [takeWord] at taken
      split at taken
      · exact Nat.le_succ_of_le (inductionHypothesis taken)
      · cases taken

end NodeTelemetry.Json
