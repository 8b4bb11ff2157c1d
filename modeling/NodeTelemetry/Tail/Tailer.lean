/-
This file holds the tailer, which follows the newest file of a family. In each step it looks for a
file to follow, or it reads on in the file at hand and at its end looks whether there is another
one.

The first file that is there when the tailer starts is read from its end, every later one from its
beginning, except that a file which was left and comes back is read on from where it was left.
-/

import NodeTelemetry.Tail.Memory

namespace NodeTelemetry.Tail

/-- How long a tailer waits, in milliseconds, and how many lines it reads in one step. -/
structure Pace where
  rotation : Nat
  idle : Nat
  lines : Nat
  lines_pos : 0 < lines

/-- How many lines are read in one step unless something else is asked for. -/
def defaultLines : Nat :=
  1024

/-- The pace with a limit on the lines. At least one line is read in a step. -/
def Pace.ofLimit (rotation idle limit : Nat) : Pace :=
  { rotation := rotation
    idle := idle
    lines := max limit 1
    lines_pos := by omega }

/-- The state of a tailer. -/
structure Tailer where
  /-- The place in the file at hand, if there is one. -/
  cursor : Option Cursor
  /-- Whether the first file is still to come and must be read from its end. -/
  skipsHistory : Bool
  /-- Where a file was left because reading failed. -/
  resume : Option Bookmark
  /-- Where files were left for others. -/
  memory : Memory
deriving DecidableEq

/-- What is to be done after a step. -/
inductive Next
  | again
  | wait (milliseconds : Nat)
deriving DecidableEq

/-- What a step gives. -/
structure Outcome where
  tailer : Tailer
  next : Next
  segments : List Segment

namespace Tailer

/-- A tailer that has not looked for a file yet. -/
def fresh : Tailer :=
  { cursor := none
    skipsHistory := true
    resume := none
    memory := [] }

/-! ### Looking for a file -/

/-- Where reading of a file begins that was found with none at hand. -/
def startFor (tailer : Tailer) (view : View) (path : Path) : Start :=
  if tailer.skipsHistory then .atEnd
  else
    .resuming ((tailer.resume.bind (·.offsetFor? view path)).or
      (tailer.memory.offsetFor? view path))

/-- Whether the bookmark of a failed read serves, so that the memory is not asked. -/
def resumes (tailer : Tailer) (view : View) (path : Path) : Bool :=
  (tailer.resume.bind (·.offsetFor? view path)).isSome

/-- The memory after it was asked for a path that was found with none at hand. -/
def memoryAfterLocating (tailer : Tailer) (view : View) (path : Path) : Memory :=
  if tailer.skipsHistory || tailer.resumes view path then tailer.memory
  else tailer.memory.forget path

/-- Looks for a file to follow. If none is there, whatever comes later is new. -/
def locate (pace : Pace) (view : View) (tailer : Tailer) : Outcome :=
  match view.newest with
  | .error _ => ⟨tailer, .wait pace.rotation, []⟩
  | .ok none => ⟨{ tailer with skipsHistory := false }, .wait pace.rotation, []⟩
  | .ok (some path) =>
    let located := { tailer with memory := tailer.memoryAfterLocating view path }
    match Cursor.openAt view path (tailer.startFor view path) with
    | none => ⟨located, .wait pace.rotation, []⟩
    | some cursor =>
      ⟨{ located with cursor := some cursor, skipsHistory := false, resume := none }, .again, []⟩

/-! ### Following a file -/

/-- The memory after the file at hand was left for a path. The file is remembered unless it is the
one that was under the same path. -/
def memoryAfterLeaving (tailer : Tailer) (cursor : Cursor) (path : Path) : Memory :=
  let kept := tailer.memory.forget path
  if cursor.path = path then kept else kept.remember cursor.flushed.bookmark

/-- Leaves the file at hand for another one, or for a new one under the same path. What was held
back is consumed. -/
def switch (pace : Pace) (view : View) (tailer : Tailer) (cursor : Cursor) (path : Path) :
    Outcome :=
  let opened := Cursor.openAt view path (.resuming (tailer.memory.offsetFor? view path))
  { tailer :=
      { tailer with cursor := opened, memory := tailer.memoryAfterLeaving cursor path }
    next := if opened.isSome then .again else .wait pace.rotation
    segments := cursor.flush }

/-- Looks at the end of the file at hand whether there is another one to follow. -/
def atEnd (pace : Pace) (view : View) (tailer : Tailer) (cursor : Cursor) : Outcome :=
  match cursor.successor? view with
  | some path => switch pace view tailer cursor path
  | none => ⟨{ tailer with cursor := some cursor }, .wait pace.idle, []⟩

/-- Reads on in the file at hand. If reading fails, the file is given up, and what was held back
will be read again. -/
def follow (pace : Pace) (view : View) (tailer : Tailer) (cursor : Cursor) : Outcome :=
  let reading := cursor.readLines (view.stream cursor.id cursor.position) pace.lines
  match reading.stop with
  | .limit => ⟨{ tailer with cursor := some reading.cursor }, .again, reading.segments⟩
  | .failed =>
    ⟨{ tailer with cursor := none, resume := some reading.cursor.bookmark },
      .wait pace.rotation, reading.segments⟩
  | .ended =>
    let outcome := atEnd pace view tailer reading.cursor
    { outcome with segments := reading.segments ++ outcome.segments }

/-! ### Steps -/

/-- One step. -/
def step (pace : Pace) (view : View) (tailer : Tailer) : Outcome :=
  match tailer.cursor with
  | none => locate pace view tailer
  | some cursor => follow pace view tailer cursor

end Tailer

/-- The lines that a step delivers. -/
def Outcome.delivered (outcome : Outcome) : List String :=
  outcome.segments.filterMap Segment.delivered?

end NodeTelemetry.Tail
