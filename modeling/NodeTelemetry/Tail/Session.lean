/-
This file holds a tailer at work: the files around it, the watcher it asks, and whether the file at
hand can be read. The files change between its steps. A file that is out of order stays so until the
tailer gives it up, which it does in its next step.
-/

import NodeTelemetry.Files.Change
import NodeTelemetry.Tail.Drain

namespace NodeTelemetry.Tail

structure Session where
  tree : FileTree
  watcher : Watcher
  tailer : Tailer
  /-- Whether reading the file at hand fails. -/
  outOfOrder : Bool

namespace Session

/-- A new tailer with no files around it. -/
def start (watcher : Watcher) : Session :=
  { tree := FileTree.empty
    watcher := watcher
    tailer := Tailer.fresh
    outOfOrder := false }

/-- What the tailer sees. -/
def view (session : Session) : View :=
  View.ofTree session.tree session.watcher session.outOfOrder

/-! ### Steps -/

/-- The session after the tailer made some steps. -/
def after (session : Session) (draining : Draining) : Session :=
  { session with tailer := draining.outcome.tailer, outOfOrder := false }

/-- One step. -/
def step (session : Session) (pace : Pace) : Draining :=
  Tail.drain pace session.view 0 session.tailer

/-- Steps until the tailer has to wait. -/
def drain (session : Session) (pace : Pace) : Draining :=
  Tail.drain pace session.view (stepLimit session.tree) session.tailer

/-- A new tailer in place of the one at work. -/
def restart (session : Session) : Session :=
  { session with tailer := Tailer.fresh, outOfOrder := false }

/-! ### Disturbances -/

/-- Whether the file at hand can be put out of order: it is still where it was opened, and it is not
out of order already. -/
def canFail (session : Session) : Bool :=
  match session.tailer.cursor with
  | none => false
  | some cursor =>
    !session.outOfOrder && (session.view.status cursor.path).map (·.id) == some cursor.id

/-- Puts the file at hand out of order. -/
def disturb (session : Session) : Session :=
  { session with outOfOrder := session.outOfOrder || session.canFail }

/-- Changes the files. -/
def change (session : Session) (change : FileTree → FileTree) : Session :=
  { session with tree := change session.tree }

/-- Lets the tailer ask another watcher from now on. -/
def ask (session : Session) (watcher : Watcher) : Session :=
  { session with watcher := watcher }

end Session

end NodeTelemetry.Tail
