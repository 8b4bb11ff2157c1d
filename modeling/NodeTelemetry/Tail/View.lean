/-
This file holds what a tailer sees of the files around it during one step: which file is the newest,
what the status of a path is, which paths can be opened, and what can be read of open files. A view
of a tree of files is taken with a watcher, which may also be told what to answer, and with reading
perhaps out of order.

The stream of a view is what the reader of a file yields in this step. A reader that fetches more
than it hands out, up to eight kibibytes, may still hold bytes that it fetched before the file was
rewritten in place, if the step before stopped at its limit of lines. A view can say so, since it
may show any stream. The views of a tree do not: they show the file as it is now, with nothing stale
in a buffer. So what is proved about arbitrary views covers a reader with stale bytes as well, and
where a result asks that a view shows certain contents, the reader must have nothing stale left.
-/

import NodeTelemetry.Files.Newest

namespace NodeTelemetry.Tail

/-- Which file stands behind a path, and how long it is. -/
structure FileStatus where
  id : FileId
  length : Nat
deriving DecidableEq

/-- What can be read of an open file from some position on. Behind these bytes the file ends or
reading fails. -/
structure Stream where
  bytes : List UInt8
  failing : Bool
deriving DecidableEq

/-- What a tailer sees during one step. -/
structure View where
  /-- The newest file, if there is any and if this can be found out. -/
  newest : Except FileTree.ScanFault (Option Path)
  /-- The status of a path, if it can be inspected. -/
  status : Path → Option FileStatus
  /-- The status of what opening a path opens, if it can be opened. -/
  openFile : Path → Option FileStatus
  /-- What can be read of an open file from a position on. -/
  stream : FileId → Nat → Stream

/-! ### Views of a tree of files -/

/-- Where a tailer learns which file to follow. -/
inductive Watcher
  /-- The newest file below a directory. -/
  | directory (root : Path)
  /-- Always the same answer. -/
  | fixed (answer : Except FileTree.ScanFault (Option Path))

def Watcher.newest (watcher : Watcher) (tree : FileTree) :
    Except FileTree.ScanFault (Option Path) :=
  match watcher with
  | .directory root => tree.newest root
  | .fixed answer => answer

/-- The status of a path in a tree. -/
def statusIn (tree : FileTree) (path : Path) : Option FileStatus :=
  match tree.status path with
  | .error _ => none
  | .ok status => some ⟨status.id, status.length⟩

/-- What can be read of an open file of a tree: nothing if the position lies behind the end of the
file. Directories can be opened but not read. -/
def streamIn (tree : FileTree) (outOfOrder : Bool) (id : FileId) (position : Nat) : Stream :=
  match tree.contents.lookup id with
  | some contents => ⟨if outOfOrder then [] else contents.bytes.drop position, outOfOrder⟩
  | none => ⟨[], true⟩

/-- The view of a tree. -/
def View.ofTree (tree : FileTree) (watcher : Watcher) (outOfOrder : Bool) : View :=
  { newest := watcher.newest tree
    status := statusIn tree
    openFile := statusIn tree
    stream := streamIn tree outOfOrder }

end NodeTelemetry.Tail
