/-
This file says what the files around a tailer hold, apart from what it sees of them in a step. A
view shows the files if every path leads where it should and reading gives the bytes behind the
position, though it may fail before it has given them all. Files that only come into being and grow
stay where they are and keep what they hold.

A weaker relation is that a view is true to the files: what it tells is so, but it need not tell
all. A file may then fail to be inspected or opened though it is there, and reading may stop
anywhere, also without saying so. Some results need no more than this. What a cursor reads lies in
the file, and a file that is at hand is never taken for another one, because a failure to inspect it
is not taken as a sign of anything. Other results need a view that shows the files, such as that a
file to which a path leads can be opened, or that all that is in a file is read.
-/

import NodeTelemetry.Proofs.Tail.Turn

namespace NodeTelemetry.Tail

/-- The files at some moment: the file that a path leads to, and the bytes of each file. -/
structure Disk where
  fileAt : Path → Option FileId
  bytes : FileId → List UInt8

namespace Disk

/-- The status of a path. -/
def status (disk : Disk) (path : Path) : Option FileStatus :=
  (disk.fileAt path).map fun id => ⟨id, (disk.bytes id).length⟩

/-- Whether files at most came into being and grew. -/
structure Grows (before after : Disk) : Prop where
  stays : ∀ path id, before.fileAt path = some id → after.fileAt path = some id
  longer : ∀ path id, before.fileAt path = some id → before.bytes id <+: after.bytes id

theorem Grows.drop_longer {before after : Disk} (grows : before.Grows after) {path : Path}
    {id : FileId} (leads : before.fileAt path = some id) (position : Nat) :
    (before.bytes id).drop position <+: (after.bytes id).drop position := by
  obtain ⟨more, whole⟩ := grows.longer path id leads
  rw [← whole, List.drop_append]
  exact List.prefix_append _ _

theorem Grows.trans {before between after : Disk} (first : before.Grows between)
    (second : between.Grows after) : before.Grows after where
  stays := fun path id leads => second.stays path id (first.stays path id leads)
  longer := fun path id leads =>
    (first.longer path id leads).trans (second.longer path id (first.stays path id leads))

theorem status_eq_some {disk : Disk} {path : Path} {id : FileId}
    (leads : disk.fileAt path = some id) :
    disk.status path = some ⟨id, (disk.bytes id).length⟩ := by
  rw [status, leads]
  rfl

end Disk

/-- Whether a view shows the files as they are. -/
structure View.Shows (view : View) (disk : Disk) : Prop where
  status : ∀ path, view.status path = disk.status path
  openFile : ∀ path, view.openFile path = disk.status path
  /-- What is read is what the file holds. -/
  read : ∀ id position, (view.stream id position).bytes <+: (disk.bytes id).drop position
  /-- Unless reading fails, the file is read to its end. -/
  readAll : ∀ id position, (view.stream id position).failing = false →
    (view.stream id position).bytes = (disk.bytes id).drop position

/-- Whether all that a view tells is true of the files. A file may fail to be inspected or opened
though its path leads to it, and reading may stop anywhere. -/
structure View.TrueTo (view : View) (disk : Disk) : Prop where
  status : ∀ path found, view.status path = some found → disk.status path = some found
  openFile : ∀ path found, view.openFile path = some found → disk.status path = some found
  read : ∀ id position, (view.stream id position).bytes <+: (disk.bytes id).drop position

/-- A view that shows the files as they are is true to them. -/
theorem View.Shows.trueTo {view : View} {disk : Disk} (shows : view.Shows disk) :
    view.TrueTo disk where
  status := fun path _ found => (shows.status path).symm.trans found
  openFile := fun path _ found => (shows.openFile path).symm.trans found
  read := shows.read

/-- What a cursor is like that has just been opened. -/
theorem Cursor.openAt_of_trueTo {view : View} {disk : Disk} {path : Path} {start : Start}
    {cursor : Cursor} (trueTo : view.TrueTo disk)
    (opens : Cursor.openAt view path start = some cursor) :
    cursor.path = path ∧ disk.fileAt path = some cursor.id ∧ cursor.fragment = [] ∧
      cursor.offset = Cursor.startOffset start (disk.bytes cursor.id).length := by
  obtain ⟨status, found, samePath, sameId, offset, empty⟩ := openAt_eq_some opens
  obtain ⟨id, leads, rfl⟩ := Option.map_eq_some_iff.mp (trueTo.openFile path status found)
  have sameId : cursor.id = id := sameId
  subst sameId
  exact ⟨samePath, leads, empty, offset⟩

/-- A file that a path leads to can be opened. -/
theorem Cursor.openAt_isSome_of_shows {view : View} {disk : Disk} {path : Path} {id : FileId}
    (shows : view.Shows disk) (leads : disk.fileAt path = some id) (start : Start) :
    ∃ cursor, Cursor.openAt view path start = some cursor := by
  unfold Cursor.openAt
  rw [shows.openFile, Disk.status_eq_some leads]
  exact ⟨_, rfl⟩

/-- A bookmark serves where the path still leads to the file and this reaches up to the bookmark. -/
theorem Bookmark.offsetFor?_of_shows {view : View} {disk : Disk} {bookmark : Bookmark}
    (shows : view.Shows disk) (leads : disk.fileAt bookmark.path = some bookmark.id)
    (reaches : bookmark.offset ≤ (disk.bytes bookmark.id).length) :
    bookmark.offsetFor? view bookmark.path = some bookmark.offset := by
  unfold Bookmark.offsetFor?
  rw [if_pos rfl, shows.status, Disk.status_eq_some leads]
  exact if_pos ⟨rfl, reaches⟩

/-- A file is not taken for another one while its path leads to it and it reaches up to the cursor.
-/
theorem Cursor.isReplaced_of_trueTo {view : View} {disk : Disk} {cursor : Cursor}
    (trueTo : view.TrueTo disk) (leads : disk.fileAt cursor.path = some cursor.id)
    (reaches : cursor.offset ≤ (disk.bytes cursor.id).length) :
    cursor.isReplaced view = false := by
  unfold Cursor.isReplaced
  cases inspected : view.status cursor.path with
  | none => rfl
  | some found =>
    have same := (trueTo.status _ _ inspected).symm.trans (Disk.status_eq_some leads)
    obtain rfl := Option.some.inj same
    simpa using reaches

/-- The bytes that a cursor reads lie behind its offset, if what it holds back does. -/
theorem Cursor.pending_ahead {view : View} {disk : Disk} {cursor : Cursor}
    (trueTo : view.TrueTo disk)
    (held : cursor.fragment <+: (disk.bytes cursor.id).drop cursor.offset) :
    cursor.pending (cursor.source view) <+: (disk.bytes cursor.id).drop cursor.offset := by
  obtain ⟨behind, whole⟩ := held
  have next : (disk.bytes cursor.id).drop cursor.position = behind := by
    rw [Cursor.position, ← List.drop_drop, ← whole, List.drop_left]
  rw [← whole, Cursor.pending, List.prefix_append_right_inj, ← next]
  exact trueTo.read cursor.id cursor.position

/-- What a cursor can read is all that lies behind its offset, if what it holds back lies there and
reading does not fail. -/
theorem Cursor.pending_eq {view : View} {disk : Disk} {cursor : Cursor} (shows : view.Shows disk)
    (held : cursor.fragment <+: (disk.bytes cursor.id).drop cursor.offset)
    (ends : (cursor.source view).failing = false) :
    cursor.pending (cursor.source view) = (disk.bytes cursor.id).drop cursor.offset := by
  obtain ⟨behind, whole⟩ := held
  rw [Cursor.pending, Cursor.source, shows.readAll cursor.id cursor.position ends,
    Cursor.position, ← List.drop_drop, ← whole, List.drop_left]

end NodeTelemetry.Tail
