/-
This file lets a tailer see the files of the machine. Each look gives a view: the newest file, the
status of the files that the tailer knows, and as much of the file at hand as the next step can
need.

A path keeps its number as long as the file at hand is still found under it. What became of a file
that is not open cannot be told apart from the file itself, so such a file counts as the same.
-/

import NodeTelemetry.Settings
import NodeTelemetry.Tail.Tailer

namespace NodeTelemetry.Machine

open Tail

/-! ### Looking around -/

/-- The text of a path below a root. -/
def textBelow (root : String) (path : Path) : String :=
  if path = Path.top then root else Settings.join root path.text

/-- When a file was modified, in nanoseconds. -/
def nanoseconds (time : IO.FS.SystemTime) : Int :=
  time.sec * 1000000000 + time.nsec.toNat

def metadataOf (text : String) : IO IO.FS.Metadata := do
  let place ← IO.FS.realPath text
  place.metadata

def isDirectory (text : String) : IO Bool :=
  try
    return (← metadataOf text).type == .dir
  catch _ => return false

/-- The names in a directory, none if it cannot be listed. -/
def namesIn (text : String) : IO (List String) :=
  try
    let place ← IO.FS.realPath text
    return (← place.readDir).toList.map (·.fileName)
  catch _ => return []

/-- The files below a path and when they were modified. What cannot be inspected is left out. -/
partial def filesBelow (root : String) (path : Path) : IO (List (Path × Int)) := do
  let names ← namesIn (textBelow root path)
  let files ← names.mapM fun name => do
    let child := path.child name
    try
      let metadata ← metadataOf (textBelow root child)
      match metadata.type with
      | .dir => filesBelow root child
      | .file => return [(child, nanoseconds metadata.modified)]
      | _ => return []
    catch _ => return []
  return files.flatten

/-- The newest file below a root. -/
def newestBelow (root : String) : IO (Except FileTree.ScanFault (Option Path)) := do
  try
    match (← metadataOf root).type with
    | .dir => return .ok (newestOf (← filesBelow root Path.top))
    | _ => return .error .notDirectory
  catch
    | .noFileOrDirectory .. => return .ok none
    | _ => return .error .rootAccess

/-! ### The file at hand -/

/-- What is kept between two looks. -/
structure Desk where
  numbers : List (Path × FileId)
  nextId : FileId
  handle : Option IO.FS.Handle
  /-- What was read behind the position of the cursor. -/
  unread : ByteArray

namespace Desk

def empty : Desk :=
  { numbers := []
    nextId := 1
    handle := none
    unread := ByteArray.empty }

/-- The number of the file under a path, a new one if the path is not known or not trusted. -/
def numberOf (desk : Desk) (path : Path) (trusted : Bool) : FileId × Desk :=
  match desk.numbers.lookup path with
  | some id => if trusted then (id, desk) else fresh desk
  | none => fresh desk
where
  fresh (desk : Desk) : FileId × Desk :=
    (desk.nextId, { desk with
      numbers := (path, desk.nextId) :: desk.numbers.filter (·.1 != path)
      nextId := desk.nextId + 1 })

/-- Where the open files of this program are found, if the machine tells. -/
def openPlaces? : IO (Option (List String)) :=
  try
    let place ← IO.FS.realPath "/proc/self/fd"
    let entries ← place.readDir
    let places ← entries.toList.filterMapM fun entry =>
      try
        return some (toString (← IO.FS.realPath entry.path))
      catch _ => return none
    return some places
  catch _ => return none

/-- Whether the open file is still found under its path. -/
def isInPlace (text : String) : IO Bool := do
  match ← openPlaces? with
  | none => return true
  | some places =>
    try
      return places.contains (toString (← IO.FS.realPath text))
    catch _ => return true

def canOpen (text : String) : IO Bool :=
  try
    let _ ← IO.FS.Handle.mk text .read
    return true
  catch _ => return false

def chunkSize : Nat :=
  65536

/-- Reads on until there are as many lines as one step takes, and tells whether reading failed. -/
def fill (desk : Desk) (lines : Nat) : IO (Desk × Bool) := do
  let some handle := desk.handle | return (desk, true)
  let mut unread := desk.unread
  let mut found := (unread.toList.filter (· == lineFeed)).length
  try
    while found < lines do
      let chunk ← handle.read (USize.ofNat chunkSize)
      if chunk.isEmpty then break
      unread := unread ++ chunk
      found := found + (chunk.toList.filter (· == lineFeed)).length
    return ({ desk with unread := unread }, false)
  catch _ => return ({ desk with unread := unread }, true)

/-- The paths that a tailer knows. -/
def knownPaths (tailer : Tailer) : List Path :=
  (tailer.cursor.map (·.path)).toList ++ (tailer.resume.map (·.path)).toList ++
    tailer.memory.map (·.path)

/-- Looks at the files, for one step of a tailer. -/
def look (desk : Desk) (root : String) (pace : Pace) (tailer : Tailer) : IO (View × Desk) := do
  let newest ← newestBelow root
  let candidates := (newest.toOption.getD none).toList
  let followed := tailer.cursor.map (·.path)
  let inPlace ←
    match followed with
    | none => pure true
    | some path => isInPlace (textBelow root path)
  let mut desk := desk
  let mut statuses := []
  let mut openable := []
  for path in (candidates ++ knownPaths tailer).eraseDups do
    try
      let metadata ← metadataOf (textBelow root path)
      let (id, numbered) := desk.numberOf path (inPlace || followed != some path)
      desk := numbered
      statuses := (path, ⟨id, metadata.byteSize.toNat⟩) :: statuses
      if ← canOpen (textBelow root path) then openable := path :: openable
    catch _ => pure ()
  let known := statuses
  let opened := statuses.filter fun status => openable.contains status.1
  let (filled, failing) ← if followed.isSome then desk.fill pace.lines else pure (desk, true)
  let stream : Stream := ⟨filled.unread.toList, failing⟩
  let view : View :=
    { newest := newest
      status := fun path => known.lookup path
      openFile := fun path => opened.lookup path
      stream := fun _ _ => stream }
  return (view, filled)

/-- Opens a file and passes over what comes before an offset. -/
def openAt (text : String) (offset : Nat) : IO IO.FS.Handle := do
  let handle ← IO.FS.Handle.mk text .read
  let mut left := offset
  while 0 < left do
    let chunk ← handle.read (USize.ofNat (min left chunkSize))
    if chunk.isEmpty then break
    left := left - chunk.size
  return handle

/-- Makes the desk ready for the next look: what the tailer read is put away, and a file that it
turned to is opened. A position that went back tells that a file is read anew. -/
def follow (desk : Desk) (root : String) (before after : Tailer) : IO Desk := do
  match before.cursor, after.cursor with
  | _, none => return { desk with handle := none, unread := ByteArray.empty }
  | some old, some new =>
    if old.id = new.id ∧ old.position ≤ new.position then
      let consumed := new.position - old.position
      return { desk with unread := desk.unread.extract consumed desk.unread.size }
    else turn desk new
  | none, some new => turn desk new
where
  turn (desk : Desk) (cursor : Cursor) : IO Desk := do
    try
      let handle ← openAt (textBelow root cursor.path) cursor.offset
      return { desk with handle := some handle, unread := ByteArray.empty }
    catch _ => return { desk with handle := none, unread := ByteArray.empty }

end Desk

end NodeTelemetry.Machine
