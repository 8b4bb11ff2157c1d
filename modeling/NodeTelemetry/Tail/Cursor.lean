/-
This file holds the cursor, the place in an open file up to which it has been read, and the bookmark
that remains when the file is left. Bytes behind the last line feed are held back until their line
is complete, so reading goes on behind them while the offset stays where the line began.
-/

import NodeTelemetry.Tail.Line
import NodeTelemetry.Tail.View

namespace NodeTelemetry.Tail

/-- The place in an open file. -/
structure Cursor where
  path : Path
  id : FileId
  /-- Behind the last line that was consumed. -/
  offset : Nat
  fromBeginning : Bool
  /-- The bytes behind the offset that were read already. -/
  fragment : List UInt8
deriving DecidableEq

/-- Where a file was left. -/
structure Bookmark where
  path : Path
  id : FileId
  offset : Nat
deriving DecidableEq

/-- Where reading begins. -/
inductive Start
  | atEnd
  | atBeginning
  | resumed (offset : Nat)
deriving DecidableEq

/-- Reading resumes at an offset if there is one, and begins with the file otherwise. -/
def Start.resuming : Option Nat → Start
  | some offset => .resumed offset
  | none => .atBeginning

namespace Cursor

/-- Up to where the file has been read. -/
def position (cursor : Cursor) : Nat :=
  cursor.offset + cursor.fragment.length

def bookmark (cursor : Cursor) : Bookmark :=
  ⟨cursor.path, cursor.id, cursor.offset⟩

/-! ### Opening -/

/-- The offset at which reading begins in a file of some length. -/
def startOffset (start : Start) (length : Nat) : Nat :=
  match start with
  | .atEnd => length
  | .atBeginning => 0
  | .resumed offset => offset

/-- The cursor in a file that is opened. -/
def openAt (view : View) (path : Path) (start : Start) : Option Cursor :=
  (view.openFile path).map fun status =>
    { path := path
      id := status.id
      offset := startOffset start status.length
      fromBeginning := start == .atBeginning
      fragment := [] }

/-! ### Reading -/

/-- Why reading stops. -/
inductive Stop
  /-- As many lines as allowed were read. -/
  | limit
  /-- The file ends. -/
  | ended
  | failed
deriving DecidableEq

/-- What one go at a file gives. -/
structure Reading where
  segments : List Segment
  cursor : Cursor
  stop : Stop

/-- The bytes behind the offset: those held back and those that can be read behind them. -/
def pending (cursor : Cursor) (stream : Stream) : List UInt8 :=
  cursor.fragment ++ stream.bytes

/-- Reads complete lines from a stream that begins at the position, at most `limit` of them. -/
def readLines (cursor : Cursor) (stream : Stream) (limit : Nat) : Reading :=
  let (lines, rest) := takeLines limit (cursor.pending stream)
  let reached := lines.length == limit
  { segments := segmentsFrom cursor.path cursor.offset lines
    cursor := { cursor with
      offset := cursor.offset + lines.flatten.length
      fragment := if reached then [] else rest }
    stop := if reached then .limit else if stream.failing then .failed else .ended }

/-- The bytes held back, as they are consumed when the file is left. -/
def flush (cursor : Cursor) : List Segment :=
  if cursor.fragment.isEmpty then [] else [⟨cursor.path, cursor.offset, cursor.fragment⟩]

/-- The cursor behind the bytes that were held back. -/
def flushed (cursor : Cursor) : Cursor :=
  { cursor with offset := cursor.position, fragment := [] }

/-- Whether the path now leads to another file, or to one that ends before the offset. -/
def isReplaced (cursor : Cursor) (view : View) : Bool :=
  match view.status cursor.path with
  | none => false
  | some status => status.id != cursor.id || decide (status.length < cursor.offset)

/-- The path to go on with at the end of the file: the newest one if this is another path, or the
same path if it leads to another file now. -/
def successor? (cursor : Cursor) (view : View) : Option Path :=
  let newest :=
    match view.newest with
    | .ok newest => newest
    | .error _ => none
  match newest.filter (· != cursor.path) with
  | some path => some path
  | none => if cursor.isReplaced view then some cursor.path else none

end Cursor

/-- The offset of a bookmark, if the path still leads to the file that was left and this file still
reaches up to there. -/
def Bookmark.offsetFor? (bookmark : Bookmark) (view : View) (path : Path) : Option Nat :=
  if bookmark.path = path then
    match view.status path with
    | none => none
    | some status =>
      if status.id = bookmark.id ∧ bookmark.offset ≤ status.length then some bookmark.offset
      else none
  else none

end NodeTelemetry.Tail
