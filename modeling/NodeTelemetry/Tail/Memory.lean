/-
This file holds the memory of the files that were left for others: a bookmark for each path, the one
left first at the front, and not more than sixteen.
-/

import NodeTelemetry.Tail.Cursor

namespace NodeTelemetry.Tail

/-- Bookmarks of different paths, in the order in which they were left. -/
abbrev Memory := List Bookmark

namespace Memory

/-- How many bookmarks there are at most. -/
def capacity : Nat :=
  16

def find? (memory : Memory) (path : Path) : Option Bookmark :=
  List.find? (·.path == path) memory

/-- The memory without the bookmark of a path. -/
def forget (memory : Memory) (path : Path) : Memory :=
  memory.filter (·.path != path)

/-- The offset at which a path was left, if it can be resumed there. -/
def offsetFor? (memory : Memory) (view : View) (path : Path) : Option Nat :=
  (memory.find? path).bind (·.offsetFor? view path)

/-- The memory with one more bookmark. A full memory gives up the bookmark that was left first. -/
def remember (memory : Memory) (bookmark : Bookmark) : Memory :=
  let others := memory.forget bookmark.path
  (if others.length == capacity then others.drop 1 else others) ++ [bookmark]

end Memory

end NodeTelemetry.Tail
