/-
This file changes a tree of files in the ways in which the programs that write logs do it: they
create and extend files, cut them off, put others in their place, move and remove them. Directories
that are missing on the way to a new name are made.
-/

import NodeTelemetry.Files.Tree

namespace NodeTelemetry.FileTree

/-! ### Names -/

/-- The tree without a place and all that lies below it. -/
def clear (tree : FileTree) (place : Path) : FileTree :=
  { tree with entries := tree.entries.filter fun entry => !entry.1.isWithin place }

/-- The tree with a new entry at a free place. -/
def enter (tree : FileTree) (place : Path) (entry : Entry) : FileTree :=
  { tree with entries := (place, entry) :: tree.entries, nextId := tree.nextId + 1 }

/-- Makes a directory where a path leads, if there is nothing yet. -/
def makeOneDirectory (tree : FileTree) (path : Path) : FileTree :=
  match tree.find path with
  | .ok (.free place) => tree.enter place (.directory tree.nextId)
  | _ => tree

/-- Makes a directory and those on the way to it. -/
def makeDirectory (tree : FileTree) (path : Path) : FileTree :=
  path.steps.foldl makeOneDirectory tree

/-- Makes a symbolic link, in place of what was under the name. -/
def makeLink (tree : FileTree) (path target : Path) : FileTree :=
  let tree := tree.makeDirectory path.parent
  match tree.placeOf? path with
  | none => tree
  | some place => (tree.clear place).enter place (.link target)

/-- Removes a name and all that lies below it. -/
def remove (tree : FileTree) (path : Path) : FileTree :=
  match tree.placeOf? path with
  | none => tree
  | some place => tree.clear place

/-- Moves a name and all that lies below it, in place of what was under the new name. -/
def rename (tree : FileTree) (source target : Path) : FileTree :=
  let tree := (tree.makeDirectory target.parent).remove target
  match tree.placeOf? source, tree.placeOf? target with
  | some sourcePlace, some targetPlace =>
    { tree with entries := tree.entries.map fun entry =>
        if entry.1.isWithin sourcePlace then (entry.1.moved sourcePlace targetPlace, entry.2)
        else entry }
  | _, _ => tree

/-! ### Contents -/

/-- Gives a file other contents. -/
def setContents (tree : FileTree) (id : FileId) (contents : Contents) : FileTree :=
  { tree with contents := (id, contents) :: tree.contents.filter (·.1 != id) }

/-- Changes the bytes of the file that a path leads to, and makes this file if there is none. -/
def write (tree : FileTree) (path : Path) (change : List UInt8 → List UInt8) (modified : Int) :
    FileTree :=
  let tree := tree.makeDirectory path.parent
  match tree.find path with
  | .ok (.file _ id) =>
    tree.setContents id ⟨change (tree.contentsOf id).bytes, modified⟩
  | .ok (.free place) =>
    (tree.enter place (.file tree.nextId)).setContents tree.nextId ⟨change [], modified⟩
  | _ => tree

/-- Appends bytes to a file. -/
def append (tree : FileTree) (path : Path) (bytes : List UInt8) (modified : Int) : FileTree :=
  tree.write path (· ++ bytes) modified

/-- Writes a file anew. It stays the same file. -/
def overwrite (tree : FileTree) (path : Path) (bytes : List UInt8) (modified : Int) : FileTree :=
  tree.write path (fun _ => bytes) modified

/-- Sets the length of a file. What is missing is filled up with zeros. -/
def truncate (tree : FileTree) (path : Path) (length : Nat) (modified : Int) : FileTree :=
  tree.write path (fun bytes => bytes.take length ++ List.replicate (length - bytes.length) 0)
    modified

/-- Sets the time of modification. -/
def touch (tree : FileTree) (path : Path) (modified : Int) : FileTree :=
  tree.write path id modified

/-- Puts a new file under a name, in place of what was there. -/
def replace (tree : FileTree) (path : Path) (bytes : List UInt8) (modified : Int) : FileTree :=
  let tree := tree.makeDirectory path.parent
  match tree.placeOf? path with
  | none => tree
  | some place =>
    ((tree.clear place).enter place (.file tree.nextId)).setContents tree.nextId ⟨bytes, modified⟩

end NodeTelemetry.FileTree
