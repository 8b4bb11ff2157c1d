/-
This file finds the file below a directory that was modified last, of files modified at the same
time the one whose path stands last. Files count under every path on which they can be reached,
through links as well.
-/

import NodeTelemetry.Files.Tree

namespace NodeTelemetry

/-! ### The newest of some files -/

/-- Whether a file that was modified at a time goes before another one. -/
def isNewer (candidate best : Path × Int) : Bool :=
  best.2 < candidate.2 || (best.2 == candidate.2 && best.1.precedes candidate.1)

/-- Keeps the newer one of the best file so far and another one. -/
def keepNewer (best : Option (Path × Int)) (candidate : Path × Int) : Option (Path × Int) :=
  match best with
  | none => some candidate
  | some best => if isNewer candidate best then some candidate else some best

/-- The newest of some files. -/
def newestOf (files : List (Path × Int)) : Option Path :=
  (files.foldl keepNewer none).map (·.1)

namespace FileTree

/-! ### The files below a directory -/

/-- The names in the directory at a place. -/
def childNames (tree : FileTree) (place : Path) : List String :=
  tree.entries.filterMap fun entry => if entry.1.parent = place then entry.1.name? else none

/-- The names in the directory to which a path leads. -/
def listDirectory (tree : FileTree) (path : Path) : List String :=
  match tree.find path with
  | .ok (.directory place _) => tree.childNames place
  | _ => []

/-- The files below a directory and when they were modified, down to some depth. What cannot be
inspected is left out. -/
def filesBelow (tree : FileTree) (depth : Nat) (path : Path) : List (Path × Int) :=
  match depth with
  | 0 => []
  | depth + 1 =>
    (tree.listDirectory path).flatMap fun name =>
      match tree.status (path.child name) with
      | .error _ => []
      | .ok status =>
        if status.isDirectory then filesBelow tree depth (path.child name)
        else [(path.child name, status.modified)]

/-- A depth at which there is nothing left. Between two links on a path lie different directories,
and there can be only so many links. -/
def depthLimit (tree : FileTree) : Nat :=
  (linkLimit + 1) * (tree.entries.length + 1)

/-! ### Looking for the newest file -/

/-- Why it is not known which file is the newest. -/
inductive ScanFault
  /-- The root cannot be inspected. -/
  | rootAccess
  /-- The root is a file. -/
  | notDirectory
deriving DecidableEq

/-- The newest file below a root. There is none if there is no root. -/
def newest (tree : FileTree) (root : Path) : Except ScanFault (Option Path) :=
  match tree.status root with
  | .error .notFound => .ok none
  | .error _ => .error .rootAccess
  | .ok status =>
    if status.isDirectory then .ok (newestOf (tree.filesBelow tree.depthLimit root))
    else .error .notDirectory

end FileTree

end NodeTelemetry
