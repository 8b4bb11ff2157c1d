/-
This file holds a tree of directories with files and symbolic links in it. A file has an identity of
its own, which it keeps when it is renamed and which no later file gets again. Its contents stay
readable under this identity when its name is gone, as for a program that has the file open.
-/

import NodeTelemetry.Files.Path

namespace NodeTelemetry

/-- What tells a file or a directory apart from all others. -/
abbrev FileId := Nat

/-- What a name in a directory stands for. -/
inductive Entry
  | file (id : FileId)
  | directory (id : FileId)
  | link (target : Path)
deriving DecidableEq

/-- The bytes of a file and when they were modified, in nanoseconds. -/
structure Contents where
  bytes : List UInt8
  modified : Int
deriving DecidableEq

/-- A tree. Each name in it is listed with its whole path, on which there are directories only. -/
structure FileTree where
  entries : List (Path × Entry)
  contents : List (FileId × Contents)
  nextId : FileId

namespace FileTree

/-- The tree with nothing in it. The directory at the top is number zero. -/
def empty : FileTree :=
  { entries := []
    contents := []
    nextId := 1 }

/-! ### Finding a path -/

/-- Why a path leads nowhere. -/
inductive Fault
  | notFound
  | notDirectory
  | nameTooLong
  | tooManyLinks
deriving DecidableEq

/-- Where a path leads, all links resolved. -/
inductive Spot
  | file (place : Path) (id : FileId)
  | directory (place : Path) (id : FileId)
  /-- There is nothing, but there is the directory it would be in. -/
  | free (place : Path)
deriving DecidableEq

/-- How many bytes a name has at most. -/
def nameLimit : Nat :=
  255

/-- How many links a path leads through at most. -/
def linkLimit : Nat :=
  40

/-- What is listed under a path. -/
def entryAt (tree : FileTree) (place : Path) : Option Entry :=
  tree.entries.lookup place

/-- The number of the directory at a place. -/
def directoryId (tree : FileTree) (place : Path) : FileId :=
  match tree.entryAt place with
  | some (.directory id) => id
  | _ => 0

/-- Goes from a directory along names up to a link, and on from there as it is told: from the top
along the names of the link and those that are left. -/
def walkUpToLink (tree : FileTree) (goOn : List String → Except Fault Spot) (place : Path)
    (names : List String) : Except Fault Spot :=
  match names with
  | [] => .ok (.directory place (tree.directoryId place))
  | name :: rest =>
    if name = ".." then walkUpToLink tree goOn place.parent rest
    else if nameLimit < name.utf8ByteSize then .error .nameTooLong
    else
      match tree.entryAt (place.child name) with
      | none => if rest.isEmpty then .ok (.free (place.child name)) else .error .notFound
      | some (.directory _) => walkUpToLink tree goOn (place.child name) rest
      | some (.file id) =>
        if rest.isEmpty then .ok (.file (place.child name) id) else .error .notDirectory
      | some (.link target) => goOn (target.names ++ rest)

/-- Goes from a directory along names, through at most so many links. -/
def walk (tree : FileTree) (links : Nat) (place : Path) (names : List String) :
    Except Fault Spot :=
  match links with
  | 0 => tree.walkUpToLink (fun _ => .error .tooManyLinks) place names
  | links + 1 => tree.walkUpToLink (walk tree links Path.top) place names

/-- Where a path leads. -/
def find (tree : FileTree) (path : Path) : Except Fault Spot :=
  tree.walk linkLimit Path.top path.names

/-- The place of a name itself, even if it stands for a link. -/
def placeOf? (tree : FileTree) (path : Path) : Option Path :=
  match tree.find path.parent, path.name? with
  | .ok (.directory place _), some name => some (place.child name)
  | _, _ => none

/-! ### Inspecting -/

/-- What can be learnt about a file or a directory without reading it. -/
structure Status where
  id : FileId
  isDirectory : Bool
  length : Nat
  modified : Int
deriving DecidableEq

/-- The length that a directory has. -/
def directoryLength : Nat :=
  4096

def contentsOf (tree : FileTree) (id : FileId) : Contents :=
  (tree.contents.lookup id).getD ⟨[], 0⟩

def statusOf (tree : FileTree) : Spot → Except Fault Status
  | .file _ id =>
    let contents := tree.contentsOf id
    .ok ⟨id, false, contents.bytes.length, contents.modified⟩
  | .directory _ id => .ok ⟨id, true, directoryLength, 0⟩
  | .free _ => .error .notFound

/-- The status of what a path leads to. -/
def status (tree : FileTree) (path : Path) : Except Fault Status :=
  match tree.find path with
  | .error fault => .error fault
  | .ok spot => tree.statusOf spot

/-- Whether a path leads to a directory. -/
def isDirectory (tree : FileTree) (path : Path) : Bool :=
  match tree.status path with
  | .error _ => false
  | .ok status => status.isDirectory

end FileTree

end NodeTelemetry
