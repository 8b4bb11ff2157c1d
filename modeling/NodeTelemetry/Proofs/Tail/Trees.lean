/-
This file says what a tree of files holds for a tailer. The view of a tree shows its files, and a
tree in which files are extended, made or given another time holds what it held before and perhaps
more.

A tree gives every path at most one file, and every file its bytes. What is inspected and what is
opened are the same there, so a view of the tree shows both as they are, and reading gives what
stands behind the position unless it is out of order. A directory has a length but cannot be read;
what it is said to hold is made up, of this length, and nothing is ever read of it. Writing keeps
every way through the tree and what stands at the front of every file, which is shown for trees, and
so the files only grow.
-/

import NodeTelemetry.Proofs.Files.Growth
import NodeTelemetry.Proofs.Tail.Disk

namespace NodeTelemetry

open Tail

/-- The files of a tree. A directory has a length but can never be read, so what it holds is made
up. -/
def FileTree.disk (tree : FileTree) : Disk :=
  { fileAt := fun path => (statusIn tree path).map FileStatus.id
    bytes := fun id =>
      match tree.contents.lookup id with
      | some contents => contents.bytes
      | none => List.replicate directoryLength 0 }

namespace Tail

variable {tree : FileTree}

theorem bytes_of_contents {id : FileId} {contents : Contents}
    (found : tree.contents.lookup id = some contents) : tree.disk.bytes id = contents.bytes := by
  unfold FileTree.disk
  simp only [found]

theorem bytes_of_no_contents {id : FileId} (missing : tree.contents.lookup id = none) :
    tree.disk.bytes id = List.replicate FileTree.directoryLength 0 := by
  unfold FileTree.disk
  simp only [missing]

theorem status_of_statusIn {path : Path} {status : FileStatus}
    (inspected : statusIn tree path = some status) :
    ∃ found, tree.status path = .ok found ∧ ⟨found.id, found.length⟩ = status := by
  unfold statusIn at inspected
  split at inspected
  · cases inspected
  · next found known => exact ⟨found, known, Option.some.inj inspected⟩

theorem length_bytes_disk (sound : tree.Sound) {path : Path} {status : FileTree.Status}
    (known : tree.status path = .ok status) :
    (tree.disk.bytes status.id).length = status.length := by
  have filled := sound.readable path status known
  cases isDirectory : status.isDirectory with
  | false =>
    rw [isDirectory, Bool.not_false] at filled
    obtain ⟨contents, found⟩ := Option.isSome_iff_exists.mp filled
    rw [bytes_of_contents found]
    exact (FileTree.length_of_status known isDirectory found).symm
  | true =>
    rw [isDirectory, Bool.not_true, Option.isSome_eq_false_iff, Option.isNone_iff_eq_none] at filled
    rw [bytes_of_no_contents filled, List.length_replicate]
    exact (FileTree.length_of_directory known isDirectory).symm

theorem statusIn_eq (sound : tree.Sound) (path : Path) :
    statusIn tree path = tree.disk.status path := by
  unfold Disk.status
  show _ = ((statusIn tree path).map FileStatus.id).map _
  cases inspected : statusIn tree path with
  | none => rfl
  | some status =>
    obtain ⟨found, known, rfl⟩ := status_of_statusIn inspected
    simp only [Option.map_some, length_bytes_disk sound known]

/-- The view of a tree shows its files, also where reading is out of order. -/
theorem shows_ofTree (sound : tree.Sound) (watcher : Watcher) (outOfOrder : Bool) :
    (View.ofTree tree watcher outOfOrder).Shows tree.disk where
  status := statusIn_eq sound
  openFile := statusIn_eq sound
  read := fun id position => by
    show (streamIn tree outOfOrder id position).bytes <+: _
    unfold streamIn
    cases found : tree.contents.lookup id with
    | none => exact List.nil_prefix
    | some contents =>
      rw [bytes_of_contents found]
      cases outOfOrder with
      | true => exact List.nil_prefix
      | false => exact List.prefix_refl _
  readAll := fun id position inOrder => by
    revert inOrder
    show (streamIn tree outOfOrder id position).failing = false →
      (streamIn tree outOfOrder id position).bytes = _
    unfold streamIn
    cases found : tree.contents.lookup id with
    | none => exact fun fails => by cases fails
    | some contents =>
      rw [bytes_of_contents found]
      cases outOfOrder with
      | true => exact fun fails => by cases fails
      | false => exact fun _ => rfl

/-! ### Trees that grow -/

/-- A path leads to the same file in a tree that lists more. -/
theorem status_kept {after : FileTree} (rooted : tree.Rooted) (rootedAfter : after.Rooted)
    (extend : tree.Extends after) {path : Path} {status : FileTree.Status}
    (known : tree.status path = .ok status) :
    ∃ later, after.status path = .ok later ∧ later.id = status.id ∧
      later.isDirectory = status.isDirectory := by
  unfold FileTree.status at known ⊢
  split at known
  · cases known
  · next spot leads =>
    have kept := FileTree.kept_find rooted rootedAfter extend leads
    cases spot with
    | free place => cases known
    | file place id =>
      obtain rfl := Except.ok.inj known
      have again : after.find path = .ok (.file place id) := kept
      rw [again]
      exact ⟨_, rfl, rfl, rfl⟩
    | directory place id =>
      obtain rfl := Except.ok.inj known
      have again : after.find path = .ok (.directory place id) := kept
      rw [again]
      exact ⟨_, rfl, rfl, rfl⟩

/-- Where a change keeps the bytes at the front of a file, the files grow. -/
theorem grows_write (sound : tree.Sound) (rooted : tree.Rooted) (path : Path)
    {change : List UInt8 → List UInt8} (longer : ∀ bytes, bytes <+: change bytes) (modified : Int) :
    tree.disk.Grows (tree.write path change modified).disk := by
  obtain ⟨rootedAfter, extend⟩ := FileTree.extends_write rooted path change modified
  have soundAfter := sound.write path change modified
  refine ⟨fun other id leads => ?_, fun other id leads => ?_⟩
  all_goals
    obtain ⟨status, inspected, rfl⟩ := Option.map_eq_some_iff.mp leads
    obtain ⟨found, known, rfl⟩ := status_of_statusIn inspected
    obtain ⟨later, knownAfter, sameId, alike⟩ := status_kept rooted rootedAfter extend known
  · show (statusIn _ other).map FileStatus.id = _
    rw [statusIn, knownAfter]
    exact congrArg some sameId
  · show tree.disk.bytes found.id <+: (tree.write path change modified).disk.bytes found.id
    cases present : tree.contents.lookup found.id with
    | some contents =>
      obtain ⟨changed, presentAfter, more⟩ :=
        FileTree.lookup_write sound path longer modified present
      rw [bytes_of_contents present, bytes_of_contents presentAfter]
      exact more
    | none =>
      have filled := sound.readable other found known
      have filledAfter := soundAfter.readable other later knownAfter
      rw [alike, ← filled, present, sameId] at filledAfter
      rw [Option.isSome_none, Option.isSome_eq_false_iff, Option.isNone_iff_eq_none] at filledAfter
      have same := (bytes_of_no_contents present).trans (bytes_of_no_contents filledAfter).symm
      exact same ▸ List.prefix_refl _

/-- Where bytes are appended to a file, the files grow. -/
theorem grows_append (sound : tree.Sound) (rooted : tree.Rooted) (path : Path)
    (bytes : List UInt8) (modified : Int) :
    tree.disk.Grows (tree.append path bytes modified).disk :=
  grows_write sound rooted path (fun before => List.prefix_append before bytes) modified

end Tail

end NodeTelemetry
