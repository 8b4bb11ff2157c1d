/-
This file shows what is found when the newest file below a directory is looked for: one of the files
below it, and none that another one of them is newer than. There is such a file as soon as there is
any.

A file is newer than another one if it was modified later, or at the same time and its path comes
behind. This is a strict order, so whatever was not newer than the best file so far is not newer
than a better one that takes its place. The search keeps the best file and goes once through the
others; by induction over these none of the files that it has passed is newer than the one it keeps,
and this one is always one of them.
-/

import NodeTelemetry.Files.Newest

namespace NodeTelemetry

/-! ### The order of files -/

theorem isNewer_iff (left right : Path × Int) :
    isNewer left right = true ↔
      right.2 < left.2 ∨ right.2 = left.2 ∧ right.1.names < left.1.names := by
  simp [isNewer, Path.precedes]

theorem not_isNewer_self (file : Path × Int) : isNewer file file = false := by
  rw [Bool.eq_false_iff, ne_eq, isNewer_iff]
  rintro (later | ⟨_, behind⟩)
  · exact Int.lt_irrefl _ later
  · exact List.lt_irrefl _ behind

theorem isNewer_trans {first second third : Path × Int} (newer : isNewer first second = true)
    (stillNewer : isNewer second third = true) : isNewer first third = true := by
  rw [isNewer_iff] at newer stillNewer ⊢
  rcases newer with later | ⟨same, behind⟩ <;> rcases stillNewer with further | ⟨alike, below⟩
  · exact .inl (Int.lt_trans further later)
  · exact .inl (alike ▸ later)
  · exact .inl (same ▸ further)
  · exact .inr ⟨alike.trans same, List.lt_trans below behind⟩

/-- What was not newer than a file is not newer than a newer one. -/
theorem not_isNewer_of_isNewer {other best candidate : Path × Int}
    (notNewer : isNewer other best = false) (newer : isNewer candidate best = true) :
    isNewer other candidate = false := by
  rw [Bool.eq_false_iff] at notNewer ⊢
  exact fun beats => notNewer (isNewer_trans beats newer)

/-! ### The newest of some files -/

/-- The better one of two files is one of them, and neither is newer. -/
theorem keepNewer_some (best candidate : Path × Int) :
    ∃ kept, keepNewer (some best) candidate = some kept ∧ (kept = best ∨ kept = candidate) ∧
      isNewer candidate kept = false ∧ ∀ other, isNewer other best = false →
        isNewer other kept = false := by
  unfold keepNewer
  simp only
  split
  · next newer =>
    exact ⟨candidate, rfl, .inr rfl, not_isNewer_self candidate, fun other notNewer =>
      not_isNewer_of_isNewer notNewer newer⟩
  · next notNewer =>
    exact ⟨best, rfl, .inl rfl, by simpa using notNewer, fun other behind => behind⟩

/-- A search that begins with some file ends with one that neither this file nor any other is newer
than. -/
theorem foldl_keepNewer_some (files : List (Path × Int)) (best : Path × Int) :
    ∃ last, files.foldl keepNewer (some best) = some last ∧ (last = best ∨ last ∈ files) ∧
      (∀ other, isNewer other best = false → isNewer other last = false) ∧
      ∀ other ∈ files, isNewer other last = false := by
  induction files generalizing best with
  | nil => exact ⟨best, rfl, .inl rfl, fun _ behind => behind, fun _ member => by cases member⟩
  | cons candidate others inductionHypothesis =>
    obtain ⟨kept, keeps, isOne, candidateBehind, restBehind⟩ := keepNewer_some best candidate
    obtain ⟨last, folds, isLast, keptBehind, othersBehind⟩ := inductionHypothesis kept
    refine ⟨last, ?_, ?_, fun other behind => keptBehind other (restBehind other behind),
      List.forall_mem_cons.mpr ⟨keptBehind candidate candidateBehind, othersBehind⟩⟩
    · rw [List.foldl_cons, keeps, folds]
    · rcases isLast with rfl | later
      · rcases isOne with rfl | rfl
        · exact .inl rfl
        · exact .inr List.mem_cons_self
      · exact .inr (List.mem_cons_of_mem _ later)

/-- Of some files there is a newest one as soon as there is any. -/
theorem newestOf_eq_some {files : List (Path × Int)} (some : files ≠ []) :
    ∃ path modified, newestOf files = .some path ∧ (path, modified) ∈ files ∧
      ∀ other ∈ files, isNewer other (path, modified) = false := by
  obtain ⟨first, others, rfl⟩ := List.exists_cons_of_ne_nil some
  obtain ⟨⟨path, modified⟩, folds, isLast, firstBehind, behind⟩ :=
    foldl_keepNewer_some others first
  refine ⟨path, modified, ?_, List.mem_cons.mpr isLast, List.forall_mem_cons.mpr
    ⟨firstBehind first (not_isNewer_self first), behind⟩⟩
  rw [newestOf, List.foldl_cons]
  show (others.foldl keepNewer (.some first)).map (·.1) = .some path
  rw [folds]
  rfl

theorem newestOf_nil : newestOf [] = none := rfl

namespace FileTree

variable {tree : FileTree}

/-! ### The files below a directory -/

/-- What is listed below a directory are files, with the time at which they were modified. -/
theorem status_of_mem_filesBelow {depth : Nat} {path : Path} {file : Path × Int}
    (member : file ∈ tree.filesBelow depth path) :
    ∃ status, tree.status file.1 = .ok status ∧ status.isDirectory = false ∧
      status.modified = file.2 := by
  induction depth generalizing path with
  | zero => cases member
  | succ depth inductionHypothesis =>
    obtain ⟨name, _, found⟩ := List.mem_flatMap.mp member
    split at found
    · cases found
    · next status inspected =>
      split at found
      · exact inductionHypothesis found
      · next isFile =>
        obtain rfl := List.mem_singleton.mp found
        exact ⟨status, inspected, by simpa using isFile, rfl⟩

/-- Only a directory has files below it. -/
theorem isDirectory_of_filesBelow {depth : Nat} {path : Path}
    (some : tree.filesBelow depth path ≠ []) :
    ∃ status, tree.status path = .ok status ∧ status.isDirectory = true := by
  cases depth with
  | zero => exact absurd rfl some
  | succ depth =>
    unfold filesBelow listDirectory at some
    unfold status
    split at some
    · next place id found =>
      rw [found]
      exact ⟨_, rfl, rfl⟩
    · exact absurd rfl some

/-! ### Files that can be read -/

/-- Whether it is the files of a tree, and not its directories, that can be read. -/
def Readable (tree : FileTree) : Prop :=
  ∀ path status, tree.status path = .ok status →
    (tree.contents.lookup status.id).isSome = !status.isDirectory

/-- The status of a file gives the length of what it holds. -/
theorem length_of_status {path : Path} {status : Status} {contents : Contents}
    (known : tree.status path = .ok status) (isFile : status.isDirectory = false)
    (found : tree.contents.lookup status.id = some contents) :
    status.length = contents.bytes.length := by
  unfold FileTree.status at known
  split at known
  · cases known
  · next spot _ =>
    cases spot with
    | file place id =>
      obtain rfl := Except.ok.inj known
      show (tree.contentsOf id).bytes.length = _
      rw [contentsOf, show tree.contents.lookup id = some contents from found]
      rfl
    | directory place id =>
      obtain rfl := Except.ok.inj known
      cases isFile
    | free place => cases known

theorem length_of_directory {path : Path} {status : Status}
    (known : tree.status path = .ok status) (isDirectory : status.isDirectory = true) :
    status.length = directoryLength := by
  unfold FileTree.status at known
  split at known
  · cases known
  · next spot _ =>
    cases spot with
    | file place id =>
      obtain rfl := Except.ok.inj known
      cases isDirectory
    | directory place id =>
      obtain rfl := Except.ok.inj known
      rfl
    | free place => cases known

/-! ### Looking for the newest file -/

/-- As soon as there is any file below the root, the newest one is found. -/
theorem newest_eq_some {root : Path} (some : tree.filesBelow tree.depthLimit root ≠ []) :
    ∃ path modified, tree.newest root = .ok (.some path) ∧
      (path, modified) ∈ tree.filesBelow tree.depthLimit root ∧
      ∀ other ∈ tree.filesBelow tree.depthLimit root, isNewer other (path, modified) = false := by
  obtain ⟨status, inspected, isDirectory⟩ := isDirectory_of_filesBelow some
  obtain ⟨path, modified, newest, member, behind⟩ := newestOf_eq_some some
  refine ⟨path, modified, ?_, member, behind⟩
  rw [FileTree.newest, inspected]
  simp only [isDirectory, if_true, newest]

/-- The newest file can be inspected, and it is no directory. -/
theorem status_of_newest {root path : Path} (found : tree.newest root = .ok (some path)) :
    ∃ status, tree.status path = .ok status ∧ status.isDirectory = false := by
  have filled : newestOf (tree.filesBelow tree.depthLimit root) = some path := by
    unfold newest at found
    split at found
    · cases found
    · cases found
    · split at found
      · exact Except.ok.inj found
      · cases found
  have some : tree.filesBelow tree.depthLimit root ≠ [] := by
    intro empty
    rw [empty, newestOf_nil] at filled
    cases filled
  obtain ⟨last, modified, newest, member, _⟩ := newestOf_eq_some some
  obtain rfl := Option.some.inj (filled.symm.trans newest)
  obtain ⟨status, inspected, isFile, _⟩ := status_of_mem_filesBelow member
  exact ⟨status, inspected, isFile⟩

end FileTree

end NodeTelemetry
