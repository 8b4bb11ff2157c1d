/-
This file shows that the newest file below a directory does not depend on the order in which what
lies there is enumerated, and that nothing is lost to what cannot be inspected on the way. No two
files go before each other, so there is one file only that no other one goes before.

Files are compared by the time at which they were modified, and by their paths if this is the same.
Two different files differ in one of these, so the comparison decides between any two, and a file
that none of the others goes before is the only one of its kind. Looking through the files one after
the other ends with such a file in whatever order they come and however often each does. Entries
that could not be read or that lead to no file drop out before the comparison and take nothing with
them.
-/

import NodeTelemetry.Proofs.Files.Below
import NodeTelemetry.Proofs.Text.ByteOrder

namespace NodeTelemetry

/-! ### The newest of some files -/

/-- Of two files one goes before the other. -/
theorem eq_of_not_isNewer {left right : Path × Int} (notNewer : isNewer left right = false)
    (notOlder : isNewer right left = false) : left = right := by
  rw [Bool.eq_false_iff, ne_eq, isNewer_iff, not_or, not_and] at notNewer notOlder
  have sameTime : right.2 = left.2 :=
    Int.le_antisymm (Int.not_lt.mp notOlder.1) (Int.not_lt.mp notNewer.1)
  have sameNames : left.1.names = right.1.names :=
    List.le_antisymm (List.not_lt.mp (notNewer.2 sameTime))
      (List.not_lt.mp (notOlder.2 sameTime.symm))
  exact Prod.ext (congrArg Path.mk sameNames) sameTime.symm

/-- The newest of some files is the one of them that none goes before. -/
theorem newestOf_eq_some_iff {files : List (Path × Int)} {path : Path} :
    newestOf files = some path ↔ ∃ modified, (path, modified) ∈ files ∧
      ∀ other ∈ files, isNewer other (path, modified) = false := by
  constructor
  · intro newest
    have some : files ≠ [] := by
      rintro rfl
      cases newest
    obtain ⟨last, modified, found, member, behind⟩ := newestOf_eq_some some
    obtain rfl := Option.some.inj (newest.symm.trans found)
    exact ⟨modified, member, behind⟩
  · rintro ⟨modified, member, behind⟩
    obtain ⟨last, lastModified, found, lastMember, lastBehind⟩ :=
      newestOf_eq_some (List.ne_nil_of_mem member)
    have same := eq_of_not_isNewer (behind _ lastMember) (lastBehind _ member)
    rw [found, show last = path from congrArg Prod.fst same]

/-- Names are compared like the bytes that encode them. -/
theorem names_lt_iff {left right : List String} :
    left.map Text.Utf8.encode < right.map Text.Utf8.encode ↔ left < right := by
  have less {left right : List String} (before : left < right) :
      left.map Text.Utf8.encode < right.map Text.Utf8.encode :=
    List.map_lt (fun _ _ => Text.Utf8.encode_lt_encode) before
  refine ⟨fun before => ?_, less⟩
  rcases List.le_iff_lt_or_eq.mp (List.not_lt.mp fun after => List.lt_asymm before (less after)) with
    names | rfl
  · exact names
  · exact absurd before (List.lt_irrefl _)

namespace FileTree

variable {tree : FileTree}

/-! ### Enumerations -/

/-- The newest file among the entries to which an enumeration comes. An entry that could not be read
has no path, and one that leads to no file is passed over. -/
def newestAmong (tree : FileTree) (entries : List (Option Path)) : Option Path :=
  newestOf (entries.filterMap fun entry => entry.bind tree.fileAt?)

/-- Whether an enumeration comes to everything below a root, in whatever order and how often, and to
nothing else. -/
def Enumerates (tree : FileTree) (root : Path) (entries : List (Option Path)) : Prop :=
  ∀ path, some path ∈ entries ↔ tree.LiesBelow root path

/-- Whether a path leads to a file below a root that was modified at a time. -/
def HasFile (tree : FileTree) (root path : Path) (modified : Int) : Prop :=
  tree.LiesBelow root path ∧ tree.fileAt? path = some (path, modified)

/-- Whether a path leads to the newest file below a root. No other one was modified later, and the
paths of those that were modified at the same time come before, name by name and each name by its
bytes. -/
def HasNewest (tree : FileTree) (root path : Path) : Prop :=
  ∃ modified, tree.HasFile root path modified ∧
    ∀ other otherModified, tree.HasFile root other otherModified → other ≠ path →
      otherModified < modified ∨
        otherModified = modified ∧
          other.names.map Text.Utf8.encode < path.names.map Text.Utf8.encode

variable {root : Path} {entries : List (Option Path)}

/-- The files among the entries of an enumeration are the files below the root. -/
theorem mem_filterMap_fileAt? (enumerates : tree.Enumerates root entries) {path : Path}
    {modified : Int} :
    (path, modified) ∈ entries.filterMap (fun entry => entry.bind tree.fileAt?) ↔
      tree.HasFile root path modified := by
  rw [List.mem_filterMap]
  constructor
  · rintro ⟨entry, member, found⟩
    obtain ⟨other, rfl, isFile⟩ := Option.bind_eq_some_iff.mp found
    obtain rfl := (fileAt?_eq_some.mp isFile).1
    exact ⟨(enumerates _).mp member, isFile⟩
  · rintro ⟨below, isFile⟩
    exact ⟨some path, (enumerates path).mpr below, isFile⟩

theorem HasFile.modified_eq {path : Path} {modified otherModified : Int}
    (file : tree.HasFile root path modified) (again : tree.HasFile root path otherModified) :
    modified = otherModified :=
  congrArg Prod.snd (Option.some.inj (file.2.symm.trans again.2))

/-- Of all enumerations the newest file is the same. -/
theorem newestAmong_eq_some_iff (enumerates : tree.Enumerates root entries) {path : Path} :
    tree.newestAmong entries = some path ↔ tree.HasNewest root path := by
  rw [newestAmong, newestOf_eq_some_iff]
  refine exists_congr fun modified => ?_
  rw [mem_filterMap_fileAt? enumerates, and_congr_right_iff]
  intro file
  constructor
  · intro behind other otherModified otherFile different
    have older : isNewer (path, modified) (other, otherModified) = true := by
      by_contra notNewer
      have same := eq_of_not_isNewer
        (behind _ ((mem_filterMap_fileAt? enumerates).mpr otherFile)) (Bool.eq_false_iff.mpr notNewer)
      exact different (congrArg Prod.fst same)
    simpa only [isNewer_iff, names_lt_iff] using older
  · rintro older ⟨other, otherModified⟩ member
    have otherFile := (mem_filterMap_fileAt? enumerates).mp member
    by_cases same : other = path
    · subst same
      rw [otherFile.modified_eq file]
      exact not_isNewer_self _
    · have newer : isNewer (path, modified) (other, otherModified) = true := by
        simpa only [isNewer_iff, names_lt_iff] using older other otherModified otherFile same
      exact not_isNewer_of_isNewer (not_isNewer_self _) newer

/-- All that lies below a directory can be enumerated. -/
theorem enumerates_pathsBelow (proper : tree.ProperlyNamed)
    (directory : tree.isDirectory root = true) :
    tree.Enumerates root ((tree.pathsBelow tree.depthLimit root).map some) := by
  intro path
  simp [mem_pathsBelow_iff proper directory]

/-- The newest file is the newest among the paths that are listed. -/
theorem newest_of_isDirectory (directory : tree.isDirectory root = true) :
    tree.newest root =
      .ok (tree.newestAmong ((tree.pathsBelow tree.depthLimit root).map some)) := by
  unfold FileTree.isDirectory at directory
  unfold newest
  split at directory
  · cases directory
  · next status inspected =>
    simp only [inspected, directory, if_true, newestAmong, filesBelow_eq_filterMap,
      List.filterMap_map]
    rfl

/-- In whatever order an enumeration comes to what lies below a directory, and whatever it could not
read, the newest file among its entries is the one that is found. There is one as soon as any file
lies below the directory, and it is the only one there that no other file goes before. -/
theorem newest_eq_newestAmong (proper : tree.ProperlyNamed)
    (directory : tree.isDirectory root = true) (enumerates : tree.Enumerates root entries) :
    tree.newest root = .ok (tree.newestAmong entries) ∧
      ((tree.newestAmong entries).isSome = true ↔
        ∃ path modified, tree.HasFile root path modified) ∧
      ∀ path, tree.newestAmong entries = some path ↔ tree.HasNewest root path := by
  refine ⟨?_, ?_, fun path => newestAmong_eq_some_iff enumerates⟩
  · rw [newest_of_isDirectory directory]
    refine congrArg Except.ok (Option.ext fun path => ?_)
    rw [newestAmong_eq_some_iff (enumerates_pathsBelow proper directory),
      newestAmong_eq_some_iff enumerates]
  · constructor
    · intro found
      obtain ⟨path, newest⟩ := Option.isSome_iff_exists.mp found
      obtain ⟨modified, file, _⟩ := (newestAmong_eq_some_iff enumerates).mp newest
      exact ⟨path, modified, file⟩
    · rintro ⟨path, modified, file⟩
      obtain ⟨last, _, newest, _⟩ := newestOf_eq_some
        (List.ne_nil_of_mem ((mem_filterMap_fileAt? enumerates).mpr file))
      exact Option.isSome_iff_exists.mpr ⟨last, newest⟩

/-- A root whose name is full of wildcards. -/
def wildRoot : Path :=
  ⟨["l[o]g*"]⟩

/-- A tree with a hidden file below this root, two files of the same age in a directory, and a link
that leads nowhere. -/
def mixedTree : FileTree where
  entries :=
    [(wildRoot, .directory 1), (wildRoot.child ".old", .file 2),
      (wildRoot.child "day", .directory 3), ((wildRoot.child "day").child "7", .file 4),
      ((wildRoot.child "day").child "8", .file 5), (wildRoot.child "gone", .link ⟨["away"]⟩)]
  contents := [(2, ⟨[], 10⟩), (4, ⟨[], 20⟩), (5, ⟨[], 20⟩)]
  nextId := 6

/-- An enumeration of it in no order at all, with an entry that could not be read and one that comes
twice. -/
def scattered : List (Option Path) :=
  [some ((wildRoot.child "day").child "8"), none, some (wildRoot.child "gone"),
    some (wildRoot.child "day"), some ((wildRoot.child "day").child "7"),
    some (wildRoot.child ".old"), some ((wildRoot.child "day").child "8")]

theorem pathsBelow_mixedTree : mixedTree.pathsBelow mixedTree.depthLimit wildRoot =
    [wildRoot.child ".old", wildRoot.child "day", (wildRoot.child "day").child "7",
      (wildRoot.child "day").child "8", wildRoot.child "gone"] := by
  decide

/-- Of the two files that were modified last it is the one with the greater name. -/
theorem newest_mixedTree : mixedTree.ProperlyNamed ∧ mixedTree.isDirectory wildRoot = true ∧
    mixedTree.Enumerates wildRoot scattered ∧
    mixedTree.newest wildRoot = .ok (mixedTree.newestAmong scattered) ∧
    mixedTree.HasNewest wildRoot ((wildRoot.child "day").child "8") := by
  have proper : mixedTree.ProperlyNamed := by
    unfold ProperlyNamed
    decide
  have directory : mixedTree.isDirectory wildRoot = true := by decide
  have enumerates : mixedTree.Enumerates wildRoot scattered := by
    intro path
    rw [← mem_pathsBelow_iff proper directory, pathsBelow_mixedTree]
    simp only [scattered, List.mem_cons, Option.some.injEq, reduceCtorEq, List.not_mem_nil]
    tauto
  obtain ⟨found, _, newest⟩ := newest_eq_newestAmong proper directory enumerates
  exact ⟨proper, directory, enumerates, found, (newest _).mp (by decide)⟩

end FileTree

end NodeTelemetry
