/-
This file says what the memory of a tailer holds after a path was forgotten or remembered. Looking
up another path is not affected, except that a full memory gives up the bookmark that was left
first, so nothing is lost as long as there is room.

Each path has one bookmark at most, since a path is forgotten before it is remembered again. When
there is no room the bookmark at the front is dropped, which is the one that was left first. So a
bookmark moves to the front only by as many places as other paths are remembered behind it, and it
is given up only for the sake of as many of them as the memory has room for. `Retains` keeps count
of this: the bookmark is in the memory, and all that stands behind it are bookmarks of certain
paths.
-/

import Mathlib.Data.List.Nodup
import Mathlib.Data.List.Perm.Subperm
import NodeTelemetry.Tail.Memory

namespace NodeTelemetry.Tail.Memory

/-- Whether the bookmarks are of different paths. -/
def Distinct (memory : Memory) : Prop :=
  (memory.map Bookmark.path).Nodup

theorem find?_eq_none {memory : Memory} {path : Path} :
    memory.find? path = none ↔ path ∉ memory.map Bookmark.path := by
  simp only [find?, List.find?_eq_none, beq_iff_eq, List.mem_map, not_exists, not_and]

theorem path_of_find? {memory : Memory} {path : Path} {bookmark : Bookmark}
    (found : memory.find? path = some bookmark) : bookmark.path = path := by
  simpa using List.find?_some found

theorem find?_forget_self (memory : Memory) (path : Path) :
    (memory.forget path).find? path = none := by
  rw [find?_eq_none]
  simp [forget]

theorem find?_forget_of_ne (memory : Memory) {path other : Path} (different : other ≠ path) :
    (memory.forget path).find? other = memory.find? other := by
  unfold forget find?
  rw [List.find?_filter]
  congr 1
  funext bookmark
  by_cases same : bookmark.path = other
  · simp [same, different]
  · simp [same]

theorem find?_forget_eq_none {memory : Memory} {path other : Path}
    (missing : memory.find? other = none) : (memory.forget path).find? other = none := by
  by_cases same : other = path
  · rw [same, find?_forget_self]
  · rw [find?_forget_of_ne memory same, missing]

theorem Distinct.forget {memory : Memory} (distinct : memory.Distinct) (path : Path) :
    (memory.forget path).Distinct :=
  List.Nodup.sublist (List.Sublist.map _ List.filter_sublist) distinct

theorem length_forget_le (memory : Memory) (path : Path) :
    (memory.forget path).length ≤ memory.length :=
  List.length_filter_le _ _

/-! ### Remembering -/

/-- A bookmark is put behind some of those that were there for other paths. -/
theorem exists_remember_eq (memory : Memory) (bookmark : Bookmark) :
    ∃ others : Memory, memory.remember bookmark = others ++ [bookmark] ∧
      others.Sublist (memory.forget bookmark.path) := by
  refine ⟨_, rfl, ?_⟩
  split
  · exact List.drop_sublist 1 _
  · exact List.Sublist.refl _

/-- With room for it a bookmark is put behind all that were there for other paths. -/
theorem remember_of_room {memory : Memory} {bookmark : Bookmark}
    (room : (memory.forget bookmark.path).length < capacity) :
    memory.remember bookmark = memory.forget bookmark.path ++ [bookmark] := by
  have notFull : ((memory.forget bookmark.path).length == capacity) = false :=
    beq_false_of_ne (Nat.ne_of_lt room)
  simp only [remember, notFull, Bool.false_eq_true, if_false]

theorem length_remember_le {memory : Memory} (bounded : memory.length ≤ capacity)
    (bookmark : Bookmark) : (memory.remember bookmark).length ≤ capacity := by
  have shorter := length_forget_le memory bookmark.path
  have positive : 0 < capacity := by decide
  simp only [remember, List.length_append, List.length_singleton, beq_iff_eq]
  split
  · rw [List.length_drop]
    omega
  · omega

theorem find?_of_sublist_eq_none {part whole : Memory} {path : Path}
    (sublist : part.Sublist whole)
    (missing : whole.find? path = none) : part.find? path = none := by
  rw [find?_eq_none] at missing ⊢
  exact fun member => missing ((sublist.map Bookmark.path).subset member)

theorem find?_append_singleton (memory : Memory) (bookmark : Bookmark) (path : Path) :
    Memory.find? (memory ++ [bookmark]) path =
      (memory.find? path).or (if bookmark.path = path then some bookmark else none) := by
  unfold find?
  rw [List.find?_append, List.find?_singleton]
  simp only [beq_iff_eq]

theorem find?_remember_self (memory : Memory) (bookmark : Bookmark) :
    (memory.remember bookmark).find? bookmark.path = some bookmark := by
  obtain ⟨others, remembered, sublist⟩ := exists_remember_eq memory bookmark
  rw [remembered, find?_append_singleton,
    find?_of_sublist_eq_none sublist (find?_forget_self memory bookmark.path)]
  simp

theorem find?_remember_of_ne {memory : Memory} {bookmark : Bookmark} {path : Path}
    (room : (memory.forget bookmark.path).length < capacity) (different : path ≠ bookmark.path) :
    (memory.remember bookmark).find? path = memory.find? path := by
  rw [remember_of_room room, find?_append_singleton, if_neg (Ne.symm different), Option.or_none,
    find?_forget_of_ne memory different]

theorem find?_remember_eq_none {memory : Memory} {bookmark : Bookmark} {path : Path}
    (missing : memory.find? path = none) (different : path ≠ bookmark.path) :
    (memory.remember bookmark).find? path = none := by
  obtain ⟨others, remembered, sublist⟩ := exists_remember_eq memory bookmark
  rw [remembered, find?_append_singleton, if_neg (Ne.symm different), Option.or_none]
  exact find?_of_sublist_eq_none sublist (find?_forget_eq_none missing)

theorem Distinct.remember {memory : Memory} (distinct : memory.Distinct) (bookmark : Bookmark) :
    (memory.remember bookmark).Distinct := by
  obtain ⟨others, remembered, sublist⟩ := exists_remember_eq memory bookmark
  have missing := find?_of_sublist_eq_none sublist (find?_forget_self memory bookmark.path)
  rw [remembered, Distinct, List.map_append, List.map_singleton]
  refine List.Nodup.append ?_ (List.nodup_singleton _) ?_
  · exact (distinct.forget bookmark.path).sublist (sublist.map Bookmark.path)
  · rw [List.disjoint_singleton]
    exact find?_eq_none.mp missing

/-! ### What is retained -/

theorem Distinct.find?_eq_some_iff {memory : Memory} (distinct : memory.Distinct) {path : Path}
    {bookmark : Bookmark} :
    memory.find? path = some bookmark ↔ bookmark ∈ memory ∧ bookmark.path = path := by
  constructor
  · intro found
    exact ⟨List.mem_of_find?_eq_some found, path_of_find? found⟩
  · rintro ⟨member, rfl⟩
    cases found : memory.find? bookmark.path with
    | none => exact absurd (List.mem_map_of_mem member) (find?_eq_none.mp found)
    | some other =>
      have otherMember := List.mem_of_find?_eq_some found
      rw [List.inj_on_of_nodup_map distinct otherMember member (path_of_find? found)]

/-- What a memory holds after one more bookmark was put into it, it held before or is this one. -/
theorem Distinct.find?_of_remember {memory : Memory} (distinct : memory.Distinct)
    {other bookmark : Bookmark} {path : Path} (different : path ≠ other.path)
    (found : (memory.remember other).find? path = some bookmark) :
    memory.find? path = some bookmark := by
  obtain ⟨others, remembered, sublist⟩ := exists_remember_eq memory other
  rw [remembered, find?_append_singleton, if_neg (Ne.symm different), Option.or_none] at found
  have member := sublist.subset (List.mem_of_find?_eq_some found)
  exact distinct.find?_eq_some_iff.mpr ⟨List.mem_of_mem_filter member, path_of_find? found⟩

/-- Whether a bookmark is in the memory, with none behind it but bookmarks of certain paths. -/
def Retains (memory : Memory) (bookmark : Bookmark) (later : List Path) : Prop :=
  ∃ earlier behind : Memory, memory = earlier ++ bookmark :: behind ∧
    behind.map Bookmark.path ⊆ later

theorem Retains.find? {memory : Memory} {bookmark : Bookmark} {later : List Path}
    (retains : memory.Retains bookmark later) (distinct : memory.Distinct) :
    memory.find? bookmark.path = some bookmark := by
  obtain ⟨earlier, behind, rfl, _⟩ := retains
  exact distinct.find?_eq_some_iff.mpr ⟨by simp, rfl⟩

theorem retains_remember_self (memory : Memory) (bookmark : Bookmark) :
    (memory.remember bookmark).Retains bookmark [] := by
  obtain ⟨others, remembered, _⟩ := exists_remember_eq memory bookmark
  exact ⟨others, [], remembered, List.nil_subset _⟩

theorem Retains.forget {memory : Memory} {bookmark : Bookmark} {later : List Path} {path : Path}
    (retains : memory.Retains bookmark later) (different : path ≠ bookmark.path) :
    (memory.forget path).Retains bookmark later := by
  obtain ⟨earlier, behind, rfl, later⟩ := retains
  refine ⟨Memory.forget earlier path, Memory.forget behind path, ?_, ?_⟩
  · have stays : (bookmark.path != path) = true := by simpa using Ne.symm different
    simp only [Memory.forget, List.filter_append, List.filter_cons, stays, if_true]
  · exact fun path member => later ((List.filter_sublist.map _).subset member)

/-- A bookmark is given up only for the sake of as many others as can be remembered. -/
theorem Retains.remember {memory : Memory} {bookmark other : Bookmark} {later : List Path}
    (retains : memory.Retains bookmark later) (distinct : memory.Distinct)
    (different : other.path ≠ bookmark.path)
    (few : (later.insert other.path).length < capacity) :
    (memory.remember other).Retains bookmark (later.insert other.path) := by
  have missing := find?_eq_none.mp (find?_forget_self memory other.path)
  have keptDistinct := distinct.forget other.path
  obtain ⟨earlier, behind, kept, within⟩ := retains.forget different
  have behindAfter : (behind ++ [other]).map Bookmark.path ⊆ later.insert other.path := by
    intro path member
    rw [List.map_append, List.mem_append] at member
    rcases member with before | last
    · exact List.mem_insert_of_mem (within before)
    · rw [List.mem_singleton.mp last]
      exact List.mem_insert_self
  have remembered : memory.remember other =
      (if (memory.forget other.path).length == capacity then (memory.forget other.path).drop 1
        else memory.forget other.path) ++ [other] := rfl
  rw [remembered]
  rw [kept] at missing keptDistinct ⊢
  split
  · next full =>
    cases earlier with
    | cons first others =>
      exact ⟨others, behind ++ [other], by simp, behindAfter⟩
    | nil =>
      -- The bookmark would be the first one, with all the others behind it.
      have once : ((behind ++ [other]).map Bookmark.path).Nodup := by
        rw [List.map_append]
        refine List.Nodup.append ?_ (List.nodup_singleton _) ?_
        · exact (List.nodup_cons.mp keptDistinct).2
        · rw [List.map_singleton, List.disjoint_singleton]
          exact fun member => missing (List.mem_cons_of_mem _ member)
      have bound := (once.subperm behindAfter).length_le
      simp only [List.nil_append, List.length_cons, beq_iff_eq] at full
      simp only [List.length_map, List.length_append, List.length_singleton] at bound
      omega
  · exact ⟨earlier, behind ++ [other], by simp, behindAfter⟩

end NodeTelemetry.Tail.Memory
