/-
This file settles where a file is opened that was left before. Whatever happens to the files and
whatever fails, each place that a tailer keeps, for a failed read or in its memory, is where it left
that path last. So a file is gone on with only where it was left last, if the path leads to the same
file still and this reaches up to there, and in all other cases it is read from its beginning.

Places are written in two moments only: when a file is left for another one, and when reading it
fails. In both the place is that of the cursor, and it becomes the last one of its path. Steps that
do neither may lose places but do not make any. So the invariant, that each place that is kept is
the last one of its path in the list of all places left, is kept by every step with any view,
without a word about what the files hold.
-/

import NodeTelemetry.Proofs.Tail.Places

namespace NodeTelemetry.Tail

/-- Whether opening a path opens what its status tells of. This holds of all that is seen at one
moment, also if some paths cannot be inspected or opened. -/
def View.Coherent (view : View) : Prop :=
  ∀ path opened inspected, view.openFile path = some opened → view.status path = some inspected →
    opened = inspected

theorem View.coherent_ofTree (tree : FileTree) (watcher : Watcher) (outOfOrder : Bool) :
    (View.ofTree tree watcher outOfOrder).Coherent := by
  intro path opened inspected opens status
  exact Option.some.inj (opens.symm.trans status)

namespace Tailer

/-! ### Leaving a file -/

/-- Where a step leaves the file at hand, if it does: behind all that it consumed. The file is left
when reading fails, and when a path is to be opened, be it another one or the same again. -/
def placeLeft? (pace : Pace) (view : View) (tailer : Tailer) : Option Bookmark :=
  match tailer.cursor with
  | none => none
  | some cursor =>
    let outcome := tailer.step pace view
    if tailer.target? pace view = none ∧ outcome.tailer.cursor.isSome then none
    else some ⟨cursor.path, cursor.id, cursor.offset + (bytesOf outcome.segments).length⟩

/-- The places at which files were left, the last one first, after a step. -/
def placesAfter (pace : Pace) (view : View) (tailer : Tailer) (places : List Bookmark) :
    List Bookmark :=
  (tailer.placeLeft? pace view).toList ++ places

/-- What a tailer that has made some steps can be like, whatever it saw in them, with the places at
which it left files. -/
inductive Leaves : Tailer → List Bookmark → Prop
  | fresh : Leaves Tailer.fresh []
  | step {tailer : Tailer} {places : List Bookmark} (pace : Pace) (view : View)
      (leaves : Leaves tailer places) :
      Leaves (tailer.step pace view).tailer (tailer.placesAfter pace view places)

/-- Where a path was left last. -/
def lastLeft? (places : List Bookmark) (path : Path) : Option Bookmark :=
  places.find? (·.path == path)

variable {pace : Pace} {view : View} {tailer : Tailer} {places : List Bookmark} {path : Path}
  {place : Bookmark}

theorem lastLeft?_cons_self (place : Bookmark) (places : List Bookmark) :
    lastLeft? (place :: places) place.path = some place :=
  List.find?_cons_of_pos (by simp)

theorem lastLeft?_cons_of_ne (places : List Bookmark) (different : place.path ≠ path) :
    lastLeft? (place :: places) path = lastLeft? places path :=
  List.find?_cons_of_neg (by simpa using different)

theorem placeLeft?_of_locating (locating : tailer.cursor = none) :
    tailer.placeLeft? pace view = none := by
  unfold placeLeft?
  rw [locating]

theorem placeLeft?_of_following {cursor : Cursor} (following : tailer.cursor = some cursor) :
    tailer.placeLeft? pace view =
      if tailer.target? pace view = none ∧ (tailer.step pace view).tailer.cursor.isSome then none
      else some ⟨cursor.path, cursor.id,
        cursor.offset + (bytesOf (tailer.step pace view).segments).length⟩ := by
  unfold placeLeft?
  rw [following]

theorem placesAfter_of_locating (locating : tailer.cursor = none) :
    tailer.placesAfter pace view places = places := by
  rw [placesAfter, placeLeft?_of_locating locating]
  rfl

/-- Only the file at hand is left. -/
theorem exists_cursor_of_placeLeft? (leaves : tailer.placeLeft? pace view = some place) :
    ∃ cursor, tailer.cursor = some cursor ∧ place.path = cursor.path ∧ place.id = cursor.id ∧
      place.offset = cursor.offset + (bytesOf (tailer.step pace view).segments).length := by
  unfold placeLeft? at leaves
  split at leaves
  · cases leaves
  · next cursor following =>
    simp only at leaves
    split at leaves
    · cases leaves
    · obtain rfl := Option.some.inj leaves
      exact ⟨cursor, following, rfl, rfl, rfl⟩

/-- Behind all that is consumed of a file that is left for a path stands the place that is
remembered. -/
theorem flushed_bookmark_eq (cursor : Cursor) (lines : List (List UInt8)) (rest : List UInt8) :
    (cursor.advance lines rest).flushed.bookmark =
      ⟨cursor.path, cursor.id, cursor.offset +
        (bytesOf (cursor.lineSegments lines ++ (cursor.advance lines rest).flush)).length⟩ := by
  rw [bytesOf_append, Cursor.bytesOf_lineSegments, Cursor.bytesOf_flush, List.length_append,
    ← Nat.add_assoc]
  rfl

/-! ### The places that are kept -/

/-- What a step puts into the memory is the place at which it left the file at hand. -/
theorem Tidy.remembered_step (tidy : tailer.Tidy)
    (found : (tailer.step pace view).tailer.memory.find? path = some place) :
    tailer.placeLeft? pace view = some place ∨ tailer.memory.find? path = some place := by
  rcases tidy.find?_of_step found with ⟨before, _⟩ | departs
  · exact .inr before
  obtain ⟨cursor, following, rfl⟩ := exists_cursor_of_departure? departs
  refine .inl ?_
  rw [placeLeft?_of_following following]
  have turn := turn_step pace view tailer
  unfold departure? at departs
  generalize tailer.step pace view = outcome at turn found ⊢
  generalize tailer.target? pace view = target at turn departs ⊢
  cases turn with
  | unanswered | nothing | busy | broken | idle => cases (leftFor?_none tailer).symm.trans departs
  | refused next locating | opened next opened locating => cases locating.symm.trans following
  | left current lines rest next opened current_eq =>
    obtain rfl := Option.some.inj (current_eq.symm.trans following)
    rw [leftFor?_of_following following] at departs
    split at departs
    · cases departs
    · next different =>
      have elsewhere : (current.advance lines rest).path ≠ next := Ne.symm different
      have found : (tailer.memoryAfterLeaving (current.advance lines rest) next).find?
          (current.advance lines rest).flushed.bookmark.path = some place := found
      rw [memoryAfterLeaving_of_ne elsewhere, Memory.find?_remember_self] at found
      rw [if_neg (fun stays => by cases stays.1), ← flushed_bookmark_eq]
      exact found

/-- What a step keeps for a failed read is the place at which it left the file at hand. -/
theorem Tidy.pending_step (tidy : tailer.Tidy)
    (pending : (tailer.step pace view).tailer.resume = some place) :
    tailer.placeLeft? pace view = some place ∨
      tailer.resume = some place ∧ tailer.cursor = none := by
  have turn := turn_step pace view tailer
  unfold placeLeft?
  generalize tailer.step pace view = outcome at turn pending ⊢
  generalize tailer.target? pace view = target at turn ⊢
  cases turn with
  | unanswered fault locating => exact .inr ⟨pending, locating⟩
  | nothing locating => exact .inr ⟨pending, locating⟩
  | refused next locating => exact .inr ⟨pending, locating⟩
  | opened => cases pending
  | busy cursor lines rest following | idle cursor lines rest following
  | left cursor lines rest next opened following =>
    cases (tidy.notPending cursor following).symm.trans pending
  | broken cursor lines rest following =>
    refine .inl ?_
    rw [following]
    simp only [Option.isSome_none, Bool.false_eq_true, and_false, if_false,
      Cursor.bytesOf_lineSegments]
    exact pending

/-- Whether every place that a tailer keeps is where it left the path last. -/
structure Recalls (tailer : Tailer) (places : List Bookmark) : Prop where
  tidy : tailer.Tidy
  nothingYet : tailer.skipsHistory = true → places = []
  remembered : ∀ path place, tailer.memory.find? path = some place →
    lastLeft? places path = some place
  pending : ∀ place, tailer.resume = some place → lastLeft? places place.path = some place

theorem recalls_fresh : Recalls fresh [] where
  tidy := tidy_fresh
  nothingYet := fun _ => rfl
  remembered := fun _ _ found => by cases found
  pending := fun _ pending => by cases pending

/-- Where a path was left last does not change while it is not at hand. -/
theorem lastLeft?_placesAfter_of_ne
    (notAtHand : ∀ cursor, tailer.cursor = some cursor → cursor.path ≠ path) :
    lastLeft? (tailer.placesAfter pace view places) path = lastLeft? places path := by
  unfold placesAfter
  cases leaves : tailer.placeLeft? pace view with
  | none => rfl
  | some place =>
    obtain ⟨cursor, following, samePath, _⟩ := exists_cursor_of_placeLeft? leaves
    exact lastLeft?_cons_of_ne places (samePath ▸ notAtHand cursor following)

theorem lastLeft?_placesAfter_self (leaves : tailer.placeLeft? pace view = some place) :
    lastLeft? (tailer.placesAfter pace view places) place.path = some place := by
  rw [placesAfter, leaves]
  exact lastLeft?_cons_self place places

theorem Recalls.step (recalls : tailer.Recalls places) (pace : Pace) (view : View) :
    (tailer.step pace view).tailer.Recalls (tailer.placesAfter pace view places) where
  tidy := recalls.tidy.step pace view
  nothingYet := fun skipsStill => by
    have skips : tailer.skipsHistory = true := by
      by_contra notSkipping
      cases (skipsHistory_step_eq_false notSkipping).symm.trans skipsStill
    rw [placesAfter_of_locating (recalls.tidy.nothingYet skips).1, recalls.nothingYet skips]
  remembered := fun path place found => by
    rcases recalls.tidy.remembered_step found with leaves | before
    · rw [← Memory.path_of_find? found]
      exact lastLeft?_placesAfter_self leaves
    · rw [lastLeft?_placesAfter_of_ne, recalls.remembered path place before]
      rintro cursor following rfl
      cases (recalls.tidy.currentForgotten cursor following).symm.trans before
  pending := fun place pending => by
    rcases recalls.tidy.pending_step pending with leaves | ⟨before, locating⟩
    · exact lastLeft?_placesAfter_self leaves
    · rw [placesAfter_of_locating locating, recalls.pending place before]

theorem Leaves.recalls (leaves : Leaves tailer places) : tailer.Recalls places := by
  induction leaves with
  | fresh => exact recalls_fresh
  | step pace view _ inductionHypothesis => exact inductionHypothesis.step pace view

/-! ### Opening a file -/

/-- Where a step begins to read a file that it opens. -/
def openingStart (view : View) (tailer : Tailer) (path : Path) : Start :=
  match tailer.cursor with
  | none => tailer.startFor view path
  | some _ => .resuming (tailer.memory.offsetFor? view path)

theorem openingStart_of_locating (locating : tailer.cursor = none) :
    tailer.openingStart view path = tailer.startFor view path := by
  unfold openingStart
  rw [locating]

theorem openingStart_of_following {cursor : Cursor} (following : tailer.cursor = some cursor) :
    tailer.openingStart view path = .resuming (tailer.memory.offsetFor? view path) := by
  unfold openingStart
  rw [following]

/-- A step opens the path that it goes to open there. -/
theorem cursor_step_eq_openAt (asks : tailer.target? pace view = some path) :
    (tailer.step pace view).tailer.cursor =
      Cursor.openAt view path (tailer.openingStart view path) := by
  have turn := turn_step pace view tailer
  rw [asks] at turn
  generalize tailer.step pace view = outcome at turn ⊢
  cases turn with
  | refused _ locating answer closed => exact locating.trans (openAt_eq_none.mpr closed).symm
  | opened _ cursor locating answer opens =>
    rw [openingStart_of_locating locating]
    exact opens.symm
  | left cursor lines rest _ opened following cut short ends leaves opens =>
    rw [openingStart_of_following following]
    exact opens.symm

/-- A bookmark serves only if its path leads to the file that was left and this reaches up to it. -/
theorem of_offsetFor?_eq_some {offset : Nat} (serves : place.offsetFor? view path = some offset) :
    place.path = path ∧ place.offset = offset ∧
      ∃ length, view.status path = some ⟨place.id, length⟩ ∧ offset ≤ length := by
  unfold Bookmark.offsetFor? at serves
  split at serves
  · next same =>
    split at serves
    · cases serves
    · next status inspected =>
      split at serves
      · next serving =>
        obtain ⟨sameId, reaches⟩ := serving
        obtain rfl := Option.some.inj serves
        exact ⟨same, rfl, status.length, by rw [inspected, ← sameId], reaches⟩
      · cases serves
  · cases serves

theorem Recalls.of_memory (recalls : tailer.Recalls places) {offset : Nat}
    (serves : tailer.memory.offsetFor? view path = some offset) :
    ∃ place, lastLeft? places path = some place ∧ place.offsetFor? view path = some offset := by
  obtain ⟨place, found, serves⟩ := Option.bind_eq_some_iff.mp serves
  exact ⟨place, recalls.remembered path place found, serves⟩

/-- Where a step begins to read a file, unless at its end or its beginning, the file was left last.
-/
theorem Recalls.of_openingStart (recalls : tailer.Recalls places) (pace : Pace) {offset : Nat}
    (begins : tailer.openingStart view path = .resumed offset) :
    ∃ place, lastLeft? (tailer.placesAfter pace view places) path = some place ∧
      place.offsetFor? view path = some offset := by
  cases following : tailer.cursor with
  | none =>
    rw [placesAfter_of_locating following]
    rw [openingStart_of_locating following, startFor] at begins
    split at begins
    · cases begins
    · cases pending : tailer.resume.bind (·.offsetFor? view path) with
      | none =>
        rw [pending, Option.none_or] at begins
        cases found : tailer.memory.offsetFor? view path with
        | none =>
          rw [found] at begins
          cases begins
        | some stored =>
          rw [found] at begins
          cases begins
          exact recalls.of_memory found
      | some stored =>
        rw [pending, Option.some_or] at begins
        cases begins
        obtain ⟨place, stopped, serves⟩ := Option.bind_eq_some_iff.mp pending
        exact ⟨place, (of_offsetFor?_eq_some serves).1 ▸ recalls.pending place stopped, serves⟩
  | some cursor =>
    rw [openingStart_of_following following] at begins
    cases found : tailer.memory.offsetFor? view path with
    | none =>
      rw [found] at begins
      cases begins
    | some stored =>
      rw [found] at begins
      cases begins
      obtain ⟨place, last, serves⟩ := recalls.of_memory found
      -- A path in the memory is not at hand, so leaving the file at hand is no matter.
      have remembered : tailer.memory.find? path ≠ none := by
        intro missing
        rw [Memory.offsetFor?, missing] at found
        cases found
      refine ⟨place, ?_, serves⟩
      rw [lastLeft?_placesAfter_of_ne, last]
      rintro current atHand rfl
      exact remembered (recalls.tidy.currentForgotten current atHand)

/-- Once some file was left, no file is opened at its end any more. -/
theorem Recalls.openingStart_ne_atEnd (recalls : tailer.Recalls places) (pace : Pace)
    (last : lastLeft? (tailer.placesAfter pace view places) path = some place) :
    tailer.openingStart view path ≠ .atEnd := by
  intro begins
  cases following : tailer.cursor with
  | none =>
    rw [openingStart_of_locating following, startFor] at begins
    split at begins
    · next skips =>
      rw [placesAfter_of_locating following, recalls.nothingYet skips] at last
      cases last
    · generalize Option.or _ _ = offset? at begins
      cases offset? <;> cases begins
  | some cursor =>
    rw [openingStart_of_following following] at begins
    generalize tailer.memory.offsetFor? view path = offset? at begins
    cases offset? <;> cases begins

end Tailer

open Tailer

/-- When a step opens a path and goes on with it at an offset, the tailer left the path last at this
offset, the path leads to the file that was followed there then, and the file reaches up to the
offset. When a step opens a path that was left before and that leads to another file than it did
then, or to one that does not reach up to where it was left last, the file is read from its
beginning. -/
theorem reopens_where_last_left {tailer : Tailer} {places : List Bookmark}
    (leaves : Leaves tailer places) (pace : Pace) (view : View) (coherent : view.Coherent)
    (path : Path) (cursor : Cursor) (asks : tailer.target? pace view = some path)
    (opened : (tailer.step pace view).tailer.cursor = some cursor) :
    Cursor.openAt view path (tailer.openingStart view path) = some cursor ∧
      (∀ offset, tailer.openingStart view path = .resumed offset →
        cursor = ⟨path, cursor.id, offset, false, []⟩ ∧
          lastLeft? (tailer.placesAfter pace view places) path = some ⟨path, cursor.id, offset⟩ ∧
          ∃ length, view.openFile path = some ⟨cursor.id, length⟩ ∧ offset ≤ length) ∧
      ∀ place status, lastLeft? (tailer.placesAfter pace view places) path = some place →
        view.openFile path = some status →
        (status.id ≠ place.id ∨ status.length < place.offset) →
        cursor = ⟨path, status.id, 0, true, []⟩ := by
  have recalls := leaves.recalls
  have opens := (cursor_step_eq_openAt asks).symm.trans opened
  obtain ⟨status, found, rfl⟩ := Option.map_eq_some_iff.mp opens
  refine ⟨opens, fun offset begins => ?_, fun place other last leads changed => ?_⟩
  · obtain ⟨place, last, serves⟩ := recalls.of_openingStart pace begins
    obtain ⟨samePath, sameOffset, length, inspected, reaches⟩ := of_offsetFor?_eq_some serves
    obtain rfl := coherent path status _ found inspected
    refine ⟨by rw [begins]; rfl, ?_, length, found, reaches⟩
    rw [last, ← samePath, ← sameOffset]
  · obtain rfl := Option.some.inj (found.symm.trans leads)
    cases begins : tailer.openingStart view path with
    | atEnd => exact absurd begins (recalls.openingStart_ne_atEnd pace last)
    | atBeginning => rfl
    | resumed offset =>
      obtain ⟨stored, lastStored, serves⟩ := recalls.of_openingStart pace begins
      obtain rfl := Option.some.inj (last.symm.trans lastStored)
      obtain ⟨_, sameOffset, length, inspected, reaches⟩ := of_offsetFor?_eq_some serves
      obtain rfl := coherent path status _ found inspected
      rcases changed with otherFile | shorter
      · exact absurd rfl otherFile
      · rw [sameOffset] at shorter
        exact absurd shorter (Nat.not_lt.mpr reaches)

/-- A tailer that has read a line of the first file and has left it for the second one. -/
def mover : Tailer :=
  let behind := (reader.glance loneTree (.directory .top) false).tailer
  (behind.glance pairTree (.directory .top) false).tailer

theorem leaves_mover : Leaves mover [⟨⟨["first"]⟩, 1, 2⟩] := by
  have waiting := Leaves.fresh.step (.ofLimit 1000 100 5)
    (.ofTree FileTree.empty (.directory .top) false)
  have opened := waiting.step (.ofLimit 1000 100 5) (.ofTree loneTree (.directory .top) false)
  have behind := opened.step (.ofLimit 1000 100 5) (.ofTree loneTree (.directory .top) false)
  exact behind.step (.ofLimit 1000 100 5) (.ofTree pairTree (.directory .top) false)

/-- The first file is gone on with where it was left, and from its beginning if there is another
file under its path by then. -/
theorem reopens_first :
    let grown := View.ofTree (pairTree.append ⟨["first"]⟩ [99, 10] 3) (.directory .top) false
    let replaced := View.ofTree (pairTree.replace ⟨["first"]⟩ [99, 10] 3) (.directory .top) false
    Leaves mover [⟨⟨["first"]⟩, 1, 2⟩] ∧ grown.Coherent ∧ replaced.Coherent ∧
      mover.target? (.ofLimit 1000 100 5) grown = some ⟨["first"]⟩ ∧
      mover.target? (.ofLimit 1000 100 5) replaced = some ⟨["first"]⟩ ∧
      (mover.step (.ofLimit 1000 100 5) grown).tailer.cursor =
        some ⟨⟨["first"]⟩, 1, 2, false, []⟩ ∧
      (mover.step (.ofLimit 1000 100 5) replaced).tailer.cursor =
        some ⟨⟨["first"]⟩, 3, 0, true, []⟩ := by
  intro grown replaced
  have coherentGrown : grown.Coherent := View.coherent_ofTree _ _ _
  have coherentReplaced : replaced.Coherent := View.coherent_ofTree _ _ _
  have asksGrown : mover.target? (.ofLimit 1000 100 5) grown = some ⟨["first"]⟩ := by decide
  have asksReplaced : mover.target? (.ofLimit 1000 100 5) replaced = some ⟨["first"]⟩ := by decide
  obtain ⟨first, opened⟩ :
      ∃ cursor, (mover.step (.ofLimit 1000 100 5) grown).tailer.cursor = some cursor := ⟨_, rfl⟩
  obtain ⟨second, reopened⟩ :
      ∃ cursor, (mover.step (.ofLimit 1000 100 5) replaced).tailer.cursor = some cursor := ⟨_, rfl⟩
  obtain ⟨_, resumes, _⟩ := reopens_where_last_left leaves_mover (.ofLimit 1000 100 5) grown
    coherentGrown ⟨["first"]⟩ first asksGrown opened
  obtain ⟨_, _, begins⟩ := reopens_where_last_left leaves_mover (.ofLimit 1000 100 5) replaced
    coherentReplaced ⟨["first"]⟩ second asksReplaced reopened
  obtain ⟨place, last, _⟩ := resumes 2 (by decide)
  have sameId : first.id = 1 := by
    have left : lastLeft? (mover.placesAfter (.ofLimit 1000 100 5) grown [⟨⟨["first"]⟩, 1, 2⟩])
        ⟨["first"]⟩ = some ⟨⟨["first"]⟩, 1, 2⟩ := by decide
    exact congrArg Bookmark.id (Option.some.inj (last.symm.trans left))
  rw [sameId] at place
  have start := begins ⟨⟨["first"]⟩, 1, 2⟩ ⟨3, 2⟩ (by decide) (by decide) (by decide)
  exact ⟨leaves_mover, coherentGrown, coherentReplaced, asksGrown, asksReplaced, place ▸ opened,
    start ▸ reopened⟩

end NodeTelemetry.Tail
