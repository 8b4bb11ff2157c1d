/-
This file lists what one step of a tailer can do, each way with all that is known when it is taken.
What a tailer keeps from step to step is proved from this list, one case for each way, and not from
the definition of the step.

With no file at hand a step finds nothing to open, or it fails to open a file, or it opens one. With
a file at hand it reads lines: it stops at the limit, or reading fails, or it comes to the end of
the file. Then it keeps the file or leaves it for another one, which may be opened or not. Each way
says what was read as a cut into lines with a rest, so no proof looks at the reading loop again, and
each way names the path that the step goes to open, since this is what decides about the places that
are kept. If the step itself is changed, it is this list that has to be changed with it.
-/

import NodeTelemetry.Proofs.Tail.Lines
import NodeTelemetry.Tail.Tailer

namespace NodeTelemetry.Tail

/-! ### Reading on -/

namespace Cursor

/-- What can be read of the file behind the position. -/
def source (cursor : Cursor) (view : View) : Stream :=
  view.stream cursor.id cursor.position

/-- The cursor behind some lines, with some bytes held back. -/
def advance (cursor : Cursor) (lines : List (List UInt8)) (fragment : List UInt8) : Cursor :=
  { cursor with offset := cursor.offset + lines.flatten.length, fragment := fragment }

@[simp]
theorem advance_offset (cursor : Cursor) (lines : List (List UInt8)) (fragment : List UInt8) :
    (cursor.advance lines fragment).offset = cursor.offset + lines.flatten.length := rfl

@[simp]
theorem advance_fragment (cursor : Cursor) (lines : List (List UInt8)) (fragment : List UInt8) :
    (cursor.advance lines fragment).fragment = fragment := rfl

theorem flushed_of_empty {cursor : Cursor} (empty : cursor.fragment = []) :
    cursor.flushed = cursor := by
  obtain ⟨path, id, offset, fromBeginning, fragment⟩ := cursor
  subst empty
  rfl

theorem path_of_mem_flush {cursor : Cursor} {segment : Segment}
    (member : segment ∈ cursor.flush) : segment.path = cursor.path := by
  unfold flush at member
  split at member
  · cases member
  · rw [List.mem_singleton.mp member]

theorem bytesOf_flush (cursor : Cursor) : bytesOf cursor.flush = cursor.fragment := by
  unfold flush
  split
  · next empty => simp [bytesOf, List.isEmpty_iff.mp empty]
  · simp [bytesOf]

/-- The segments that a cursor reads. -/
def lineSegments (cursor : Cursor) (lines : List (List UInt8)) : List Segment :=
  segmentsFrom cursor.path cursor.offset lines

theorem path_of_mem_lineSegments {cursor : Cursor} {lines : List (List UInt8)} {segment : Segment}
    (member : segment ∈ cursor.lineSegments lines) : segment.path = cursor.path :=
  path_of_mem_segmentsFrom member

theorem bytesOf_lineSegments (cursor : Cursor) (lines : List (List UInt8)) :
    bytesOf (cursor.lineSegments lines) = lines.flatten :=
  bytesOf_segmentsFrom _ _ _

end Cursor

/-! ### The ways of a step -/

/-- The path that a step goes to open, if any: the newest one where no file is at hand, and the one
that comes after the file at hand where this has been read to its end. -/
def Tailer.target? (pace : Pace) (view : View) (tailer : Tailer) : Option Path :=
  match tailer.cursor with
  | none =>
    match view.newest with
    | .ok newest => newest
    | .error _ => none
  | some cursor =>
    let reading := cursor.readLines (cursor.source view) pace.lines
    match reading.stop with
    | .ended => reading.cursor.successor? view
    | .limit | .failed => none

/-- What one step can do, with the path that it goes to open. -/
inductive Turn (pace : Pace) (view : View) (tailer : Tailer) : Option Path → Outcome → Prop
  /-- Looking for a file, it is not learnt which one is the newest. -/
  | unanswered (fault : FileTree.ScanFault) (locating : tailer.cursor = none)
      (answer : view.newest = .error fault) :
      Turn pace view tailer none ⟨tailer, .wait pace.rotation, []⟩
  /-- Looking for a file, none is there. -/
  | nothing (locating : tailer.cursor = none) (answer : view.newest = .ok none) :
      Turn pace view tailer none ⟨{ tailer with skipsHistory := false }, .wait pace.rotation, []⟩
  /-- The file that was found cannot be opened. -/
  | refused (path : Path) (locating : tailer.cursor = none)
      (answer : view.newest = .ok (some path)) (closed : view.openFile path = none) :
      Turn pace view tailer (some path)
        ⟨{ tailer with memory := tailer.memoryAfterLocating view path }, .wait pace.rotation, []⟩
  /-- The file that was found is opened. -/
  | opened (path : Path) (cursor : Cursor) (locating : tailer.cursor = none)
      (answer : view.newest = .ok (some path))
      (opens : Cursor.openAt view path (tailer.startFor view path) = some cursor) :
      Turn pace view tailer (some path)
        ⟨{ cursor := some cursor
           skipsHistory := false
           resume := none
           memory := tailer.memoryAfterLocating view path }, .again, []⟩
  /-- As many lines are read as are allowed. -/
  | busy (cursor : Cursor) (lines : List (List UInt8)) (rest : List UInt8)
      (following : tailer.cursor = some cursor)
      (cut : Cut pace.lines (cursor.pending (cursor.source view)) lines rest)
      (full : lines.length = pace.lines) :
      Turn pace view tailer none
        ⟨{ tailer with cursor := some (cursor.advance lines []) }, .again,
          cursor.lineSegments lines⟩
  /-- Reading fails before that. -/
  | broken (cursor : Cursor) (lines : List (List UInt8)) (rest : List UInt8)
      (following : tailer.cursor = some cursor)
      (cut : Cut pace.lines (cursor.pending (cursor.source view)) lines rest)
      (short : lines.length < pace.lines) (fails : (cursor.source view).failing = true) :
      Turn pace view tailer none
        ⟨{ tailer with
            cursor := none
            resume := some (cursor.advance lines rest).bookmark }, .wait pace.rotation,
          cursor.lineSegments lines⟩
  /-- The file ends before that and is kept. -/
  | idle (cursor : Cursor) (lines : List (List UInt8)) (rest : List UInt8)
      (following : tailer.cursor = some cursor)
      (cut : Cut pace.lines (cursor.pending (cursor.source view)) lines rest)
      (short : lines.length < pace.lines) (ends : (cursor.source view).failing = false)
      (stays : (cursor.advance lines rest).successor? view = none) :
      Turn pace view tailer none
        ⟨{ tailer with cursor := some (cursor.advance lines rest) }, .wait pace.idle,
          cursor.lineSegments lines⟩
  /-- The file ends before that and is left for a path. -/
  | left (cursor : Cursor) (lines : List (List UInt8)) (rest : List UInt8) (path : Path)
      (opened : Option Cursor) (following : tailer.cursor = some cursor)
      (cut : Cut pace.lines (cursor.pending (cursor.source view)) lines rest)
      (short : lines.length < pace.lines) (ends : (cursor.source view).failing = false)
      (leaves : (cursor.advance lines rest).successor? view = some path)
      (opens : Cursor.openAt view path (.resuming (tailer.memory.offsetFor? view path)) = opened) :
      Turn pace view tailer (some path)
        ⟨{ tailer with
            cursor := opened
            memory := tailer.memoryAfterLeaving (cursor.advance lines rest) path },
          if opened.isSome then .again else .wait pace.rotation,
          cursor.lineSegments lines ++ (cursor.advance lines rest).flush⟩

theorem openAt_eq_none {view : View} {path : Path} {start : Start} :
    Cursor.openAt view path start = none ↔ view.openFile path = none :=
  Option.map_eq_none_iff

/-- With no file at hand a step looks for one. -/
theorem turn_locate (pace : Pace) (view : View) (tailer : Tailer)
    (locating : tailer.cursor = none) :
    Turn pace view tailer (tailer.target? pace view) (tailer.locate pace view) := by
  have target : tailer.target? pace view =
      match view.newest with
      | .ok newest => newest
      | .error _ => none := by
    rw [Tailer.target?, locating]
  rw [target]
  unfold Tailer.locate
  cases answer : view.newest with
  | error fault => exact .unanswered fault locating answer
  | ok newest =>
    cases newest with
    | none => exact .nothing locating answer
    | some path =>
      simp only
      split
      · next closed => exact .refused path locating answer (openAt_eq_none.mp closed)
      · next cursor opens => exact .opened path cursor locating answer opens

/-- With a file at hand a step reads it, and may give it up or leave it. -/
theorem turn_follow (pace : Pace) (view : View) (tailer : Tailer) (cursor : Cursor)
    (following : tailer.cursor = some cursor) :
    Turn pace view tailer (tailer.target? pace view) (tailer.follow pace view cursor) := by
  have cut := cut_takeLines pace.lines (cursor.pending (cursor.source view))
  have target : tailer.target? pace view =
      match (cursor.readLines (cursor.source view) pace.lines).stop with
      | .ended => (cursor.readLines (cursor.source view) pace.lines).cursor.successor? view
      | .limit | .failed => none := by
    rw [Tailer.target?, following]
  rw [target]
  unfold Tailer.follow
  rw [← Cursor.source]
  unfold Cursor.readLines
  generalize takeLines pace.lines (cursor.pending (cursor.source view)) = taken at cut ⊢
  obtain ⟨lines, rest⟩ := taken
  simp only at cut ⊢
  by_cases full : lines.length = pace.lines
  · simp only [full, BEq.rfl, if_true]
    exact .busy cursor lines rest following cut full
  · have short : lines.length < pace.lines := Nat.lt_of_le_of_ne cut.length_le full
    have notFull : (lines.length == pace.lines) = false := beq_false_of_ne full
    simp only [notFull, Bool.false_eq_true, if_false]
    cases fails : (cursor.source view).failing with
    | true => exact .broken cursor lines rest following cut short fails
    | false =>
      simp only [Bool.false_eq_true, if_false]
      rw [← Cursor.advance]
      unfold Tailer.atEnd
      split
      · next path leaves =>
        rw [leaves]
        exact .left cursor lines rest path _ following cut short fails leaves rfl
      · next stays =>
        rw [stays, List.append_nil]
        exact .idle cursor lines rest following cut short fails stays

/-- Each step goes one of the ways. -/
theorem turn_step (pace : Pace) (view : View) (tailer : Tailer) :
    Turn pace view tailer (tailer.target? pace view) (tailer.step pace view) := by
  unfold Tailer.step
  split
  · next locating => exact turn_locate pace view tailer locating
  · next cursor following => exact turn_follow pace view tailer cursor following

/-! ### Opening and leaving -/

theorem Tailer.memoryAfterLeaving_flushed (tailer : Tailer) (cursor : Cursor) (path : Path) :
    tailer.memoryAfterLeaving cursor.flushed path = tailer.memoryAfterLeaving cursor path := by
  have twice : cursor.flushed.flushed = cursor.flushed := Cursor.flushed_of_empty rfl
  unfold memoryAfterLeaving
  rw [twice]
  rfl

/-- What a cursor is like that has just been opened. -/
theorem openAt_eq_some {view : View} {path : Path} {start : Start} {cursor : Cursor}
    (opens : Cursor.openAt view path start = some cursor) :
    ∃ status, view.openFile path = some status ∧ cursor.path = path ∧ cursor.id = status.id ∧
      cursor.offset = Cursor.startOffset start status.length ∧ cursor.fragment = [] := by
  obtain ⟨status, found, rfl⟩ := Option.map_eq_some_iff.mp opens
  exact ⟨status, found, rfl, rfl, rfl, rfl⟩

/-- The file at hand is left for the newest one, or because there is another one under its path. -/
theorem successor?_eq_some {cursor : Cursor} {view : View} {path : Path}
    (leaves : cursor.successor? view = some path) :
    (view.newest = .ok (some path) ∧ path ≠ cursor.path) ∨
      (path = cursor.path ∧ cursor.isReplaced view = true) := by
  unfold Cursor.successor? at leaves
  simp only at leaves
  split at leaves
  · next newest filtered =>
    cases leaves
    obtain ⟨answer, other⟩ := Option.filter_eq_some_iff.mp filtered
    refine .inl ⟨?_, by simpa using other⟩
    split at answer
    · next found => rw [found, answer]
    · cases answer
  · split at leaves
    · next replaced => exact .inr ⟨(Option.some.inj leaves).symm, replaced⟩
    · cases leaves

/-- The file at hand is kept if no other one is the newest and it is still under its path. -/
theorem successor?_eq_none {cursor : Cursor} {view : View}
    (stays : cursor.successor? view = none) :
    (∀ path, view.newest = .ok (some path) → path = cursor.path) ∧
      cursor.isReplaced view = false := by
  unfold Cursor.successor? at stays
  simp only at stays
  split at stays
  · cases stays
  · next filtered =>
    split at stays
    · cases stays
    · next kept =>
      refine ⟨fun path answer => ?_, by simpa using kept⟩
      rw [answer] at filtered
      simpa using filtered

/-! ### Files that can be read -/

/-- Whether an open file can be read and holds some bytes. -/
def View.Holds (view : View) (id : FileId) (bytes : List UInt8) : Prop :=
  ∀ position, view.stream id position = ⟨bytes.drop position, false⟩

/-- What a step does with a file that can be read: it stops at the limit, or it comes to the end of
the file and keeps it or leaves it. -/
theorem step_of_holds {view : View} {tailer : Tailer} {cursor : Cursor} {bytes : List UInt8}
    (pace : Pace)
    (following : tailer.cursor = some cursor) (holds : view.Holds cursor.id bytes) :
    ∃ lines rest, Cut pace.lines (cursor.fragment ++ bytes.drop cursor.position) lines rest ∧
      ((lines.length = pace.lines ∧ tailer.target? pace view = none ∧
          tailer.step pace view =
            ⟨{ tailer with cursor := some (cursor.advance lines []) }, .again,
              cursor.lineSegments lines⟩) ∨
        (lineFeed ∉ rest ∧ (cursor.advance lines rest).successor? view = none ∧
          tailer.target? pace view = none ∧
          tailer.step pace view =
            ⟨{ tailer with cursor := some (cursor.advance lines rest) }, .wait pace.idle,
              cursor.lineSegments lines⟩) ∨
        lineFeed ∉ rest ∧ ∃ path opened, (cursor.advance lines rest).successor? view = some path ∧
          tailer.target? pace view = some path ∧
          Cursor.openAt view path (.resuming (tailer.memory.offsetFor? view path)) = opened ∧
          tailer.step pace view =
            ⟨{ tailer with
                cursor := opened
                memory := tailer.memoryAfterLeaving (cursor.advance lines rest) path },
              if opened.isSome then .again else .wait pace.rotation,
              cursor.lineSegments lines ++ (cursor.advance lines rest).flush⟩) := by
  have source : cursor.source view = ⟨bytes.drop cursor.position, false⟩ := holds cursor.position
  have turn := turn_step pace view tailer
  generalize tailer.step pace view = outcome at turn ⊢
  generalize tailer.target? pace view = target at turn ⊢
  cases turn with
  | unanswered fault locating => cases locating.symm.trans following
  | nothing locating => cases locating.symm.trans following
  | refused path locating => cases locating.symm.trans following
  | opened path opened locating => cases locating.symm.trans following
  | busy current lines rest current_eq cut full =>
    obtain rfl := Option.some.inj (current_eq.symm.trans following)
    rw [Cursor.pending, source] at cut
    exact ⟨lines, rest, cut, .inl ⟨full, rfl, rfl⟩⟩
  | broken current lines rest current_eq cut short fails =>
    obtain rfl := Option.some.inj (current_eq.symm.trans following)
    rw [source] at fails
    cases fails
  | idle current lines rest current_eq cut short ends stays =>
    obtain rfl := Option.some.inj (current_eq.symm.trans following)
    rw [Cursor.pending, source] at cut
    exact ⟨lines, rest, cut, .inr (.inl ⟨cut.complete short, stays, rfl, rfl⟩)⟩
  | left current lines rest path opened current_eq cut short ends leaves opens =>
    obtain rfl := Option.some.inj (current_eq.symm.trans following)
    rw [Cursor.pending, source] at cut
    exact ⟨lines, rest, cut,
      .inr (.inr ⟨cut.complete short, path, opened, leaves, rfl, opens, rfl⟩)⟩

end NodeTelemetry.Tail
