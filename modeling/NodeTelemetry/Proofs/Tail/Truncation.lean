/-
This file settles when a file that was overwritten with fewer bytes is read again. The tailer
compares the length of the file with its offset, which stands behind the last whole line. If the
file ends before the offset, what was held back is consumed and the file is read from its beginning,
so that its new lines come whole. If it ends behind the offset but before the position, somewhere in
what was held back, nothing is noticed: the length says nothing about bytes behind the offset, and
there is nothing to read at the position.

What the view holds of the file is what its reader yields. A reader that still has bytes from before
the file was overwritten yields these first, and such a view does not hold the new contents; the
results are about the step in which the reader has come to its end and looks at the file itself.
-/

import NodeTelemetry.Proofs.Tail.Framing
import NodeTelemetry.Proofs.Tail.Places
import NodeTelemetry.Proofs.Tail.Settling

namespace NodeTelemetry.Tail

/-! ### Opening a file again -/

namespace Tailer

/-- What becomes of a tailer while no file is at hand, up to the step that opens one. -/
inductive Locates (start : Tailer) : Tailer → Prop
  | here : Locates start start
  | step {tailer : Tailer} (pace : Pace) (view : View) (locates : Locates start tailer)
      (locating : tailer.cursor = none) : Locates start (tailer.step pace view).tailer

/-- Whether a tailer has no place for a path, so that it would begin with the file. -/
structure Forgets (tailer : Tailer) (path : Path) : Prop where
  tidy : tailer.Tidy
  notSkipping : tailer.skipsHistory = false
  calm : tailer.resume = none
  missing : tailer.memory.find? path = none
  /-- It has just begun if the file is at hand. -/
  begins : ∀ cursor, tailer.cursor = some cursor → cursor.path = path →
    cursor = ⟨path, cursor.id, 0, true, []⟩

variable {pace : Pace} {view : View} {tailer start : Tailer} {path : Path}

theorem Forgets.step (forgets : tailer.Forgets path) (locating : tailer.cursor = none)
    (pace : Pace) (view : View) : (tailer.step pace view).tailer.Forgets path where
  tidy := forgets.tidy.step pace view
  notSkipping := skipsHistory_step_eq_false (by simp [forgets.notSkipping])
  calm := by
    rcases step_of_locating pace view locating with ⟨_, kept, _⟩ | ⟨_, _, _, calm, _⟩
    · exact kept.trans forgets.calm
    · exact calm
  missing := by
    refine find?_step_eq_none (fun cursor following => ?_) forgets.missing
    cases locating.symm.trans following
  begins := by
    rintro cursor following rfl
    have asks : tailer.target? pace view = some cursor.path := by
      rcases target?_or_kept following with asks | ⟨before, atHand, _⟩
      · exact asks
      · cases locating.symm.trans atHand
    have missing : tailer.bookmark? cursor.path = none :=
      (History.bookmark?_of_locating locating forgets.calm _).trans forgets.missing
    have opens := forgets.tidy.cursor_step_of_target forgets.notSkipping
      (fun _ atHand => by cases locating.symm.trans atHand) asks
    rw [missing, following] at opens
    exact eq_of_openAt_resuming_none opens.symm

theorem Locates.forgets (locates : start.Locates tailer) (forgets : start.Forgets path) :
    tailer.Forgets path := by
  induction locates with
  | here => exact forgets
  | step pace view _ locating inductionHypothesis =>
    exact inductionHypothesis.step locating pace view

end Tailer

/-! ### Files that were cut off -/

variable {tailer : Tailer} {cursor : Cursor} {view : View}

/-- What a file is taken for under whose path there is still this very file. -/
theorem isReplaced_of_same {length : Nat}
    (inspected : view.status cursor.path = some ⟨cursor.id, length⟩) :
    cursor.isReplaced view = decide (length < cursor.offset) := by
  unfold Cursor.isReplaced
  rw [inspected]
  simp

/-- A tailer whose file ends before the offset consumes what it held back and forgets its place. -/
theorem step_of_shorter_than_offset (tidy : tailer.Tidy) (following : tailer.cursor = some cursor)
    (pace : Pace) {contents : List UInt8} (holds : view.Holds cursor.id contents)
    (inspected : view.status cursor.path = some ⟨cursor.id, contents.length⟩)
    (newest : ∀ path, view.newest = .ok (some path) → path = cursor.path)
    (shorter : contents.length < cursor.offset) :
    (tailer.step pace view).segments = cursor.flush ∧
      (tailer.step pace view).tailer.cursor =
        Cursor.openAt view cursor.path (.resuming none) ∧
      (tailer.step pace view).tailer.Forgets cursor.path := by
  have tidyAfter := tidy.step pace view
  have read : contents.length ≤ cursor.position :=
    (Nat.le_of_lt shorter).trans (Nat.le_add_right _ _)
  have forgotten : tailer.memory.offsetFor? view cursor.path = none := by
    rw [Memory.offsetFor?, tidy.currentForgotten cursor following]
    rfl
  have replaced : cursor.isReplaced view = true := by
    rw [isReplaced_of_same inspected]
    exact decide_eq_true shorter
  obtain ⟨lines, rest, cut, ways⟩ := step_of_holds pace following holds
  rw [List.drop_eq_nil_of_le read, List.append_nil] at cut
  obtain ⟨rfl, rfl⟩ := cut.eq_nil (tidy.unbroken cursor following)
  have same : cursor.advance [] cursor.fragment = cursor := rfl
  rw [same] at ways
  rcases ways with ⟨full, _⟩ | ⟨_, stays, _⟩ | ⟨_, path, opened, leaves, _, opens, step⟩
  · exact absurd full (Nat.ne_of_lt pace.lines_pos)
  · cases (successor?_eq_none stays).2.symm.trans replaced
  · have samePath : path = cursor.path := by
      rcases successor?_eq_some leaves with ⟨answer, _⟩ | ⟨samePath, _⟩
      · exact newest path answer
      · exact samePath
    subst samePath
    rw [forgotten] at opens
    rw [step] at tidyAfter ⊢
    refine ⟨rfl, opens.symm, tidyAfter, ?_, ?_, ?_, ?_⟩
    · simpa using tidy.notSkipping following
    · exact tidy.notPending cursor following
    · exact Tailer.find?_memoryAfterLeaving_self cursor cursor.path
    · intro again found _
      exact Tailer.eq_of_openAt_resuming_none (opens.trans found)

/-- A tailer whose file ends behind the offset, in what is held back or at its end, does not notice
anything. -/
theorem step_of_reaches_offset (tidy : tailer.Tidy) (following : tailer.cursor = some cursor)
    (pace : Pace) {contents : List UInt8} (holds : view.Holds cursor.id contents)
    (inspected : view.status cursor.path = some ⟨cursor.id, contents.length⟩)
    (newest : ∀ path, view.newest = .ok (some path) → path = cursor.path)
    (read : contents.length ≤ cursor.position) (reaches : cursor.offset ≤ contents.length) :
    tailer.step pace view = ⟨tailer, .wait pace.idle, []⟩ := by
  have kept : cursor.isReplaced view = false := by
    rw [isReplaced_of_same inspected]
    exact decide_eq_false (Nat.not_lt.mpr reaches)
  refine Tailer.atRest_of_read pace cursor following holds (tidy.unbroken cursor following) read ?_
  cases leaves : cursor.successor? view with
  | none => rfl
  | some path =>
    rcases successor?_eq_some leaves with ⟨answer, other⟩ | ⟨_, replaced⟩
    · exact absurd (newest path answer) other
    · cases kept.symm.trans replaced

/-- Where a file was overwritten with fewer bytes than were read of it, and the reader has nothing
left from before, a tailer at its end restarts it if and only if it ends before the offset: it
consumes what it held back, opens the file at its beginning and, once it is open, delivers the new
lines whole. If the file reaches up to the offset, the tailer keeps its place and what it held back.
-/
theorem restarts_below_offset (reachable : tailer.Reachable)
    (following : tailer.cursor = some cursor) (pace : Pace) (contents : List UInt8)
    (holds : view.Holds cursor.id contents)
    (inspected : view.status cursor.path = some ⟨cursor.id, contents.length⟩)
    (newest : ∀ path, view.newest = .ok (some path) → path = cursor.path)
    (shorter : contents.length < cursor.position) :
    (contents.length < cursor.offset →
      (tailer.step pace view).segments = cursor.flush ∧
      (tailer.step pace view).tailer.cursor =
        (view.openFile cursor.path).map (fun status => ⟨cursor.path, status.id, 0, true, []⟩) ∧
      ∀ later again, (tailer.step pace view).tailer.Locates later → later.cursor = some again →
        again.path = cursor.path → again.offset = 0 ∧ again.fragment = [] ∧
          later.DeliversWhole again.id contents) ∧
    (cursor.offset ≤ contents.length → tailer.step pace view = ⟨tailer, .wait pace.idle, []⟩) := by
  refine ⟨fun below => ?_, fun reaches => ?_⟩
  · obtain ⟨flushed, opens, forgets⟩ :=
      step_of_shorter_than_offset reachable.tidy following pace holds inspected newest below
    refine ⟨flushed, opens, fun later again locates found samePath => ?_⟩
    have begun := (locates.forgets forgets).begins again found samePath
    have offset : again.offset = 0 := by rw [begun]
    have empty : again.fragment = [] := by rw [begun]
    exact ⟨offset, empty, deliversWhole_of_begun found offset empty contents⟩
  · exact step_of_reaches_offset reachable.tidy following pace holds inspected newest
      (Nat.le_of_lt shorter) reaches

/-- A tailer that has read a line of the one file and holds back what stands behind it. -/
def halfway : Tailer :=
  let tree := loneTree.append ⟨["first"]⟩ [98, 99, 100, 101, 102] 2
  (reader.glance tree (.directory .top) false).tailer

theorem reachable_halfway : halfway.Reachable :=
  .step _ _ reachable_reader

theorem newest_ofTree_lone (bytes : List UInt8) :
    (View.ofTree (loneTree.overwrite ⟨["first"]⟩ bytes 3) (.directory .top) false).newest =
      .ok (some ⟨["first"]⟩) := by
  rfl

/-- The file is overwritten with one byte, and later its line is completed. -/
theorem restarts_halfway :
    let shortened := loneTree.overwrite ⟨["first"]⟩ [120] 3
    let completed := shortened.append ⟨["first"]⟩ [10] 4
    let view := View.ofTree shortened (.directory .top) false
    let later := (halfway.step (.ofLimit 1000 100 5) view).tailer
    halfway.Reachable ∧
      halfway.cursor = some ⟨⟨["first"]⟩, 1, 2, true, [98, 99, 100, 101, 102]⟩ ∧
      view.Holds 1 [120] ∧ view.status ⟨["first"]⟩ = some ⟨1, [(120 : UInt8)].length⟩ ∧
      (∀ path, view.newest = .ok (some path) → path = ⟨["first"]⟩) ∧
      [(120 : UInt8)].length < 2 ∧
      (halfway.step (.ofLimit 1000 100 5) view).segments =
        [⟨⟨["first"]⟩, 2, [98, 99, 100, 101, 102]⟩] ∧
      later.cursor = some ⟨⟨["first"]⟩, 1, 0, true, []⟩ ∧
      (later.glance completed (.directory .top) false).delivered = ["x"] := by
  intro shortened completed view later
  have following : halfway.cursor = some ⟨⟨["first"]⟩, 1, 2, true, [98, 99, 100, 101, 102]⟩ := by
    decide
  have holds : view.Holds 1 [120] := fun _ => rfl
  have inspected : view.status ⟨["first"]⟩ = some ⟨1, [(120 : UInt8)].length⟩ := by decide
  have newest : ∀ path, view.newest = .ok (some path) → path = ⟨["first"]⟩ := by
    intro path answer
    rw [newest_ofTree_lone] at answer
    cases answer
    rfl
  obtain ⟨flushed, opens, reads⟩ := (restarts_below_offset reachable_halfway following
    (.ofLimit 1000 100 5) [120] holds inspected newest (by decide)).1 (by decide)
  have begun : later.cursor = some ⟨⟨["first"]⟩, 1, 0, true, []⟩ := opens
  obtain ⟨_, _, whole⟩ := reads later _ .here begun rfl
  have delivered := (whole [10] _ .here (.ofLimit 1000 100 5)
    (.ofTree completed (.directory .top) false) (fun _ => rfl) (.inl (by decide))).1
  have stays : later.target? (.ofLimit 1000 100 5)
      (.ofTree completed (.directory .top) false) = none := by decide
  rw [if_pos stays, List.nil_append] at delivered
  have lines : wholeLines [120, 10] = ["x"] := by decide
  exact ⟨reachable_halfway, following, holds, inspected, newest, by decide, flushed, begun,
    delivered.trans lines⟩

/-- A file that was overwritten with fewer bytes than were read of it is not always restarted: its
new end may lie in what was held back. -/
theorem restart_of_shorter_fails :
    ¬∀ (tailer : Tailer) (cursor : Cursor), tailer.Reachable → tailer.cursor = some cursor →
      ∀ (pace : Pace) (view : View) (contents : List UInt8), view.Holds cursor.id contents →
        view.status cursor.path = some ⟨cursor.id, contents.length⟩ →
        view.openFile cursor.path = some ⟨cursor.id, contents.length⟩ →
        (∀ path, view.newest = .ok (some path) → path = cursor.path) →
        contents.length < cursor.position →
        (tailer.step pace view).tailer.cursor.map Cursor.offset = some 0 := by
  intro restarts
  have offset := restarts halfway ⟨⟨["first"]⟩, 1, 2, true, [98, 99, 100, 101, 102]⟩
    reachable_halfway (by decide) (.ofLimit 1000 100 5)
    (.ofTree (loneTree.overwrite ⟨["first"]⟩ [120, 10, 121, 10] 3) (.directory .top) false)
    [120, 10, 121, 10] (fun _ => rfl) (by decide) (by decide) (fun path answer => by
      rw [newest_ofTree_lone] at answer
      cases answer
      rfl) (by decide)
  exact absurd offset (by decide)

end NodeTelemetry.Tail
