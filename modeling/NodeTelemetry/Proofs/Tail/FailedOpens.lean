/-
This file settles what an attempt to open a file in vain costs. A tailer takes the bookmark of a
file out of its memory before it opens the file, and does not put it back if the file cannot be
opened. So a file that was left is gone on with at its bookmark exactly if all that happened
meanwhile is that other files were opened, in vain or not, fewer of them left than can be
remembered. Once the file itself could not be opened, it is read from its beginning.

`Away` follows a tailer from the step that leaves the file to the step that opens it again, through
any steps with any views, and it notes whether the file was ever asked for in vain. As long as it
was not, its bookmark is in the memory, and only the files that were left since can push it out,
each of them once. When it is asked for, the bookmark is taken out, and nothing puts it back while
the file is away, since a bookmark is only written when its own file is left.
-/

import NodeTelemetry.Proofs.Tail.Places

namespace NodeTelemetry.Tail

open Tailer

/-- What may happen from the step that leaves a file for another one until the file is opened again:
what was consumed of the file while it was at hand last, the tailer now, the paths left for others
since, each of them once, and whether the file could not be opened when this was tried. -/
inductive Away (bookmark : Bookmark) : List Segment → Tailer → List Path → Bool → Prop
  | left {start tailer : Tailer} {segments : List Segment} {first : Cursor} (pace : Pace)
      (view : View) (reachable : start.Reachable) (atHand : start.cursor = some first)
      (readsOn : start.ReadsOn tailer segments)
      (departs : tailer.departure? pace view = some bookmark.path)
      (remembered : (tailer.step pace view).tailer.memory.find? bookmark.path = some bookmark) :
      Away bookmark (segments ++ (tailer.step pace view).segments) (tailer.step pace view).tailer
        [] false
  | step {earlier : List Segment} {tailer : Tailer} {left : List Path} {refused : Bool}
      (pace : Pace) (view : View) (away : Away bookmark earlier tailer left refused)
      (unopened : ∀ cursor, (tailer.step pace view).tailer.cursor = some cursor →
        cursor.path ≠ bookmark.path) :
      Away bookmark earlier (tailer.step pace view).tailer
        (leftAfter left (tailer.departure? pace view))
        (refused || decide (tailer.target? pace view = some bookmark.path))

namespace Away

/-- What is known of a tailer while a file is away. -/
structure Known (bookmark : Bookmark) (tailer : Tailer) (left : List Path) (refused : Bool) :
    Prop where
  tidy : tailer.Tidy
  notSkipping : tailer.skipsHistory = false
  elsewhere : tailer.Elsewhere bookmark.path
  /-- The bookmark is in the memory until it is asked for or there is no room. -/
  retained : refused = false → left.length < Memory.capacity →
    tailer.memory.Retains bookmark left
  lost : refused = true → tailer.memory.find? bookmark.path = none

variable {bookmark : Bookmark} {earlier : List Segment} {tailer : Tailer} {left : List Path}
  {refused : Bool}

/-- Whatever a step does with other files, what is known of the file that is away stays so. -/
theorem Known.step (known : Known bookmark tailer left refused) (pace : Pace) (view : View)
    (unopened : ∀ cursor, (tailer.step pace view).tailer.cursor = some cursor →
      cursor.path ≠ bookmark.path) :
    Known bookmark (tailer.step pace view).tailer
      (leftAfter left (tailer.departure? pace view))
      (refused || decide (tailer.target? pace view = some bookmark.path)) where
  tidy := known.tidy.step pace view
  notSkipping := skipsHistory_step_eq_false (by simp [known.notSkipping])
  elsewhere := known.elsewhere.step unopened
  retained := fun calm few => by
    obtain ⟨notRefused, ignores⟩ := Bool.or_eq_false_iff.mp calm
    have fewBefore := (length_le_leftAfter left (tailer.departure? pace view)).trans_lt few
    exact known.tidy.retains_step (known.retained notRefused fewBefore)
      (of_decide_eq_false ignores) few
  lost := fun asked => by
    rcases Bool.or_eq_true_iff.mp asked with before | now
    · exact find?_step_eq_none known.elsewhere.notAtHand (known.lost before)
    · exact known.tidy.find?_step_of_target (of_decide_eq_true now)

/-- What was consumed of the file lies in front of the bookmark, which is in the memory. -/
theorem known (away : Away bookmark earlier tailer left refused) :
    Known bookmark tailer left refused ∧
      ∀ segment ∈ earlier, segment.start + segment.bytes.length ≤ bookmark.offset := by
  induction away with
  | @left start tailer segments first pace view reachable atHand readsOn departs remembered =>
    obtain ⟨tidy, stop, ordered, between, place⟩ := readsOn.between reachable.tidy atHand
    obtain ⟨cursor, following, samePath⟩ := exists_cursor_of_departure? departs
    obtain ⟨sameFirst, _, rfl⟩ := place cursor following
    obtain ⟨further, orderedFurther, within, _, pending, leaves⟩ :=
      tidy.between_step pace view following
    have after := tidy.step pace view
    have retains := leaves (samePath ▸ departs)
    have same : bookmark = ⟨cursor.path, cursor.id, further⟩ := by
      have found := retains.find? after.distinct
      rw [samePath, remembered] at found
      rw [Option.some.inj found, samePath]
    rw [← same] at retains
    refine ⟨⟨after, skipsHistory_step_eq_false (tidy.notSkipping following),
      ⟨fun next found back => ?_, fun _ stopped => ?_⟩, fun _ _ => retains,
      fun refused => by cases refused⟩, ?_⟩
    · have missing := after.currentForgotten next found
      rw [back, remembered] at missing
      cases missing
    · intro back
      have missing := after.pendingForgotten _ stopped
      rw [back, remembered] at missing
      cases missing
    · intro segment member
      rw [← sameFirst] at between
      rw [same]
      exact ((between.append within ordered orderedFurther) segment member).2.2
  | step pace view _ unopened inductionHypothesis =>
    exact ⟨inductionHypothesis.1.step pace view unopened, inductionHypothesis.2⟩

end Away

/-- A file that was left, whose path still leads to it and which reaches up to its bookmark, is
opened at the bookmark, unless it could not be opened meanwhile: then it is opened at its beginning.
What was consumed of it lies in front of the bookmark, and what is consumed of it now lies behind
the place where it is opened. -/
theorem reopens_unless_refused {bookmark : Bookmark} {earlier : List Segment} {tailer : Tailer}
    {left : List Path} {refused : Bool} (away : Away bookmark earlier tailer left refused)
    (few : left.length < 16) (pace : Pace) (view : View) (length : Nat)
    (asks : tailer.target? pace view = some bookmark.path)
    (inspected : view.status bookmark.path = some ⟨bookmark.id, length⟩)
    (opens : view.openFile bookmark.path = some ⟨bookmark.id, length⟩)
    (reaches : bookmark.offset ≤ length) :
    (tailer.step pace view).tailer.cursor =
        some ⟨bookmark.path, bookmark.id, if refused then 0 else bookmark.offset, refused, []⟩ ∧
      (∀ segment ∈ earlier, segment.start + segment.bytes.length ≤ bookmark.offset) ∧
      ∀ later segments, (tailer.step pace view).tailer.ReadsOn later segments → ∀ pace view,
        ∀ segment ∈ segments ++ (later.step pace view).segments,
          segment.path = bookmark.path ∧
            (if refused then 0 else bookmark.offset) ≤ segment.start := by
  obtain ⟨known, before⟩ := away.known
  have opened : (tailer.step pace view).tailer.cursor =
      some ⟨bookmark.path, bookmark.id, if refused then 0 else bookmark.offset, refused, []⟩ := by
    cases refused with
    | false =>
      have found := (known.retained rfl few).find? known.tidy.distinct
      exact known.tidy.resumes_step known.notSkipping known.elsewhere.notAtHand asks
        (known.elsewhere.bookmark?_eq.trans found) inspected opens reaches
    | true =>
      exact known.tidy.begins_step known.notSkipping known.elsewhere.notAtHand asks
        (known.elsewhere.bookmark?_eq.trans (known.lost rfl)) opens
  exact ⟨opened, before, fun later segments readsOn pace view =>
    readsOn.behind (known.tidy.step _ _) opened pace view⟩

/-- The one file, left for a second one at the end of its first line. -/
def leaver : Tailer :=
  let behind := (reader.glance loneTree (.directory .top) false).tailer
  (behind.glance pairTree (.directory .top) false).tailer

/-- What a watcher says that names one path whatever there is. -/
def naming (name : String) : Watcher :=
  .fixed (.ok (some ⟨[name]⟩))

theorem away_leaver :
    Away ⟨⟨["first"]⟩, 1, 2⟩ [⟨⟨["first"]⟩, 0, [97, 10]⟩] leaver [] false := by
  have reads : reader.ReadsOn _ _ :=
    .step (.ofLimit 1000 100 5) (.ofTree loneTree (.directory .top) false) .here (by decide)
  exact .left (.ofLimit 1000 100 5) (.ofTree pairTree (.directory .top) false) reachable_reader rfl
    reads (by decide) (by decide)

/-- A third file could not be opened. The first one is gone on with where it was left. -/
theorem resumes_leaver :
    let tailer := (leaver.glance pairTree (naming "third") false).tailer
    let view := View.ofTree (pairTree.touch ⟨["first"]⟩ 3) (.directory .top) false
    Away ⟨⟨["first"]⟩, 1, 2⟩ [⟨⟨["first"]⟩, 0, [97, 10]⟩] tailer [⟨["second"]⟩] false ∧
      [(⟨["second"]⟩ : Path)].length < 16 ∧
      tailer.target? (.ofLimit 1000 100 5) view = some ⟨["first"]⟩ ∧
      view.status ⟨["first"]⟩ = some ⟨1, 2⟩ ∧ view.openFile ⟨["first"]⟩ = some ⟨1, 2⟩ ∧
      (tailer.step (.ofLimit 1000 100 5) view).tailer.cursor =
        some ⟨⟨["first"]⟩, 1, 2, false, []⟩ := by
  intro tailer view
  have closed : tailer.cursor = none := by decide
  have away : Away ⟨⟨["first"]⟩, 1, 2⟩ [⟨⟨["first"]⟩, 0, [97, 10]⟩] tailer [⟨["second"]⟩] false :=
    away_leaver.step (.ofLimit 1000 100 5) (.ofTree pairTree (naming "third") false)
      fun cursor following => by cases closed.symm.trans following
  have asks : tailer.target? (.ofLimit 1000 100 5) view = some ⟨["first"]⟩ := by decide
  refine ⟨away, by decide, asks, by decide, by decide, ?_⟩
  exact (reopens_unless_refused away (by decide) (.ofLimit 1000 100 5) view 2 asks (by decide)
    (by decide) (Nat.le_refl 2)).1

/-- A file is not always gone on with where it was left: it was moved away when it was to be opened,
and then back. -/
theorem place_after_refusal_fails :
    ¬∀ (bookmark : Bookmark) (earlier : List Segment) (tailer : Tailer) (left : List Path)
      (refused : Bool), Away bookmark earlier tailer left refused → left.length < 16 →
      ∀ (pace : Pace) (view : View) (length : Nat),
        tailer.target? pace view = some bookmark.path →
        view.status bookmark.path = some ⟨bookmark.id, length⟩ →
        view.openFile bookmark.path = some ⟨bookmark.id, length⟩ → bookmark.offset ≤ length →
        (tailer.step pace view).tailer.cursor.map Cursor.offset = some bookmark.offset := by
  intro resumes
  let movedAway := pairTree.rename ⟨["first"]⟩ ⟨["away"]⟩
  let movedBack := movedAway.rename ⟨["away"]⟩ ⟨["first"]⟩
  have closed : (leaver.glance movedAway (naming "first") false).tailer.cursor = none := by decide
  have away := away_leaver.step (.ofLimit 1000 100 5) (.ofTree movedAway (naming "first") false)
    fun cursor following => by cases closed.symm.trans following
  have place := resumes _ _ _ _ _ away (by decide) (.ofLimit 1000 100 5)
    (.ofTree movedBack (naming "first") false) 2 (by decide) (by decide) (by decide) (by decide)
  exact absurd place (by decide)

end NodeTelemetry.Tail
