/-
This file settles where a file is gone on with of which a read failed. The place is kept apart from
the memory of the files that were left, through any number of failed scans and failed attempts to
open a file, but only until the next file is opened. If this is the file itself, it is gone on with
at its place. If it is another one, the place is lost and the file is read from its beginning when
it comes back.

When a read fails the tailer gives the file up: the cursor is gone, and its place is kept as what is
to be resumed. `Interrupted` follows the tailer from there to the step that opens the file again,
through any steps with any views, and it notes whether another file was opened meanwhile. While none
was, nothing touches the place: a scan that fails or a file that cannot be opened leaves it where it
is. When another file is opened the place is dropped, and it is not put into the memory either, as
is done with the place of a file that is left for another one.
-/

import NodeTelemetry.Proofs.Tail.Places

namespace NodeTelemetry.Tail

open Tailer

/-- What may happen from a failed read until the file is opened again: what was consumed of the file
while it was at hand, the tailer now, and whether another file was opened meanwhile. -/
inductive Interrupted (bookmark : Bookmark) : List Segment → Tailer → Bool → Prop
  | failed {start tailer : Tailer} {segments : List Segment} {first cursor : Cursor} (pace : Pace)
      (view : View) (reachable : start.Reachable) (atHand : start.cursor = some first)
      (readsOn : start.ReadsOn tailer segments) (following : tailer.cursor = some cursor)
      (fails : (tailer.step pace view).tailer.resume = some bookmark) :
      Interrupted bookmark (segments ++ (tailer.step pace view).segments)
        (tailer.step pace view).tailer false
  | step {earlier : List Segment} {tailer : Tailer} {opened : Bool} (pace : Pace) (view : View)
      (interrupted : Interrupted bookmark earlier tailer opened)
      (unopened : ∀ cursor, (tailer.step pace view).tailer.cursor = some cursor →
        cursor.path ≠ bookmark.path) :
      Interrupted bookmark earlier (tailer.step pace view).tailer
        (opened || (tailer.step pace view).tailer.cursor.isSome)

namespace Interrupted

/-- What is known of a tailer after a failed read. -/
structure Known (bookmark : Bookmark) (tailer : Tailer) (opened : Bool) : Prop where
  tidy : tailer.Tidy
  notSkipping : tailer.skipsHistory = false
  /-- The place is kept until a file is opened. -/
  pending : opened = false → tailer.cursor = none ∧ tailer.resume = some bookmark
  lost : opened = true →
    tailer.Elsewhere bookmark.path ∧ tailer.memory.find? bookmark.path = none

variable {bookmark : Bookmark} {earlier : List Segment} {tailer : Tailer} {opened : Bool}

/-- Whatever a step does, what is known after the failed read stays so until the file is opened. -/
theorem Known.step (known : Known bookmark tailer opened) (pace : Pace) (view : View)
    (unopened : ∀ cursor, (tailer.step pace view).tailer.cursor = some cursor →
      cursor.path ≠ bookmark.path) :
    Known bookmark (tailer.step pace view).tailer
      (opened || (tailer.step pace view).tailer.cursor.isSome) where
  tidy := known.tidy.step pace view
  notSkipping := skipsHistory_step_eq_false (by simp [known.notSkipping])
  pending := fun none => by
    obtain ⟨before, closed⟩ := Bool.or_eq_false_iff.mp none
    obtain ⟨locating, pending⟩ := known.pending before
    rcases step_of_pending pace view locating pending with kept | ⟨cursor, following, _⟩
    · exact kept
    · rw [following] at closed
      cases closed
  lost := fun some => by
    cases before : opened with
    | true =>
      obtain ⟨elsewhere, missing⟩ := known.lost before
      exact ⟨elsewhere.step unopened, find?_step_eq_none elsewhere.notAtHand missing⟩
    | false =>
      obtain ⟨locating, pending⟩ := known.pending before
      rcases step_of_pending pace view locating pending with
        ⟨closed, _⟩ | ⟨cursor, following, calm⟩
      · rw [before, closed] at some
        cases some
      · refine ⟨⟨unopened, fun _ stopped => ?_⟩, find?_step_eq_none (fun _ atHand => ?_)
          (known.tidy.pendingForgotten bookmark pending)⟩
        · cases calm.symm.trans stopped
        · cases locating.symm.trans atHand

/-- What was consumed of the file lies in front of its place, which is kept until a file is opened.
-/
theorem known (interrupted : Interrupted bookmark earlier tailer opened) :
    Known bookmark tailer opened ∧
      ∀ segment ∈ earlier, segment.start + segment.bytes.length ≤ bookmark.offset := by
  induction interrupted with
  | @failed start tailer segments first cursor pace view reachable atHand readsOn following fails =>
    obtain ⟨tidy, stop, ordered, between, place⟩ := readsOn.between reachable.tidy atHand
    obtain ⟨samePath, _, rfl⟩ := place cursor following
    obtain ⟨further, orderedFurther, within, _, stops, _⟩ := tidy.between_step pace view following
    have after := tidy.step pace view
    obtain rfl := stops bookmark fails
    refine ⟨⟨after, skipsHistory_step_eq_false (tidy.notSkipping following),
      fun _ => ⟨?_, fails⟩, fun opened => by cases opened⟩, ?_⟩
    · cases found : (tailer.step pace view).tailer.cursor with
      | none => rfl
      | some next => cases (after.notPending next found).symm.trans fails
    · intro segment member
      rw [← samePath] at between
      exact ((between.append within ordered orderedFurther) segment member).2.2
  | step pace view _ unopened inductionHypothesis =>
    exact ⟨inductionHypothesis.1.step pace view unopened, inductionHypothesis.2⟩

end Interrupted

/-- A file of which a read failed, whose path still leads to it and which reaches up to its place,
is opened at this place, unless another file was opened meanwhile: then it is opened at its
beginning. What was consumed of it lies in front of its place, and what is consumed of it now lies
behind the place where it is opened. -/
theorem resumes_unless_other_opened {bookmark : Bookmark} {earlier : List Segment}
    {tailer : Tailer} {opened : Bool} (interrupted : Interrupted bookmark earlier tailer opened)
    (pace : Pace) (view : View) (length : Nat)
    (asks : tailer.target? pace view = some bookmark.path)
    (inspected : view.status bookmark.path = some ⟨bookmark.id, length⟩)
    (opens : view.openFile bookmark.path = some ⟨bookmark.id, length⟩)
    (reaches : bookmark.offset ≤ length) :
    (tailer.step pace view).tailer.cursor =
        some ⟨bookmark.path, bookmark.id, if opened then 0 else bookmark.offset, opened, []⟩ ∧
      (∀ segment ∈ earlier, segment.start + segment.bytes.length ≤ bookmark.offset) ∧
      ∀ later segments, (tailer.step pace view).tailer.ReadsOn later segments → ∀ pace view,
        ∀ segment ∈ segments ++ (later.step pace view).segments,
          segment.path = bookmark.path ∧
            (if opened then 0 else bookmark.offset) ≤ segment.start := by
  obtain ⟨known, before⟩ := interrupted.known
  have place : (tailer.step pace view).tailer.cursor =
      some ⟨bookmark.path, bookmark.id, if opened then 0 else bookmark.offset, opened, []⟩ := by
    cases opened with
    | false =>
      obtain ⟨locating, pending⟩ := known.pending rfl
      have found : tailer.bookmark? bookmark.path = some bookmark :=
        (History.bookmark?_of_pending locating pending bookmark.path).trans (if_pos rfl)
      refine known.tidy.resumes_step known.notSkipping (fun _ following => ?_) asks found inspected
        opens reaches
      cases locating.symm.trans following
    | true =>
      obtain ⟨elsewhere, missing⟩ := known.lost rfl
      exact known.tidy.begins_step known.notSkipping elsewhere.notAtHand asks
        (elsewhere.bookmark?_eq.trans missing) opens
  exact ⟨place, before, fun later segments readsOn pace view =>
    readsOn.behind (known.tidy.step _ _) place pace view⟩

/-- The one file after its first line, with reading out of order. -/
def stopped : Tailer :=
  let behind := (reader.glance loneTree (.directory .top) false).tailer
  (behind.glance loneTree (.directory .top) true).tailer

theorem interrupted_stopped :
    Interrupted ⟨⟨["first"]⟩, 1, 2⟩ [⟨⟨["first"]⟩, 0, [97, 10]⟩] stopped false := by
  have reads : reader.ReadsOn _ _ :=
    .step (.ofLimit 1000 100 5) (.ofTree loneTree (.directory .top) false) .here (by decide)
  exact .failed (.ofLimit 1000 100 5) (.ofTree loneTree (.directory .top) true) reachable_reader rfl
    reads rfl (by decide)

/-- A scan failed and another file could not be opened. The file is gone on with where reading
failed. -/
theorem resumes_stopped :
    let scanned := (stopped.glance loneTree (.fixed (.error .rootAccess)) false).tailer
    let tailer := (scanned.glance loneTree (.fixed (.ok (some ⟨["third"]⟩))) false).tailer
    let view := View.ofTree (loneTree.append ⟨["first"]⟩ [98, 10] 2) (.directory .top) false
    Interrupted ⟨⟨["first"]⟩, 1, 2⟩ [⟨⟨["first"]⟩, 0, [97, 10]⟩] tailer false ∧
      tailer.target? (.ofLimit 1000 100 5) view = some ⟨["first"]⟩ ∧
      view.status ⟨["first"]⟩ = some ⟨1, 4⟩ ∧ view.openFile ⟨["first"]⟩ = some ⟨1, 4⟩ ∧ 2 ≤ 4 ∧
      (tailer.step (.ofLimit 1000 100 5) view).tailer.cursor =
        some ⟨⟨["first"]⟩, 1, 2, false, []⟩ := by
  intro scanned tailer view
  have unseen : scanned.cursor = none := by decide
  have closed : tailer.cursor = none := by decide
  have failed : Interrupted ⟨⟨["first"]⟩, 1, 2⟩ [⟨⟨["first"]⟩, 0, [97, 10]⟩] scanned false :=
    interrupted_stopped.step (.ofLimit 1000 100 5)
      (.ofTree loneTree (.fixed (.error .rootAccess)) false)
      fun cursor following => by cases unseen.symm.trans following
  have interrupted :
      Interrupted ⟨⟨["first"]⟩, 1, 2⟩ [⟨⟨["first"]⟩, 0, [97, 10]⟩] tailer false :=
    failed.step (.ofLimit 1000 100 5) (.ofTree loneTree (.fixed (.ok (some ⟨["third"]⟩))) false)
      fun cursor following => by cases closed.symm.trans following
  have asks : tailer.target? (.ofLimit 1000 100 5) view = some ⟨["first"]⟩ := by decide
  refine ⟨interrupted, asks, by decide, by decide, by decide, ?_⟩
  exact (resumes_unless_other_opened interrupted (.ofLimit 1000 100 5) view 4 asks (by decide)
    (by decide) (by decide)).1

/-- A file is not always gone on with where reading failed: a second one came up and was opened, and
then the first one was the newest again. -/
theorem place_after_failure_fails :
    ¬∀ (bookmark : Bookmark) (earlier : List Segment) (tailer : Tailer) (opened : Bool),
      Interrupted bookmark earlier tailer opened →
      ∀ (pace : Pace) (view : View) (length : Nat),
        tailer.target? pace view = some bookmark.path →
        view.status bookmark.path = some ⟨bookmark.id, length⟩ →
        view.openFile bookmark.path = some ⟨bookmark.id, length⟩ → bookmark.offset ≤ length →
        (tailer.step pace view).tailer.cursor.map Cursor.offset = some bookmark.offset := by
  intro resumes
  have other : (stopped.glance pairTree (.directory .top) false).tailer.cursor =
      some ⟨⟨["second"]⟩, 2, 0, true, []⟩ := by decide
  have interrupted := interrupted_stopped.step (.ofLimit 1000 100 5)
    (.ofTree pairTree (.directory .top) false) fun cursor following => by
      obtain rfl := Option.some.inj (other.symm.trans following)
      decide
  have place := resumes _ _ _ _ interrupted (.ofLimit 1000 100 5)
    (.ofTree (pairTree.touch ⟨["first"]⟩ 3) (.directory .top) false) 2 (by decide) (by decide)
    (by decide) (by decide)
  exact absurd place (by decide)

end NodeTelemetry.Tail
