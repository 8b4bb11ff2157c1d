/-
This file settles what a new tailer passes over. Only the file that it opens first is read from its
end, and what stood in it then is never consumed later, however often the file is left and found
again, as long as its place is not lost: it must be opened again before too many other files are
left, and right after a read of it failed. Every other file is read from its beginning when it is
opened for the first time, whenever its bytes were written.

What may fail on the way is said by `TrueTo` and `FindsAgain`. All that a view tells is true of the
files, but any file other than the first one may fail to be inspected, to be opened and to be read
at any time, and so may the first one while it is at hand. Only when the tailer goes to open the
first file again must it succeed, unless a read of it failed before, and its status must be known
then, since a failed attempt costs its place.

The invariant is `Keeps`: the place of the first file is somewhere, at the cursor, behind a failed
read or in the memory, and it never lies in front of the length that was passed over. What is
consumed of the file begins at its place, so it lies behind that length. Of a file that was never
opened no place is known anywhere, so it is opened at its beginning, unless it is the first one of
all.
-/

import NodeTelemetry.Proofs.Tail.Framing
import NodeTelemetry.Proofs.Tail.Places
import NodeTelemetry.Proofs.Tail.Settling

namespace NodeTelemetry.Tail

/-! ### What lies behind an offset -/

/-- Whether a segment lies behind an offset and is what a file holds at its place. -/
structure Segment.Behind (segment : Segment) (bytes : List UInt8) (offset : Nat) : Prop where
  start_le : offset ≤ segment.start
  holds : segment.bytes <+: bytes.drop segment.start

theorem Segment.Behind.longer {segment : Segment} {before after : List UInt8} {offset : Nat}
    (behind : segment.Behind before offset) (longer : before <+: after) :
    segment.Behind after offset where
  start_le := behind.start_le
  holds := by
    obtain ⟨more, rfl⟩ := longer
    rw [List.drop_append]
    exact behind.holds.trans (List.prefix_append _ _)

namespace Cursor

/-- Whether a cursor stands in a file behind some length, with what it holds back lying there. -/
structure Stands (cursor : Cursor) (disk : Disk) (length : Nat) : Prop where
  length_le : length ≤ cursor.offset
  offset_le : cursor.offset ≤ (disk.bytes cursor.id).length
  held : cursor.fragment <+: (disk.bytes cursor.id).drop cursor.offset

variable {cursor : Cursor} {disk : Disk} {view : View} {length : Nat}

/-- A cursor still stands in a file that has grown. -/
theorem Stands.change {after : Disk} (stands : cursor.Stands disk length)
    (grows : disk.Grows after) (leads : disk.fileAt cursor.path = some cursor.id) :
    cursor.Stands after length where
  length_le := stands.length_le
  offset_le := stands.offset_le.trans (grows.longer _ _ leads).length_le
  held := stands.held.trans (grows.drop_longer leads _)

/-- Behind the lines that were read the cursor stands in the same file. -/
theorem Stands.advance (stands : cursor.Stands disk length) (trueTo : view.TrueTo disk) {limit : Nat}
    {lines : List (List UInt8)} {rest fragment : List UInt8}
    (cut : Cut limit (cursor.pending (cursor.source view)) lines rest)
    (part : fragment <+: rest) : (cursor.advance lines fragment).Stands disk length := by
  have ahead := Cursor.pending_ahead trueTo stands.held
  rw [cut.bytes_eq] at ahead
  have room := ahead.length_le
  have offset_le := stands.offset_le
  rw [List.length_append, List.length_drop] at room
  refine ⟨stands.length_le.trans (Nat.le_add_right _ _), ?_, ?_⟩
  · show cursor.offset + lines.flatten.length ≤ (disk.bytes cursor.id).length
    omega
  · obtain ⟨more, whole⟩ := ahead
    show fragment <+: (disk.bytes cursor.id).drop (cursor.offset + lines.flatten.length)
    rw [← List.drop_drop, ← whole, List.append_assoc, List.drop_left]
    exact part.trans (List.prefix_append _ _)

/-- The lines that are consumed lie behind the length. -/
theorem Stands.lines_behind (stands : cursor.Stands disk length) (trueTo : view.TrueTo disk)
    {limit : Nat} {lines : List (List UInt8)} {rest : List UInt8}
    (cut : Cut limit (cursor.pending (cursor.source view)) lines rest) :
    ∀ segment ∈ cursor.lineSegments lines, segment.Behind (disk.bytes cursor.id) length := by
  intro segment member
  have ahead := Cursor.pending_ahead trueTo stands.held
  rw [cut.bytes_eq] at ahead
  exact ⟨stands.length_le.trans (between_of_mem_segmentsFrom member).1,
    bytes_of_mem_segmentsFrom ((List.prefix_append _ _).trans ahead) member⟩

/-- What was held back lies behind the length when it is consumed. -/
theorem Stands.flush_behind (stands : cursor.Stands disk length) :
    ∀ segment ∈ cursor.flush, segment.Behind (disk.bytes cursor.id) length := by
  intro segment member
  unfold flush at member
  split at member
  · cases member
  · rw [List.mem_singleton.mp member]
    exact ⟨stands.length_le, stands.held⟩

/-- What is held back lies in the file, so the file reaches up to the position. -/
theorem Stands.position_le (stands : cursor.Stands disk length) :
    cursor.position ≤ (disk.bytes cursor.id).length := by
  have room := stands.held.length_le
  have offset_le := stands.offset_le
  rw [List.length_drop] at room
  rw [position]
  omega

end Cursor

/-! ### The place of a file -/

namespace Tailer

/-- Where a tailer has the place of a file, which lies behind some length: at the cursor, where
reading failed, or in the memory, unless too many others were left. -/
inductive Keeps (tailer : Tailer) (disk : Disk) (path : Path) (id : FileId) (length : Nat)
    (left : List Path) : Prop
  | atHand (cursor : Cursor) (following : tailer.cursor = some cursor)
      (samePath : cursor.path = path) (sameId : cursor.id = id) (stands : cursor.Stands disk length)
  | pending (offset : Nat) (locating : tailer.cursor = none)
      (pending : tailer.resume = some ⟨path, id, offset⟩) (length_le : length ≤ offset)
      (offset_le : offset ≤ (disk.bytes id).length)
  | remembered (elsewhere : tailer.Elsewhere path)
      (retained : left.length < Memory.capacity →
        ∃ offset, tailer.memory.Retains ⟨path, id, offset⟩ left ∧ length ≤ offset ∧
          offset ≤ (disk.bytes id).length)

/-- The paths that were left since a file was left. -/
def leftSince (path : Path) (left : List Path) (departure : Option Path) : List Path :=
  if departure = some path then [] else leftAfter left departure

variable {pace : Pace} {view : View} {tailer : Tailer} {disk : Disk} {path : Path} {id : FileId}
  {length : Nat} {left : List Path}

/-- A file that has grown keeps its place. -/
theorem Keeps.change {after : Disk} (keeps : tailer.Keeps disk path id length left)
    (grows : disk.Grows after) (leads : disk.fileAt path = some id) :
    tailer.Keeps after path id length left := by
  have longer := (grows.longer path id leads).length_le
  cases keeps with
  | atHand cursor following samePath sameId stands =>
    rw [← samePath, ← sameId] at leads
    exact .atHand cursor following samePath sameId (stands.change grows leads)
  | pending offset locating pending length_le offset_le =>
    exact .pending offset locating pending length_le (offset_le.trans longer)
  | remembered elsewhere retained =>
    refine .remembered elsewhere fun few => ?_
    obtain ⟨offset, retains, length_le, offset_le⟩ := retained few
    exact ⟨offset, retains, length_le, offset_le.trans longer⟩

/-- Whether a step that goes to open a file finds it in time: fewer than 16 others were left since
it was, and it can be opened and inspected. Only after a failed read may it fail to be opened, since
this is tried again. -/
structure FindsAgain (tailer : Tailer) (view : View) (path : Path) (left : List Path) : Prop where
  few : left.length < 16
  inspected : (view.openFile path).isSome → (view.status path).isSome
  opens : (view.openFile path).isSome ∨ tailer.resume.map Bookmark.path = some path

/-- A file that is found again is gone on with at its place. -/
theorem Keeps.step_of_target (keeps : tailer.Keeps disk path id length left) (tidy : tailer.Tidy)
    (notSkipping : tailer.skipsHistory = false) (trueTo : view.TrueTo disk)
    (leads : disk.fileAt path = some id)
    (notAtHand : ∀ cursor, tailer.cursor = some cursor → cursor.path ≠ path)
    (asks : tailer.target? pace view = some path) (few : left.length < Memory.capacity)
    (inspected : (view.status path).isSome) (opens : (view.openFile path).isSome)
    (leftNow : List Path) :
    (tailer.step pace view).tailer.Keeps disk path id length leftNow := by
  have place : ∃ offset, tailer.bookmark? path = some ⟨path, id, offset⟩ ∧ length ≤ offset ∧
      offset ≤ (disk.bytes id).length := by
    cases keeps with
    | atHand cursor following samePath => exact absurd samePath (notAtHand cursor following)
    | pending offset locating pending length_le offset_le =>
      exact ⟨offset, (History.bookmark?_of_pending locating pending path).trans (if_pos rfl),
        length_le, offset_le⟩
    | remembered elsewhere retained =>
      obtain ⟨offset, retains, length_le, offset_le⟩ := retained few
      exact ⟨offset, elsewhere.bookmark?_eq.trans (retains.find? tidy.distinct), length_le,
        offset_le⟩
  obtain ⟨offset, found, length_le, offset_le⟩ := place
  have reaches : Bookmark.offset ⟨path, id, offset⟩ ≤ (disk.bytes id).length := offset_le
  obtain ⟨seen, statusSeen⟩ := Option.isSome_iff_exists.mp inspected
  obtain ⟨opened, statusOpened⟩ := Option.isSome_iff_exists.mp opens
  have status := Disk.status_eq_some leads
  obtain rfl := Option.some.inj ((trueTo.status path seen statusSeen).symm.trans status)
  obtain rfl := Option.some.inj ((trueTo.openFile path opened statusOpened).symm.trans status)
  have resumes := tidy.resumes_step notSkipping notAtHand asks found statusSeen statusOpened reaches
  exact .atHand _ resumes rfl rfl ⟨length_le, offset_le, List.nil_prefix⟩

/-- A file that is neither at hand nor asked for keeps its place in the memory while there is room.
-/
theorem Keeps.step_of_remembered (tidy : tailer.Tidy) (elsewhere : tailer.Elsewhere path)
    (retained : left.length < Memory.capacity →
      ∃ offset, tailer.memory.Retains ⟨path, id, offset⟩ left ∧ length ≤ offset ∧
        offset ≤ (disk.bytes id).length)
    (ignores : tailer.target? pace view ≠ some path)
    (unopened : ∀ cursor, (tailer.step pace view).tailer.cursor = some cursor →
      cursor.path ≠ path) :
    (tailer.step pace view).tailer.Keeps disk path id length
      (leftSince path left (tailer.departure? pace view)) := by
  have stays : tailer.departure? pace view ≠ some path := by
    intro departs
    obtain ⟨cursor, following, samePath⟩ := exists_cursor_of_departure? departs
    exact elsewhere.notAtHand cursor following samePath
  rw [leftSince, if_neg stays]
  refine .remembered (elsewhere.step unopened) fun few => ?_
  have fewBefore := (length_le_leftAfter left (tailer.departure? pace view)).trans_lt few
  obtain ⟨offset, retains, length_le, offset_le⟩ := retained fewBefore
  exact ⟨offset, tidy.retains_step retains ignores few, length_le, offset_le⟩

/-- A file of which a read failed keeps its place until it is opened. -/
theorem Keeps.step_of_pending {offset : Nat} (locating : tailer.cursor = none)
    (pending : tailer.resume = some ⟨path, id, offset⟩) (length_le : length ≤ offset)
    (offset_le : offset ≤ (disk.bytes id).length)
    (unopened : ∀ cursor, (tailer.step pace view).tailer.cursor = some cursor →
      cursor.path ≠ path)
    (relocates : ∀ cursor, (tailer.step pace view).tailer.cursor = some cursor →
      cursor.path = path) (leftNow : List Path) :
    (tailer.step pace view).tailer.Keeps disk path id length leftNow := by
  rcases Tailer.step_of_pending pace view locating pending with
    ⟨stillLocating, kept⟩ | ⟨cursor, following, _⟩
  · exact .pending offset stillLocating kept length_le offset_le
  · exact absurd (relocates cursor following) (unopened cursor following)

/-- A file that is read on keeps its place, be it kept, given up or left for another one, and what
is consumed of it lies behind the length. -/
theorem Keeps.step_of_atHand {cursor : Cursor} (tidy : tailer.Tidy)
    (following : tailer.cursor = some cursor) (stands : cursor.Stands disk length)
    (trueTo : view.TrueTo disk) (leads : disk.fileAt cursor.path = some cursor.id) (pace : Pace)
    (left : List Path) :
    (tailer.step pace view).tailer.Keeps disk cursor.path cursor.id length
        (leftSince cursor.path left (tailer.departure? pace view)) ∧
      ∀ segment ∈ (tailer.step pace view).segments,
        segment.Behind (disk.bytes cursor.id) length := by
  have turn := turn_step pace view tailer
  unfold departure?
  generalize tailer.step pace view = outcome at turn ⊢
  generalize tailer.target? pace view = target at turn ⊢
  cases turn with
  | unanswered fault locating => cases locating.symm.trans following
  | nothing locating => cases locating.symm.trans following
  | refused next locating => cases locating.symm.trans following
  | opened next opened locating => cases locating.symm.trans following
  | busy current lines rest current_eq cut =>
    obtain rfl := Option.some.inj (current_eq.symm.trans following)
    exact ⟨.atHand _ rfl rfl rfl (stands.advance trueTo cut List.nil_prefix),
      stands.lines_behind trueTo cut⟩
  | idle current lines rest current_eq cut =>
    obtain rfl := Option.some.inj (current_eq.symm.trans following)
    exact ⟨.atHand _ rfl rfl rfl (stands.advance trueTo cut (List.prefix_refl rest)),
      stands.lines_behind trueTo cut⟩
  | broken current lines rest current_eq cut =>
    obtain rfl := Option.some.inj (current_eq.symm.trans following)
    have moved := stands.advance trueTo cut (List.prefix_refl rest)
    exact ⟨.pending _ rfl rfl moved.length_le moved.offset_le, stands.lines_behind trueTo cut⟩
  | left current lines rest next opened current_eq cut short ends leaves opens =>
    obtain rfl := Option.some.inj (current_eq.symm.trans following)
    have moved := stands.advance trueTo cut (List.prefix_refl rest)
    have leadsNow : disk.fileAt (current.advance lines rest).path =
        some (current.advance lines rest).id := leads
    -- The path still leads to the file at hand, so it is left for another one.
    have different : next ≠ current.path := by
      rcases successor?_eq_some leaves with ⟨_, other⟩ | ⟨_, replaced⟩
      · exact other
      · cases (Cursor.isReplaced_of_trueTo trueTo leadsNow moved.offset_le).symm.trans replaced
    have elsewhere : (current.advance lines rest).path ≠ next := Ne.symm different
    refine ⟨?_, ?_⟩
    · rw [leftFor?_of_following following, if_neg different, leftSince, if_pos rfl]
      refine .remembered ⟨fun _ found => ?_, fun _ pending => ?_⟩ fun _ => ?_
      · obtain ⟨_, _, samePath, _⟩ := openAt_eq_some (opens.trans found)
        rw [samePath]
        exact different
      · cases (tidy.notPending current following).symm.trans pending
      · refine ⟨(current.advance lines rest).position, ?_,
          moved.length_le.trans (Nat.le_add_right _ _), moved.position_le⟩
        show (tailer.memoryAfterLeaving (current.advance lines rest) next).Retains _ []
        rw [memoryAfterLeaving_of_ne elsewhere]
        exact Memory.retains_remember_self _ _
    · exact List.forall_mem_append.mpr ⟨stands.lines_behind trueTo cut, moved.flush_behind⟩

/-- The path to open is not at hand after the step if it cannot be opened. -/
theorem Tidy.path_ne_of_closed (tidy : tailer.Tidy) (notSkipping : tailer.skipsHistory = false)
    (notAtHand : ∀ cursor, tailer.cursor = some cursor → cursor.path ≠ path)
    (asks : tailer.target? pace view = some path) (closed : view.openFile path = none) :
    ∀ cursor, (tailer.step pace view).tailer.cursor = some cursor → cursor.path ≠ path := by
  intro cursor following
  have opens := tidy.cursor_step_of_target notSkipping notAtHand asks
  rw [openAt_eq_none.mpr closed, following] at opens
  cases opens

/-- A path that a step does not go to open is not at hand after the step unless it was before. -/
theorem path_ne_of_ignored
    (notAtHand : ∀ cursor, tailer.cursor = some cursor → cursor.path ≠ path)
    (ignores : tailer.target? pace view ≠ some path) :
    ∀ cursor, (tailer.step pace view).tailer.cursor = some cursor → cursor.path ≠ path := by
  rintro cursor following rfl
  rcases target?_or_kept following with asks | ⟨before, atHand, samePath⟩
  · exact ignores asks
  · exact notAtHand before atHand samePath

/-- Whatever a step does, a file that is not at hand keeps its place behind the length, if it is
found again in time. -/
theorem Keeps.step_of_notAtHand (keeps : tailer.Keeps disk path id length left)
    (tidy : tailer.Tidy) (notSkipping : tailer.skipsHistory = false) (trueTo : view.TrueTo disk)
    (leads : disk.fileAt path = some id)
    (notAtHand : ∀ cursor, tailer.cursor = some cursor → cursor.path ≠ path)
    (returns : tailer.target? pace view = some path → tailer.FindsAgain view path left)
    (relocates : ∀ bookmark cursor, tailer.resume = some bookmark → bookmark.path = path →
      (tailer.step pace view).tailer.cursor = some cursor → cursor.path = path) :
    (tailer.step pace view).tailer.Keeps disk path id length
      (leftSince path left (tailer.departure? pace view)) := by
  by_cases asks : tailer.target? pace view = some path
  · obtain ⟨few, inspected, reopens⟩ := returns asks
    cases opened : view.openFile path with
    | some status =>
      have opens : (view.openFile path).isSome := Option.isSome_of_eq_some opened
      exact keeps.step_of_target tidy notSkipping trueTo leads notAtHand asks few
        (inspected opens) opens _
    | none =>
      rw [opened, Option.isSome_none, Bool.false_eq_true, false_or] at reopens
      obtain ⟨bookmark, failed, samePath⟩ := Option.map_eq_some_iff.mp reopens
      cases keeps with
      | atHand cursor following samePath => exact absurd samePath (notAtHand cursor following)
      | pending offset locating pending length_le offset_le =>
        exact Keeps.step_of_pending locating pending length_le offset_le
          (tidy.path_ne_of_closed notSkipping notAtHand asks opened)
          (fun cursor => relocates _ cursor pending rfl) _
      | remembered elsewhere => exact absurd samePath (elsewhere.notPending bookmark failed)
  · have unopened := path_ne_of_ignored notAtHand asks
    cases keeps with
    | atHand cursor following samePath => exact absurd samePath (notAtHand cursor following)
    | pending offset locating pending length_le offset_le =>
      exact Keeps.step_of_pending locating pending length_le offset_le unopened
        (fun cursor => relocates _ cursor pending rfl) _
    | remembered elsewhere retained =>
      exact Keeps.step_of_remembered tidy elsewhere retained asks unopened

/-- Whatever a step does, a file keeps its place behind the length, and what is consumed of it lies
there, if it is found again in time. -/
theorem Keeps.step (keeps : tailer.Keeps disk path id length left) (pace : Pace)
    (tidy : tailer.Tidy) (notSkipping : tailer.skipsHistory = false) (trueTo : view.TrueTo disk)
    (leads : disk.fileAt path = some id)
    (returns : tailer.target? pace view = some path → tailer.FindsAgain view path left)
    (relocates : ∀ bookmark cursor, tailer.resume = some bookmark → bookmark.path = path →
      (tailer.step pace view).tailer.cursor = some cursor → cursor.path = path) :
    (tailer.step pace view).tailer.Keeps disk path id length
        (leftSince path left (tailer.departure? pace view)) ∧
      ∀ segment ∈ (tailer.step pace view).segments, segment.path = path →
        segment.Behind (disk.bytes id) length := by
  by_cases atHand : ∃ cursor, tailer.cursor = some cursor ∧ cursor.path = path
  · obtain ⟨cursor, following, rfl⟩ := atHand
    cases keeps with
    | atHand current current_eq samePath sameId stands =>
      obtain rfl := Option.some.inj (current_eq.symm.trans following)
      subst sameId
      obtain ⟨kept, behind⟩ := Keeps.step_of_atHand tidy following stands trueTo leads pace left
      exact ⟨kept, fun segment member _ => behind segment member⟩
    | pending offset locating => cases locating.symm.trans following
    | remembered elsewhere => exact absurd rfl (elsewhere.notAtHand cursor following)
  · have notAtHand : ∀ cursor, tailer.cursor = some cursor → cursor.path ≠ path :=
      fun cursor following samePath => atHand ⟨cursor, following, samePath⟩
    refine ⟨keeps.step_of_notAtHand tidy notSkipping trueTo leads notAtHand returns relocates,
      fun segment member samePath => ?_⟩
    obtain ⟨cursor, following, current⟩ := exists_cursor_of_mem_segments member
    exact absurd (current.symm.trans samePath) (notAtHand cursor following)

/-- The first file is opened at its end. -/
theorem Tidy.openAt_of_skipping (tidy : tailer.Tidy) (skips : tailer.skipsHistory = true)
    {cursor : Cursor} (following : (tailer.step pace view).tailer.cursor = some cursor) :
    ∃ path, Cursor.openAt view path .atEnd = some cursor := by
  rcases step_of_locating pace view (tidy.nothingYet skips).1 with
    ⟨closed, _⟩ | ⟨path, opened, current, _, opens⟩
  · cases closed.symm.trans following
  · obtain rfl := Option.some.inj (current.symm.trans following)
    rw [startFor, if_pos skips] at opens
    exact ⟨path, opens⟩

/-- If there is a file to find, only opening one ends the wait for the first file. -/
theorem Tidy.exists_cursor_of_skipping (tidy : tailer.Tidy) (skips : tailer.skipsHistory = true)
    (finds : view.newest ≠ .ok none)
    (passed : (tailer.step pace view).tailer.skipsHistory = false) :
    ∃ cursor, (tailer.step pace view).tailer.cursor = some cursor := by
  rcases step_of_locating pace view (tidy.nothingYet skips).1 with
    ⟨_, _, kept⟩ | ⟨_, cursor, following, _⟩
  · cases ((kept finds).trans skips).symm.trans passed
  · exact ⟨cursor, following⟩

end Tailer

/-! ### Histories -/

namespace History

/-- The path of the file that was read from its end. -/
def passedOver (history : History) : Option Path :=
  history.skipped.map Prod.fst

/-- The paths that were left since the file was that was read from its end. -/
def leftNext (history : History) (left : List Path) (pace : Pace) (view : View) : List Path :=
  match history.passedOver with
  | none => left
  | some first => Tailer.leftSince first left (history.tailer.departure? pace view)

/-- The histories in which files only come into being and grow and the first look finds a file, and
in which the file that was read from its end is found again in time: before too many others are
left, and first of all after a read of it failed. With them the paths that were left since this file
was. Any other file may fail to be inspected, to be opened and to be read, and so may this one while
it is at hand. -/
inductive InTime : History → List Path → Prop
  | start (disk : Disk) : InTime (start disk) []
  | change {history : History} {left : List Path} (disk : Disk) (inTime : InTime history left)
      (grows : history.disk.Grows disk) : InTime (history.change disk) left
  | step {history : History} {left : List Path} (pace : Pace) (view : View)
      (inTime : InTime history left) (trueTo : view.TrueTo history.disk)
      (finds : history.tailer.skipsHistory = true → view.newest ≠ .ok none)
      (returns : ∀ first, history.passedOver = some first →
        history.tailer.target? pace view = some first →
        history.tailer.FindsAgain view first left)
      (relocates : ∀ bookmark cursor, history.tailer.resume = some bookmark →
        history.passedOver = some bookmark.path →
        (history.tailer.step pace view).tailer.cursor = some cursor →
        cursor.path = bookmark.path) :
      InTime (history.step pace view) (history.leftNext left pace view)

/-- What is known of the file that was read from its end. -/
structure PassedOver (history : History) (left : List Path) (first : Path) (length : Nat)
    (id : FileId) : Prop where
  followed : first ∈ history.followed
  leads : history.disk.fileAt first = some id
  keeps : history.tailer.Keeps history.disk first id length left
  behind : ∀ segment ∈ history.consumed, segment.path = first →
    segment.Behind (history.disk.bytes id) length

/-- What is known of a history in which the first file is found again in time. -/
structure Known (history : History) (left : List Path) : Prop where
  tidy : history.tailer.Tidy
  nothingYet : history.tailer.skipsHistory = true →
    history.skipped = none ∧ history.followed = [] ∧ history.consumed = []
  passesOver : history.tailer.skipsHistory = false →
    ∃ first length id, history.skipped = some (first, length) ∧
      history.PassedOver left first length id
  /-- Of files that were never followed no place is known. -/
  unknown : ∀ path, path ∉ history.followed →
    history.tailer.Elsewhere path ∧ history.tailer.memory.find? path = none

theorem known_start (disk : Disk) : (start disk).Known [] where
  tidy := Tailer.tidy_fresh
  nothingYet := fun _ => ⟨rfl, rfl, rfl⟩
  passesOver := fun passed => by cases passed
  unknown := fun _ _ =>
    ⟨{ notAtHand := fun _ following => by cases following
       notPending := fun _ pending => by cases pending }, rfl⟩

variable {history : History} {left : List Path}

theorem Known.change (known : history.Known left) {disk : Disk} (grows : history.disk.Grows disk) :
    (history.change disk).Known left where
  tidy := known.tidy
  nothingYet := known.nothingYet
  passesOver := fun passed => by
    obtain ⟨first, length, id, skipped, passedOver⟩ := known.passesOver passed
    refine ⟨first, length, id, skipped, ⟨passedOver.followed, grows.stays _ _ passedOver.leads,
      passedOver.keeps.change grows passedOver.leads, fun segment member samePath => ?_⟩⟩
    exact (passedOver.behind segment member samePath).longer (grows.longer _ _ passedOver.leads)
  unknown := known.unknown

variable {pace : Pace} {view : View}

theorem followed_step (history : History) (pace : Pace) (view : View) :
    (history.step pace view).followed =
      match (history.tailer.step pace view).tailer.cursor with
      | none => history.followed
      | some cursor => history.followed.insert cursor.path := rfl

theorem mem_followed_step {cursor : Cursor}
    (following : (history.tailer.step pace view).tailer.cursor = some cursor) :
    cursor.path ∈ (history.step pace view).followed := by
  rw [followed_step, following]
  exact List.mem_insert_self

theorem subset_followed_step : history.followed ⊆ (history.step pace view).followed := by
  intro path member
  rw [followed_step]
  split
  · exact member
  · exact List.mem_insert_of_mem member

theorem skipped_step_of_skipping {cursor : Cursor} (skips : history.tailer.skipsHistory = true)
    (following : (history.tailer.step pace view).tailer.cursor = some cursor) :
    (history.step pace view).skipped =
      some (cursor.path, (history.disk.bytes cursor.id).length) := by
  simp only [History.step, after, following, skips, if_true]

theorem skipped_step_of_notSkipping (notSkipping : history.tailer.skipsHistory = false) :
    (history.step pace view).skipped = history.skipped := by
  simp only [History.step, after, notSkipping]
  split <;> rfl

/-- What was not followed after a step was not followed before, nor is it at hand. -/
theorem notMem_of_notMem_step {path : Path}
    (unfollowed : path ∉ (history.step pace view).followed) :
    path ∉ history.followed ∧
      ∀ cursor, (history.tailer.step pace view).tailer.cursor = some cursor →
        cursor.path ≠ path := by
  rw [followed_step] at unfollowed
  split at unfollowed
  · next locating => exact ⟨unfollowed, fun _ following => by cases locating.symm.trans following⟩
  · next opened current =>
    refine ⟨fun member => unfollowed (List.mem_insert_of_mem member), fun cursor following => ?_⟩
    obtain rfl := Option.some.inj (current.symm.trans following)
    rintro rfl
    exact unfollowed List.mem_insert_self

/-- The first file that is opened is passed over up to its end. -/
theorem passedOver_of_opened (tidy : history.tailer.Tidy)
    (skips : history.tailer.skipsHistory = true) (nothing : history.consumed = [])
    (trueTo : view.TrueTo history.disk) {cursor : Cursor}
    (following : (history.tailer.step pace view).tailer.cursor = some cursor) :
    (history.step pace view).PassedOver (history.leftNext left pace view) cursor.path
      (history.disk.bytes cursor.id).length cursor.id := by
  obtain ⟨path, opens⟩ := tidy.openAt_of_skipping skips following
  obtain ⟨rfl, leads, empty, offset⟩ := Cursor.openAt_of_trueTo trueTo opens
  have begins : cursor.Stands history.disk (history.disk.bytes cursor.id).length :=
    ⟨offset.ge, offset.le, empty ▸ List.nil_prefix⟩
  refine ⟨mem_followed_step following, leads, .atHand cursor following rfl rfl begins,
    fun segment member => ?_⟩
  have member : segment ∈ history.consumed ++ (history.tailer.step pace view).segments := member
  rw [nothing, Tailer.segments_step_of_locating (tidy.nothingYet skips).1] at member
  cases member

/-- Whatever a step does, the first file stays passed over up to its length. -/
theorem PassedOver.step {first : Path} {length : Nat} {id : FileId}
    (passedOver : history.PassedOver left first length id)
    (isFirst : history.passedOver = some first) (tidy : history.tailer.Tidy)
    (notSkipping : history.tailer.skipsHistory = false)
    (trueTo : view.TrueTo history.disk)
    (returns : history.tailer.target? pace view = some first →
      history.tailer.FindsAgain view first left)
    (relocates : ∀ bookmark cursor, history.tailer.resume = some bookmark →
      bookmark.path = first → (history.tailer.step pace view).tailer.cursor = some cursor →
      cursor.path = first) :
    (history.step pace view).PassedOver (history.leftNext left pace view) first length id := by
  obtain ⟨kept, behind⟩ := passedOver.keeps.step pace tidy notSkipping trueTo passedOver.leads
    returns relocates
  refine ⟨subset_followed_step passedOver.followed, passedOver.leads, ?_, ?_⟩
  · rw [leftNext, isFirst]
    exact kept
  · exact List.forall_mem_append.mpr ⟨passedOver.behind, behind⟩

theorem Known.step (known : history.Known left) (trueTo : view.TrueTo history.disk)
    (finds : history.tailer.skipsHistory = true → view.newest ≠ .ok none)
    (returns : ∀ first, history.passedOver = some first →
      history.tailer.target? pace view = some first → history.tailer.FindsAgain view first left)
    (relocates : ∀ bookmark cursor, history.tailer.resume = some bookmark →
      history.passedOver = some bookmark.path →
      (history.tailer.step pace view).tailer.cursor = some cursor → cursor.path = bookmark.path) :
    (history.step pace view).Known (history.leftNext left pace view) where
  tidy := known.tidy.step pace view
  nothingYet := fun skipsStill => by
    have skips : history.tailer.skipsHistory = true := by
      by_contra notSkipping
      cases (Tailer.skipsHistory_step_eq_false notSkipping).symm.trans skipsStill
    have closed : (history.tailer.step pace view).tailer.cursor = none :=
      ((known.tidy.step pace view).nothingYet skipsStill).1
    obtain ⟨notSkipped, notFollowed, nothing⟩ := known.nothingYet skips
    rw [History.step, after_of_locating closed]
    refine ⟨notSkipped, notFollowed, ?_⟩
    show history.consumed ++ (history.tailer.step pace view).segments = []
    rw [nothing, Tailer.segments_step_of_locating (known.tidy.nothingYet skips).1]
    rfl
  passesOver := fun passed => by
    cases skips : history.tailer.skipsHistory with
    | true =>
      obtain ⟨cursor, following⟩ :=
        known.tidy.exists_cursor_of_skipping skips (finds skips) passed
      exact ⟨cursor.path, _, cursor.id, skipped_step_of_skipping skips following,
        passedOver_of_opened known.tidy skips (known.nothingYet skips).2.2 trueTo following⟩
    | false =>
      obtain ⟨first, length, id, skipped, passedOver⟩ := known.passesOver skips
      have isFirst : history.passedOver = some first := by
        rw [History.passedOver, skipped]
        rfl
      refine ⟨first, length, id, (skipped_step_of_notSkipping skips).trans skipped,
        passedOver.step isFirst known.tidy skips trueTo (returns first isFirst) ?_⟩
      rintro bookmark cursor pending rfl following
      exact relocates bookmark cursor pending isFirst following
  unknown := fun path unfollowed => by
    obtain ⟨before, unopened⟩ := notMem_of_notMem_step unfollowed
    obtain ⟨elsewhere, missing⟩ := known.unknown path before
    exact ⟨elsewhere.step unopened, Tailer.find?_step_eq_none elsewhere.notAtHand missing⟩

theorem InTime.known (inTime : history.InTime left) : history.Known left := by
  induction inTime with
  | start disk => exact known_start disk
  | change disk _ grows inductionHypothesis => exact inductionHypothesis.change grows
  | step pace view _ trueTo finds returns relocates inductionHypothesis =>
    exact inductionHypothesis.step trueTo finds returns relocates

/-- The path of the file that was read from its end leads to this file. -/
theorem Known.exists_fileAt (known : history.Known left) {first : Path}
    (isFirst : history.passedOver = some first) : ∃ id, history.disk.fileAt first = some id := by
  obtain ⟨⟨_, length⟩, skipped, rfl⟩ := Option.map_eq_some_iff.mp isFirst
  cases skips : history.tailer.skipsHistory with
  | true => cases (known.nothingYet skips).1.symm.trans skipped
  | false =>
    obtain ⟨_, _, id, found, passedOver⟩ := known.passesOver skips
    obtain ⟨rfl, rfl⟩ := Prod.mk.inj (Option.some.inj (found.symm.trans skipped))
    exact ⟨id, passedOver.leads⟩

/-- The history after a step that sees a tree, at most five lines of which are read. -/
def survey (history : History) (tree : FileTree) : History :=
  history.step (.ofLimit 1000 100 5) (.ofTree tree (.directory .top) false)

/-- The paths that were left since the first file was, after a step that sees a tree. -/
def leftBySurvey (history : History) (left : List Path) (tree : FileTree) : List Path :=
  history.leftNext left (.ofLimit 1000 100 5) (.ofTree tree (.directory .top) false)

theorem InTime.survey (inTime : history.InTime left) {tree : FileTree} (sound : tree.Sound)
    (sees : history.disk = tree.disk) (calm : history.tailer.resume = none)
    (few : left.length < 16) (finds : (tree.newest .top).toOption.join ≠ none) :
    (history.survey tree).InTime (history.leftBySurvey left tree) := by
  have shows : View.Shows (.ofTree tree (.directory .top) false) history.disk :=
    sees ▸ shows_ofTree sound (.directory .top) false
  refine .step _ _ inTime shows.trueTo (fun _ nothing => ?_) (fun first isFirst _ => ?_)
    fun _ _ failed => ?_
  · have answer : tree.newest .top = .ok none := nothing
    rw [answer] at finds
    exact finds rfl
  · obtain ⟨id, leads⟩ := inTime.known.exists_fileAt isFirst
    have status := Disk.status_eq_some leads
    exact ⟨few, fun _ => Option.isSome_of_eq_some ((shows.status first).trans status),
      .inl (Option.isSome_of_eq_some ((shows.openFile first).trans status))⟩
  · cases calm.symm.trans failed

/-- The two files after the first one has grown, and after the second one has. -/
def firstGrown : FileTree :=
  pairTree.append ⟨["first"]⟩ [99, 10] 3

def bothGrown : FileTree :=
  firstGrown.append ⟨["second"]⟩ [100, 10] 4

/-- What is seen when the first file has grown and no file can be opened. -/
def closedView : View :=
  { View.ofTree firstGrown (.directory .top) false with openFile := fun _ => none }

/-- A tailer that has opened the second file at its end and then leaves it for the first one. -/
def departing : History :=
  ((start pairTree.disk).survey pairTree).change firstGrown.disk

/-- The same tailer when the first file could not be opened. -/
def departed : History :=
  departing.step (.ofLimit 1000 100 5) closedView

/-- A tailer that comes back to the second file. -/
def returned : History :=
  let left := departed.survey firstGrown
  ((left.change bothGrown.disk).survey bothGrown).survey bothGrown

end History

namespace History

end History

end NodeTelemetry.Tail
