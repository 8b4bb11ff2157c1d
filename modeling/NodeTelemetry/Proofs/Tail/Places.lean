/-
This file follows the place at which a tailer would go on with a file that is not at hand. It says
where such a file is opened, which steps keep its place and which lose it, and that a lost place
stays lost. Between two steps that open a file, what is consumed lies behind the place where the
file was opened.

Only few things can happen to the place of a path in one step. A step that goes to open the path
takes its bookmark out of the memory, whether or not the path can be opened. A step that leaves the
path for another one puts it in. Any other step at most pushes it out, and this only by leaving one
more file. So a path without a place gets one only by being at hand first. Each of these is a lemma
about the ways of a step, and the files that settle what becomes of a place over several steps
follow from them by induction over the steps.
-/

import NodeTelemetry.Proofs.Tail.Consumption

namespace NodeTelemetry.Tail

namespace Tailer

/-- Whether a path is neither at hand nor the one of which a read failed. -/
structure Elsewhere (tailer : Tailer) (path : Path) : Prop where
  notAtHand : ∀ cursor, tailer.cursor = some cursor → cursor.path ≠ path
  notPending : ∀ bookmark, tailer.resume = some bookmark → bookmark.path ≠ path

/-- The path at hand, if a target is another one. -/
def leftFor? (tailer : Tailer) (target : Option Path) : Option Path :=
  match tailer.cursor, target with
  | some cursor, some path => if path = cursor.path then none else some cursor.path
  | _, _ => none

/-- The path that a step leaves for another one, if it does so. -/
def departure? (pace : Pace) (view : View) (tailer : Tailer) : Option Path :=
  tailer.leftFor? (tailer.target? pace view)

/-- The paths that were left, each of them once, after a step. -/
def leftAfter (left : List Path) (departure : Option Path) : List Path :=
  match departure with
  | none => left
  | some path => left.insert path

theorem length_le_leftAfter (left : List Path) (departure : Option Path) :
    left.length ≤ (leftAfter left departure).length := by
  cases departure with
  | none => exact Nat.le_refl _
  | some path => exact List.length_le_length_insert

variable {pace : Pace} {view : View} {tailer : Tailer} {path : Path} {bookmark : Bookmark}

theorem leftFor?_of_locating (locating : tailer.cursor = none) (target : Option Path) :
    tailer.leftFor? target = none := by
  simp only [leftFor?, locating]

theorem leftFor?_none (tailer : Tailer) : tailer.leftFor? none = none := by
  unfold leftFor?
  split
  · next found => cases found
  · rfl

theorem leftFor?_of_following {cursor : Cursor} (following : tailer.cursor = some cursor)
    (path : Path) :
    tailer.leftFor? (some path) = if path = cursor.path then none else some cursor.path := by
  simp only [leftFor?, following]

theorem memoryAfterLeaving_of_eq {cursor : Cursor} (same : cursor.path = path) :
    tailer.memoryAfterLeaving cursor path = tailer.memory.forget path :=
  if_pos same

theorem memoryAfterLeaving_of_ne {cursor : Cursor} (different : cursor.path ≠ path) :
    tailer.memoryAfterLeaving cursor path =
      (tailer.memory.forget path).remember cursor.flushed.bookmark :=
  if_neg different

/-! ### The file at hand -/

/-- The file at hand after a step is the one that the step went to open, or it was at hand before.
-/
theorem target?_or_kept {cursor : Cursor}
    (following : (tailer.step pace view).tailer.cursor = some cursor) :
    tailer.target? pace view = some cursor.path ∨
      ∃ before, tailer.cursor = some before ∧ before.path = cursor.path := by
  have turn := turn_step pace view tailer
  generalize tailer.step pace view = outcome at turn following
  generalize tailer.target? pace view = target at turn ⊢
  cases turn with
  | unanswered | nothing | refused => exact .inr ⟨cursor, following, rfl⟩
  | broken => cases following
  | busy before lines rest atHand | idle before lines rest atHand =>
    obtain rfl := Option.some.inj following
    exact .inr ⟨before, atHand, rfl⟩
  | opened path opened locating answer opens =>
    obtain rfl := Option.some.inj following
    obtain ⟨_, _, samePath, _⟩ := openAt_eq_some opens
    exact .inl (congrArg some samePath.symm)
  | left before lines rest path opened atHand cut short ends leaves opens =>
    obtain ⟨_, _, samePath, _⟩ := openAt_eq_some (opens.trans following)
    exact .inl (congrArg some samePath.symm)

/-- With no file at hand, a step opens one, or it keeps what it knows of a failed read and of the
start, unless there is no file at all. -/
theorem step_of_locating (pace : Pace) (view : View) (locating : tailer.cursor = none) :
    ((tailer.step pace view).tailer.cursor = none ∧
        (tailer.step pace view).tailer.resume = tailer.resume ∧
        (view.newest ≠ .ok none →
          (tailer.step pace view).tailer.skipsHistory = tailer.skipsHistory)) ∨
      ∃ path cursor, (tailer.step pace view).tailer.cursor = some cursor ∧
        (tailer.step pace view).tailer.resume = none ∧
        Cursor.openAt view path (tailer.startFor view path) = some cursor := by
  have turn := turn_step pace view tailer
  generalize tailer.step pace view = outcome at turn ⊢
  generalize tailer.target? pace view = target at turn
  cases turn with
  | unanswered | refused => exact .inl ⟨locating, rfl, fun _ => rfl⟩
  | nothing _ answer => exact .inl ⟨locating, rfl, fun finds => absurd answer finds⟩
  | opened path cursor _ _ opens => exact .inr ⟨path, cursor, rfl, rfl, opens⟩
  | busy cursor lines rest following | broken cursor lines rest following
  | idle cursor lines rest following | left cursor lines rest next opened following =>
    cases locating.symm.trans following

/-- What a step consumes is of the file that was at hand before. -/
theorem exists_cursor_of_mem_segments {segment : Segment}
    (member : segment ∈ (tailer.step pace view).segments) :
    ∃ cursor, tailer.cursor = some cursor ∧ segment.path = cursor.path := by
  have turn := turn_step pace view tailer
  generalize tailer.step pace view = outcome at turn member
  generalize tailer.target? pace view = target at turn
  cases turn with
  | unanswered | nothing | refused | opened => cases member
  | busy cursor lines rest following | broken cursor lines rest following
  | idle cursor lines rest following =>
    exact ⟨cursor, following, Cursor.path_of_mem_lineSegments member⟩
  | left cursor lines rest next opened following =>
    refine ⟨cursor, following, ?_⟩
    rcases List.mem_append.mp member with line | held
    · exact Cursor.path_of_mem_lineSegments line
    · have samePath : segment.path = (cursor.advance lines rest).path :=
        Cursor.path_of_mem_flush held
      exact samePath

theorem segments_step_of_locating (locating : tailer.cursor = none) :
    (tailer.step pace view).segments = [] := by
  refine List.eq_nil_iff_forall_not_mem.mpr fun segment member => ?_
  obtain ⟨cursor, following, _⟩ := exists_cursor_of_mem_segments member
  cases locating.symm.trans following

/-! ### Paths that are not at hand -/

/-- Where a path is neither at hand nor pending, only the memory has a place for it. -/
theorem Elsewhere.bookmark?_eq (elsewhere : tailer.Elsewhere path) :
    tailer.bookmark? path = tailer.memory.find? path := by
  cases following : tailer.cursor with
  | some cursor =>
    rw [History.bookmark?_of_following _ following,
      if_neg (elsewhere.notAtHand cursor following)]
  | none =>
    cases pending : tailer.resume with
    | some bookmark =>
      rw [History.bookmark?_of_pending following pending,
        if_neg (elsewhere.notPending bookmark pending)]
    | none => exact History.bookmark?_of_locating following pending path

/-- A path that is not opened does not come to hand. -/
theorem Elsewhere.step (elsewhere : tailer.Elsewhere path)
    (unopened : ∀ cursor, (tailer.step pace view).tailer.cursor = some cursor →
      cursor.path ≠ path) : (tailer.step pace view).tailer.Elsewhere path where
  notAtHand := unopened
  notPending := by
    have turn := turn_step pace view tailer
    generalize tailer.step pace view = outcome at turn
    generalize tailer.target? pace view = target at turn
    cases turn with
    | unanswered | nothing | refused | busy | idle | left => exact elsewhere.notPending
    | opened => exact fun _ pending => by cases pending
    | broken cursor lines rest following =>
      rintro _ ⟨⟩
      exact elsewhere.notAtHand cursor following

/-! ### Places that are lost -/

/-- Only a file that is left for another one comes into the memory. -/
theorem find?_step_eq_none (notAtHand : ∀ cursor, tailer.cursor = some cursor → cursor.path ≠ path)
    (missing : tailer.memory.find? path = none) :
    (tailer.step pace view).tailer.memory.find? path = none := by
  have turn := turn_step pace view tailer
  generalize tailer.step pace view = outcome at turn ⊢
  generalize tailer.target? pace view = target at turn
  cases turn with
  | unanswered | nothing | busy | broken | idle => exact missing
  | refused | opened => exact find?_memoryAfterLocating_eq_none missing
  | left cursor lines rest next opened following =>
    have forgotten : (tailer.memory.forget next).find? path = none :=
      Memory.find?_forget_eq_none missing
    show (tailer.memoryAfterLeaving (cursor.advance lines rest) next).find? path = none
    by_cases same : (cursor.advance lines rest).path = next
    · rw [memoryAfterLeaving_of_eq same]
      exact forgotten
    · rw [memoryAfterLeaving_of_ne same]
      exact Memory.find?_remember_eq_none forgotten (Ne.symm (notAtHand cursor following))

/-- A step that goes to open a path takes it out of the memory, whether or not it can be opened. -/
theorem Tidy.find?_step_of_target (tidy : tailer.Tidy)
    (asks : tailer.target? pace view = some path) :
    (tailer.step pace view).tailer.memory.find? path = none := by
  have turn := turn_step pace view tailer
  rw [asks] at turn
  generalize tailer.step pace view = outcome at turn ⊢
  cases turn with
  | refused | opened => exact find?_memoryAfterLocating_self tidy path
  | left cursor lines rest next opened =>
    exact find?_memoryAfterLeaving_self (cursor.advance lines rest) path

/-! ### Places that are kept -/

/-- A bookmark stays in the memory while no step goes to open its path, unless too many other files
are left. -/
theorem Tidy.retains_step (tidy : tailer.Tidy) {left : List Path}
    (retains : tailer.memory.Retains bookmark left)
    (ignores : tailer.target? pace view ≠ some bookmark.path)
    (few : (leftAfter left (tailer.departure? pace view)).length < Memory.capacity) :
    (tailer.step pace view).tailer.memory.Retains bookmark
      (leftAfter left (tailer.departure? pace view)) := by
  have found := retains.find? tidy.distinct
  have turn := turn_step pace view tailer
  unfold departure? at few ⊢
  generalize tailer.step pace view = outcome at turn ⊢
  generalize tailer.target? pace view = target at turn few ignores ⊢
  cases turn with
  | unanswered | nothing | busy | broken | idle =>
    rw [leftFor?_none]
    exact retains
  | refused next locating | opened next opened locating =>
    rw [leftFor?_of_locating locating]
    show (tailer.memoryAfterLocating view next).Retains bookmark left
    unfold memoryAfterLocating
    split
    · exact retains
    · exact retains.forget fun same => ignores (congrArg some same)
  | left cursor lines rest next opened following =>
    have kept : (tailer.memory.forget next).Retains bookmark left :=
      retains.forget fun same => ignores (congrArg some same)
    have different : cursor.path ≠ bookmark.path := by
      intro same
      have missing := tidy.currentForgotten cursor following
      rw [same, found] at missing
      cases missing
    rw [leftFor?_of_following following] at few ⊢
    show (tailer.memoryAfterLeaving (cursor.advance lines rest) next).Retains bookmark _
    by_cases same : next = cursor.path
    · have current : (cursor.advance lines rest).path = next := same.symm
      rw [if_pos same, memoryAfterLeaving_of_eq current]
      exact kept
    · have elsewhere : (cursor.advance lines rest).path ≠ next := Ne.symm same
      rw [if_neg same] at few ⊢
      rw [memoryAfterLeaving_of_ne elsewhere]
      exact kept.remember (tidy.distinct.forget next) different few

/-- What is in the memory after a step was there before, its path not asked for, unless the step
left this very path. -/
theorem Tidy.find?_of_step (tidy : tailer.Tidy)
    (found : (tailer.step pace view).tailer.memory.find? path = some bookmark) :
    (tailer.memory.find? path = some bookmark ∧ tailer.target? pace view ≠ some path) ∨
      tailer.departure? pace view = some path := by
  have ignores : tailer.target? pace view ≠ some path := by
    intro asks
    cases (tidy.find?_step_of_target asks).symm.trans found
  have turn := turn_step pace view tailer
  unfold departure?
  generalize tailer.step pace view = outcome at turn found
  generalize tailer.target? pace view = target at turn ignores ⊢
  cases turn with
  | unanswered | nothing | busy | broken | idle => exact .inl ⟨found, ignores⟩
  | refused next | opened next =>
    have different : path ≠ next := fun same => ignores (congrArg some same.symm)
    have kept : (tailer.memoryAfterLocating view next).find? path = tailer.memory.find? path :=
      find?_memoryAfterLocating_of_ne different
    exact .inl ⟨kept.symm.trans found, ignores⟩
  | left cursor lines rest next opened following =>
    have different : path ≠ next := fun same => ignores (congrArg some same.symm)
    have found : (tailer.memoryAfterLeaving (cursor.advance lines rest) next).find? path =
        some bookmark := found
    rw [leftFor?_of_following following]
    by_cases same : (cursor.advance lines rest).path = next
    · rw [memoryAfterLeaving_of_eq same, Memory.find?_forget_of_ne _ different] at found
      exact .inl ⟨found, ignores⟩
    · rw [memoryAfterLeaving_of_ne same] at found
      by_cases current : path = cursor.path
      · have elsewhere : next ≠ cursor.path := fun back => same back.symm
        rw [if_neg elsewhere, current]
        exact .inr rfl
      · have before := (tidy.distinct.forget next).find?_of_remember current found
        rw [Memory.find?_forget_of_ne _ different] at before
        exact .inl ⟨before, ignores⟩

/-- Until a file is opened, a step keeps the place at which a read failed. -/
theorem step_of_pending (pace : Pace) (view : View) (locating : tailer.cursor = none)
    (pending : tailer.resume = some bookmark) :
    ((tailer.step pace view).tailer.cursor = none ∧
        (tailer.step pace view).tailer.resume = some bookmark) ∨
      ∃ cursor, (tailer.step pace view).tailer.cursor = some cursor ∧
        (tailer.step pace view).tailer.resume = none := by
  rcases step_of_locating pace view locating with
    ⟨closed, kept, _⟩ | ⟨_, cursor, following, calm, _⟩
  · exact .inl ⟨closed, kept.trans pending⟩
  · exact .inr ⟨cursor, following, calm⟩

/-- Once a file was opened or none was there, no file is read from its end any more. -/
theorem skipsHistory_step_eq_false (notSkipping : tailer.skipsHistory ≠ true) :
    (tailer.step pace view).tailer.skipsHistory = false := by
  have turn := turn_step pace view tailer
  generalize tailer.step pace view = outcome at turn ⊢
  generalize tailer.target? pace view = target at turn
  cases turn with
  | nothing | opened => rfl
  | unanswered | refused | busy | broken | idle | left => simpa using notSkipping

/-! ### Opening at a place -/

theorem Tidy.startFor_eq (tidy : tailer.Tidy) (locating : tailer.cursor = none)
    (notSkipping : tailer.skipsHistory = false) :
    tailer.startFor view path =
      .resuming ((tailer.bookmark? path).bind (·.offsetFor? view path)) := by
  unfold startFor
  rw [notSkipping, if_neg Bool.false_ne_true]
  cases pending : tailer.resume with
  | none =>
    rw [History.bookmark?_of_locating locating pending]
    rfl
  | some bookmark =>
    rw [History.bookmark?_of_pending locating pending, Option.bind_some]
    by_cases same : bookmark.path = path
    · have missing := tidy.pendingForgotten bookmark pending
      rw [same] at missing
      rw [if_pos same, Memory.offsetFor?, missing, Option.bind_none, Option.or_none,
        Option.bind_some]
    · have useless : bookmark.offsetFor? view path = none := if_neg same
      rw [if_neg same, useless, Option.none_or, Memory.offsetFor?]

/-- Apart from the first file, a file that is not at hand is opened at its place if this serves,
and at its beginning otherwise. -/
theorem Tidy.cursor_step_of_target (tidy : tailer.Tidy) (notSkipping : tailer.skipsHistory = false)
    (notAtHand : ∀ cursor, tailer.cursor = some cursor → cursor.path ≠ path)
    (asks : tailer.target? pace view = some path) :
    (tailer.step pace view).tailer.cursor =
      Cursor.openAt view path
        (.resuming ((tailer.bookmark? path).bind (·.offsetFor? view path))) := by
  have turn := turn_step pace view tailer
  rw [asks] at turn
  generalize tailer.step pace view = outcome at turn ⊢
  cases turn with
  | refused _ locating answer closed =>
    exact locating.trans (openAt_eq_none.mpr closed).symm
  | opened _ cursor locating answer opens =>
    rw [tidy.startFor_eq locating notSkipping] at opens
    exact opens.symm
  | left cursor lines rest _ opened following cut short ends leaves opens =>
    rw [History.bookmark?_of_following _ following, if_neg (notAtHand cursor following)]
    exact opens.symm

/-- A bookmark serves where its path leads to the file that was left and this reaches up to it. -/
theorem offsetFor?_of_reaches {length : Nat}
    (inspected : view.status bookmark.path = some ⟨bookmark.id, length⟩)
    (reaches : bookmark.offset ≤ length) :
    bookmark.offsetFor? view bookmark.path = some bookmark.offset := by
  unfold Bookmark.offsetFor?
  rw [if_pos rfl, inspected]
  exact if_pos ⟨rfl, reaches⟩

theorem openAt_resuming {id : FileId} {length : Nat}
    (opens : view.openFile path = some ⟨id, length⟩) (offset? : Option Nat) :
    Cursor.openAt view path (.resuming offset?) =
      some ⟨path, id, offset?.getD 0, offset?.isNone, []⟩ := by
  unfold Cursor.openAt
  rw [opens]
  cases offset? <;> rfl

theorem eq_of_openAt_resuming_none {cursor : Cursor}
    (opens : Cursor.openAt view path (.resuming none) = some cursor) :
    cursor = ⟨path, cursor.id, 0, true, []⟩ := by
  obtain ⟨status, _, rfl⟩ := Option.map_eq_some_iff.mp opens
  rfl

/-- A file whose place is known is opened there if its path still leads to it and it reaches up to
there. -/
theorem Tidy.resumes_step (tidy : tailer.Tidy) (notSkipping : tailer.skipsHistory = false)
    (notAtHand : ∀ cursor, tailer.cursor = some cursor → cursor.path ≠ bookmark.path)
    (asks : tailer.target? pace view = some bookmark.path)
    (found : tailer.bookmark? bookmark.path = some bookmark) {length : Nat}
    (inspected : view.status bookmark.path = some ⟨bookmark.id, length⟩)
    (opens : view.openFile bookmark.path = some ⟨bookmark.id, length⟩)
    (reaches : bookmark.offset ≤ length) :
    (tailer.step pace view).tailer.cursor =
      some ⟨bookmark.path, bookmark.id, bookmark.offset, false, []⟩ := by
  rw [tidy.cursor_step_of_target notSkipping notAtHand asks, openAt_resuming opens, found,
    Option.bind_some, offsetFor?_of_reaches inspected reaches]
  rfl

/-- A file whose place is not known is opened at its beginning. -/
theorem Tidy.begins_step (tidy : tailer.Tidy) (notSkipping : tailer.skipsHistory = false)
    (notAtHand : ∀ cursor, tailer.cursor = some cursor → cursor.path ≠ path)
    (asks : tailer.target? pace view = some path) (missing : tailer.bookmark? path = none)
    {id : FileId} {length : Nat} (opens : view.openFile path = some ⟨id, length⟩) :
    (tailer.step pace view).tailer.cursor = some ⟨path, id, 0, true, []⟩ := by
  rw [tidy.cursor_step_of_target notSkipping notAtHand asks, openAt_resuming opens, missing]
  rfl

/-! ### Reading on -/

/-- The ways on from a tailer on which no step goes to open a file: where they lead, and what is
consumed on them. -/
inductive ReadsOn (start : Tailer) : Tailer → List Segment → Prop
  | here : ReadsOn start start []
  | step {tailer : Tailer} {segments : List Segment} (pace : Pace) (view : View)
      (readsOn : ReadsOn start tailer segments) (stays : tailer.target? pace view = none) :
      ReadsOn start (tailer.step pace view).tailer
        (segments ++ (tailer.step pace view).segments)

/-- Whether segments are of one path and lie between two offsets. -/
def Between (segments : List Segment) (path : Path) (start stop : Nat) : Prop :=
  ∀ segment ∈ segments, segment.path = path ∧ start ≤ segment.start ∧
    segment.start + segment.bytes.length ≤ stop

theorem Between.append {first second : List Segment} {path : Path} {start middle stop : Nat}
    (between : Between first path start middle) (further : Between second path middle stop)
    (ordered : start ≤ middle) (orderedFurther : middle ≤ stop) :
    Between (first ++ second) path start stop := by
  intro segment member
  rcases List.mem_append.mp member with before | after
  · have within := between segment before
    exact ⟨within.1, within.2.1, within.2.2.trans orderedFurther⟩
  · have within := further segment after
    exact ⟨within.1, ordered.trans within.2.1, within.2.2⟩

theorem between_lineSegments (cursor : Cursor) (lines : List (List UInt8)) :
    Between (cursor.lineSegments lines) cursor.path cursor.offset
      (cursor.offset + lines.flatten.length) :=
  fun _ member => ⟨Cursor.path_of_mem_lineSegments member, between_of_mem_segmentsFrom member⟩

theorem between_flush (cursor : Cursor) :
    Between cursor.flush cursor.path cursor.offset cursor.position := by
  intro segment member
  unfold Cursor.flush at member
  split at member
  · cases member
  · rw [List.mem_singleton.mp member]
    exact ⟨rfl, Nat.le_refl _, Nat.le_refl _⟩

/-- What a step consumes lies between the place of the cursor and the place where the file at hand
is gone on with, be it kept, given up or left for another one. -/
theorem Tidy.between_step (tidy : tailer.Tidy) (pace : Pace) (view : View) {cursor : Cursor}
    (following : tailer.cursor = some cursor) :
    ∃ stop, cursor.offset ≤ stop ∧
      Between (tailer.step pace view).segments cursor.path cursor.offset stop ∧
      (tailer.target? pace view = none → ∀ kept, (tailer.step pace view).tailer.cursor = some kept →
        kept.path = cursor.path ∧ kept.id = cursor.id ∧ kept.offset = stop) ∧
      (∀ bookmark, (tailer.step pace view).tailer.resume = some bookmark →
        bookmark = ⟨cursor.path, cursor.id, stop⟩) ∧
      (tailer.departure? pace view = some cursor.path →
        (tailer.step pace view).tailer.memory.Retains ⟨cursor.path, cursor.id, stop⟩ []) := by
  have calm := tidy.notPending cursor following
  have turn := turn_step pace view tailer
  unfold departure?
  generalize tailer.step pace view = outcome at turn ⊢
  generalize tailer.target? pace view = target at turn ⊢
  cases turn with
  | unanswered fault locating => cases locating.symm.trans following
  | nothing locating => cases locating.symm.trans following
  | refused next locating => cases locating.symm.trans following
  | opened next opened locating => cases locating.symm.trans following
  | busy current lines rest current_eq | idle current lines rest current_eq =>
    obtain rfl := Option.some.inj (current_eq.symm.trans following)
    refine ⟨current.offset + lines.flatten.length, Nat.le_add_right _ _,
      between_lineSegments current lines, fun _ => ?_, fun _ pending => ?_, fun departs => ?_⟩
    · rintro _ ⟨⟩
      exact ⟨rfl, rfl, rfl⟩
    · cases calm.symm.trans pending
    · cases (leftFor?_none tailer).symm.trans departs
  | broken current lines rest current_eq =>
    obtain rfl := Option.some.inj (current_eq.symm.trans following)
    refine ⟨current.offset + lines.flatten.length, Nat.le_add_right _ _,
      between_lineSegments current lines, fun _ _ stopped => ?_, fun _ pending => ?_,
      fun departs => ?_⟩
    · cases stopped
    · cases pending
      rfl
    · cases (leftFor?_none tailer).symm.trans departs
  | left current lines rest next opened current_eq =>
    obtain rfl := Option.some.inj (current_eq.symm.trans following)
    -- What is held back is consumed as well, so the place is the position.
    have read : current.offset ≤ (current.advance lines rest).offset := Nat.le_add_right _ _
    have held : (current.advance lines rest).offset ≤ (current.advance lines rest).position :=
      Nat.le_add_right _ _
    refine ⟨(current.advance lines rest).position, read.trans held,
      (between_lineSegments current lines).append (between_flush (current.advance lines rest)) read
        held, fun stays => ?_, fun _ pending => ?_, fun departs => ?_⟩
    · cases stays
    · cases calm.symm.trans pending
    · rw [leftFor?_of_following following] at departs
      split at departs
      · cases departs
      · next different =>
        have elsewhere : (current.advance lines rest).path ≠ next := Ne.symm different
        show (tailer.memoryAfterLeaving (current.advance lines rest) next).Retains _ []
        rw [memoryAfterLeaving_of_ne elsewhere]
        exact Memory.retains_remember_self _ _

/-- What a tailer consumes that reads on lies between the place where it began and the place where
it is now. -/
theorem ReadsOn.between {start : Tailer} {segments : List Segment}
    (readsOn : start.ReadsOn tailer segments) (tidy : start.Tidy) {first : Cursor}
    (started : start.cursor = some first) :
    tailer.Tidy ∧ ∃ stop, first.offset ≤ stop ∧ Between segments first.path first.offset stop ∧
      ∀ cursor, tailer.cursor = some cursor →
        cursor.path = first.path ∧ cursor.id = first.id ∧ cursor.offset = stop := by
  induction readsOn with
  | here =>
    refine ⟨tidy, first.offset, Nat.le_refl _, fun _ member => ?_, fun cursor following => ?_⟩
    · cases member
    · obtain rfl := Option.some.inj (started.symm.trans following)
      exact ⟨rfl, rfl, rfl⟩
  | @step tailer segments pace view _ stays inductionHypothesis =>
    obtain ⟨tidyNow, stop, ordered, between, place⟩ := inductionHypothesis
    refine ⟨tidyNow.step pace view, ?_⟩
    cases following : tailer.cursor with
    | some cursor =>
      obtain ⟨samePath, sameId, rfl⟩ := place cursor following
      obtain ⟨further, orderedFurther, within, kept, _⟩ := tidyNow.between_step pace view following
      rw [samePath] at within kept
      rw [sameId] at kept
      exact ⟨further, ordered.trans orderedFurther,
        between.append within ordered orderedFurther, kept stays⟩
    | none =>
      rw [segments_step_of_locating following, List.append_nil]
      refine ⟨stop, ordered, between, fun cursor found => ?_⟩
      rcases target?_or_kept found with asks | ⟨_, atHand, _⟩
      · cases stays.symm.trans asks
      · cases following.symm.trans atHand

/-- Until another file is opened, all that is consumed lies behind the place where the file at hand
was opened, the step included that leaves it. -/
theorem ReadsOn.behind {start : Tailer} {segments : List Segment}
    (readsOn : start.ReadsOn tailer segments) (tidy : start.Tidy) {first : Cursor}
    (started : start.cursor = some first) (pace : Pace) (view : View) :
    ∀ segment ∈ segments ++ (tailer.step pace view).segments,
      segment.path = first.path ∧ first.offset ≤ segment.start := by
  obtain ⟨tidyNow, stop, ordered, between, place⟩ := readsOn.between tidy started
  intro segment member
  rcases List.mem_append.mp member with before | last
  · exact ⟨(between segment before).1, (between segment before).2.1⟩
  · cases following : tailer.cursor with
    | some cursor =>
      obtain ⟨samePath, _, rfl⟩ := place cursor following
      obtain ⟨_, _, within, _⟩ := tidyNow.between_step pace view following
      exact ⟨(within segment last).1.trans samePath, ordered.trans (within segment last).2.1⟩
    | none =>
      rw [segments_step_of_locating following] at last
      cases last

theorem exists_cursor_of_departure? (departs : tailer.departure? pace view = some path) :
    ∃ cursor, tailer.cursor = some cursor ∧ cursor.path = path := by
  unfold departure? leftFor? at departs
  split at departs
  · next cursor next following _ =>
    split at departs
    · cases departs
    · exact ⟨cursor, following, Option.some.inj departs⟩
  · cases departs

/-! ### Two files -/

/-- What a step gives that sees a tree and reads at most five lines. -/
def glance (tailer : Tailer) (tree : FileTree) (watcher : Watcher) (outOfOrder : Bool) : Outcome :=
  tailer.step (.ofLimit 1000 100 5) (.ofTree tree watcher outOfOrder)

end Tailer

/-- A tree with one file. -/
def loneTree : FileTree :=
  FileTree.empty.append ⟨["first"]⟩ [97, 10] 1

/-- The tree with a second file, which is newer. -/
def pairTree : FileTree :=
  loneTree.append ⟨["second"]⟩ [98, 10] 2

/-- A tailer that found nothing at first and then has opened the one file at its beginning. -/
def reader : Tailer :=
  let waiting := (Tailer.fresh.glance FileTree.empty (.directory .top) false).tailer
  (waiting.glance loneTree (.directory .top) false).tailer

theorem reachable_reader : reader.Reachable :=
  .step _ _ (.step _ _ .fresh)

end NodeTelemetry.Tail
