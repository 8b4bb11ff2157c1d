/-
This file shows that a tailer comes to rest when the files around it stay as they are. It reads on
until the file at hand ends, which the unread bytes bound, and leaves it at most once: whatever it
opens then is the newest file or has no newer one beside it, lies under its path and is not shorter
than the offset, so there is nothing more to leave it for.

`Settles` counts how often a file is left on the way, and it is built backwards from the step in
which the tailer rests. There are three beginnings. With a file that has arrived, in the sense just
given, each step either stops at the limit of lines, and then there are fewer bytes to read, or it
comes to the end and waits. With no file at hand the newest one is opened, and it has arrived. With
any other file the tailer reads to its end first and then keeps it or leaves it for one that has
arrived. A directory can be opened but not read, and it is given up at once.

What coming to rest means for the steps one after the other, and how much a single step may consume,
is read off from this.
-/

import NodeTelemetry.Proofs.Tail.Bookkeeping
import NodeTelemetry.Proofs.Tail.Trees

namespace NodeTelemetry.Tail

namespace Tailer

/-! ### Steps one after the other -/

/-- The outcome of a step after some steps before it, all with the same view. -/
def outcome (pace : Pace) (view : View) (tailer : Tailer) : Nat → Outcome
  | 0 => tailer.step pace view
  | before + 1 => outcome pace view (tailer.step pace view).tailer before

/-- Whether the next step leaves the file at hand. -/
def leaves (pace : Pace) (view : View) (tailer : Tailer) : Bool :=
  tailer.cursor.isSome && (tailer.target? pace view).isSome

/-- How often a file is left in some steps. -/
def switches (pace : Pace) (view : View) (tailer : Tailer) : Nat → Nat
  | 0 => 0
  | more + 1 =>
    (tailer.leaves pace view).toNat + switches pace view (tailer.step pace view).tailer more

/-- Whether a step changes nothing and waits. -/
def AtRest (pace : Pace) (view : View) (wait : Nat) (tailer : Tailer) : Prop :=
  tailer.step pace view = ⟨tailer, .wait wait, []⟩

/-- The ways to come to rest, with how often a file is left on the way, how long the tailer waits
then, and the file at hand then. -/
inductive Settles (pace : Pace) (view : View) (wait : Nat) (last : Option Cursor) :
    Nat → Tailer → Prop
  | rests {tailer : Tailer} (waits : (tailer.step pace view).next = .wait wait)
      (stays : tailer.leaves pace view = false)
      (kept : (tailer.step pace view).tailer.cursor = last)
      (rest : (tailer.step pace view).tailer.AtRest pace view wait) :
      Settles pace view wait last 0 tailer
  | goesOn {tailer : Tailer} {count : Nat} (again : (tailer.step pace view).next = .again)
      (stays : tailer.leaves pace view = false)
      (settles : Settles pace view wait last count (tailer.step pace view).tailer) :
      Settles pace view wait last count tailer
  | leavesOnce {tailer : Tailer} {count : Nat} (again : (tailer.step pace view).next = .again)
      (settles : Settles pace view wait last count (tailer.step pace view).tailer) :
      Settles pace view wait last (count + 1) tailer

/-- Whether a tailer goes on for some steps, and from then on waits in each step, delivers nothing
more and keeps its place. -/
structure RestsAfter (pace : Pace) (view : View) (wait : Nat) (last : Option Cursor)
    (tailer : Tailer) (steps : Nat) : Prop where
  again : ∀ step < steps, (tailer.outcome pace view step).next = .again
  waits : ∀ step, steps ≤ step → (tailer.outcome pace view step).next = .wait wait
  kept : ∀ step, steps ≤ step → (tailer.outcome pace view step).tailer.cursor = last
  quiet : ∀ step, steps < step → (tailer.outcome pace view step).segments = []

end Tailer

/-! ### Views of files that can be read -/

/-- Whether all that is there can be opened, and files can be read, but directories cannot. -/
structure View.Readable (view : View) : Prop where
  openFile : ∀ path, view.openFile path = view.status path
  stream : ∀ path status, view.status path = some status →
    (∃ bytes, bytes.length = status.length ∧ view.Holds status.id bytes) ∨
      ∀ position, view.stream status.id position = ⟨[], true⟩
  newest : ∀ path, view.newest = .ok (some path) →
    ∃ status bytes, view.status path = some status ∧ bytes.length = status.length ∧
      view.Holds status.id bytes

namespace Tailer

variable {pace : Pace} {view : View} {tailer : Tailer} {wait : Nat}

theorem leaves_of_target_none (stays : tailer.target? pace view = none) :
    tailer.leaves pace view = false := by
  rw [leaves, stays]
  exact Bool.and_false _

theorem leaves_of_locating (locating : tailer.cursor = none) :
    tailer.leaves pace view = false := by
  rw [leaves, locating]
  rfl

/-! ### At rest -/

theorem AtRest.stays (rest : tailer.AtRest pace view wait) : tailer.leaves pace view = false := by
  have turn := turn_step pace view tailer
  rw [AtRest] at rest
  rw [rest] at turn
  unfold leaves
  cases following : tailer.cursor with
  | none => rfl
  | some cursor =>
    generalize tailer.target? pace view = target at turn
    generalize given : Outcome.mk tailer (.wait wait) [] = outcome at turn
    cases turn with
    | unanswered | nothing | busy | broken | idle => rfl
    | refused path locating => cases locating.symm.trans following
    | opened path cursor locating => cases locating.symm.trans following
    | left current lines rest path opened =>
      have same := congrArg (·.tailer.cursor) given
      have waits := congrArg Outcome.next given
      simp only [following] at same waits
      cases opened with
      | none => cases same
      | some next => cases waits

theorem AtRest.outcome_eq (rest : tailer.AtRest pace view wait) (count : Nat) :
    tailer.outcome pace view count = ⟨tailer, .wait wait, []⟩ := by
  induction count with
  | zero => exact rest
  | succ count inductionHypothesis =>
    rw [outcome, show tailer.step pace view = ⟨tailer, .wait wait, []⟩ from rest]
    exact inductionHypothesis

theorem AtRest.switches_eq (rest : tailer.AtRest pace view wait) (count : Nat) :
    tailer.switches pace view count = 0 := by
  induction count with
  | zero => rfl
  | succ count inductionHypothesis =>
    rw [switches, rest.stays, show tailer.step pace view = ⟨tailer, .wait wait, []⟩ from rest,
      inductionHypothesis]
    rfl

/-! ### What coming to rest means -/

theorem Settles.switches_le {last : Option Cursor} {count : Nat}
    (settles : Settles pace view wait last count tailer) (steps : Nat) :
    tailer.switches pace view steps ≤ count := by
  induction settles generalizing steps with
  | rests waits stays kept rest =>
    cases steps with
    | zero => exact Nat.le_refl 0
    | succ steps =>
      rw [switches, stays, rest.switches_eq]
      exact Nat.le_refl 0
  | goesOn again stays _ inductionHypothesis =>
    cases steps with
    | zero => exact Nat.zero_le _
    | succ steps =>
      rw [switches, stays, Bool.toNat_false, Nat.zero_add]
      exact inductionHypothesis steps
  | @leavesOnce tailer count again _ inductionHypothesis =>
    cases steps with
    | zero => exact Nat.zero_le _
    | succ steps =>
      have one := Bool.toNat_le (tailer.leaves pace view)
      have others := inductionHypothesis steps
      rw [switches]
      omega

theorem RestsAfter.again_step {last : Option Cursor} {steps : Nat}
    (again : (tailer.step pace view).next = .again)
    (rests : (tailer.step pace view).tailer.RestsAfter pace view wait last steps) :
    tailer.RestsAfter pace view wait last (steps + 1) where
  again := fun step less => by
    cases step with
    | zero => exact again
    | succ step => exact rests.again step (Nat.lt_of_succ_lt_succ less)
  waits := fun step reached => by
    cases step with
    | zero => cases reached
    | succ step => exact rests.waits step (Nat.le_of_succ_le_succ reached)
  kept := fun step reached => by
    cases step with
    | zero => cases reached
    | succ step => exact rests.kept step (Nat.le_of_succ_le_succ reached)
  quiet := fun step reached => by
    cases step with
    | zero => cases reached
    | succ step => exact rests.quiet step (Nat.lt_of_succ_lt_succ reached)

theorem AtRest.restsAfter {last : Option Cursor} (waits : (tailer.step pace view).next = .wait wait)
    (kept : (tailer.step pace view).tailer.cursor = last)
    (rest : (tailer.step pace view).tailer.AtRest pace view wait) :
    tailer.RestsAfter pace view wait last 0 where
  again := fun step less => absurd less (Nat.not_lt_zero step)
  waits := fun step _ => by
    cases step with
    | zero => exact waits
    | succ step => rw [outcome, rest.outcome_eq]
  kept := fun step _ => by
    cases step with
    | zero => exact kept
    | succ step =>
      rw [outcome, rest.outcome_eq]
      exact kept
  quiet := fun step reached => by
    cases step with
    | zero => cases reached
    | succ step => rw [outcome, rest.outcome_eq]

theorem Settles.restsAfter {last : Option Cursor} {count : Nat}
    (settles : Settles pace view wait last count tailer) :
    ∃ steps, tailer.RestsAfter pace view wait last steps := by
  induction settles with
  | rests waits stays kept rest => exact ⟨0, AtRest.restsAfter waits kept rest⟩
  | goesOn again _ _ inductionHypothesis | leavesOnce again _ inductionHypothesis =>
    obtain ⟨steps, rests⟩ := inductionHypothesis
    exact ⟨steps + 1, rests.again_step again⟩

/-! ### Following a file that can be read -/

/-- Behind a file that was read to its end, with nothing to leave it for, a tailer is at rest. -/
theorem atRest_of_read {bytes : List UInt8} (pace : Pace) (cursor : Cursor)
    (following : tailer.cursor = some cursor) (holds : view.Holds cursor.id bytes)
    (unbroken : lineFeed ∉ cursor.fragment) (read : bytes.length ≤ cursor.position)
    (stays : cursor.successor? view = none) : tailer.AtRest pace view pace.idle := by
  obtain ⟨lines, rest, cut, ways⟩ := step_of_holds pace following holds
  rw [List.drop_eq_nil_of_le read, List.append_nil] at cut
  obtain ⟨rfl, rfl⟩ := cut.eq_nil unbroken
  have same : cursor.advance [] cursor.fragment = cursor := rfl
  rw [same] at ways
  rcases ways with ⟨full, _⟩ | ⟨_, _, _, waits⟩ | ⟨_, path, _, leaves, _⟩
  · exact absurd full (Nat.ne_of_lt pace.lines_pos)
  · have kept : { tailer with cursor := some cursor } = tailer := by
      rw [← following]
    rw [AtRest, waits, kept]
    rfl
  · cases stays.symm.trans leaves

/-! ### The file that is opened last -/

/-- Whether a file can be read, has no newer one beside it, lies under its path and is not shorter
than the offset. -/
structure Arrived (view : View) (cursor : Cursor) (bytes : List UInt8) : Prop where
  newest : ∀ path, view.newest = .ok (some path) → path = cursor.path
  status : view.status cursor.path = some ⟨cursor.id, bytes.length⟩
  holds : view.Holds cursor.id bytes
  reaches : cursor.offset ≤ bytes.length
  unbroken : lineFeed ∉ cursor.fragment

/-- How far lines reach that were cut off from what is held back and what can be read behind it. -/
theorem length_of_cut {cursor : Cursor} {bytes rest : List UInt8} {limit : Nat}
    {lines : List (List UInt8)} (unbroken : lineFeed ∉ cursor.fragment)
    (cut : Cut limit (cursor.fragment ++ bytes.drop cursor.position) lines rest)
    (some : 0 < lines.length) :
    cursor.offset < cursor.offset + lines.flatten.length ∧
      cursor.offset + lines.flatten.length ≤ bytes.length := by
  have advances := cut.length_pos some
  have whole := congrArg List.length cut.bytes_eq
  simp only [List.length_append, List.length_drop, Cursor.position] at whole
  rcases Nat.le_total bytes.length cursor.position with read | unread
  · rw [List.drop_eq_nil_of_le read, List.append_nil] at cut
    rw [(cut.eq_nil unbroken).1] at some
    cases some
  · rw [Cursor.position] at unread
    omega

/-- What was cut off and what was not reach to the end of a file together. -/
theorem length_le_position {cursor : Cursor} {bytes rest : List UInt8} {limit : Nat}
    {lines : List (List UInt8)}
    (cut : Cut limit (cursor.fragment ++ bytes.drop cursor.position) lines rest) :
    bytes.length ≤ (cursor.advance lines rest).position := by
  have whole := congrArg List.length cut.bytes_eq
  simp only [List.length_append, List.length_drop, Cursor.position] at whole
  rw [Cursor.position, Cursor.advance_offset, Cursor.advance_fragment]
  omega

namespace Arrived

variable {cursor : Cursor} {bytes : List UInt8}

theorem successor?_eq_none (arrived : Arrived view cursor bytes) :
    cursor.successor? view = none := by
  cases leaves : cursor.successor? view with
  | none => rfl
  | some path =>
    rcases successor?_eq_some leaves with ⟨answer, other⟩ | ⟨_, replaced⟩
    · exact absurd (arrived.newest path answer) other
    · have reaches := arrived.reaches
      unfold Cursor.isReplaced at replaced
      rw [arrived.status] at replaced
      simp at replaced
      omega

theorem advance (arrived : Arrived view cursor bytes) {limit : Nat} {lines : List (List UInt8)}
    {rest fragment : List UInt8}
    (cut : Cut limit (cursor.fragment ++ bytes.drop cursor.position) lines rest)
    (unbroken : lineFeed ∉ fragment) : Arrived view (cursor.advance lines fragment) bytes where
  newest := arrived.newest
  status := arrived.status
  holds := arrived.holds
  reaches := by
    rw [Cursor.advance_offset]
    rcases Nat.eq_zero_or_pos lines.length with empty | some
    · rw [List.length_eq_zero_iff.mp empty]
      exact arrived.reaches
    · exact (length_of_cut arrived.unbroken cut some).2
  unbroken := unbroken

end Arrived

/-- A tailer that has arrived reads its file to the end and rests there. -/
theorem settles_of_arrived {cursor : Cursor} {bytes : List UInt8} (pace : Pace)
    (following : tailer.cursor = some cursor) (arrived : Arrived view cursor bytes) :
    ∃ last, last.path = cursor.path ∧ last.id = cursor.id ∧
      Settles pace view pace.idle (some last) 0 tailer := by
  -- What is still unread gets less with every step that stops at the limit.
  induction unread : bytes.length - cursor.offset using Nat.strong_induction_on
    generalizing tailer cursor with
  | _ unread inductionHypothesis =>
  obtain ⟨lines, rest, cut, ways⟩ := step_of_holds pace following arrived.holds
  rcases ways with ⟨full, stays, step⟩ | ⟨unbroken, kept, stays, step⟩ | ⟨unbroken, _, _, leaves, _⟩
  · have further := length_of_cut arrived.unbroken cut (full ▸ pace.lines_pos)
    have moved := arrived.advance cut (List.not_mem_nil (a := lineFeed))
    have next : (tailer.step pace view).tailer.cursor = some (cursor.advance lines []) := by
      rw [step]
    obtain ⟨last, samePath, sameId, settles⟩ := inductionHypothesis
      (bytes.length - (cursor.offset + lines.flatten.length)) (by omega) next moved rfl
    exact ⟨last, samePath, sameId, .goesOn (by rw [step]) (leaves_of_target_none stays) settles⟩
  · refine ⟨cursor.advance lines rest, rfl, rfl,
      .rests (by rw [step]) (leaves_of_target_none stays) (by rw [step]) ?_⟩
    rw [step]
    exact atRest_of_read pace (cursor.advance lines rest) rfl arrived.holds unbroken
      (length_le_position cut) kept
  · cases (arrived.advance cut unbroken).successor?_eq_none.symm.trans leaves

/-! ### Opening -/

theorem offset_le_of_offsetFor? {bookmark : Bookmark} {path : Path} {offset : Nat}
    {status : FileStatus} (inspected : view.status path = some status)
    (serves : bookmark.offsetFor? view path = some offset) : offset ≤ status.length := by
  unfold Bookmark.offsetFor? at serves
  split at serves
  · rw [inspected] at serves
    simp only at serves
    split at serves
    · next fits =>
      obtain rfl := Option.some.inj serves
      exact fits.2
    · cases serves
  · cases serves

theorem offset_le_of_remembered {memory : Memory} {path : Path} {offset : Nat}
    {status : FileStatus} (inspected : view.status path = some status)
    (serves : memory.offsetFor? view path = some offset) : offset ≤ status.length := by
  obtain ⟨bookmark, _, serves⟩ := Option.bind_eq_some_iff.mp serves
  exact offset_le_of_offsetFor? inspected serves

theorem startOffset_resuming_le {offset? : Option Nat} {length : Nat}
    (bounded : ∀ offset, offset? = some offset → offset ≤ length) :
    Cursor.startOffset (.resuming offset?) length ≤ length := by
  cases offset? with
  | none => exact Nat.zero_le _
  | some offset => exact bounded offset rfl

/-- A file is opened no farther than at its end. -/
theorem startOffset_startFor_le {path : Path} {status : FileStatus}
    (inspected : view.status path = some status) :
    Cursor.startOffset (tailer.startFor view path) status.length ≤ status.length := by
  unfold startFor
  split
  · exact Nat.le_refl _
  · refine startOffset_resuming_le fun offset found => ?_
    rcases Option.or_eq_some_iff.mp found with pending | ⟨_, remembered⟩
    · obtain ⟨bookmark, _, serves⟩ := Option.bind_eq_some_iff.mp pending
      exact offset_le_of_offsetFor? inspected serves
    · exact offset_le_of_remembered inspected remembered

/-- What can be inspected can be opened. -/
theorem openAt_of_readable (readable : view.Readable) {path : Path} {status : FileStatus}
    (inspected : view.status path = some status) (start : Start) :
    ∃ cursor, Cursor.openAt view path start = some cursor ∧ cursor.path = path ∧
      cursor.id = status.id ∧ cursor.offset = Cursor.startOffset start status.length ∧
      cursor.fragment = [] := by
  unfold Cursor.openAt
  rw [readable.openFile, inspected]
  exact ⟨_, rfl, rfl, rfl, rfl, rfl⟩

theorem arrived_of_opened {cursor : Cursor} {bytes : List UInt8} {status : FileStatus}
    (newest : ∀ path, view.newest = .ok (some path) → path = cursor.path)
    (inspected : view.status cursor.path = some status) (sameId : cursor.id = status.id)
    (length : bytes.length = status.length) (holds : view.Holds status.id bytes)
    (reaches : cursor.offset ≤ status.length) (empty : cursor.fragment = []) :
    Arrived view cursor bytes where
  newest := newest
  status := by
    rw [inspected, sameId, length]
  holds := sameId ▸ holds
  reaches := length ▸ reaches
  unbroken := by
    rw [empty]
    exact List.not_mem_nil

/-! ### Where a tailer comes to rest -/

/-- Whether a tailer comes to rest, having left at most so many files, and at the newest file if
there is any. -/
def ComesToRest (pace : Pace) (view : View) (tailer : Tailer) (most : Nat) : Prop :=
  ∃ wait last count, count ≤ most ∧ Settles pace view wait last count tailer ∧
    ∀ path, view.newest = .ok (some path) →
      wait = pace.idle ∧ ∃ cursor status, last = some cursor ∧ cursor.path = path ∧
        view.status path = some status ∧ cursor.id = status.id

theorem comesToRest_of_arrived {cursor : Cursor} {bytes : List UInt8} (pace : Pace)
    (following : tailer.cursor = some cursor) (arrived : Arrived view cursor bytes) :
    tailer.ComesToRest pace view 0 := by
  obtain ⟨last, samePath, sameId, settles⟩ := settles_of_arrived pace following arrived
  refine ⟨pace.idle, some last, 0, Nat.le_refl 0, settles, fun path answer => ?_⟩
  obtain rfl := arrived.newest path answer
  exact ⟨rfl, last, _, rfl, samePath, arrived.status, sameId⟩

/-- Where there is no file to follow, a tailer without one waits for one. -/
theorem settles_of_nothing (pace : Pace) (locating : tailer.cursor = none)
    (nothing : ∀ path, view.newest ≠ .ok (some path)) :
    Settles pace view pace.rotation none 0 tailer := by
  have stays : tailer.leaves pace view = false := leaves_of_locating locating
  cases answer : view.newest with
  | error fault =>
    have rest : tailer.step pace view = ⟨tailer, .wait pace.rotation, []⟩ := by
      simp only [Tailer.step, locating, locate, answer]
    refine .rests (by rw [rest]) stays (by rw [rest, locating]) ?_
    rw [rest]
    exact rest
  | ok newest =>
    cases newest with
    | some path => exact absurd answer (nothing path)
    | none =>
      have step : tailer.step pace view =
          ⟨{ tailer with skipsHistory := false }, .wait pace.rotation, []⟩ := by
        simp only [Tailer.step, locating, locate, answer]
      refine .rests (by rw [step]) stays (by rw [step, locating]) ?_
      rw [step, AtRest]
      simp only [Tailer.step, locating, locate, answer]

/-- A tailer without a file opens the newest one and has arrived, or there is none to open. -/
theorem comesToRest_of_locating (readable : view.Readable) (pace : Pace)
    (locating : tailer.cursor = none) : tailer.ComesToRest pace view 0 := by
  by_cases nothing : ∀ path, view.newest ≠ .ok (some path)
  · exact ⟨pace.rotation, none, 0, Nat.le_refl 0, settles_of_nothing pace locating nothing,
      fun path answer => absurd answer (nothing path)⟩
  · obtain ⟨path, answer⟩ := not_forall_not.mp nothing
    obtain ⟨status, bytes, inspected, length, holds⟩ := readable.newest path answer
    obtain ⟨cursor, opens, rfl, sameId, offset, empty⟩ :=
      openAt_of_readable readable inspected (tailer.startFor view path)
    have step : tailer.step pace view =
        ⟨{ cursor := some cursor
           skipsHistory := false
           resume := none
           memory := tailer.memoryAfterLocating view cursor.path }, .again, []⟩ := by
      simp only [Tailer.step, locating, locate, answer, opens]
    have arrived : Arrived view cursor bytes := by
      refine arrived_of_opened (fun other found => ?_) inspected sameId length holds ?_ empty
      · exact Option.some.inj (Except.ok.inj (found.symm.trans answer))
      · rw [offset]
        exact startOffset_startFor_le inspected
    have next : (tailer.step pace view).tailer.cursor = some cursor := by rw [step]
    obtain ⟨wait, last, count, few, settles, ends⟩ := comesToRest_of_arrived pace next arrived
    exact ⟨wait, last, count, few, .goesOn (by rw [step]) (leaves_of_locating locating) settles,
      ends⟩

/-- Where a file is left, the path that comes after it is that of the newest file, if there is any.
-/
theorem newest_eq_of_successor? {cursor : Cursor} {path newest : Path}
    (leaves : cursor.successor? view = some path) (answer : view.newest = .ok (some newest)) :
    newest = path := by
  unfold Cursor.successor? at leaves
  rw [answer] at leaves
  by_cases same : newest = cursor.path
  · simp only [Option.filter_some, same, bne_self_eq_false, Bool.false_eq_true, if_false] at leaves
    split at leaves
    · exact same.trans (Option.some.inj leaves)
    · cases leaves
  · simp only [Option.filter_some, bne_iff_ne, ne_eq, same, not_false_eq_true, if_true] at leaves
    exact Option.some.inj leaves

theorem status_of_successor? (readable : view.Readable) {cursor : Cursor} {path : Path}
    (leaves : cursor.successor? view = some path) : ∃ status, view.status path = some status := by
  rcases successor?_eq_some leaves with ⟨answer, _⟩ | ⟨rfl, replaced⟩
  · obtain ⟨status, _, inspected, _⟩ := readable.newest path answer
    exact ⟨status, inspected⟩
  · unfold Cursor.isReplaced at replaced
    split at replaced
    · cases replaced
    · next status inspected => exact ⟨status, inspected⟩

/-- A tailer that opened a directory, which happens only where there is no file to follow, gives it
up and waits for a file. -/
theorem settles_of_unreadable {cursor : Cursor} (pace : Pace) (tidy : tailer.Tidy)
    (following : tailer.cursor = some cursor) (empty : cursor.fragment = [])
    (fails : ∀ position, view.stream cursor.id position = ⟨[], true⟩)
    (nothing : ∀ path, view.newest ≠ .ok (some path)) :
    Settles pace view pace.rotation none 0 tailer := by
  have source : cursor.source view = ⟨[], true⟩ := fails cursor.position
  have notSkipping : tailer.skipsHistory = false := by
    simpa using tidy.notSkipping following
  have turn := turn_step pace view tailer
  generalize stepped : tailer.step pace view = outcome at turn
  generalize aim : tailer.target? pace view = target at turn
  cases turn with
  | unanswered fault locating => cases locating.symm.trans following
  | nothing locating => cases locating.symm.trans following
  | refused path locating => cases locating.symm.trans following
  | opened path opened locating => cases locating.symm.trans following
  | busy current lines rest current_eq cut full =>
    obtain rfl := Option.some.inj (current_eq.symm.trans following)
    rw [Cursor.pending, source, empty] at cut
    rw [(cut.eq_nil List.not_mem_nil).1] at full
    exact absurd full (Nat.ne_of_lt pace.lines_pos)
  | broken current lines rest current_eq cut short =>
    refine .rests (by rw [stepped]) (leaves_of_target_none aim) (by rw [stepped]) ?_
    rw [stepped, AtRest]
    cases answer : view.newest with
    | error fault => simp only [Tailer.step, locate, answer]
    | ok newest =>
      cases newest with
      | some path => exact absurd answer (nothing path)
      | none => simp only [Tailer.step, locate, answer, notSkipping]
  | idle current lines rest current_eq cut short ends =>
    obtain rfl := Option.some.inj (current_eq.symm.trans following)
    rw [source] at ends
    cases ends
  | left current lines rest path opened current_eq cut short ends =>
    obtain rfl := Option.some.inj (current_eq.symm.trans following)
    rw [source] at ends
    cases ends

/-- A tailer that leaves its file opens one with which it has arrived. -/
theorem comesToRest_of_left (readable : view.Readable) (pace : Pace) {cursor : Cursor} {path : Path}
    (tidy : (tailer.step pace view).tailer.Tidy) (leaves : cursor.successor? view = some path)
    {memory : Memory} {segments : List Segment}
    (step : tailer.step pace view =
      ⟨{ tailer with
          cursor := Cursor.openAt view path (.resuming (tailer.memory.offsetFor? view path))
          memory := memory },
        if (Cursor.openAt view path (.resuming (tailer.memory.offsetFor? view path))).isSome then
          .again
        else .wait pace.rotation,
        segments⟩) : tailer.ComesToRest pace view 1 := by
  obtain ⟨status, inspected⟩ := status_of_successor? readable leaves
  obtain ⟨opened, opens, rfl, sameId, offset, empty⟩ := openAt_of_readable readable inspected
    (.resuming (tailer.memory.offsetFor? view path))
  rw [opens] at step
  have again : (tailer.step pace view).next = .again := by
    rw [step]
    rfl
  have following : (tailer.step pace view).tailer.cursor = some opened := by rw [step]
  have newest : ∀ other, view.newest = .ok (some other) → other = opened.path :=
    fun other answer => newest_eq_of_successor? leaves answer
  rcases readable.stream opened.path status inspected with ⟨bytes, length, holds⟩ | fails
  · have arrived := arrived_of_opened newest inspected sameId length holds
      (offset ▸ startOffset_resuming_le fun _ => offset_le_of_remembered inspected) empty
    obtain ⟨wait, last, count, few, settles, ends⟩ :=
      comesToRest_of_arrived pace following arrived
    exact ⟨wait, last, count + 1, Nat.succ_le_succ few, .leavesOnce again settles, ends⟩
  · have nothing : ∀ other, view.newest ≠ .ok (some other) := by
      intro other answer
      obtain ⟨found, bytes, foundAt, _, holds⟩ := readable.newest other answer
      rw [newest other answer, inspected] at foundAt
      obtain rfl := Option.some.inj foundAt
      cases (holds 0).symm.trans (fails 0)
    rw [← sameId] at fails
    exact ⟨pace.rotation, none, 1, Nat.le_refl 1, .leavesOnce again
      (settles_of_unreadable pace tidy following empty fails nothing),
      fun other answer => absurd answer (nothing other)⟩

/-- A tailer that follows a file reads it to the end and then keeps it or leaves it once. -/
theorem comesToRest_of_following (readable : view.Readable) {cursor : Cursor} {bytes : List UInt8}
    (pace : Pace) (tidy : tailer.Tidy) (following : tailer.cursor = some cursor)
    (holds : view.Holds cursor.id bytes) : tailer.ComesToRest pace view 1 := by
  -- What is still unread gets less with every step that stops at the limit.
  induction unread : bytes.length - cursor.offset using Nat.strong_induction_on
    generalizing tailer cursor with
  | _ unread inductionHypothesis =>
  obtain ⟨lines, rest, cut, ways⟩ := step_of_holds pace following holds
  rcases ways with ⟨full, stays, step⟩ | ⟨unbroken, kept, stays, step⟩ |
    ⟨_, path, opened, leaves, _, rfl, step⟩
  · have further := length_of_cut (tidy.unbroken cursor following) cut (full ▸ pace.lines_pos)
    have next : (tailer.step pace view).tailer.cursor = some (cursor.advance lines []) := by
      rw [step]
    obtain ⟨wait, last, count, few, settles, ends⟩ := inductionHypothesis
      (bytes.length - (cursor.offset + lines.flatten.length)) (by omega) (tidy.step pace view) next
      holds rfl
    exact ⟨wait, last, count, few,
      .goesOn (by rw [step]) (leaves_of_target_none stays) settles, ends⟩
  · have next : (tailer.step pace view).tailer.cursor = some (cursor.advance lines rest) := by
      rw [step]
    have atRest := atRest_of_read pace (cursor.advance lines rest) next holds unbroken
      (length_le_position cut) kept
    refine ⟨pace.idle, some (cursor.advance lines rest), 0, Nat.zero_le 1,
      .rests (by rw [step]) (leaves_of_target_none stays) (by rw [step]) atRest,
      fun path answer => ?_⟩
    obtain ⟨sole, current⟩ := successor?_eq_none kept
    obtain ⟨status, _, inspected, _⟩ := readable.newest path answer
    obtain rfl := sole path answer
    unfold Cursor.isReplaced at current
    rw [inspected] at current
    refine ⟨rfl, _, status, rfl, rfl, inspected, ?_⟩
    simp only [Bool.or_eq_false_iff, bne_eq_false_iff_eq] at current
    exact current.1.symm
  · exact comesToRest_of_left readable pace (tidy.step pace view) leaves step

/-- Among files that stay as they are and can be read, a tailer comes to rest. -/
theorem Tidy.comesToRest (tidy : tailer.Tidy) (readable : view.Readable) (pace : Pace)
    (atHand : ∀ cursor, tailer.cursor = some cursor → ∃ bytes, view.Holds cursor.id bytes) :
    tailer.ComesToRest pace view 1 := by
  cases following : tailer.cursor with
  | none =>
    obtain ⟨wait, last, count, few, settles, ends⟩ :=
      comesToRest_of_locating readable pace following
    exact ⟨wait, last, count, few.trans (Nat.zero_le 1), settles, ends⟩
  | some cursor =>
    obtain ⟨bytes, holds⟩ := atHand cursor following
    exact comesToRest_of_following readable pace tidy following holds

/-! ### How much one step consumes -/

theorem length_flush_le (cursor : Cursor) : cursor.flush.length ≤ 1 := by
  unfold Cursor.flush
  split
  · exact Nat.zero_le 1
  · exact Nat.le_refl 1

/-- A step consumes no more lines than it may, what it held back of a file that it leaves included.
-/
theorem length_segments_le (pace : Pace) (view : View) (tailer : Tailer) :
    (tailer.step pace view).segments.length ≤ pace.lines := by
  have turn := turn_step pace view tailer
  generalize tailer.step pace view = outcome at turn ⊢
  generalize tailer.target? pace view = target at turn
  cases turn with
  | unanswered | nothing | refused | opened => exact Nat.zero_le _
  | busy cursor lines rest following cut | broken cursor lines rest following cut
  | idle cursor lines rest following cut =>
    exact (length_segmentsFrom _ _ lines).trans_le cut.length_le
  | left cursor lines rest path opened following cut short =>
    have flushed := length_flush_le (cursor.advance lines rest)
    rw [List.length_append, Cursor.lineSegments, length_segmentsFrom]
    omega

/-- No step delivers more lines than it may read. -/
theorem length_delivered_le (pace : Pace) (view : View) (tailer : Tailer) (step : Nat) :
    (tailer.outcome pace view step).delivered.length ≤ pace.lines := by
  induction step generalizing tailer with
  | zero => exact (List.length_filterMap_le _ _).trans (length_segments_le pace view tailer)
  | succ step inductionHypothesis => exact inductionHypothesis _

end Tailer

/-! ### Trees that stay as they are -/

variable {tree : FileTree}

theorem holds_of_lookup {id : FileId} {contents : Contents}
    (found : tree.contents.lookup id = some contents) (watcher : Watcher) :
    (View.ofTree tree watcher false).Holds id contents.bytes := by
  intro position
  show streamIn tree false id position = _
  rw [streamIn, found]
  rfl

theorem holds_ofTree (readable : tree.Readable) {path : Path} {status : FileTree.Status}
    (known : tree.status path = .ok status) (isFile : status.isDirectory = false)
    (watcher : Watcher) :
    ∃ bytes, bytes.length = status.length ∧
      (View.ofTree tree watcher false).Holds status.id bytes := by
  have filled := readable path status known
  rw [isFile, Bool.not_false] at filled
  obtain ⟨contents, found⟩ := Option.isSome_iff_exists.mp filled
  exact ⟨contents.bytes, (FileTree.length_of_status known isFile found).symm,
    holds_of_lookup found watcher⟩

/-- What is shown of a tree whose files can be read can be read. -/
theorem readable_ofTree (readable : tree.Readable) (root : Path) :
    (View.ofTree tree (.directory root) false).Readable where
  openFile := fun _ => rfl
  stream := fun path status inspected => by
    obtain ⟨found, known, rfl⟩ := status_of_statusIn inspected
    cases isDirectory : found.isDirectory with
    | false =>
      obtain ⟨bytes, length, holds⟩ := holds_ofTree readable known isDirectory (.directory root)
      exact .inl ⟨bytes, length, holds⟩
    | true =>
      refine .inr fun position => ?_
      have nothing := readable path found known
      rw [isDirectory, Bool.not_true, Option.isSome_eq_false_iff, Option.isNone_iff_eq_none]
        at nothing
      show streamIn tree false found.id position = _
      rw [streamIn, nothing]
  newest := fun path answer => by
    obtain ⟨found, known, isFile⟩ := FileTree.status_of_newest answer
    obtain ⟨bytes, length, holds⟩ := holds_ofTree readable known isFile (.directory root)
    refine ⟨⟨found.id, found.length⟩, bytes, ?_, length, holds⟩
    show statusIn tree path = _
    rw [statusIn, known]

/-- Among files that stay as they are and can be read, every tailer comes to rest after some steps.
It leaves at most one file on the way, delivers no more lines in a step than it may, and if there is
any file below the root it rests at the newest one. -/
theorem restsAfter_of_reachable {tailer : Tailer} (reachable : tailer.Reachable) (pace : Pace)
    (root : Path) (readable : tree.Readable)
    (atHand : ∀ cursor, tailer.cursor = some cursor →
      (tree.contents.lookup cursor.id).isSome = true) :
    ∃ wait last steps,
      tailer.RestsAfter pace (.ofTree tree (.directory root) false) wait last steps ∧
      (∀ count, tailer.switches pace (.ofTree tree (.directory root) false) count ≤ 1) ∧
      (∀ step, (tailer.outcome pace (.ofTree tree (.directory root) false) step).delivered.length ≤
        pace.lines) ∧
      (tree.filesBelow tree.depthLimit root ≠ [] → wait = pace.idle ∧
        ∃ cursor status modified, last = some cursor ∧
          tree.status cursor.path = .ok status ∧ cursor.id = status.id ∧
          (cursor.path, modified) ∈ tree.filesBelow tree.depthLimit root ∧
          ∀ other ∈ tree.filesBelow tree.depthLimit root,
            isNewer other (cursor.path, modified) = false) := by
  have opened : ∀ cursor, tailer.cursor = some cursor →
      ∃ bytes, (View.ofTree tree (.directory root) false).Holds cursor.id bytes := by
    intro cursor following
    obtain ⟨contents, found⟩ := Option.isSome_iff_exists.mp (atHand cursor following)
    exact ⟨contents.bytes, holds_of_lookup found _⟩
  obtain ⟨wait, last, count, few, settles, ends⟩ :=
    reachable.tidy.comesToRest (readable_ofTree readable root) pace opened
  obtain ⟨steps, rests⟩ := settles.restsAfter
  refine ⟨wait, last, steps, rests, fun most => (settles.switches_le most).trans few,
    fun step => Tailer.length_delivered_le pace _ tailer step, fun some => ?_⟩
  obtain ⟨path, modified, newest, member, behind⟩ := FileTree.newest_eq_some some
  obtain ⟨waits, cursor, status, isLast, rfl, inspected, sameId⟩ := ends path newest
  obtain ⟨found, known, rfl⟩ := status_of_statusIn inspected
  exact ⟨waits, cursor, found, modified, isLast, known, sameId, member, behind⟩

/-- A tree with one file in it. -/
def oneFile : FileTree :=
  FileTree.empty.append ⟨["old"]⟩ [120, 10] 1

/-- The same tree after the file has grown and another one has come up. -/
def twoFiles : FileTree :=
  (oneFile.append ⟨["old"]⟩ [121] 2).append ⟨["new"]⟩ [122, 10, 119, 10] 3

/-- A tailer that follows the one file. -/
def follower : Tailer :=
  (Tailer.fresh.step (.ofLimit 1000 100 1) (.ofTree oneFile (.directory .top) false)).tailer

theorem restsAfter_follower :
    follower.Reachable ∧ twoFiles.Readable ∧
      (∀ cursor, follower.cursor = some cursor →
        (twoFiles.contents.lookup cursor.id).isSome = true) ∧
      ∃ last steps, last.path = ⟨["new"]⟩ ∧
        follower.RestsAfter (.ofLimit 1000 100 1) (.ofTree twoFiles (.directory .top) false) 100
          (some last) steps := by
  have reachable : follower.Reachable := .step _ _ .fresh
  have sound : oneFile.Sound := FileTree.sound_empty.append _ _ _
  have grown : twoFiles.Sound := (sound.append _ _ _).append _ _ _
  have following : follower.cursor = some ⟨⟨["old"]⟩, 1, 2, false, []⟩ := by decide
  have atHand : ∀ cursor, follower.cursor = some cursor →
      (twoFiles.contents.lookup cursor.id).isSome = true := by
    intro cursor found
    obtain rfl := Option.some.inj (following.symm.trans found)
    decide
  refine ⟨reachable, grown.readable, atHand, ?_⟩
  obtain ⟨wait, last, steps, rests, _, _, ends⟩ :=
    restsAfter_of_reachable reachable (.ofLimit 1000 100 1) .top grown.readable atHand
  have files : twoFiles.filesBelow twoFiles.depthLimit .top =
      [(⟨["new"]⟩, 3), (⟨["old"]⟩, 2)] := by decide
  rw [files] at ends
  obtain ⟨rfl, cursor, _, modified, rfl, _, _, member, behind⟩ := ends (List.cons_ne_nil _ _)
  refine ⟨cursor, steps, ?_, rests⟩
  rcases List.mem_cons.mp member with new | old
  · exact congrArg Prod.fst new
  · have beaten := behind _ List.mem_cons_self
    rw [List.mem_singleton.mp old] at beaten
    exact absurd beaten (by decide)

end NodeTelemetry.Tail
