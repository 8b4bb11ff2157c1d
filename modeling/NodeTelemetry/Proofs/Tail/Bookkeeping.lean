/-
This file says what a tailer keeps in order whatever happens around it, with files moved, cut off or
removed between its steps and with scans, opens and reads failing: which paths it has bookmarks of,
and what it holds back of the file at hand.

There are three places where a tailer may have the place of a file: the cursor of the file at hand,
what it keeps after a failed read, and the memory of the files that were left. No path is in two of
them. The first two exclude each other, since a failed read gives the cursor up, and a path is taken
out of the memory when its file is opened or to be opened, and put into it only when its file is
left. The memory has each path once and no more than its capacity, because whatever is put in pushes
the oldest out.
-/

import NodeTelemetry.Proofs.Tail.Memory
import NodeTelemetry.Proofs.Tail.Turn

namespace NodeTelemetry.Tail

namespace Tailer

/-- What a tailer that has made some steps can be like, whatever it saw in them. -/
inductive Reachable : Tailer → Prop
  | fresh : Reachable Tailer.fresh
  | step {tailer : Tailer} (pace : Pace) (view : View) (reachable : Reachable tailer) :
      Reachable (tailer.step pace view).tailer

/-- What a tailer keeps in order. -/
structure Tidy (tailer : Tailer) : Prop where
  distinct : tailer.memory.Distinct
  bounded : tailer.memory.length ≤ Memory.capacity
  /-- The file at hand is not among those that were left. -/
  currentForgotten : ∀ cursor, tailer.cursor = some cursor →
    tailer.memory.find? cursor.path = none
  /-- Nor is the file of which a read failed. -/
  pendingForgotten : ∀ bookmark, tailer.resume = some bookmark →
    tailer.memory.find? bookmark.path = none
  /-- A failed read matters only until a file is opened. -/
  notPending : ∀ cursor, tailer.cursor = some cursor → tailer.resume = none
  nothingYet : tailer.skipsHistory = true →
    tailer.cursor = none ∧ tailer.resume = none ∧ tailer.memory = []
  /-- What is held back is no whole line. -/
  unbroken : ∀ cursor, tailer.cursor = some cursor → lineFeed ∉ cursor.fragment

theorem tidy_fresh : Tidy fresh where
  distinct := List.nodup_nil
  bounded := Nat.zero_le _
  currentForgotten := fun _ following => by cases following
  pendingForgotten := fun _ pending => by cases pending
  notPending := fun _ following => by cases following
  nothingYet := fun _ => ⟨rfl, rfl, rfl⟩
  unbroken := fun _ following => by cases following

variable {pace : Pace} {view : View} {tailer : Tailer}

/-! ### The memory after a file was looked for -/

/-- A tailer goes on behind a failed read only with the file of this read. -/
theorem bookmark_of_resumes {path : Path} (resumes : tailer.resumes view path = true) :
    ∃ bookmark, tailer.resume = some bookmark ∧ bookmark.path = path := by
  unfold Tailer.resumes at resumes
  obtain ⟨offset, found⟩ := Option.isSome_iff_exists.mp resumes
  obtain ⟨bookmark, pending, serves⟩ := Option.bind_eq_some_iff.mp found
  refine ⟨bookmark, pending, ?_⟩
  unfold Bookmark.offsetFor? at serves
  split at serves
  · next same => exact same
  · cases serves

/-- What was opened is not in the memory any more. -/
theorem find?_memoryAfterLocating_self (tidy : tailer.Tidy) (path : Path) :
    (tailer.memoryAfterLocating view path).find? path = none := by
  unfold memoryAfterLocating
  split
  · next kept =>
    rcases Bool.or_eq_true_iff.mp kept with skips | resumes
    · rw [(tidy.nothingYet skips).2.2]
      rfl
    · obtain ⟨bookmark, pending, same⟩ := bookmark_of_resumes resumes
      rw [← same]
      exact tidy.pendingForgotten bookmark pending
  · exact Memory.find?_forget_self _ _

theorem find?_memoryAfterLocating_eq_none {path other : Path}
    (missing : tailer.memory.find? other = none) :
    (tailer.memoryAfterLocating view path).find? other = none := by
  unfold memoryAfterLocating
  split
  · exact missing
  · exact Memory.find?_forget_eq_none missing

/-- What was not opened stays in the memory. -/
theorem find?_memoryAfterLocating_of_ne {path other : Path} (different : other ≠ path) :
    (tailer.memoryAfterLocating view path).find? other = tailer.memory.find? other := by
  unfold memoryAfterLocating
  split
  · rfl
  · exact Memory.find?_forget_of_ne _ different

theorem Tidy.distinct_memoryAfterLocating (tidy : tailer.Tidy) (path : Path) :
    (tailer.memoryAfterLocating view path).Distinct := by
  unfold memoryAfterLocating
  split
  · exact tidy.distinct
  · exact tidy.distinct.forget path

theorem Tidy.length_memoryAfterLocating_le (tidy : tailer.Tidy) (path : Path) :
    (tailer.memoryAfterLocating view path).length ≤ Memory.capacity := by
  unfold memoryAfterLocating
  split
  · exact tidy.bounded
  · exact (Memory.length_forget_le _ _).trans tidy.bounded

/-! ### The memory after a file was left -/

/-- What was opened instead is not in the memory any more. -/
theorem find?_memoryAfterLeaving_self (cursor : Cursor) (path : Path) :
    (tailer.memoryAfterLeaving cursor path).find? path = none := by
  have forgotten := Memory.find?_forget_self tailer.memory path
  unfold memoryAfterLeaving
  simp only
  split
  · exact forgotten
  · next different => exact Memory.find?_remember_eq_none forgotten (Ne.symm different)

theorem Tidy.distinct_memoryAfterLeaving (tidy : tailer.Tidy) (cursor : Cursor) (path : Path) :
    (tailer.memoryAfterLeaving cursor path).Distinct := by
  have kept := tidy.distinct.forget path
  unfold memoryAfterLeaving
  simp only
  split
  · exact kept
  · exact kept.remember _

theorem Tidy.length_memoryAfterLeaving_le (tidy : tailer.Tidy) (cursor : Cursor) (path : Path) :
    (tailer.memoryAfterLeaving cursor path).length ≤ Memory.capacity := by
  have kept := (Memory.length_forget_le tailer.memory path).trans tidy.bounded
  unfold memoryAfterLeaving
  simp only
  split
  · exact kept
  · exact Memory.length_remember_le kept _

/-! ### Steps -/

/-- With a file at hand no file is read from its end any more. -/
theorem Tidy.notSkipping (tidy : tailer.Tidy) {cursor : Cursor}
    (following : tailer.cursor = some cursor) : tailer.skipsHistory ≠ true := by
  intro skips
  have locating := (tidy.nothingYet skips).1
  rw [following] at locating
  cases locating

/-- A tailer that reads on in the file at hand stays in order if it holds back no whole line. -/
theorem Tidy.move (tidy : tailer.Tidy) {cursor moved : Cursor}
    (following : tailer.cursor = some cursor) (samePath : moved.path = cursor.path)
    (unbroken : lineFeed ∉ moved.fragment) : Tidy { tailer with cursor := some moved } where
  distinct := tidy.distinct
  bounded := tidy.bounded
  currentForgotten := by
    rintro _ ⟨⟩
    rw [samePath]
    exact tidy.currentForgotten cursor following
  pendingForgotten := tidy.pendingForgotten
  notPending := fun _ _ => tidy.notPending cursor following
  nothingYet := fun skips => absurd skips (tidy.notSkipping following)
  unbroken := by
    rintro _ ⟨⟩
    exact unbroken

/-- Whatever a step does, it leaves the tailer in order. -/
theorem Tidy.turn (tidy : tailer.Tidy) {target : Option Path} {outcome : Outcome}
    (turn : Turn pace view tailer target outcome) : outcome.tailer.Tidy := by
  cases turn with
  | unanswered => exact tidy
  | nothing locating =>
    exact { tidy with
      nothingYet := fun skips => by cases skips }
  | refused path locating =>
    exact {
      distinct := tidy.distinct_memoryAfterLocating path
      bounded := tidy.length_memoryAfterLocating_le path
      currentForgotten := fun cursor following => by cases locating.symm.trans following
      pendingForgotten := fun bookmark pending =>
        find?_memoryAfterLocating_eq_none (tidy.pendingForgotten bookmark pending)
      notPending := tidy.notPending
      nothingYet := fun skips => by
        obtain ⟨_, noResume, noMemory⟩ := tidy.nothingYet skips
        refine ⟨locating, noResume, ?_⟩
        have skipping : tailer.skipsHistory = true := skips
        simp only [memoryAfterLocating, skipping, Bool.true_or, if_true, noMemory]
      unbroken := fun cursor following => by cases locating.symm.trans following }
  | opened path cursor locating answer opens =>
    obtain ⟨status, _, samePath, _, _, empty⟩ := openAt_eq_some opens
    exact {
      distinct := tidy.distinct_memoryAfterLocating path
      bounded := tidy.length_memoryAfterLocating_le path
      currentForgotten := by
        rintro _ ⟨⟩
        rw [samePath]
        exact find?_memoryAfterLocating_self tidy path
      pendingForgotten := fun _ pending => by cases pending
      notPending := fun _ _ => rfl
      nothingYet := fun skips => by cases skips
      unbroken := by
        rintro _ ⟨⟩
        rw [empty]
        exact List.not_mem_nil }
  | busy cursor lines rest following cut full =>
    exact tidy.move following rfl List.not_mem_nil
  | broken cursor lines rest following cut short fails =>
    exact {
      distinct := tidy.distinct
      bounded := tidy.bounded
      currentForgotten := fun _ stopped => by cases stopped
      -- The place of the failed read was that of the cursor until now.
      pendingForgotten := by
        rintro _ ⟨⟩
        exact tidy.currentForgotten cursor following
      notPending := fun _ stopped => by cases stopped
      nothingYet := fun skips => absurd skips (tidy.notSkipping following)
      unbroken := fun _ stopped => by cases stopped }
  | idle cursor lines rest following cut short ends stays =>
    exact tidy.move following rfl (cut.complete short)
  | left cursor lines rest path opened following cut short ends leaves opens =>
    exact {
      distinct := tidy.distinct_memoryAfterLeaving _ path
      bounded := tidy.length_memoryAfterLeaving_le _ path
      currentForgotten := fun next found => by
        obtain ⟨_, _, samePath, _⟩ := openAt_eq_some (opens.trans found)
        rw [samePath]
        exact find?_memoryAfterLeaving_self _ path
      pendingForgotten := fun bookmark pending => by
        cases (tidy.notPending cursor following).symm.trans pending
      notPending := fun _ _ => tidy.notPending cursor following
      nothingYet := fun skips => absurd skips (tidy.notSkipping following)
      unbroken := fun next found => by
        obtain ⟨_, _, _, _, _, empty⟩ := openAt_eq_some (opens.trans found)
        rw [empty]
        exact List.not_mem_nil }

theorem Tidy.step (tidy : tailer.Tidy) (pace : Pace) (view : View) :
    (tailer.step pace view).tailer.Tidy :=
  tidy.turn (turn_step pace view tailer)

theorem Reachable.tidy (reachable : tailer.Reachable) : tailer.Tidy := by
  induction reachable with
  | fresh => exact tidy_fresh
  | step pace view _ inductionHypothesis => exact inductionHypothesis.step pace view

end Tailer

end NodeTelemetry.Tail
