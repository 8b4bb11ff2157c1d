/-
This file shows that no byte is consumed twice and none is left out. As long as files only come into
being and grow, what was consumed of a file is what stands in it between the place where reading
began and the place where the tailer would go on, however often the file was left and found again
and however often reading it failed. The tailer knows where to go on because it remembers the files
it left, so there must not be more of them than it can remember.

The invariant is an account for each path. For a path of which the tailer has a place, wherever it
keeps it, what was consumed of the path are the bytes of its file between the baseline and this
place. For any other path nothing was consumed, since it was never followed. The baseline is zero,
except for the file that was read from its end. There are few ways in which an account can change:
lines are consumed and the place moves behind them, a file is opened at its place or at its
baseline, or the files themselves grow, which does not change what lies in front of a place. Each
step of a tailer is one of these or two of them one after the other.

That a place is never lost is a count. All files that were followed, but for the one at hand, fit
into the memory if there are no more than seventeen of them, so nothing is ever pushed out.
-/

import Mathlib.Data.List.Perm.Subperm
import NodeTelemetry.Proofs.Tail.Bookkeeping
import NodeTelemetry.Proofs.Tail.Trees

namespace NodeTelemetry.Tail

/-- Where a tailer would go on with a path: at the cursor, where reading failed last, or where the
file was left for others. -/
def Tailer.bookmark? (tailer : Tailer) (path : Path) : Option Bookmark :=
  match tailer.cursor, tailer.resume with
  | some cursor, _ =>
    if cursor.path = path then some cursor.bookmark else tailer.memory.find? path
  | none, some bookmark =>
    if bookmark.path = path then some bookmark else tailer.memory.find? path
  | none, none => tailer.memory.find? path

/-! ### Histories -/

/-- A tailer at work, with what it did so far. -/
structure History where
  disk : Disk
  tailer : Tailer
  /-- What was consumed, in this order. -/
  consumed : List Segment
  /-- The paths that were followed, each of them once. -/
  followed : List Path
  /-- The file that was read from its end, and how long it was. -/
  skipped : Option (Path × Nat)

namespace History

/-- A new tailer among files. -/
def start (disk : Disk) : History :=
  { disk := disk
    tailer := Tailer.fresh
    consumed := []
    followed := []
    skipped := none }

/-- The history after an outcome of a step. -/
def after (history : History) (outcome : Outcome) : History :=
  { disk := history.disk
    tailer := outcome.tailer
    consumed := history.consumed ++ outcome.segments
    followed :=
      match outcome.tailer.cursor with
      | none => history.followed
      | some cursor => history.followed.insert cursor.path
    skipped :=
      match outcome.tailer.cursor with
      | none => history.skipped
      | some cursor =>
        if history.tailer.skipsHistory then
          some (cursor.path, (history.disk.bytes cursor.id).length)
        else history.skipped }

/-- The history after a step. -/
def step (history : History) (pace : Pace) (view : View) : History :=
  history.after (history.tailer.step pace view)

/-- The history after the files changed. -/
def change (history : History) (disk : Disk) : History :=
  { history with disk := disk }

/-- What was consumed of a path. -/
def consumedFrom (history : History) (path : Path) : List UInt8 :=
  bytesOf (history.consumed.filter (·.path == path))

/-- Where reading of a path began. -/
def baseline (history : History) (path : Path) : Nat :=
  match history.skipped with
  | none => 0
  | some (first, length) => if first = path then length else 0

/-- The histories in which files only come into being and grow, what a step goes to open can be
opened, and a file of which a read failed is the next one to be opened. -/
inductive Undisturbed : History → Prop
  | start (disk : Disk) : Undisturbed (start disk)
  | change {history : History} (disk : Disk) (undisturbed : Undisturbed history)
      (grows : history.disk.Grows disk) : Undisturbed (history.change disk)
  | step {history : History} (pace : Pace) (view : View) (undisturbed : Undisturbed history)
      (shows : view.Shows history.disk)
      (opens : ∀ path, history.tailer.target? pace view = some path →
        ∃ id, history.disk.fileAt path = some id)
      (relocates : ∀ bookmark path, history.tailer.cursor = none →
        history.tailer.resume = some bookmark → history.tailer.target? pace view = some path →
        path = bookmark.path) :
      Undisturbed (history.step pace view)

/-! ### What is accounted for -/

/-- Whether what was consumed of a path is what its file holds from the baseline up to an offset. -/
structure Accounts (history : History) (path : Path) (id : FileId) (offset : Nat) : Prop where
  leads : history.disk.fileAt path = some id
  baseline_le : history.baseline path ≤ offset
  offset_le : offset ≤ (history.disk.bytes id).length
  consumed_eq : history.consumedFrom path =
    ((history.disk.bytes id).drop (history.baseline path)).take (offset - history.baseline path)

/-- Whether all that was consumed is accounted for. -/
structure Sound (history : History) : Prop where
  tidy : history.tailer.Tidy
  followedOnce : history.followed.Nodup
  known : ∀ path place, history.tailer.bookmark? path = some place →
    path ∈ history.followed ∧ history.Accounts path place.id place.offset
  unknown : ∀ path, history.tailer.bookmark? path = none →
    path ∉ history.followed ∧ history.consumedFrom path = []
  skippedFollowed : ∀ first length, history.skipped = some (first, length) →
    first ∈ history.followed
  notFollowing : history.tailer.skipsHistory = true → history.followed = []
  /-- What is held back lies behind the offset. -/
  held : ∀ cursor, history.tailer.cursor = some cursor →
    cursor.fragment <+: (history.disk.bytes cursor.id).drop cursor.offset

/-! ### Bytes of a file -/

/-- What stands behind some bytes of a file makes up with them a longer part of it. -/
theorem take_drop_append {bytes piece : List UInt8} {start stop : Nat} (ordered : start ≤ stop)
    (next : piece <+: bytes.drop stop) :
    (bytes.drop start).take (stop - start) ++ piece =
      (bytes.drop start).take (stop + piece.length - start) := by
  have behind : piece = ((bytes.drop start).drop (stop - start)).take piece.length := by
    rw [List.drop_drop, Nat.add_sub_cancel' ordered]
    exact List.prefix_iff_eq_take.mp next
  rw [show stop + piece.length - start = stop - start + piece.length by omega, List.take_add,
    ← behind]

/-- A part of a file stays the same while the file grows. -/
theorem take_drop_of_longer {before after : List UInt8} {start stop : Nat}
    (longer : before <+: after) (inside : stop ≤ before.length) :
    (after.drop start).take (stop - start) = (before.drop start).take (stop - start) := by
  obtain ⟨more, rfl⟩ := longer
  rcases Nat.lt_or_ge stop start with empty | ordered
  · rw [Nat.sub_eq_zero_of_le (Nat.le_of_lt empty), List.take_zero, List.take_zero]
  · rw [List.drop_append_of_le_length (ordered.trans inside),
      List.take_append_of_le_length (by rw [List.length_drop]; omega)]

/-! ### Changes of the files -/

theorem Accounts.change {history : History} {disk : Disk} {path : Path} {id : FileId} {offset : Nat}
    (accounts : history.Accounts path id offset) (grows : history.disk.Grows disk) :
    (history.change disk).Accounts path id offset where
  leads := grows.stays path id accounts.leads
  baseline_le := accounts.baseline_le
  offset_le := accounts.offset_le.trans (grows.longer path id accounts.leads).length_le
  consumed_eq := by
    refine accounts.consumed_eq.trans ?_
    exact (take_drop_of_longer (grows.longer path id accounts.leads) accounts.offset_le).symm

/-! ### Consuming -/

/-- The history with the tailer in another state after it consumed some more. -/
def proceed (history : History) (tailer : Tailer) (segments : List Segment) : History :=
  { history with
    tailer := tailer
    consumed := history.consumed ++ segments }

variable {history : History}

/-- What is consumed adds to what was consumed of its path. -/
theorem consumedFrom_proceed (tailer : Tailer) (segments : List Segment) (path : Path) :
    (history.proceed tailer segments).consumedFrom path =
      history.consumedFrom path ++ bytesOf (segments.filter (·.path == path)) := by
  simp only [consumedFrom, proceed, List.filter_append, bytesOf_append]

theorem consumedFrom_proceed_self {segments : List Segment} {path : Path} (tailer : Tailer)
    (all : ∀ segment ∈ segments, segment.path = path) :
    (history.proceed tailer segments).consumedFrom path =
      history.consumedFrom path ++ bytesOf segments := by
  have kept : segments.filter (·.path == path) = segments :=
    List.filter_eq_self.mpr fun segment member => by simpa using all segment member
  rw [consumedFrom_proceed, kept]

theorem consumedFrom_proceed_other {segments : List Segment} {path other : Path} (tailer : Tailer)
    (all : ∀ segment ∈ segments, segment.path = path) (different : other ≠ path) :
    (history.proceed tailer segments).consumedFrom other = history.consumedFrom other := by
  have dropped : segments.filter (·.path == other) = [] :=
    List.filter_eq_nil_iff.mpr fun segment member => by
      simpa [all segment member] using Ne.symm different
  rw [consumedFrom_proceed, dropped, bytesOf, List.flatMap_nil, List.append_nil]

/-- What is said about a path stays true while nothing of it is consumed. -/
theorem Accounts.proceed_other {path other : Path} {id : FileId} {offset : Nat}
    {segments : List Segment} (accounts : history.Accounts other id offset) (tailer : Tailer)
    (all : ∀ segment ∈ segments, segment.path = path) (different : other ≠ path) :
    (history.proceed tailer segments).Accounts other id offset where
  leads := accounts.leads
  baseline_le := accounts.baseline_le
  offset_le := accounts.offset_le
  consumed_eq := (consumedFrom_proceed_other tailer all different).trans accounts.consumed_eq

/-- What is consumed behind the offset is accounted for when the offset moves behind it. -/
theorem Accounts.proceed_self {path : Path} {id : FileId} {offset : Nat}
    {segments : List Segment} (accounts : history.Accounts path id offset) (tailer : Tailer)
    (all : ∀ segment ∈ segments, segment.path = path)
    (ahead : bytesOf segments <+: (history.disk.bytes id).drop offset) :
    (history.proceed tailer segments).Accounts path id (offset + (bytesOf segments).length) where
  leads := accounts.leads
  baseline_le := accounts.baseline_le.trans (Nat.le_add_right _ _)
  offset_le := by
    have room := ahead.length_le
    rw [List.length_drop] at room
    have reaches := accounts.offset_le
    show offset + (bytesOf segments).length ≤ (history.disk.bytes id).length
    omega
  consumed_eq := by
    rw [consumedFrom_proceed_self tailer all, accounts.consumed_eq]
    exact take_drop_append accounts.baseline_le ahead

/-! ### Reading on and giving up -/

/-- With a file at hand the tailer would go on with it at the cursor. -/
theorem bookmark?_of_following {tailer : Tailer} (cursor : Cursor)
    (following : tailer.cursor = some cursor) (path : Path) :
    tailer.bookmark? path =
      if cursor.path = path then some cursor.bookmark else tailer.memory.find? path := by
  unfold Tailer.bookmark?
  rw [following]

/-- Without a file at hand the places are those in the memory. -/
theorem bookmark?_of_locating {tailer : Tailer} (locating : tailer.cursor = none)
    (calm : tailer.resume = none) (path : Path) :
    tailer.bookmark? path = tailer.memory.find? path := by
  unfold Tailer.bookmark?
  rw [locating, calm]

theorem bookmark?_of_pending {tailer : Tailer} {bookmark : Bookmark}
    (locating : tailer.cursor = none) (pending : tailer.resume = some bookmark) (path : Path) :
    tailer.bookmark? path =
      if bookmark.path = path then some bookmark else tailer.memory.find? path := by
  unfold Tailer.bookmark?
  rw [locating, pending]

theorem path_of_bookmark? {tailer : Tailer} {path : Path} {place : Bookmark}
    (found : tailer.bookmark? path = some place) : place.path = path := by
  unfold Tailer.bookmark? at found
  split at found <;> try split at found
  all_goals first
    | exact Memory.path_of_find? found
    | next same =>
      rw [← Option.some.inj found]
      exact same

namespace Sound

theorem following (sound : history.Sound) {cursor : Cursor}
    (following : history.tailer.cursor = some cursor) :
    cursor.path ∈ history.followed ∧
      history.Accounts cursor.path cursor.id cursor.offset :=
  sound.known cursor.path cursor.bookmark
    ((bookmark?_of_following _ following cursor.path).trans (if_pos rfl))

theorem change {disk : Disk} (sound : history.Sound) (grows : history.disk.Grows disk) :
    (history.change disk).Sound where
  tidy := sound.tidy
  followedOnce := sound.followedOnce
  known := fun path place found => by
    obtain ⟨member, accounts⟩ := sound.known path place found
    exact ⟨member, accounts.change grows⟩
  unknown := sound.unknown
  skippedFollowed := sound.skippedFollowed
  notFollowing := sound.notFollowing
  held := fun cursor following =>
    (sound.held cursor following).trans
      (grows.drop_longer (sound.following following).2.leads cursor.offset)

/-- Once some file was followed, no file is read from its end any more. -/
theorem notSkipping_of_known (sound : history.Sound) {path : Path} {place : Bookmark}
    (found : history.tailer.bookmark? path = some place) :
    history.tailer.skipsHistory = false := by
  by_contra skips
  have member := (sound.known path place found).1
  rw [sound.notFollowing (by simpa using skips)] at member
  cases member

/-- With the file at hand read on, all is accounted for. -/
theorem consume (sound : history.Sound) {cursor : Cursor} (moved : Cursor)
    (segments : List Segment)
    (following : history.tailer.cursor = some cursor)
    (tidy : Tailer.Tidy { history.tailer with cursor := some moved })
    (samePath : moved.path = cursor.path) (sameId : moved.id = cursor.id)
    (behind : moved.offset = cursor.offset + (bytesOf segments).length)
    (all : ∀ segment ∈ segments, segment.path = cursor.path)
    (ahead : bytesOf segments ++ moved.fragment <+:
      (history.disk.bytes cursor.id).drop cursor.offset) :
    (history.proceed { history.tailer with cursor := some moved } segments).Sound where
  tidy := tidy
  followedOnce := sound.followedOnce
  known := fun path place found => by
    rw [bookmark?_of_following moved rfl, samePath] at found
    split at found
    · next same =>
      obtain ⟨member, accounts⟩ := sound.following following
      cases found
      subst same
      refine ⟨member, ?_⟩
      have moves := accounts.proceed_self { history.tailer with cursor := some moved } all
        ((List.prefix_append _ _).trans ahead)
      rw [← behind, ← sameId] at moves
      exact moves
    · next different =>
      have before : history.tailer.bookmark? path = some place := by
        rw [bookmark?_of_following _ following, if_neg different]
        exact found
      obtain ⟨member, accounts⟩ := sound.known path place before
      exact ⟨member, accounts.proceed_other _ all (Ne.symm different)⟩
  unknown := fun path missing => by
    rw [bookmark?_of_following moved rfl, samePath] at missing
    split at missing
    · cases missing
    · next different =>
      have before : history.tailer.bookmark? path = none := by
        rw [bookmark?_of_following _ following, if_neg different]
        exact missing
      obtain ⟨notMember, nothing⟩ := sound.unknown path before
      exact ⟨notMember,
        (consumedFrom_proceed_other _ all (Ne.symm different)).trans nothing⟩
  skippedFollowed := sound.skippedFollowed
  notFollowing := sound.notFollowing
  held := by
    rintro _ ⟨⟩
    obtain ⟨more, whole⟩ := ahead
    show moved.fragment <+: (history.disk.bytes moved.id).drop moved.offset
    rw [sameId, behind, ← List.drop_drop, ← whole, List.append_assoc, List.drop_left]
    exact List.prefix_append _ _

/-- As long as the tailer would go on at the same places, all is accounted for. -/
theorem keep (sound : history.Sound) {tailer : Tailer} (tidy : tailer.Tidy)
    (same : ∀ path, tailer.bookmark? path = history.tailer.bookmark? path)
    (skipping : tailer.skipsHistory = true → history.tailer.skipsHistory = true)
    (held : ∀ cursor, tailer.cursor = some cursor →
      cursor.fragment <+: (history.disk.bytes cursor.id).drop cursor.offset) :
    (history.proceed tailer []).Sound where
  tidy := tidy
  followedOnce := sound.followedOnce
  known := fun path place found => by
    obtain ⟨member, accounts⟩ := sound.known path place ((same path).symm.trans found)
    refine ⟨member, { accounts with consumed_eq := ?_ }⟩
    rw [consumedFrom_proceed, List.filter_nil, bytesOf, List.flatMap_nil, List.append_nil]
    exact accounts.consumed_eq
  unknown := fun path missing => by
    obtain ⟨notMember, nothing⟩ := sound.unknown path ((same path).symm.trans missing)
    refine ⟨notMember, ?_⟩
    rw [consumedFrom_proceed, nothing]
    rfl
  skippedFollowed := sound.skippedFollowed
  notFollowing := fun skips => sound.notFollowing (skipping skips)
  held := held

/-! ### Opening a file -/

/-- With a file opened that was followed before, all is accounted for if reading goes on where it
stopped. -/
theorem reopen (sound : history.Sound) {tailer : Tailer} {cursor : Cursor} {place : Bookmark}
    (tidy : tailer.Tidy) (current : tailer.cursor = some cursor) (empty : cursor.fragment = [])
    (others : ∀ other, other ≠ cursor.path →
      tailer.bookmark? other = history.tailer.bookmark? other)
    (left : history.tailer.bookmark? cursor.path = some place) (sameId : cursor.id = place.id)
    (sameOffset : cursor.offset = place.offset) (next : Next) :
    (history.after ⟨tailer, next, []⟩).Sound := by
  have followed : cursor.path ∈ history.followed := (sound.known cursor.path place left).1
  have notSkipping := sound.notSkipping_of_known left
  have unchanged : history.after ⟨tailer, next, []⟩ = history.proceed tailer [] := by
    simp only [after, proceed, current, notSkipping, List.insert_of_mem followed,
      Bool.false_eq_true, if_false]
  have samePlace : cursor.bookmark = place := by
    rw [Cursor.bookmark, sameId, sameOffset, ← path_of_bookmark? left]
  rw [unchanged]
  refine sound.keep tidy (fun path => ?_) (fun skips => ?_) (fun opened following => ?_)
  · by_cases same : path = cursor.path
    · rw [same, left, bookmark?_of_following _ current, if_pos rfl, samePlace]
    · exact others path same
  · exact absurd skips (tidy.notSkipping current)
  · rw [current] at following
    cases following
    rw [empty]
    exact List.nil_prefix

/-- Of a file that was never followed reading begins at the beginning. -/
theorem baseline_of_notMem (sound : history.Sound) {path : Path} (new : path ∉ history.followed) :
    history.baseline path = 0 := by
  unfold baseline
  split
  · rfl
  · next first length skipped =>
    have different : first ≠ path := by
      rintro rfl
      exact new (sound.skippedFollowed first length skipped)
    exact if_neg different

/-- With a file opened that was never followed before, all is accounted for if reading begins at the
baseline. -/
theorem openNew (sound : history.Sound) {tailer : Tailer} {cursor : Cursor} (tidy : tailer.Tidy)
    (current : tailer.cursor = some cursor) (empty : cursor.fragment = [])
    (others : ∀ other, other ≠ cursor.path →
      tailer.bookmark? other = history.tailer.bookmark? other)
    (leads : history.disk.fileAt cursor.path = some cursor.id)
    (new : history.tailer.bookmark? cursor.path = none)
    (begins : cursor.offset =
      if history.tailer.skipsHistory then (history.disk.bytes cursor.id).length else 0)
    (next : Next) : (history.after ⟨tailer, next, []⟩).Sound := by
  obtain ⟨notFollowed, nothing⟩ := sound.unknown cursor.path new
  have consumedSame : ∀ path, (history.after ⟨tailer, next, []⟩).consumedFrom path =
      history.consumedFrom path := by
    intro path
    simp only [consumedFrom, after, List.append_nil]
  have followedNow : (history.after ⟨tailer, next, []⟩).followed =
      cursor.path :: history.followed := by
    simp only [after, current, List.insert_of_not_mem notFollowed]
  have skippedNow : (history.after ⟨tailer, next, []⟩).skipped =
      if history.tailer.skipsHistory then some (cursor.path, cursor.offset)
      else history.skipped := by
    simp only [after, current, begins]
    split <;> rfl
  -- A file is passed over up to its end only if none was followed before.
  have baselineNow : (history.after ⟨tailer, next, []⟩).baseline cursor.path = cursor.offset := by
    rw [baseline, skippedNow]
    cases skips : history.tailer.skipsHistory with
    | true => exact if_pos rfl
    | false =>
      rw [skips] at begins
      exact (sound.baseline_of_notMem notFollowed).trans begins.symm
  have baselineSame : ∀ path ∈ history.followed,
      (history.after ⟨tailer, next, []⟩).baseline path = history.baseline path := by
    intro path member
    rw [baseline, skippedNow]
    cases skips : history.tailer.skipsHistory with
    | true =>
      rw [sound.notFollowing skips] at member
      cases member
    | false => rfl
  exact {
    tidy := tidy
    followedOnce := by
      rw [followedNow]
      exact List.nodup_cons.mpr ⟨notFollowed, sound.followedOnce⟩
    known := fun path place found => by
      rw [followedNow]
      by_cases same : path = cursor.path
      · subst same
        have here : place = cursor.bookmark := by
          have found : tailer.bookmark? cursor.path = some place := found
          rw [bookmark?_of_following _ current, if_pos rfl] at found
          exact (Option.some.inj found).symm
        subst here
        refine ⟨List.mem_cons_self, leads, baselineNow.le, ?_, ?_⟩
        · show cursor.offset ≤ (history.disk.bytes cursor.id).length
          rw [begins]
          split <;> omega
        · rw [consumedSame, nothing, baselineNow, Cursor.bookmark, Nat.sub_self, List.take_zero]
      · obtain ⟨member, accounts⟩ := sound.known path place ((others path same).symm.trans found)
        refine ⟨List.mem_cons_of_mem _ member, accounts.leads, ?_, accounts.offset_le, ?_⟩
        · rw [baselineSame path member]
          exact accounts.baseline_le
        · rw [consumedSame, baselineSame path member]
          exact accounts.consumed_eq
    unknown := fun path missing => by
      have different : path ≠ cursor.path := by
        rintro rfl
        have missing : tailer.bookmark? cursor.path = none := missing
        rw [bookmark?_of_following _ current, if_pos rfl] at missing
        cases missing
      obtain ⟨notMember, untouched⟩ :=
        sound.unknown path ((others path different).symm.trans missing)
      rw [followedNow, consumedSame]
      exact ⟨List.not_mem_cons_of_ne_of_not_mem different notMember, untouched⟩
    skippedFollowed := fun first length skipped => by
      rw [skippedNow] at skipped
      rw [followedNow]
      split at skipped
      · cases skipped
        exact List.mem_cons_self
      · exact List.mem_cons_of_mem _ (sound.skippedFollowed first length skipped)
    notFollowing := fun skips => absurd skips (tidy.notSkipping current)
    held := fun opened following => by
      have following : tailer.cursor = some opened := following
      rw [current] at following
      cases following
      rw [empty]
      exact List.nil_prefix }

/-- With a file opened, all is accounted for if reading goes on where it stopped, and begins at the
baseline if the file was never followed before. -/
theorem opened (sound : history.Sound) {view : View} (shows : view.Shows history.disk)
    {tailer : Tailer} {cursor : Cursor} {path : Path} {start : Start} (tidy : tailer.Tidy)
    (current : tailer.cursor = some cursor) (opens : Cursor.openAt view path start = some cursor)
    (others : ∀ other, other ≠ path → tailer.bookmark? other = history.tailer.bookmark? other)
    (returns : ∀ place, history.tailer.bookmark? path = some place →
      start = .resumed place.offset)
    (begins : history.tailer.bookmark? path = none →
      start = if history.tailer.skipsHistory then .atEnd else .atBeginning)
    (next : Next) : (history.after ⟨tailer, next, []⟩).Sound := by
  obtain ⟨rfl, leads, empty, offset⟩ := Cursor.openAt_of_trueTo shows.trueTo opens
  cases found : history.tailer.bookmark? cursor.path with
  | some place =>
    have accounts := (sound.known cursor.path place found).2
    have sameId : cursor.id = place.id := Option.some.inj (leads.symm.trans accounts.leads)
    rw [returns place found] at offset
    exact sound.reopen tidy current empty others found sameId offset next
  | none =>
    refine sound.openNew tidy current empty others leads found ?_ next
    rw [offset, begins found]
    split <;> rfl

/-- A place where the tailer would go on still serves. -/
theorem offsetFor?_of_bookmark? (sound : history.Sound) {view : View}
    (shows : view.Shows history.disk) {path : Path} {place : Bookmark}
    (found : history.tailer.bookmark? path = some place) :
    place.offsetFor? view path = some place.offset := by
  have accounts := (sound.known path place found).2
  have samePath := path_of_bookmark? found
  rw [← samePath] at accounts ⊢
  exact Bookmark.offsetFor?_of_shows shows accounts.leads accounts.offset_le

end Sound

/-! ### Steps -/

/-- A step that opens no file for the first time only moves the tailer and consumes. -/
theorem after_eq_proceed {outcome : Outcome} (notSkipping : history.tailer.skipsHistory ≠ true)
    (member : ∀ cursor, outcome.tailer.cursor = some cursor → cursor.path ∈ history.followed) :
    history.after outcome = history.proceed outcome.tailer outcome.segments := by
  unfold after proceed
  cases following : outcome.tailer.cursor with
  | none => rfl
  | some cursor =>
    simp only [List.insert_of_mem (member cursor following)]
    rw [if_neg notSkipping]

theorem after_of_locating {outcome : Outcome} (locating : outcome.tailer.cursor = none) :
    history.after outcome = history.proceed outcome.tailer outcome.segments := by
  unfold after proceed
  rw [locating]

namespace Sound

variable {pace : Pace} {view : View}

/-- With a file opened after none was at hand, all is accounted for. -/
theorem locate (sound : history.Sound) (shows : view.Shows history.disk) {path : Path}
    {cursor : Cursor} (locating : history.tailer.cursor = none)
    (relocates : ∀ bookmark, history.tailer.resume = some bookmark → path = bookmark.path)
    (opens : Cursor.openAt view path (history.tailer.startFor view path) = some cursor)
    (tidy : Tailer.Tidy
      { cursor := some cursor
        skipsHistory := false
        resume := none
        memory := history.tailer.memoryAfterLocating view path }) :
    (history.after
      ⟨{ cursor := some cursor
         skipsHistory := false
         resume := none
         memory := history.tailer.memoryAfterLocating view path }, .again, []⟩).Sound := by
  have samePath := (Cursor.openAt_of_trueTo shows.trueTo opens).1
  -- A failed read was of the path that is opened now, so the places of all others stay.
  refine sound.opened shows tidy rfl opens (fun other different => ?_) (fun place found => ?_)
    (fun new => ?_) .again
  · rw [bookmark?_of_following cursor rfl, samePath, if_neg (Ne.symm different),
      Tailer.find?_memoryAfterLocating_of_ne different]
    cases pending : history.tailer.resume with
    | none => exact (bookmark?_of_locating locating pending other).symm
    | some bookmark =>
      have elsewhere : bookmark.path ≠ other := relocates bookmark pending ▸ Ne.symm different
      rw [bookmark?_of_pending locating pending, if_neg elsewhere]
  · have notSkipping := sound.notSkipping_of_known found
    have serves := sound.offsetFor?_of_bookmark? shows found
    cases pending : history.tailer.resume with
    | none =>
      rw [bookmark?_of_locating locating pending] at found
      simp only [Tailer.startFor, notSkipping, pending, Memory.offsetFor?, found, Option.bind_none,
        Option.bind_some, serves, Option.none_or, Bool.false_eq_true, if_false, Start.resuming]
    | some bookmark =>
      rw [bookmark?_of_pending locating pending, if_pos (relocates bookmark pending).symm] at found
      cases found
      simp only [Tailer.startFor, notSkipping, pending, Option.bind_some, serves, Option.some_or,
        Bool.false_eq_true, if_false, Start.resuming]
  · cases pending : history.tailer.resume with
    | none =>
      rw [bookmark?_of_locating locating pending] at new
      simp only [Tailer.startFor, pending, Memory.offsetFor?, new, Option.bind_none,
        Option.or_none, Start.resuming]
    | some bookmark =>
      rw [bookmark?_of_pending locating pending, if_pos (relocates bookmark pending).symm] at new
      cases new

/-- The tailer can remember the file at hand when it leaves it, if it has not followed too many. -/
theorem room (sound : history.Sound) {cursor : Cursor} {path : Path}
    (following : history.tailer.cursor = some cursor) (different : path ≠ cursor.path)
    (few : (history.followed.insert path).length ≤ Memory.capacity + 1) :
    ((history.tailer.memory.forget path).forget cursor.path).length < Memory.capacity := by
  let others := (history.tailer.memory.forget path).forget cursor.path
  have noCurrent : others.find? cursor.path = none := Memory.find?_forget_self _ _
  have noPath : others.find? path = none :=
    Memory.find?_forget_eq_none (Memory.find?_forget_self _ _)
  have distinct : (path :: cursor.path :: others.map Bookmark.path).Nodup := by
    refine List.nodup_cons.mpr ⟨List.not_mem_cons_of_ne_of_not_mem different
      (Memory.find?_eq_none.mp noPath), List.nodup_cons.mpr ⟨Memory.find?_eq_none.mp noCurrent, ?_⟩⟩
    exact (sound.tidy.distinct.forget path).forget cursor.path
  have followed : path :: cursor.path :: others.map Bookmark.path ⊆
      history.followed.insert path := by
    intro other member
    rcases List.mem_cons.mp member with rfl | member
    · exact List.mem_insert_self
    refine List.mem_insert_of_mem ?_
    rcases List.mem_cons.mp member with rfl | member
    · exact (sound.following following).1
    by_contra unfollowed
    have missing : history.tailer.memory.find? other = none := by
      cases found : history.tailer.memory.find? other with
      | none => rfl
      | some place =>
        have elsewhere : cursor.path ≠ other := by
          rintro rfl
          exact Memory.find?_eq_none.mp noCurrent member
        have known : history.tailer.bookmark? other = some place := by
          rw [bookmark?_of_following _ following, if_neg elsewhere, found]
        exact absurd (sound.known other place known).1 unfollowed
    exact Memory.find?_eq_none.mp
      (Memory.find?_forget_eq_none (Memory.find?_forget_eq_none missing)) member
  have bound := (distinct.subperm followed).length_le
  simp only [List.length_cons, List.length_map] at bound
  show others.length < Memory.capacity
  omega

/-- With the file at hand left for another one, all is accounted for. -/
theorem leave (sound : history.Sound) (shows : view.Shows history.disk) {cursor : Cursor}
    (opened : Cursor) {path : Path} (following : history.tailer.cursor = some cursor)
    (empty : cursor.fragment = []) (different : path ≠ cursor.path)
    (opens : Cursor.openAt view path
      (.resuming (history.tailer.memory.offsetFor? view path)) = some opened)
    (few : (history.followed.insert path).length ≤ Memory.capacity + 1)
    (tidy : Tailer.Tidy
      { history.tailer with
        cursor := some opened
        memory := history.tailer.memoryAfterLeaving cursor path })
    (next : Next) :
    (history.after
      ⟨{ history.tailer with
         cursor := some opened
         memory := history.tailer.memoryAfterLeaving cursor path }, next, []⟩).Sound := by
  have samePath := (Cursor.openAt_of_trueTo shows.trueTo opens).1
  have memory : history.tailer.memoryAfterLeaving cursor path =
      (history.tailer.memory.forget path).remember cursor.bookmark := by
    simp only [Tailer.memoryAfterLeaving, if_neg (Ne.symm different),
      Cursor.flushed_of_empty empty]
  have here : history.tailer.bookmark? path = history.tailer.memory.find? path := by
    rw [bookmark?_of_following _ following, if_neg (Ne.symm different)]
  have notSkipping : history.tailer.skipsHistory = false := by
    simpa using sound.tidy.notSkipping following
  refine sound.opened shows tidy rfl opens (fun other elsewhere => ?_) (fun place found => ?_)
    (fun new => ?_) next
  · rw [bookmark?_of_following opened rfl, samePath, if_neg (Ne.symm elsewhere),
      bookmark?_of_following _ following]
    show (history.tailer.memoryAfterLeaving cursor path).find? other = _
    rw [memory]
    split
    · next same =>
      rw [← same]
      exact Memory.find?_remember_self _ cursor.bookmark
    · next notHere =>
      rw [Memory.find?_remember_of_ne (sound.room following different few) (Ne.symm notHere),
        Memory.find?_forget_of_ne _ elsewhere]
  · have serves := sound.offsetFor?_of_bookmark? shows found
    rw [here] at found
    simp only [Memory.offsetFor?, found, Option.bind_some, serves, Start.resuming]
  · rw [here] at new
    simp only [Memory.offsetFor?, new, Option.bind_none, notSkipping, Bool.false_eq_true, if_false,
      Start.resuming]

/-- What a step reads of the file at hand is accounted for. -/
theorem read (sound : history.Sound) (shows : view.Shows history.disk) {cursor : Cursor}
    {limit : Nat} {lines : List (List UInt8)} {rest fragment : List UInt8}
    (following : history.tailer.cursor = some cursor)
    (cut : Cut limit (cursor.pending (cursor.source view)) lines rest)
    (part : fragment <+: rest) (unbroken : lineFeed ∉ fragment) :
    (history.proceed
      { history.tailer with cursor := some (cursor.advance lines fragment) }
      (cursor.lineSegments lines)).Sound := by
  have ahead := Cursor.pending_ahead shows.trueTo (sound.held cursor following)
  refine sound.consume _ _ following (sound.tidy.move following rfl unbroken) rfl rfl ?_
    (fun segment member => Cursor.path_of_mem_lineSegments member) ?_
  · rw [Cursor.bytesOf_lineSegments]
    rfl
  · rw [Cursor.bytesOf_lineSegments]
    refine List.IsPrefix.trans ?_ ahead
    rw [cut.bytes_eq]
    exact (List.prefix_append_right_inj _).mpr part

/-- Whatever a step does, all is accounted for. -/
theorem step (sound : history.Sound) (shows : view.Shows history.disk)
    (opens : ∀ path, history.tailer.target? pace view = some path →
      ∃ id, history.disk.fileAt path = some id)
    (relocates : ∀ bookmark path, history.tailer.cursor = none →
      history.tailer.resume = some bookmark → history.tailer.target? pace view = some path →
      path = bookmark.path)
    (few : (history.step pace view).followed.length ≤ Memory.capacity + 1) :
    (history.step pace view).Sound := by
  have turn := turn_step pace view history.tailer
  have tidy := sound.tidy.turn turn
  unfold History.step at few ⊢
  generalize history.tailer.step pace view = outcome at turn tidy few ⊢
  generalize history.tailer.target? pace view = target at turn opens relocates
  cases turn with
  | unanswered fault locating =>
    rw [after_of_locating locating]
    exact sound.keep tidy (fun _ => rfl) id sound.held
  | nothing locating =>
    rw [after_of_locating locating]
    exact sound.keep tidy (fun _ => rfl) (fun skips => by cases skips) sound.held
  | refused path locating answer closed =>
    obtain ⟨id, leads⟩ := opens path rfl
    rw [shows.openFile, Disk.status_eq_some leads] at closed
    cases closed
  | opened path cursor locating answer opened =>
    exact sound.locate shows locating
      (fun bookmark pending => relocates bookmark path locating pending rfl) opened tidy
  | busy cursor lines rest following cut full =>
    have followed := (sound.following following).1
    rw [after_eq_proceed (sound.tidy.notSkipping following) (by rintro _ ⟨⟩; exact followed)]
    exact sound.read shows following cut List.nil_prefix List.not_mem_nil
  | broken cursor lines rest following cut short fails =>
    rw [after_of_locating rfl]
    have reads := sound.read shows following cut (List.prefix_refl rest) (cut.complete short)
    have stops := reads.keep tidy (fun _ => rfl)
      (fun skips => absurd skips (sound.tidy.notSkipping following))
      (fun _ stopped => by cases stopped)
    simp only [proceed, List.append_nil] at stops
    exact stops
  | idle cursor lines rest following cut short ends stays =>
    have followed := (sound.following following).1
    rw [after_eq_proceed (sound.tidy.notSkipping following) (by rintro _ ⟨⟩; exact followed)]
    exact sound.read shows following cut (List.prefix_refl rest) (cut.complete short)
  | left cursor lines rest path opened following cut short ends leaves opensTo =>
    obtain ⟨id, leads⟩ := opens path rfl
    obtain ⟨next, found⟩ := Cursor.openAt_isSome_of_shows shows leads
      (.resuming (history.tailer.memory.offsetFor? view path))
    obtain rfl : opened = some next := opensTo.symm.trans found
    -- First the lines are read, then what is held back is consumed, then the other file is opened.
    have reads := sound.read shows following cut (List.prefix_refl rest) (cut.complete short)
    have flushes := reads.consume (cursor.advance lines rest).flushed
      (cursor.advance lines rest).flush rfl
      (reads.tidy.move rfl rfl List.not_mem_nil) rfl rfl
      (by rw [Cursor.bytesOf_flush]; rfl)
      (fun segment member => Cursor.path_of_mem_flush member)
      (by
        rw [Cursor.bytesOf_flush]
        exact (List.append_nil _).symm ▸ reads.held _ rfl)
    have different : path ≠ cursor.path := by
      have accounts := (reads.following rfl).2
      have kept := Cursor.isReplaced_of_trueTo shows.trueTo accounts.leads accounts.offset_le
      rcases successor?_eq_some leaves with ⟨_, other⟩ | ⟨_, replaced⟩
      · exact other
      · rw [kept] at replaced
        cases replaced
    have samePath := (Cursor.openAt_of_trueTo shows.trueTo found).1
    have few : (history.followed.insert path).length ≤ Memory.capacity + 1 := by
      simpa only [after, samePath] using few
    have leaving := flushes.leave shows next rfl rfl different found few
      (by rw [Tailer.memoryAfterLeaving_flushed]; exact tidy) .again
    simp only [after, proceed, Tailer.memoryAfterLeaving_flushed, List.append_nil,
      List.append_assoc] at leaving ⊢
    exact leaving

end Sound

theorem sound_start (disk : Disk) : (start disk).Sound where
  tidy := Tailer.tidy_fresh
  followedOnce := List.nodup_nil
  known := fun _ _ found => by cases found
  unknown := fun _ _ => ⟨List.not_mem_nil, rfl⟩
  skippedFollowed := fun _ _ skipped => by cases skipped
  notFollowing := fun _ => rfl
  held := fun _ following => by cases following

theorem length_followed_le (history : History) (pace : Pace) (view : View) :
    history.followed.length ≤ (history.step pace view).followed.length := by
  unfold step after
  cases (history.tailer.step pace view).tailer.cursor with
  | none => exact Nat.le_refl _
  | some cursor => exact List.length_le_length_insert

/-- In an undisturbed history all is accounted for. -/
theorem Undisturbed.sound (undisturbed : history.Undisturbed)
    (few : history.followed.length ≤ Memory.capacity + 1) : history.Sound := by
  induction undisturbed with
  | start disk => exact sound_start disk
  | change disk _ grows inductionHypothesis => exact (inductionHypothesis few).change grows
  | @step history pace view _ shows opens relocates inductionHypothesis =>
    have before := inductionHypothesis ((length_followed_le history pace view).trans few)
    exact before.step shows opens relocates few

/-- When a step ends with waiting at a file, no whole line is left in the file. -/
theorem Sound.read_to_end (sound : history.Sound) {pace : Pace} {view : View} {cursor : Cursor}
    (shows : view.Shows history.disk) (waits : (history.tailer.step pace view).next ≠ .again)
    (following : (history.tailer.step pace view).tailer.cursor = some cursor) :
    lineFeed ∉ (history.disk.bytes cursor.id).drop cursor.offset := by
  have turn := turn_step pace view history.tailer
  generalize history.tailer.step pace view = outcome at turn waits following
  generalize history.tailer.target? pace view = target at turn
  cases turn with
  | unanswered fault locating => cases locating.symm.trans following
  | nothing locating => cases locating.symm.trans following
  | refused path locating => cases locating.symm.trans following
  | opened | busy => exact absurd rfl waits
  | broken => cases following
  | idle before lines rest current cut short ends stays =>
    cases following
    have all := Cursor.pending_eq shows (sound.held before current) ends
    rw [cut.bytes_eq] at all
    show lineFeed ∉ (history.disk.bytes before.id).drop (before.offset + lines.flatten.length)
    rw [← List.drop_drop, ← all, List.drop_left]
    exact cut.complete short
  | left before lines rest path opened current cut short ends leaves opensTo =>
    have isSome : opened = some cursor := following
    rw [isSome] at waits
    exact absurd rfl waits

/-- What was consumed of a path that was followed is what its file holds between the baseline and
the place where the tailer would go on, without a gap and without a repetition. Nothing was consumed
of other paths, and when the tailer waits at a file no whole line is left in it. -/
theorem consumedFrom_eq_of_undisturbed (history : History) (undisturbed : history.Undisturbed)
    (few : history.followed.length ≤ 17) :
    (∀ path ∈ history.followed, ∃ place, history.tailer.bookmark? path = some place ∧
      history.disk.fileAt path = some place.id ∧
      history.baseline path ≤ place.offset ∧
      place.offset ≤ (history.disk.bytes place.id).length ∧
      history.consumedFrom path =
        ((history.disk.bytes place.id).drop (history.baseline path)).take
          (place.offset - history.baseline path)) ∧
      (∀ path, path ∉ history.followed → history.consumedFrom path = []) ∧
      ∀ pace view cursor, view.Shows history.disk →
        (history.tailer.step pace view).next ≠ .again →
        (history.tailer.step pace view).tailer.cursor = some cursor →
        lineFeed ∉ (history.disk.bytes cursor.id).drop cursor.offset := by
  have sound := undisturbed.sound few
  refine ⟨fun path member => ?_, fun path notMember => ?_, fun pace view cursor =>
    sound.read_to_end⟩
  · cases found : history.tailer.bookmark? path with
    | none => exact absurd member (sound.unknown path found).1
    | some place =>
      have accounts := (sound.known path place found).2
      exact ⟨place, rfl, accounts.leads, accounts.baseline_le, accounts.offset_le,
        accounts.consumed_eq⟩
  · cases found : history.tailer.bookmark? path with
    | none => exact (sound.unknown path found).2
    | some place => exact absurd (sound.known path place found).1 notMember

/-- The history after a step that sees a tree, at most one line of which is read. -/
def look (history : History) (tree : FileTree) : History :=
  history.step (.ofLimit 1000 100 1) (.ofTree tree (.directory .top) false)

theorem Undisturbed.look {history : History} (undisturbed : history.Undisturbed) {tree : FileTree}
    (sound : tree.Sound) (sees : history.disk = tree.disk) (calm : history.tailer.resume = none)
    (opens : ((history.tailer.target? (.ofLimit 1000 100 1)
      (.ofTree tree (.directory .top) false)).all
        fun path => (tree.disk.fileAt path).isSome) = true) :
    (history.look tree).Undisturbed := by
  refine .step _ _ undisturbed (sees ▸ shows_ofTree sound _ _) (fun path target => ?_)
    (fun _ _ _ failed => ?_)
  · rw [target] at opens
    rw [sees]
    exact Option.isSome_iff_exists.mp opens
  · cases calm.symm.trans failed

/-- A tree with one file. -/
def firstTree : FileTree :=
  FileTree.empty.append ⟨["first"]⟩ [108, 10] 1

/-- The tree in which the file ends with an unfinished line and a second file is newer. -/
def secondTree : FileTree :=
  (firstTree.append ⟨["first"]⟩ [109, 10, 110] 2).append ⟨["second"]⟩ [111, 10] 3

/-- The tree in which the unfinished line of the first file was completed. -/
def thirdTree : FileTree :=
  secondTree.append ⟨["first"]⟩ [112, 10] 4

/-- Two files that are followed in turn. -/
def inTurn : History :=
  let opened := (start firstTree.disk).look firstTree
  let left := ((opened.change secondTree.disk).look secondTree).look secondTree
  (((left.change thirdTree.disk).look thirdTree).look thirdTree).look thirdTree

theorem sound_firstTree : firstTree.Sound :=
  FileTree.sound_empty.append _ _ _

theorem sound_secondTree : secondTree.Sound :=
  (sound_firstTree.append _ _ _).append _ _ _

theorem sound_thirdTree : thirdTree.Sound :=
  sound_secondTree.append _ _ _

/-- The first file grows, a second one comes into being, and the first one grows again. -/
theorem grows_trees :
    firstTree.disk.Grows secondTree.disk ∧ secondTree.disk.Grows thirdTree.disk := by
  have rooted : firstTree.Rooted := (FileTree.extends_write FileTree.rooted_empty _ _ _).1
  have rootedExtended := (FileTree.extends_write rooted ⟨["first"]⟩ (· ++ [109, 10, 110]) 2).1
  have rootedSecond : secondTree.Rooted := (FileTree.extends_write rootedExtended _ _ _).1
  have lengthens := grows_append sound_firstTree rooted ⟨["first"]⟩ [109, 10, 110] 2
  have adds := grows_append (sound_firstTree.append ⟨["first"]⟩ [109, 10, 110] 2) rootedExtended
    ⟨["second"]⟩ [111, 10] 3
  exact ⟨lengthens.trans adds, grows_append sound_secondTree rootedSecond ⟨["first"]⟩ [112, 10] 4⟩

theorem undisturbed_inTurn : inTurn.Undisturbed := by
  obtain ⟨grows, growsAgain⟩ := grows_trees
  have opened := (Undisturbed.start firstTree.disk).look sound_firstTree rfl rfl (by decide)
  have read := (opened.change _ grows).look sound_secondTree rfl rfl (by decide)
  have left := read.look sound_secondTree rfl rfl (by decide)
  have back := (left.change _ growsAgain).look sound_thirdTree rfl rfl (by decide)
  have resumed := back.look sound_thirdTree rfl rfl (by decide)
  exact resumed.look sound_thirdTree rfl rfl (by decide)

theorem consumedFrom_inTurn :
    inTurn.Undisturbed ∧ inTurn.followed.length ≤ 17 ∧
      inTurn.consumedFrom ⟨["first"]⟩ = [109, 10, 110, 112, 10] ∧
      inTurn.consumedFrom ⟨["second"]⟩ = [111, 10] := by
  obtain ⟨known, _, _⟩ := consumedFrom_eq_of_undisturbed inTurn undisturbed_inTurn (by decide)
  refine ⟨undisturbed_inTurn, by decide, ?_, ?_⟩
  · obtain ⟨place, found, _, _, _, consumed⟩ := known ⟨["first"]⟩ (by decide)
    obtain rfl := Option.some.inj (show some ⟨⟨["first"]⟩, 1, 7⟩ = some place from found)
    exact consumed
  · obtain ⟨place, found, _, _, _, consumed⟩ := known ⟨["second"]⟩ (by decide)
    obtain rfl := Option.some.inj (show some ⟨⟨["second"]⟩, 2, 2⟩ = some place from found)
    exact consumed

end History

end NodeTelemetry.Tail
