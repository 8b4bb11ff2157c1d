/-
This file shows what the memory of a tailer is when nothing fails: the last places of the sixteen
paths that were left most recently, the file at hand apart. A file that is followed is not
remembered, so room for the file that is left is made by the one that is returned to, and a bookmark
is given up only when sixteen other paths were left since.

The places at which files were left are a list with the latest first, and `lastPlaces` keeps the
first one of each path in it. The memory holds, in reverse, the first sixteen of these that are not
of the path at hand. When a file is left for another one, its own place comes to the front of the
list, and the place of the other one is left out from now on. If that was among the sixteen, there
is room for the new one; if not, the oldest drops out. This is one case of the step, and as long as
nothing fails every other step leaves the memory as it is.
-/

import NodeTelemetry.Proofs.Tail.Reopening

namespace NodeTelemetry.Tail

/-! ### The last place of each path -/

/-- The places at which paths were left last, of places with the latest first. -/
def lastPlaces : List Bookmark → List Bookmark
  | [] => []
  | place :: earlier => place :: (lastPlaces earlier).filter (·.path != place.path)

theorem nodup_lastPlaces (places : List Bookmark) :
    ((lastPlaces places).map Bookmark.path).Nodup := by
  induction places with
  | nil => exact List.nodup_nil
  | cons place earlier inductionHypothesis =>
    refine List.nodup_cons.mpr ⟨?_, inductionHypothesis.sublist (List.filter_sublist.map _)⟩
    simp

/-- The places at which other paths than one were left last, whether or not this one was left since.
-/
theorem filter_lastPlaces_cons (place : Bookmark) (places : List Bookmark) :
    (lastPlaces (place :: places)).filter (·.path != place.path) =
      (lastPlaces places).filter (·.path != place.path) := by
  rw [lastPlaces, List.filter_cons_of_neg (by simp), List.filter_filter]
  simp only [Bool.and_self]

/-- The first places of some that are not of one path are found among as many of them and one more.
-/
theorem take_filter_take {places : List Bookmark} (distinct : (places.map Bookmark.path).Nodup)
    (path : Path) (count : Nat) :
    ((places.take (count + 1)).filter (·.path != path)).take count =
      (places.filter (·.path != path)).take count := by
  induction places generalizing count with
  | nil => rw [List.take_nil]
  | cons place others inductionHypothesis =>
    obtain ⟨absent, distinctOthers⟩ := List.nodup_cons.mp distinct
    rw [List.take_succ_cons]
    by_cases same : place.path = path
    · subst same
      have kept : ∀ other ∈ others, (other.path != place.path) = true := by
        intro other member
        refine bne_iff_ne.mpr fun same => absent ?_
        exact same ▸ List.mem_map_of_mem member
      have keptFirst : ∀ other ∈ others.take count, (other.path != place.path) = true :=
        fun other member => kept other (List.mem_of_mem_take member)
      rw [List.filter_cons_of_neg (by simp), List.filter_cons_of_neg (by simp),
        List.filter_eq_self.mpr keptFirst, List.filter_eq_self.mpr kept, List.take_take,
        Nat.min_self]
    · rw [List.filter_cons_of_pos (by simpa using same),
        List.filter_cons_of_pos (by simpa using same)]
      cases count with
      | zero => rfl
      | succ count =>
        rw [List.take_succ_cons, List.take_succ_cons, inductionHypothesis distinctOthers count]

namespace Memory

variable {memory : Memory} {places : List Bookmark}

theorem forget_of_notMem {path : Path} (absent : path ∉ memory.map Bookmark.path) :
    memory.forget path = memory := by
  refine List.filter_eq_self.mpr fun other member => bne_iff_ne.mpr fun same => absent ?_
  exact same ▸ List.mem_map_of_mem member

/-- Forgetting a path takes out its bookmark and leaves the others as they are. -/
theorem Distinct.forget_eq {before behind : Memory} {bookmark : Bookmark}
    (distinct : (before ++ bookmark :: behind : Memory).Distinct) :
    Memory.forget (before ++ bookmark :: behind) bookmark.path = before ++ behind := by
  have middle : (bookmark.path :: (before ++ behind).map Bookmark.path).Nodup := by
    rw [Distinct, List.map_append, List.map_cons, List.nodup_middle] at distinct
    rwa [List.map_append]
  have others := forget_of_notMem (List.nodup_cons.mp middle).1
  unfold Memory.forget at others ⊢
  rw [List.filter_append, List.filter_cons_of_neg (by simp), ← List.filter_append, others]

/-- A memory that is in order makes room by giving up what is too much at its front. -/
theorem reverse_remember {bookmark : Bookmark}
    (missing : memory.find? bookmark.path = none) (bounded : memory.length ≤ capacity) :
    (memory.remember bookmark).reverse = bookmark :: memory.reverse.take (capacity - 1) := by
  unfold remember
  simp only [forget_of_notMem (find?_eq_none.mp missing), beq_iff_eq]
  split
  · next full =>
    rw [List.reverse_append, List.reverse_singleton, List.singleton_append, List.take_reverse, full]
    rfl
  · next notFull =>
    rw [List.reverse_append, List.reverse_singleton, List.singleton_append, List.take_of_length_le]
    rw [List.length_reverse]
    omega

/-- Whether a memory holds the last places of the paths that were left most recently, one path
apart. -/
def Recent (memory : Memory) (places : List Bookmark) (path : Path) : Prop :=
  memory.reverse = ((lastPlaces places).filter (·.path != path)).take capacity

theorem Recent.mem {path : Path} {bookmark : Bookmark} (recent : memory.Recent places path)
    (member : bookmark ∈ memory) : bookmark ∈ lastPlaces places ∧ bookmark.path ≠ path := by
  rw [← List.mem_reverse, recent] at member
  obtain ⟨last, different⟩ := List.mem_filter.mp (List.mem_of_mem_take member)
  exact ⟨last, bne_iff_ne.mp different⟩

theorem Recent.find?_eq_none {path : Path} (recent : memory.Recent places path) :
    memory.find? path = none := by
  rw [Memory.find?_eq_none]
  intro member
  obtain ⟨bookmark, among, same⟩ := List.mem_map.mp member
  exact (recent.mem among).2 same

theorem Recent.length_le {path : Path} (recent : memory.Recent places path) :
    memory.length ≤ capacity := by
  rw [← List.length_reverse, recent]
  exact List.length_take_le _ _

/-- A file that is left for another path takes its place in the memory, and that path gives up its
own. -/
theorem Recent.leave {place : Bookmark} {path : Path} (recent : memory.Recent places place.path)
    (different : place.path ≠ path) :
    ((memory.forget path).remember place).Recent (place :: places) path := by
  have distinct : (((lastPlaces places).filter (·.path != place.path)).map Bookmark.path).Nodup :=
    (nodup_lastPlaces places).sublist (List.filter_sublist.map _)
  have kept : (memory.forget path).reverse =
      (((lastPlaces places).filter (·.path != place.path)).take capacity).filter (·.path != path) := by
    rw [forget, ← List.filter_reverse, recent]
  unfold Recent
  rw [reverse_remember (find?_forget_eq_none recent.find?_eq_none)
    ((length_forget_le memory path).trans recent.length_le), kept, lastPlaces,
    List.filter_cons_of_pos (by simpa using different)]
  show _ = place :: List.take (capacity - 1) _
  rw [← take_filter_take distinct path (capacity - 1)]
  rfl

/-- A file that is read anew under its path leaves the memory as it is. -/
theorem Recent.again {place : Bookmark} (recent : memory.Recent places place.path) :
    memory.forget place.path = memory ∧ memory.Recent (place :: places) place.path := by
  refine ⟨forget_of_notMem (Memory.find?_eq_none.mp recent.find?_eq_none), ?_⟩
  unfold Recent
  rw [filter_lastPlaces_cons, recent]

theorem Recent.distinct {path : Path} (recent : memory.Recent places path) : memory.Distinct := by
  have distinct := (nodup_lastPlaces places).sublist (((List.take_sublist capacity _).trans
    (List.filter_sublist (p := (·.path != path)))).map Bookmark.path)
  rw [← recent, List.map_reverse, List.nodup_reverse] at distinct
  exact distinct

/-- The bookmark of a path that is returned to makes room for the one of the file that is left. -/
theorem Recent.swap {place bookmark : Bookmark} {before behind : Memory}
    (recent : Memory.Recent (before ++ bookmark :: behind) places place.path) :
    (Memory.forget (before ++ bookmark :: behind) bookmark.path).remember place =
      before ++ behind ++ [place] := by
  have forgotten := recent.distinct.forget_eq
  have missing : Memory.find? (Memory.forget (before ++ bookmark :: behind) bookmark.path)
      place.path = none := find?_forget_eq_none recent.find?_eq_none
  rw [forgotten] at missing ⊢
  have unchanged := forget_of_notMem (Memory.find?_eq_none.mp missing)
  have bounded := recent.length_le
  rw [remember_of_room, unchanged]
  rw [unchanged]
  simp only [List.length_append, List.length_cons] at bounded ⊢
  omega

end Memory

namespace Tailer

variable {pace : Pace} {view : View} {tailer : Tailer} {places : List Bookmark}

/-! ### Steps in which nothing fails -/

/-- Whether nothing fails in a step: what is read of the file at hand can be read, and the path that
the step goes to open can be opened. Looking for the newest file may fail. -/
structure Succeeds (pace : Pace) (view : View) (tailer : Tailer) : Prop where
  reads : ∀ cursor, tailer.cursor = some cursor →
    (cursor.readLines (cursor.source view) pace.lines).stop ≠ .failed
  opens : ∀ path, tailer.target? pace view = some path → view.openFile path ≠ none

/-- What a tailer that has made some steps in which nothing failed can be like, with the places at
which it left files, the latest first. -/
inductive Unfailing : Tailer → List Bookmark → Prop
  | fresh : Unfailing Tailer.fresh []
  | step {tailer : Tailer} {places : List Bookmark} (pace : Pace) (view : View)
      (unfailing : Unfailing tailer places) (succeeds : tailer.Succeeds pace view) :
      Unfailing (tailer.step pace view).tailer (tailer.placesAfter pace view places)

theorem Unfailing.leaves (unfailing : tailer.Unfailing places) : tailer.Leaves places := by
  induction unfailing with
  | fresh => exact .fresh
  | step pace view _ _ inductionHypothesis => exact .step pace view inductionHypothesis

/-- A tailer that follows a file follows one after a step in which nothing fails. -/
theorem Succeeds.isSome_cursor {cursor : Cursor} (succeeds : tailer.Succeeds pace view)
    (following : tailer.cursor = some cursor) :
    (tailer.step pace view).tailer.cursor.isSome = true := by
  have step : tailer.step pace view = tailer.follow pace view cursor := by
    rw [Tailer.step, following]
  rw [step]
  unfold follow
  simp only
  rw [← Cursor.source]
  cases stop : (cursor.readLines (cursor.source view) pace.lines).stop with
  | limit => rfl
  | failed => exact absurd stop (succeeds.reads cursor following)
  | ended =>
    simp only [atEnd]
    cases leaves : (cursor.readLines (cursor.source view) pace.lines).cursor.successor? view with
    | none => rfl
    | some path =>
      have asks : tailer.target? pace view = some path := by
        rw [target?, following]
        simp only [stop, leaves]
      rw [Option.isSome_iff_ne_none]
      exact fun closed => succeeds.opens path asks (openAt_eq_none.mp closed)

/-- As long as nothing fails, no file was left before one is opened. -/
theorem Unfailing.places_of_locating (unfailing : tailer.Unfailing places)
    (locating : tailer.cursor = none) : places = [] := by
  induction unfailing with
  | fresh => rfl
  | @step before places pace view _ succeeds inductionHypothesis =>
    have locatingBefore : before.cursor = none := by
      cases following : before.cursor with
      | none => rfl
      | some cursor =>
        have goesOn := succeeds.isSome_cursor following
        rw [locating] at goesOn
        cases goesOn
    rw [placesAfter_of_locating locatingBefore, inductionHypothesis locatingBefore]

/-! ### What is remembered -/

/-- The places at which paths were left last that are not at hand, the latest first. -/
def leftBehind (tailer : Tailer) (places : List Bookmark) : List Bookmark :=
  (lastPlaces places).filter fun place => tailer.cursor.all (·.path != place.path)

theorem leftBehind_of_following {cursor : Cursor} (following : tailer.cursor = some cursor) :
    tailer.leftBehind places = (lastPlaces places).filter (·.path != cursor.path) := by
  unfold leftBehind
  rw [following]
  simp only [Option.all_some, bne_comm]

theorem Unfailing.memory_of_locating (unfailing : tailer.Unfailing places)
    (locating : tailer.cursor = none) : tailer.memory = [] := by
  obtain rfl := unfailing.places_of_locating locating
  have recalls := unfailing.leaves.recalls
  refine List.eq_nil_iff_forall_not_mem.mpr fun place member => ?_
  have found := recalls.tidy.distinct.find?_eq_some_iff.mpr ⟨member, rfl⟩
  cases recalls.remembered _ place found

/-- A step that goes to open a path leaves the file at hand, and the memory forgets the path and
remembers the place of the file, unless this was under the same path. -/
theorem memory_step_of_leaving {cursor : Cursor} {path : Path}
    (following : tailer.cursor = some cursor) (asks : tailer.target? pace view = some path) :
    ∃ place, tailer.placeLeft? pace view = some place ∧ place.path = cursor.path ∧
      (tailer.step pace view).tailer.memory =
        if cursor.path = path then tailer.memory.forget path
        else (tailer.memory.forget path).remember place := by
  rw [placeLeft?_of_following following, asks, if_neg (fun stays => by cases stays.1)]
  refine ⟨_, rfl, rfl, ?_⟩
  have turn := turn_step pace view tailer
  rw [asks] at turn
  generalize tailer.step pace view = outcome at turn ⊢
  cases turn with
  | refused _ locating | opened _ _ locating => cases locating.symm.trans following
  | left current lines rest _ opened atHand =>
    obtain rfl := Option.some.inj (atHand.symm.trans following)
    rw [← flushed_bookmark_eq]
    rfl

/-- Whatever the next step does, the memory stays a record of what was left most recently as long as
a file is followed. -/
theorem Unfailing.recent_step (unfailing : tailer.Unfailing places)
    (recent : ∀ cursor, tailer.cursor = some cursor → tailer.memory.Recent places cursor.path)
    {cursor : Cursor} (following : (tailer.step pace view).tailer.cursor = some cursor) :
    (tailer.step pace view).tailer.memory.Recent (tailer.placesAfter pace view places)
      cursor.path := by
  have turn := turn_step pace view tailer
  generalize same : tailer.step pace view = outcome at turn following ⊢
  generalize asks : tailer.target? pace view = target at turn
  cases turn with
  | unanswered fault locating => cases locating.symm.trans following
  | nothing locating => cases locating.symm.trans following
  | refused path locating => cases locating.symm.trans following
  | opened path opened locating answer opens =>
    obtain rfl := unfailing.places_of_locating locating
    have forgotten : tailer.memoryAfterLocating view path = [] := by
      unfold memoryAfterLocating
      rw [unfailing.memory_of_locating locating]
      exact ite_self _
    rw [placesAfter_of_locating locating]
    show Memory.Recent (tailer.memoryAfterLocating view path) [] cursor.path
    rw [forgotten]
    rfl
  | busy current lines rest atHand | idle current lines rest atHand =>
    obtain rfl := Option.some.inj following
    have kept : tailer.placesAfter pace view places = places := by
      rw [placesAfter, placeLeft?_of_following atHand, asks, same, if_pos ⟨rfl, rfl⟩]
      rfl
    rw [kept]
    exact recent current atHand
  | broken => cases following
  | left current lines rest path opened atHand cut short ends leaves opens =>
    obtain ⟨_, _, rfl, _⟩ := openAt_eq_some (opens.trans following)
    obtain ⟨place, leaves, samePath, memory_eq⟩ := memory_step_of_leaving atHand asks
    have before : tailer.memory.Recent places place.path := samePath ▸ recent current atHand
    rw [same, ← samePath] at memory_eq
    rw [memory_eq, placesAfter, leaves]
    split
    · next again =>
      obtain ⟨kept, still⟩ := before.again
      rw [← again, kept]
      exact still
    · next different => exact before.leave different

/-- In steps in which nothing fails the memory holds the last places of the paths that were left
most recently. -/
theorem Unfailing.recent (unfailing : tailer.Unfailing places) {cursor : Cursor}
    (following : tailer.cursor = some cursor) : tailer.memory.Recent places cursor.path := by
  induction unfailing generalizing cursor with
  | fresh => cases following
  | step pace view unfailing _ inductionHypothesis =>
    exact unfailing.recent_step (fun _ atHand => inductionHypothesis atHand) following

/-- When nothing fails, the memory is exactly the last places of the sixteen paths other than the
one at hand that were left most recently, or of all of them if there are fewer, the one left first
at the front. A step that returns to a remembered path takes out its bookmark alone and puts the
place of the file that it left behind the others, and one that reads a replaced file anew under its
path changes nothing. -/
theorem memory_eq_last_places {tailer : Tailer} {places : List Bookmark}
    (unfailing : tailer.Unfailing places) :
    tailer.memory = ((tailer.leftBehind places).take 16).reverse ∧
      (∀ place ∈ tailer.memory, lastLeft? places place.path = some place) ∧
      ∀ (pace : Pace) (view : View) (cursor : Cursor) (path : Path),
        tailer.cursor = some cursor → tailer.target? pace view = some path →
        (path = cursor.path → (tailer.step pace view).tailer.memory = tailer.memory) ∧
        ∀ before remembered behind, tailer.memory = before ++ remembered :: behind →
          remembered.path = path → ∃ place, tailer.placeLeft? pace view = some place ∧
            (tailer.step pace view).tailer.memory = before ++ behind ++ [place] := by
  refine ⟨?_, fun place member => ?_, fun pace view cursor path following asks => ?_⟩
  · cases following : tailer.cursor with
    | none =>
      rw [unfailing.memory_of_locating following, leftBehind,
        unfailing.places_of_locating following]
      rfl
    | some cursor =>
      rw [leftBehind_of_following following, ← List.reverse_reverse tailer.memory,
        unfailing.recent following]
      rfl
  · have recalls := unfailing.leaves.recalls
    exact recalls.remembered _ place (recalls.tidy.distinct.find?_eq_some_iff.mpr ⟨member, rfl⟩)
  · obtain ⟨place, leaves, samePath, memory_eq⟩ := memory_step_of_leaving following asks
    have recent : tailer.memory.Recent places place.path := samePath ▸ unfailing.recent following
    refine ⟨fun same => ?_, fun before remembered behind holds same => ⟨place, leaves, ?_⟩⟩
    · rw [memory_eq, if_pos same.symm, same, ← samePath, recent.again.1]
    · subst same
      rw [holds] at recent
      have different : cursor.path ≠ remembered.path := by
        rw [← samePath]
        exact (recent.mem (List.mem_append_right _ List.mem_cons_self)).2.symm
      rw [memory_eq, if_neg different, holds, recent.swap]

/-! ### Eighteen files -/

/-- Eighteen files with one line each. -/
def letters : List Path :=
  ["a", "b", "c", "d", "e", "f", "g", "h", "i", "j", "k", "l", "m", "n", "o", "p", "q", "r"].map
    fun name => ⟨[name]⟩

/-- The files as they are seen when one of them is the newest. -/
def lettersSeen (newest : Path) : View where
  newest := .ok (some newest)
  status path := some ⟨letters.idxOf path, 2⟩
  openFile path := some ⟨letters.idxOf path, 2⟩
  stream _ position := ⟨[120, 10].drop position, false⟩

theorem succeeds_lettersSeen (pace : Pace) (newest : Path) (tailer : Tailer) :
    tailer.Succeeds pace (lettersSeen newest) where
  reads := by
    intro cursor _ failed
    unfold Cursor.readLines at failed
    simp only [Cursor.source, lettersSeen, Bool.false_eq_true, if_false] at failed
    split at failed <;> cases failed
  opens := fun _ _ closed => by cases closed

/-- A tailer behind steps in each of which another file is the newest, with the places at which it
left files. -/
def visiting (paths : List Path) : Tailer × List Bookmark :=
  paths.foldl (fun (tailer, places) path =>
    ((tailer.step (.ofLimit 1000 100 5) (lettersSeen path)).tailer,
      tailer.placesAfter (.ofLimit 1000 100 5) (lettersSeen path) places)) (fresh, [])

theorem unfailing_visiting (paths : List Path) :
    Unfailing (visiting paths).1 (visiting paths).2 := by
  unfold visiting
  have start := Unfailing.fresh
  generalize fresh = tailer at start ⊢
  generalize ([] : List Bookmark) = places at start ⊢
  induction paths generalizing tailer places with
  | nil => exact start
  | cons path others inductionHypothesis =>
    exact inductionHypothesis _ _ (.step _ _ start (succeeds_lettersSeen _ _ _))

/-- Behind the eighteenth file the first one is forgotten. Going back to the third one takes out its
bookmark alone. -/
theorem memory_visiting :
    Unfailing (visiting letters).1 (visiting letters).2 ∧
      (visiting letters).1.memory.map Bookmark.path = (letters.drop 1).take 16 ∧
      (visiting letters).1.target? (.ofLimit 1000 100 5) (lettersSeen ⟨["c"]⟩) = some ⟨["c"]⟩ ∧
      ((visiting letters).1.step (.ofLimit 1000 100 5) (lettersSeen ⟨["c"]⟩)).tailer.memory.map
          Bookmark.path =
        ⟨["b"]⟩ :: letters.drop 3 := by
  have unfailing := unfailing_visiting letters
  obtain ⟨memory_eq, _, moves⟩ := memory_eq_last_places unfailing
  have asks : (visiting letters).1.target? (.ofLimit 1000 100 5) (lettersSeen ⟨["c"]⟩) =
      some ⟨["c"]⟩ := by decide +kernel
  have following : (visiting letters).1.cursor = some ⟨⟨["r"]⟩, 17, 0, true, []⟩ := by
    decide +kernel
  obtain ⟨place, leaves, returned⟩ := (moves _ _ _ _ following asks).2 [⟨⟨["b"]⟩, 1, 2⟩]
    ⟨⟨["c"]⟩, 2, 2⟩ ((visiting letters).1.memory.drop 2) (by decide +kernel) rfl
  have left : (visiting letters).1.placeLeft? (.ofLimit 1000 100 5) (lettersSeen ⟨["c"]⟩) =
      some ⟨⟨["r"]⟩, 17, 2⟩ := by decide +kernel
  obtain rfl := Option.some.inj (left.symm.trans leaves)
  refine ⟨unfailing, ?_, asks, ?_⟩
  · rw [memory_eq]
    decide +kernel
  · rw [returned]
    decide +kernel

end Tailer

end NodeTelemetry.Tail
