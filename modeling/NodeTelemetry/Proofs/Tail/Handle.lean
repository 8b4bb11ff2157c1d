/-
This file follows files through handles, each with a position of its own that is moved by the bytes
taken from the file and by nothing else. A line is read at a time, and what a file holds may be
different for every read. What the reads of a step find one after the other could also have been
found at once, so whatever happens to the files, this is a tailer that keeps everything in order;
and the position of its handle lies behind the bytes that are held back.

The reads of a step are put together to one stream: the lines that they found and, behind these,
what the last read found. Reading this stream at once gives the same lines, holds back the same
bytes and fails alike, by induction over the reads. A tailer with a handle is therefore always one
that could be reached by reading at once, with other views, and all that is kept in order for
arbitrary views is in order for it as well.
-/

import Mathlib.Data.List.Induction
import NodeTelemetry.Files.Change
import NodeTelemetry.Proofs.Tail.Bookkeeping

namespace NodeTelemetry.Tail

/-! ### One line -/

theorem bne_lineFeed_of_notMem {bytes : List UInt8} (unbroken : lineFeed ∉ bytes) :
    ∀ byte ∈ bytes, (byte != lineFeed) = true :=
  fun _ member => bne_iff_ne.mpr fun isFeed => unbroken (isFeed ▸ member)

theorem span_of_unbroken {bytes : List UInt8} (unbroken : lineFeed ∉ bytes) :
    bytes.takeWhile (· != lineFeed) = bytes ∧ bytes.dropWhile (· != lineFeed) = [] := by
  have none := bne_lineFeed_of_notMem unbroken
  exact ⟨List.takeWhile_eq_self_iff.mpr none, List.dropWhile_eq_nil_iff.mpr none⟩

theorem span_of_feed {body : List UInt8} (unbroken : lineFeed ∉ body) (rest : List UInt8) :
    (body ++ lineFeed :: rest).takeWhile (· != lineFeed) = body ∧
      (body ++ lineFeed :: rest).dropWhile (· != lineFeed) = lineFeed :: rest := by
  have none := bne_lineFeed_of_notMem unbroken
  exact ⟨(List.takeWhile_append_of_pos none).trans (List.append_nil body),
    List.dropWhile_append_of_pos none⟩

theorem splitLine?_of_unbroken {bytes : List UInt8} (unbroken : lineFeed ∉ bytes) :
    splitLine? bytes = none := by
  obtain ⟨all, nothing⟩ := span_of_unbroken unbroken
  rw [splitLine?, List.span_eq_takeWhile_dropWhile, all, nothing]

theorem splitLine?_of_isLine {line : List UInt8} (isLine : IsLine line) (rest : List UInt8) :
    splitLine? (line ++ rest) = some (line, rest) := by
  obtain ⟨body, unbroken, rfl⟩ := isLine
  obtain ⟨before, behind⟩ := span_of_feed unbroken rest
  rw [List.append_assoc, List.singleton_append, splitLine?, List.span_eq_takeWhile_dropWhile, before,
    behind]

/-- The bytes that one read takes: up to the first line feed, this included, or all if there is
none. -/
def untilFeed (bytes : List UInt8) : List UInt8 :=
  bytes.takeWhile (· != lineFeed) ++ (bytes.dropWhile (· != lineFeed)).take 1

theorem untilFeed_of_unbroken {bytes : List UInt8} (unbroken : lineFeed ∉ bytes) :
    untilFeed bytes = bytes := by
  obtain ⟨all, nothing⟩ := span_of_unbroken unbroken
  rw [untilFeed, all, nothing, List.take_nil, List.append_nil]

theorem untilFeed_of_isLine {line : List UInt8} (isLine : IsLine line) (rest : List UInt8) :
    untilFeed (line ++ rest) = line := by
  obtain ⟨body, unbroken, rfl⟩ := isLine
  obtain ⟨before, behind⟩ := span_of_feed unbroken rest
  rw [List.append_assoc, List.singleton_append, untilFeed, before, behind]
  rfl

/-- What was held back before a line belongs to it. -/
theorem IsLine.behind {fragment line : List UInt8} (isLine : IsLine line)
    (unbroken : lineFeed ∉ fragment) : IsLine (fragment ++ line) := by
  obtain ⟨body, bodyUnbroken, rfl⟩ := isLine
  refine ⟨fragment ++ body, ?_, (List.append_assoc _ _ _).symm⟩
  exact fun member => (List.mem_append.mp member).elim unbroken bodyUnbroken

/-! ### Reading at once -/

namespace Cursor

variable {cursor : Cursor} {limit : Nat}

theorem readLines_zero (empty : cursor.fragment = []) (stream : Stream) :
    cursor.readLines stream 0 = ⟨[], cursor, .limit⟩ := by
  obtain ⟨path, id, offset, fromBeginning, fragment⟩ := cursor
  obtain rfl : fragment = [] := empty
  rfl

/-- A line that can be completed is the first one that is read. -/
theorem readLines_of_isLine (unbroken : lineFeed ∉ cursor.fragment) {line : List UInt8}
    (isLine : IsLine line) (behind : Stream) :
    cursor.readLines ⟨line ++ behind.bytes, behind.failing⟩ (limit + 1) =
      let further := (cursor.advance [cursor.fragment ++ line] []).readLines behind limit
      ⟨⟨cursor.path, cursor.offset, cursor.fragment ++ line⟩ :: further.segments, further.cursor,
        further.stop⟩ := by
  have split := splitLine?_of_isLine (isLine.behind unbroken) behind.bytes
  unfold readLines
  simp only [pending, advance, takeLines, ← List.append_assoc, split, List.nil_append]
  have reached (others : List (List UInt8)) :
      (((cursor.fragment ++ line) :: others).length == limit + 1) = (others.length == limit) := by
    rw [List.length_cons, Bool.eq_iff_iff, beq_iff_eq, beq_iff_eq, Nat.add_right_cancel_iff]
  simp only [segmentsFrom, reached, List.flatten_cons, List.flatten_nil, List.append_nil,
    List.length_append, Nat.add_assoc]
  rfl

theorem readLines_of_unbroken {stream : Stream} (unbroken : lineFeed ∉ cursor.fragment)
    (unended : lineFeed ∉ stream.bytes) :
    cursor.readLines stream (limit + 1) =
      ⟨[], cursor.advance [] (cursor.fragment ++ stream.bytes),
        if stream.failing then .failed else .ended⟩ := by
  have split : splitLine? (cursor.fragment ++ stream.bytes) = none :=
    splitLine?_of_unbroken fun member => (List.mem_append.mp member).elim unbroken unended
  unfold readLines
  simp only [pending, takeLines, split]
  rfl

end Cursor

/-! ### Reading line by line -/

/-- An open file, with the cursor in it. -/
structure Handle where
  cursor : Cursor
  /-- Where the next read begins. -/
  position : Nat
deriving DecidableEq

namespace Handle

/-- A file that was just opened, with the position moved to where reading begins. -/
def opened (cursor : Cursor) : Handle :=
  { cursor := cursor
    position := cursor.offset }

/-- One read, of a stream that begins at the position, with the line that it completes. Without one
what was taken is held back. -/
def nextLine (handle : Handle) (stream : Stream) : Option (List UInt8) × Handle :=
  let taken := untilFeed stream.bytes
  let held := handle.cursor.fragment ++ taken
  let position := handle.position + taken.length
  if taken.isEmpty || held.getLast? != some lineFeed then
    (none, ⟨{ handle.cursor with fragment := held }, position⟩)
  else
    (some held, ⟨{ handle.cursor with
      offset := handle.cursor.offset + held.length
      fragment := [] }, position⟩)

/-- What several reads give. -/
structure Reading where
  segments : List Segment
  handle : Handle
  stop : Cursor.Stop

/-- Reads until no line is completed, at most `limit` of them. -/
def readOn (stream : Nat → Stream) : Nat → Handle → Reading
  | 0, handle => ⟨[], handle, .limit⟩
  | limit + 1, handle =>
    match handle.nextLine (stream handle.position) with
    | (none, held) => ⟨[], held, if (stream handle.position).failing then .failed else .ended⟩
    | (some line, behind) =>
      let further := readOn stream limit behind
      { further with
        segments := ⟨handle.cursor.path, handle.cursor.offset, line⟩ :: further.segments }

/-- Whether the position lies behind the bytes that are held back, among which no line ends. -/
structure Aligned (handle : Handle) : Prop where
  position_eq : handle.position = handle.cursor.position
  unbroken : lineFeed ∉ handle.cursor.fragment

variable {handle : Handle}

theorem Aligned.behind_line (aligned : handle.Aligned) (line : List UInt8) :
    Aligned ⟨handle.cursor.advance [handle.cursor.fragment ++ line] [],
      handle.position + line.length⟩ where
  position_eq := by
    simp only [aligned.position_eq, Cursor.position, Cursor.advance, List.flatten_cons,
      List.flatten_nil, List.length_nil, List.length_append]
    omega
  unbroken := List.not_mem_nil

theorem nextLine_of_isLine (unbroken : lineFeed ∉ handle.cursor.fragment) {line : List UInt8}
    (isLine : IsLine line) (rest : List UInt8) (failing : Bool) :
    handle.nextLine ⟨line ++ rest, failing⟩ =
      (some (handle.cursor.fragment ++ line),
        ⟨handle.cursor.advance [handle.cursor.fragment ++ line] [],
          handle.position + line.length⟩) := by
  have taken := untilFeed_of_isLine isLine rest
  have some : line.isEmpty = false := List.isEmpty_eq_false_iff_exists_mem.mpr
    ⟨lineFeed, List.mem_of_getLast? isLine.getLast?⟩
  have ended := (isLine.behind unbroken).getLast?
  unfold nextLine
  simp only [taken, some, ended, bne_self_eq_false, Bool.or_self, Bool.false_eq_true, if_false,
    Cursor.advance, List.flatten_cons, List.flatten_nil, List.append_nil]

theorem nextLine_of_unbroken {stream : Stream} (unbroken : lineFeed ∉ handle.cursor.fragment)
    (unended : lineFeed ∉ stream.bytes) :
    handle.nextLine stream =
      (none, ⟨handle.cursor.advance [] (handle.cursor.fragment ++ stream.bytes),
        handle.position + stream.bytes.length⟩) := by
  have taken := untilFeed_of_unbroken unended
  have unfinished : (stream.bytes.isEmpty ||
      (handle.cursor.fragment ++ stream.bytes).getLast? != some lineFeed) = true := by
    refine Bool.or_eq_true_iff.mpr (.inr (bne_iff_ne.mpr fun ended => ?_))
    exact (List.mem_append.mp (List.mem_of_getLast? ended)).elim unbroken unended
  unfold nextLine
  simp only [taken, unfinished, if_true]
  rfl

end Handle

/-! ### What the reads find -/

/-- Whether some reads from a position on, each of what is there when its turn comes, find one after
the other what stands in a stream. -/
inductive Finds (stream : Nat → Stream) : Nat → Nat → Stream → Prop
  | enough {position : Nat} {found : Stream} : Finds stream 0 position found
  | last {limit position : Nat} (unended : lineFeed ∉ (stream position).bytes) :
      Finds stream (limit + 1) position (stream position)
  | line {limit position : Nat} {line rest : List UInt8} {behind : Stream} (isLine : IsLine line)
      (begins : (stream position).bytes = line ++ rest)
      (further : Finds stream limit (position + line.length) behind) :
      Finds stream (limit + 1) position ⟨line ++ behind.bytes, behind.failing⟩

/-- Bytes begin with a line unless no line ends in them. -/
theorem unended_or_exists_line (bytes : List UInt8) :
    lineFeed ∉ bytes ∨ ∃ line rest, IsLine line ∧ bytes = line ++ rest := by
  cases split : splitLine? bytes with
  | none => exact .inl (splitLine?_eq_none split)
  | some parts =>
    obtain ⟨line, rest⟩ := parts
    exact .inr ⟨line, rest, splitLine?_eq_some split⟩

/-- Whatever is found, it could have been found at once. -/
theorem exists_finds (stream : Nat → Stream) (limit position : Nat) :
    ∃ found, Finds stream limit position found := by
  induction limit generalizing position with
  | zero => exact ⟨⟨[], false⟩, .enough⟩
  | succ limit inductionHypothesis =>
    rcases unended_or_exists_line (stream position).bytes with unended | ⟨line, rest, isLine, begins⟩
    · exact ⟨_, .last unended⟩
    · obtain ⟨behind, further⟩ := inductionHypothesis (position + line.length)
      exact ⟨_, .line isLine begins further⟩

/-- Reading line by line moves the cursor as reading at once does, with the position behind all that
was taken. -/
theorem Handle.readOn_of_finds {stream : Nat → Stream} {limit position : Nat} {found : Stream}
    (finds : Finds stream limit position found) (handle : Handle) (aligned : handle.Aligned)
    (stands : handle.position = position) (empty : limit = 0 → handle.cursor.fragment = []) :
    let reading := handle.cursor.readLines found limit
    handle.readOn stream limit =
      ⟨reading.segments, ⟨reading.cursor, reading.cursor.position⟩, reading.stop⟩ := by
  -- The cases of what the reads find are those of the loop that makes them.
  induction finds generalizing handle with
  | enough =>
    rw [Cursor.readLines_zero (empty rfl)]
    obtain ⟨cursor, position⟩ := handle
    obtain rfl : position = cursor.position := aligned.position_eq
    rfl
  | last unended =>
    subst stands
    have moved : handle.position + (stream handle.position).bytes.length =
        (handle.cursor.advance []
          (handle.cursor.fragment ++ (stream handle.position).bytes)).position := by
      simp only [aligned.position_eq, Cursor.position, Cursor.advance, List.flatten_nil,
        List.length_nil, List.length_append]
      omega
    rw [Cursor.readLines_of_unbroken aligned.unbroken unended, readOn,
      nextLine_of_unbroken aligned.unbroken unended, moved]
  | @line limit _ line rest behind isLine begins further inductionHypothesis =>
    subst stands
    have here : stream handle.position = ⟨line ++ rest, (stream handle.position).failing⟩ := by
      rw [← begins]
    have again := inductionHypothesis
      ⟨handle.cursor.advance [handle.cursor.fragment ++ line] [], handle.position + line.length⟩
      (aligned.behind_line line) rfl fun _ => rfl
    rw [Cursor.readLines_of_isLine aligned.unbroken isLine, readOn, here,
      nextLine_of_isLine aligned.unbroken isLine]
    simp only [again]

/-! ### Following -/

/-- A tailer that follows files through handles. -/
structure Follower where
  handle : Option Handle
  skipsHistory : Bool
  resume : Option Bookmark
  memory : Memory
deriving DecidableEq

namespace Follower

def fresh : Follower :=
  { handle := none
    skipsHistory := true
    resume := none
    memory := [] }

/-- The tailer without its position. -/
def tailer (follower : Follower) : Tailer :=
  { cursor := follower.handle.map Handle.cursor
    skipsHistory := follower.skipsHistory
    resume := follower.resume
    memory := follower.memory }

/-- A tailer that has just opened the file at hand, if there is one. -/
def ofOpened (tailer : Tailer) : Follower :=
  { handle := tailer.cursor.map Handle.opened
    skipsHistory := tailer.skipsHistory
    resume := tailer.resume
    memory := tailer.memory }

/-- What a step gives. -/
structure Result where
  follower : Follower
  next : Next
  segments : List Segment

/-- What a step gives, without the position. -/
def Result.outcome (result : Result) : Outcome :=
  { tailer := result.follower.tailer
    next := result.next
    segments := result.segments }

/-- One step. -/
def step (pace : Pace) (view : View) (follower : Follower) : Result :=
  match follower.handle with
  | none =>
    let outcome := follower.tailer.locate pace view
    ⟨ofOpened outcome.tailer, outcome.next, outcome.segments⟩
  | some handle =>
    let reading := handle.readOn (view.stream handle.cursor.id) pace.lines
    match reading.stop with
    | .limit => ⟨{ follower with handle := some reading.handle }, .again, reading.segments⟩
    | .failed =>
      ⟨{ follower with handle := none, resume := some reading.handle.cursor.bookmark },
        .wait pace.rotation, reading.segments⟩
    | .ended =>
      match reading.handle.cursor.successor? view with
      | none => ⟨{ follower with handle := some reading.handle }, .wait pace.idle, reading.segments⟩
      | some path =>
        let outcome := follower.tailer.switch pace view reading.handle.cursor path
        ⟨ofOpened outcome.tailer, outcome.next, reading.segments ++ outcome.segments⟩

variable {pace : Pace} {view : View} {follower : Follower}

theorem tailer_ofOpened (tailer : Tailer) : (ofOpened tailer).tailer = tailer := by
  obtain ⟨cursor, skipsHistory, resume, memory⟩ := tailer
  cases cursor <;> rfl

/-- Whether the position, if a file is at hand, lies behind the bytes that are held back. -/
def Placed (follower : Follower) : Prop :=
  ∀ handle, follower.handle = some handle → handle.position = handle.cursor.position

theorem placed_ofOpened {tailer : Tailer}
    (opened : ∀ cursor, tailer.cursor = some cursor → cursor.fragment = []) :
    (ofOpened tailer).Placed := by
  intro handle following
  obtain ⟨cursor, isCursor, rfl⟩ := Option.map_eq_some_iff.mp following
  show cursor.offset = cursor.offset + cursor.fragment.length
  rw [opened cursor isCursor]
  rfl

theorem placed_locate {tailer : Tailer} (locating : tailer.cursor = none) :
    (ofOpened (tailer.locate pace view).tailer).Placed := by
  refine placed_ofOpened fun cursor following => ?_
  have turn := turn_locate pace view tailer locating
  generalize tailer.locate pace view = outcome at turn following
  generalize tailer.target? pace view = target at turn
  cases turn with
  | unanswered | nothing | refused => cases locating.symm.trans following
  | opened path opened locating answer opens =>
    obtain rfl := Option.some.inj following
    obtain ⟨_, _, _, _, _, empty⟩ := openAt_eq_some opens
    exact empty
  | busy _ _ _ atHand | broken _ _ _ atHand | idle _ _ _ atHand | left _ _ _ _ _ atHand =>
    cases locating.symm.trans atHand

theorem placed_switch {tailer : Tailer} {cursor : Cursor} {path : Path} :
    (ofOpened (tailer.switch pace view cursor path).tailer).Placed := by
  refine placed_ofOpened fun next following => ?_
  obtain ⟨_, _, _, _, _, empty⟩ := openAt_eq_some following
  exact empty

/-- A step does what it would do with all that its reads find found at once, and leaves the position
behind the bytes that are held back. -/
theorem step_of_finds (aligned : ∀ handle, follower.handle = some handle → handle.Aligned)
    (pace : Pace) (view : View) (stream : FileId → Nat → Stream)
    (finds : ∀ id position, Finds (view.stream id) pace.lines position (stream id position)) :
    (follower.step pace view).outcome = follower.tailer.step pace { view with stream := stream } ∧
      (follower.step pace view).follower.Placed := by
  cases following : follower.handle with
  | none =>
    have locating : follower.tailer.cursor = none := by rw [tailer, following]; rfl
    rw [Follower.step, following, Tailer.step, locating]
    refine ⟨?_, placed_locate locating⟩
    rw [Result.outcome, tailer_ofOpened]
    rfl
  | some handle =>
    have stands := (aligned handle following).position_eq
    have atHand : follower.tailer.cursor = some handle.cursor := by rw [tailer, following]; rfl
    have reads := Handle.readOn_of_finds (finds handle.cursor.id handle.position) handle
      (aligned handle following) rfl
      fun none => absurd none (Nat.ne_of_gt pace.lines_pos)
    rw [Follower.step, following, Tailer.step, atHand]
    -- Nothing but reading looks at the stream, so all that is done behind it is the same.
    simp only [Tailer.follow, ← stands, reads]
    generalize handle.cursor.readLines (stream handle.cursor.id handle.position) pace.lines = reading
    cases reading.stop with
    | limit => exact ⟨rfl, by rintro _ ⟨⟩; rfl⟩
    | failed => exact ⟨rfl, by rintro _ ⟨⟩⟩
    | ended =>
      have alike : reading.cursor.successor? { view with stream := stream } =
          reading.cursor.successor? view := rfl
      simp only [Tailer.atEnd, alike]
      cases reading.cursor.successor? view with
      | none =>
        refine ⟨?_, by rintro _ ⟨⟩; rfl⟩
        simp only [List.append_nil]
        rfl
      | some path =>
        refine ⟨?_, placed_switch⟩
        simp only [Result.outcome, tailer_ofOpened]
        rfl

end Follower

/-! ### Files that stay as they are -/

/-- Whether open files stay as they are during a step. -/
def View.Steady (view : View) : Prop :=
  ∀ id position count, count ≤ (view.stream id position).bytes.length →
    view.stream id (position + count) =
      ⟨(view.stream id position).bytes.drop count, (view.stream id position).failing⟩

theorem View.steady_ofTree (tree : FileTree) (watcher : Watcher) (outOfOrder : Bool) :
    (View.ofTree tree watcher outOfOrder).Steady := by
  intro id position count _
  simp only [View.ofTree, streamIn]
  cases tree.contents.lookup id with
  | none => rw [List.drop_nil]
  | some contents => cases outOfOrder <;> simp

/-- What is found in a file that stays as it is stands in it from the position on. -/
theorem View.Steady.finds {view : View} (steady : view.Steady) (id : FileId) (limit position : Nat) :
    Finds (view.stream id) limit position (view.stream id position) := by
  induction limit generalizing position with
  | zero => exact .enough
  | succ limit inductionHypothesis =>
    rcases unended_or_exists_line (view.stream id position).bytes with
      unended | ⟨line, rest, isLine, begins⟩
    · exact .last unended
    · have within : line.length ≤ (view.stream id position).bytes.length := by
        rw [begins, List.length_append]
        exact Nat.le_add_right _ _
      have behind : view.stream id (position + line.length) =
          ⟨rest, (view.stream id position).failing⟩ := by
        rw [steady id position line.length within, begins, List.drop_left]
      have further := inductionHypothesis (position + line.length)
      rw [behind] at further
      have whole := Finds.line isLine begins further
      rwa [← begins] at whole

/-! ### Runs -/

/-- A tailer after some steps, with what it saw in each of them. -/
def Tailer.after (pace : Pace) (views : List View) : Tailer :=
  views.foldl (fun tailer view => (tailer.step pace view).tailer) fresh

theorem Tailer.after_concat (pace : Pace) (views : List View) (view : View) :
    after pace (views ++ [view]) = ((after pace views).step pace view).tailer :=
  List.foldl_concat _ _ _ _

theorem Tailer.reachable_after (pace : Pace) (views : List View) : (after pace views).Reachable := by
  induction views using List.reverseRecOn with
  | nil => exact .fresh
  | append_singleton views view inductionHypothesis =>
    rw [after_concat]
    exact inductionHypothesis.step pace view

namespace Follower

variable {pace : Pace} {follower : Follower}

/-- A tailer after some steps, with what it saw in each of them. -/
def after (pace : Pace) (views : List View) : Follower :=
  views.foldl (fun follower view => (follower.step pace view).follower) fresh

theorem after_concat (pace : Pace) (views : List View) (view : View) :
    after pace (views ++ [view]) = ((after pace views).step pace view).follower :=
  List.foldl_concat _ _ _ _

theorem aligned_of_placed (reachable : follower.tailer.Reachable) (placed : follower.Placed) :
    ∀ handle, follower.handle = some handle → handle.Aligned := by
  intro handle following
  refine ⟨placed handle following, reachable.tidy.unbroken handle.cursor ?_⟩
  rw [tailer, following]
  rfl

/-- Whatever is seen, and be it different for each line, a tailer that reads at once could be the
same. -/
theorem reachable_after (pace : Pace) (views : List View) :
    (after pace views).tailer.Reachable ∧ (after pace views).Placed := by
  induction views using List.reverseRecOn with
  | nil => exact ⟨.fresh, fun _ following => by cases following⟩
  | append_singleton views view inductionHypothesis =>
    obtain ⟨reachable, placed⟩ := inductionHypothesis
    choose found finds using fun id position => exists_finds (view.stream id) pace.lines position
    obtain ⟨outcome, placedAfter⟩ :=
      step_of_finds (aligned_of_placed reachable placed) pace view found finds
    have same : ((after pace views).step pace view).follower.tailer = _ :=
      congrArg Outcome.tailer outcome
    rw [after_concat]
    refine ⟨?_, placedAfter⟩
    rw [same]
    exact reachable.step pace _

/-- With files that stay as they are during the steps it is the tailer that reads at once. -/
theorem tailer_after (pace : Pace) (views : List View) (steady : ∀ view ∈ views, view.Steady) :
    (after pace views).tailer = Tailer.after pace views := by
  induction views using List.reverseRecOn with
  | nil => rfl
  | append_singleton views view inductionHypothesis =>
    obtain ⟨steadyBefore, steadyLast⟩ := List.forall_mem_append.mp steady
    obtain ⟨reachable, placed⟩ := reachable_after pace views
    have found := (steadyLast view (List.mem_singleton_self view)).finds
    obtain ⟨outcome, _⟩ := step_of_finds (aligned_of_placed reachable placed) pace view view.stream
      fun id => found id pace.lines
    rw [after_concat, Tailer.after_concat, ← inductionHypothesis steadyBefore]
    exact congrArg Outcome.tailer outcome

end Follower

/-! ### What is kept in order -/

/-- What a tailer keeps in order: the files that were left are different and at most sixteen, and
neither the one at hand nor the one of which a read failed is among them; the latter is only while
there is no file at hand; and nothing has happened while the first file is still to be read from its
end. -/
structure Tailer.InOrder (tailer : Tailer) : Prop where
  distinct : (tailer.memory.map Bookmark.path).Nodup
  bounded : tailer.memory.length ≤ 16
  atHand : ∀ cursor, tailer.cursor = some cursor →
    cursor.path ∉ tailer.memory.map Bookmark.path ∧ lineFeed ∉ cursor.fragment
  pending : ∀ bookmark, tailer.resume = some bookmark →
    tailer.cursor = none ∧ bookmark.path ∉ tailer.memory.map Bookmark.path
  untouched : tailer.skipsHistory = true →
    tailer.cursor = none ∧ tailer.resume = none ∧ tailer.memory = []

theorem Tailer.Tidy.inOrder {tailer : Tailer} (tidy : tailer.Tidy) : tailer.InOrder where
  distinct := tidy.distinct
  bounded := tidy.bounded
  atHand := fun cursor following =>
    ⟨Memory.find?_eq_none.mp (tidy.currentForgotten cursor following),
      tidy.unbroken cursor following⟩
  pending := fun bookmark pending =>
    ⟨Option.eq_none_iff_forall_ne_some.mpr fun cursor following =>
        Option.some_ne_none bookmark (pending.symm.trans (tidy.notPending cursor following)),
      Memory.find?_eq_none.mp (tidy.pendingForgotten bookmark pending)⟩
  untouched := tidy.nothingYet

/-- After every step, whatever was seen in the steps, a tailer is in order, be it that it reads at
once or line by line through a handle, with what the files hold different for each line. The
position of the handle lies behind the bytes that are held back. If the files stay as they are
during the steps, as those of a tree do, both are the same tailer. -/
theorem Follower.inOrder_after (pace : Pace) (views : List View) :
    (Tailer.after pace views).InOrder ∧
      (Follower.after pace views).tailer.InOrder ∧
      (∀ handle, (Follower.after pace views).handle = some handle →
        handle.position = handle.cursor.offset + handle.cursor.fragment.length) ∧
      ((∀ view ∈ views, view.Steady) →
        (Follower.after pace views).tailer = Tailer.after pace views) ∧
      ∀ tree watcher outOfOrder, (View.ofTree tree watcher outOfOrder).Steady := by
  obtain ⟨reachable, placed⟩ := Follower.reachable_after pace views
  exact ⟨(Tailer.reachable_after pace views).tidy.inOrder, reachable.tidy.inOrder, placed,
    Follower.tailer_after pace views, View.steady_ofTree⟩

/-- Two bytes are held back behind a line, and the handle stands behind them. -/
example :
    let views := [FileTree.empty, FileTree.empty.append ⟨["first"]⟩ [97, 10, 98, 99] 1].map
      fun tree => View.ofTree tree (.directory .top) false
    (Follower.after (.ofLimit 1000 100 5) (views ++ views.drop 1)).handle =
      some ⟨⟨⟨["first"]⟩, 1, 2, true, [98, 99]⟩, 4⟩ := by
  decide

end NodeTelemetry.Tail
