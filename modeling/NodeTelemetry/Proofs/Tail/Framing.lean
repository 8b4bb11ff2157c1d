/-
This file shows that the lines of a file do not depend on how its bytes arrive. While one file is
followed, it may grow by any bytes at any time between steps. Once a step waits, what was delivered
is what a single split of all the bytes gives, and the offset stands behind the last line feed. What
carries this is that the bytes always are the lines that were read, what is held back, and what is
still to be read. The same holds of the step that comes to the end of the file, where what stands
behind the last line is delivered as well if the file is left.
-/

import NodeTelemetry.Proofs.Tail.Turn

namespace NodeTelemetry.Tail

/-! ### Lines at once -/

/-- The text of a line whose line feed was taken off. -/
def lineText (piece : List UInt8) : String :=
  Text.Utf8.decodeLossy (dropEnd carriageReturn piece)

/-- What lines deliver: their texts, without those in which there are only blanks. -/
def textsOf (pieces : List (List UInt8)) : List String :=
  (pieces.map lineText).filter fun text => !Text.isAllBlank text

/-- What the lines among some bytes deliver. Behind the last line feed there is no line. -/
def wholeLines (bytes : List UInt8) : List String :=
  textsOf (bytes.splitOn lineFeed).dropLast

theorem textsOf_append (first second : List (List UInt8)) :
    textsOf (first ++ second) = textsOf first ++ textsOf second := by
  rw [textsOf, List.map_append, List.filter_append]
  rfl

theorem wholeLines_lines {lines : List (List UInt8)} {rest : List UInt8}
    (whole : ∀ line ∈ lines, IsLine line) (unbroken : lineFeed ∉ rest) :
    wholeLines (lines.flatten ++ rest) = textsOf (lines.map List.dropLast) := by
  rw [wholeLines, splitOn_lines whole unbroken, List.dropLast_concat]

theorem delivered?_of_isLine (segment : Segment) (isLine : IsLine segment.bytes) :
    segment.delivered?.toList = textsOf [segment.bytes.dropLast] := by
  have text : segment.text = lineText segment.bytes.dropLast := text_of_isLine isLine
  rw [Segment.delivered?, text]
  by_cases blank : Text.isAllBlank (lineText segment.bytes.dropLast) = true
  · simp [textsOf, blank]
  · simp [textsOf, blank]

/-- Segments that are lines deliver the texts of these lines. -/
theorem delivered?_segmentsFrom (path : Path) (start : Nat) {lines : List (List UInt8)}
    (whole : ∀ line ∈ lines, IsLine line) :
    (segmentsFrom path start lines).filterMap Segment.delivered? =
      textsOf (lines.map List.dropLast) := by
  induction lines generalizing start with
  | nil => rfl
  | cons line others inductionHypothesis =>
    obtain ⟨isLine, wholeOthers⟩ := List.forall_mem_cons.mp whole
    have first := delivered?_of_isLine ⟨path, start, line⟩ isLine
    calc (segmentsFrom path start (line :: others)).filterMap Segment.delivered?
        = (Segment.delivered? ⟨path, start, line⟩).toList ++
            (segmentsFrom path (start + line.length) others).filterMap Segment.delivered? := by
          rw [segmentsFrom, List.filterMap_cons]
          cases Segment.delivered? ⟨path, start, line⟩ <;> rfl
      _ = textsOf [line.dropLast] ++ textsOf (others.map List.dropLast) := by
          rw [first, inductionHypothesis _ wholeOthers]
      _ = textsOf ((line :: others).map List.dropLast) := (textsOf_append _ _).symm

/-! ### One file that grows -/

/-- A tailer that follows one file, and what came of it. -/
structure Feed where
  /-- The bytes behind the place where reading began. -/
  appended : List UInt8
  tailer : Tailer
  delivered : List String
  /-- Whether a step waited since bytes were last appended. -/
  settled : Bool

namespace Feed

/-- The feed after more bytes were appended. -/
def append (feed : Feed) (more : List UInt8) : Feed :=
  { feed with appended := feed.appended ++ more, settled := false }

/-- The feed after a step. -/
def step (feed : Feed) (pace : Pace) (view : View) : Feed :=
  let outcome := feed.tailer.step pace view
  { appended := feed.appended
    tailer := outcome.tailer
    delivered := feed.delivered ++ outcome.delivered
    settled := feed.settled || outcome.next != .again }

/-- The feeds in which a file is read behind its head without being left and without a read that
fails. -/
inductive OneFile (id : FileId) (head : List UInt8) : Feed → Prop
  | start (tailer : Tailer) (cursor : Cursor) (bytes : List UInt8)
      (following : tailer.cursor = some cursor) (sameFile : cursor.id = id)
      (behindHead : cursor.offset = head.length) (empty : cursor.fragment = []) :
      OneFile id head ⟨bytes, tailer, [], false⟩
  | append {feed : Feed} (more : List UInt8) (oneFile : OneFile id head feed) :
      OneFile id head (feed.append more)
  | step {feed : Feed} (pace : Pace) (view : View) (oneFile : OneFile id head feed)
      (reads : view.Holds id (head ++ feed.appended))
      (stays : feed.tailer.target? pace view = none) :
      OneFile id head (feed.step pace view)

/-! ### What was read, what is held back and what is to come -/

/-- How the bytes of a feed are made up at some moment. -/
structure Framed (feed : Feed) (id : FileId) (head : List UInt8) (cursor : Cursor)
    (lines : List (List UInt8)) (unread : List UInt8) : Prop where
  following : feed.tailer.cursor = some cursor
  sameFile : cursor.id = id
  appended_eq : feed.appended = lines.flatten ++ (cursor.fragment ++ unread)
  isLine : ∀ line ∈ lines, IsLine line
  unbroken : lineFeed ∉ cursor.fragment
  offset_eq : cursor.offset = head.length + lines.flatten.length
  delivered_eq : feed.delivered = textsOf (lines.map List.dropLast)
  drained : feed.settled = true → unread = []

namespace Framed

variable {feed : Feed} {id : FileId} {head : List UInt8} {cursor : Cursor}
  {lines : List (List UInt8)} {unread : List UInt8}

theorem append (framed : feed.Framed id head cursor lines unread) (more : List UInt8) :
    (feed.append more).Framed id head cursor lines (unread ++ more) where
  following := framed.following
  sameFile := framed.sameFile
  appended_eq := by
    show feed.appended ++ more = _
    rw [framed.appended_eq]
    simp only [List.append_assoc]
  isLine := framed.isLine
  unbroken := framed.unbroken
  offset_eq := framed.offset_eq
  delivered_eq := framed.delivered_eq
  drained := fun settled => by cases settled

/-- Behind the position lies what is to come. -/
theorem drop_position (framed : feed.Framed id head cursor lines unread) :
    (head ++ feed.appended).drop cursor.position = unread := by
  have place : cursor.position = (head ++ lines.flatten ++ cursor.fragment).length := by
    rw [Cursor.position, framed.offset_eq]
    simp only [List.length_append]
  have bytes : head ++ feed.appended = head ++ lines.flatten ++ cursor.fragment ++ unread := by
    rw [framed.appended_eq]
    simp only [List.append_assoc]
  rw [place, bytes, List.drop_left]

/-- The feed after some lines were read and some bytes are held back behind them. -/
theorem read (framed : feed.Framed id head cursor lines unread) {after : Feed} {limit : Nat}
    {more : List (List UInt8)} {rest : List UInt8} (fragment : List UInt8)
    (cut : Cut limit (cursor.fragment ++ unread) more (fragment ++ rest))
    (unbroken : lineFeed ∉ fragment)
    (following : after.tailer.cursor = some (cursor.advance more fragment))
    (sameBytes : after.appended = feed.appended)
    (delivered : after.delivered =
      feed.delivered ++ (cursor.lineSegments more).filterMap Segment.delivered?)
    (drained : after.settled = true → rest = []) :
    after.Framed id head (cursor.advance more fragment) (lines ++ more) rest where
  following := following
  sameFile := framed.sameFile
  appended_eq := by
    rw [sameBytes, framed.appended_eq, cut.bytes_eq, List.flatten_append, List.append_assoc]
    rfl
  isLine := fun line member => by
    rcases List.mem_append.mp member with earlier | later
    · exact framed.isLine line earlier
    · exact cut.isLine line later
  unbroken := unbroken
  offset_eq := by
    rw [Cursor.advance_offset, framed.offset_eq, List.flatten_append, List.length_append,
      Nat.add_assoc]
  delivered_eq := by
    rw [delivered, framed.delivered_eq, Cursor.lineSegments, delivered?_segmentsFrom _ _ cut.isLine,
      List.map_append, textsOf_append]
  drained := drained

/-- Nothing is left to be cut off where all was read before. -/
theorem not_full (framed : feed.Framed id head cursor lines unread) {pace : Pace}
    {more : List (List UInt8)} {rest : List UInt8} (settled : feed.settled = true)
    (cut : Cut pace.lines (cursor.fragment ++ unread) more rest) : more.length ≠ pace.lines := by
  intro full
  rw [framed.drained settled, List.append_nil] at cut
  rw [(cut.eq_nil framed.unbroken).1] at full
  exact absurd full (Nat.ne_of_lt pace.lines_pos)

/-- A step that does not leave the file reads on in it. -/
theorem step (framed : feed.Framed id head cursor lines unread) {pace : Pace} {view : View}
    (reads : view.Holds id (head ++ feed.appended))
    (stays : feed.tailer.target? pace view = none) :
    ∃ cursor lines unread, (feed.step pace view).Framed id head cursor lines unread := by
  rw [← framed.sameFile] at reads
  obtain ⟨more, rest, cut, ways⟩ := step_of_holds pace framed.following reads
  rw [framed.drop_position] at cut
  unfold Feed.step Outcome.delivered
  rcases ways with ⟨full, _, step⟩ | ⟨unbroken, _, _, step⟩ | ⟨_, path, _, _, target, _⟩
  · rw [step]
    refine ⟨_, _, rest, framed.read [] cut List.not_mem_nil rfl rfl rfl fun settled => ?_⟩
    have before : feed.settled = true := by simpa using settled
    exact absurd full (framed.not_full before cut)
  · rw [step]
    rw [← List.append_nil rest] at cut
    exact ⟨_, _, [], framed.read rest cut unbroken rfl rfl rfl fun _ => rfl⟩
  · cases stays.symm.trans target

end Framed

theorem OneFile.framed {feed : Feed} {id : FileId} {head : List UInt8}
    (oneFile : feed.OneFile id head) :
    ∃ cursor lines unread, feed.Framed id head cursor lines unread := by
  induction oneFile with
  | start tailer cursor bytes following sameFile behindHead empty =>
    refine ⟨cursor, [], bytes, following, sameFile, ?_, ?_, ?_, behindHead, rfl, ?_⟩
    · rw [empty]
      rfl
    · exact fun line member => by cases member
    · rw [empty]
      exact List.not_mem_nil
    · exact fun settled => by cases settled
  | append more _ inductionHypothesis =>
    obtain ⟨cursor, lines, unread, framed⟩ := inductionHypothesis
    exact ⟨cursor, lines, unread ++ more, framed.append more⟩
  | step pace view _ reads stays inductionHypothesis =>
    obtain ⟨cursor, lines, unread, framed⟩ := inductionHypothesis
    exact framed.step reads stays

/-- Once a step waited behind the last bytes, what was delivered is what the lines among all the
bytes deliver, and the offset stands behind the last line feed. -/
theorem delivered_eq_wholeLines {feed : Feed} {id : FileId} {head : List UInt8}
    (oneFile : feed.OneFile id head) (settled : feed.settled = true) :
    feed.delivered = wholeLines feed.appended ∧
      ∃ cursor before rest, feed.tailer.cursor = some cursor ∧ cursor.id = id ∧
        feed.appended = before ++ rest ∧ lineFeed ∉ rest ∧
        (before = [] ∨ before.getLast? = some lineFeed) ∧
        cursor.offset = head.length + before.length := by
  obtain ⟨cursor, lines, unread, framed⟩ := oneFile.framed
  have bytes : feed.appended = lines.flatten ++ cursor.fragment := by
    rw [framed.appended_eq, framed.drained settled, List.append_nil]
  refine ⟨?_, cursor, lines.flatten, cursor.fragment, framed.following, framed.sameFile, bytes,
    framed.unbroken, ?_, framed.offset_eq⟩
  · rw [bytes, wholeLines_lines framed.isLine framed.unbroken, framed.delivered_eq]
  · rcases List.eq_nil_or_concat lines with rfl | ⟨others, line, rfl⟩
    · exact .inl rfl
    · refine .inr ?_
      obtain ⟨body, _, ends⟩ := framed.isLine line (by simp)
      simp [ends]

/-- A view of file seven, which holds two more bytes in front of those of a feed. -/
def sight (feed : Feed) : View :=
  { newest := .ok (some ⟨["log"]⟩)
    status := fun _ => some ⟨7, 2 + feed.appended.length⟩
    openFile := fun _ => some ⟨7, 2 + feed.appended.length⟩
    stream := fun _ position => ⟨([120, 10] ++ feed.appended).drop position, false⟩ }

/-- The feed after a step that reads at most one line. -/
def look (feed : Feed) : Feed :=
  feed.step (Pace.ofLimit 1000 100 1) feed.sight

theorem OneFile.look {feed : Feed} (oneFile : feed.OneFile 7 [120, 10])
    (stays : feed.tailer.target? (Pace.ofLimit 1000 100 1) feed.sight = none) :
    feed.look.OneFile 7 [120, 10] :=
  .step _ _ oneFile (fun _ => rfl) stays

/-- A feed whose bytes arrive cut apart behind a carriage return and within a character. -/
def cutApart : Feed :=
  let cursor : Cursor := ⟨⟨["log"]⟩, 7, 2, false, []⟩
  let started : Feed := ⟨[97, 13], ⟨some cursor, false, none, []⟩, [], false⟩
  let within := (started.look.append [10, 32, 13, 10, 0xC3]).look.look
  (within.append [0xA9, 10, 98]).look.look

theorem oneFile_cutApart : cutApart.OneFile 7 [120, 10] := by
  let cursor : Cursor := ⟨⟨["log"]⟩, 7, 2, false, []⟩
  let tailer : Tailer := ⟨some cursor, false, none, []⟩
  have started : OneFile 7 [120, 10] ⟨[97, 13], tailer, [], false⟩ :=
    .start tailer cursor [97, 13] rfl rfl rfl rfl
  have within := (started.look (by decide)).append [10, 32, 13, 10, 0xC3]
  have later := ((within.look (by decide)).look (by decide)).append [0xA9, 10, 98]
  exact (later.look (by decide)).look (by decide)

theorem delivered_cutApart :
    cutApart.OneFile 7 [120, 10] ∧ cutApart.settled = true ∧ cutApart.delivered = ["a", "é"] := by
  have delivered := (delivered_eq_wholeLines oneFile_cutApart rfl).1
  exact ⟨oneFile_cutApart, rfl, delivered.trans (by decide)⟩

end Feed

/-! ### Lines up to the end of a file -/

/-- What a file delivers that is left at its end: its lines and what stands behind them. -/
def allLines (bytes : List UInt8) : List String :=
  textsOf (bytes.splitOn lineFeed)

theorem allLines_lines {lines : List (List UInt8)} {rest : List UInt8}
    (whole : ∀ line ∈ lines, IsLine line) (unbroken : lineFeed ∉ rest) :
    allLines (lines.flatten ++ rest) = textsOf (lines.map List.dropLast) ++ textsOf [rest] := by
  rw [allLines, splitOn_lines whole unbroken, textsOf_append]

theorem wholeLines_prefix_allLines (bytes : List UInt8) : wholeLines bytes <+: allLines bytes := by
  obtain ⟨lines, rest, rfl, whole, unbroken⟩ := exists_lines bytes
  rw [wholeLines_lines whole unbroken, allLines_lines whole unbroken]
  exact List.prefix_append _ _

/-- The lines of a file that grows are the first ones of what it becomes. -/
theorem wholeLines_prefix_append (bytes more : List UInt8) :
    wholeLines bytes <+: wholeLines (bytes ++ more) := by
  obtain ⟨lines, rest, rfl, whole, unbroken⟩ := exists_lines bytes
  obtain ⟨further, last, behind, wholeFurther, unbrokenLast⟩ := exists_lines (rest ++ more)
  have together : lines.flatten ++ rest ++ more = (lines ++ further).flatten ++ last := by
    rw [List.append_assoc, behind, List.flatten_append, List.append_assoc]
  have wholeTogether : ∀ line ∈ lines ++ further, IsLine line :=
    List.forall_mem_append.mpr ⟨whole, wholeFurther⟩
  rw [together, wholeLines_lines whole unbroken, wholeLines_lines wholeTogether unbrokenLast,
    List.map_append, textsOf_append]
  exact List.prefix_append _ _

/-- What is held back delivers the text of the unfinished line that it is. -/
theorem delivered?_flush {cursor : Cursor} (unbroken : lineFeed ∉ cursor.fragment) :
    cursor.flush.filterMap Segment.delivered? = textsOf [cursor.fragment] := by
  have kept : dropEnd lineFeed cursor.fragment = cursor.fragment :=
    if_neg fun ends => unbroken (List.mem_of_getLast? ends)
  unfold Cursor.flush
  split
  · next empty =>
    rw [List.isEmpty_iff.mp empty]
    rfl
  · have text : Segment.text ⟨cursor.path, cursor.offset, cursor.fragment⟩ =
        lineText cursor.fragment := by
      rw [Segment.text, kept, lineText]
    by_cases blank : Text.isAllBlank (lineText cursor.fragment) = true
    · simp [textsOf, Segment.delivered?, text, blank]
    · simp [textsOf, Segment.delivered?, text, blank]

namespace Feed

/-- The ways on for a feed while the file grows and is read on without being left. -/
inductive Goes (id : FileId) (start : Feed) : Feed → Prop
  | here : Goes id start start
  | append {feed : Feed} (more : List UInt8) (goes : Goes id start feed) :
      Goes id start (feed.append more)
  | step {feed : Feed} (pace : Pace) (view : View) (goes : Goes id start feed)
      (reads : view.Holds id feed.appended) (stays : feed.tailer.target? pace view = none) :
      Goes id start (feed.step pace view)

variable {feed start : Feed} {id : FileId}

theorem Goes.oneFile (goes : Goes id start feed) (oneFile : start.OneFile id []) :
    feed.OneFile id [] := by
  induction goes with
  | here => exact oneFile
  | append more _ inductionHypothesis => exact inductionHypothesis.append more
  | step pace view _ reads stays inductionHypothesis =>
    exact inductionHypothesis.step pace view reads stays

theorem Goes.longer (goes : Goes id start feed) : start.appended <+: feed.appended := by
  induction goes with
  | here => exact List.prefix_refl _
  | append more _ inductionHypothesis =>
    exact inductionHypothesis.trans (List.prefix_append _ more)
  | step pace view _ _ _ inductionHypothesis => exact inductionHypothesis

/-- With the rest of a file cut into lines, the feed has delivered all its lines, and what stands
behind them if this is consumed as well. -/
theorem Framed.delivered_at_end {head unread rest : List UInt8} {cursor : Cursor}
    {lines more : List (List UInt8)} {limit : Nat}
    (framed : feed.Framed id head cursor lines unread)
    (cut : Cut limit (cursor.fragment ++ unread) more rest) (unbroken : lineFeed ∉ rest) :
    feed.delivered ++ (cursor.lineSegments more).filterMap Segment.delivered? =
        wholeLines feed.appended ∧
      feed.delivered ++ (cursor.lineSegments more ++
          (cursor.advance more rest).flush).filterMap Segment.delivered? =
        allLines feed.appended := by
  have bytes : feed.appended = (lines ++ more).flatten ++ rest := by
    rw [framed.appended_eq, cut.bytes_eq, List.flatten_append, List.append_assoc]
  have whole : ∀ line ∈ lines ++ more, IsLine line :=
    List.forall_mem_append.mpr ⟨framed.isLine, cut.isLine⟩
  have delivered : feed.delivered ++ (cursor.lineSegments more).filterMap Segment.delivered? =
      textsOf ((lines ++ more).map List.dropLast) := by
    rw [framed.delivered_eq, Cursor.lineSegments, delivered?_segmentsFrom _ _ cut.isLine,
      List.map_append, textsOf_append]
  have held : (cursor.advance more rest).flush.filterMap Segment.delivered? = textsOf [rest] :=
    delivered?_flush unbroken
  refine ⟨?_, ?_⟩
  · rw [delivered, bytes, wholeLines_lines whole unbroken]
  · rw [List.filterMap_append, ← List.append_assoc, delivered, held, bytes,
      allLines_lines whole unbroken]

/-- When a step comes to the end of the file, all lines have been delivered, and what stands behind
them if the file is left. -/
theorem OneFile.delivered_at_end {head : List UInt8} (oneFile : feed.OneFile id head) (pace : Pace)
    (view : View) (reads : view.Holds id (head ++ feed.appended))
    (ends : (feed.tailer.step pace view).next ≠ .again ∨ feed.tailer.target? pace view ≠ none) :
    feed.delivered ++ (feed.tailer.step pace view).delivered =
      if feed.tailer.target? pace view = none then wholeLines feed.appended
      else allLines feed.appended := by
  obtain ⟨cursor, lines, unread, framed⟩ := oneFile.framed
  rw [← framed.sameFile] at reads
  obtain ⟨more, rest, cut, ways⟩ := step_of_holds pace framed.following reads
  rw [framed.drop_position] at cut
  unfold Outcome.delivered
  rcases ways with ⟨_, stays, step⟩ | ⟨unbroken, _, stays, step⟩ |
    ⟨unbroken, path, opened, _, asks, _, step⟩
  · rw [step, stays] at ends
    exact absurd ends (by simp)
  · rw [step, if_pos stays]
    exact (framed.delivered_at_end cut unbroken).1
  · rw [step, asks, if_neg (Option.some_ne_none path)]
    exact (framed.delivered_at_end cut unbroken).2

end Feed

/-- Whether a tailer delivers a file whole, whatever is appended to it: once a step comes to the
end, all lines of the file have been delivered and nothing else but what stands behind them if the
file is left. -/
def Tailer.DeliversWhole (tailer : Tailer) (id : FileId) (contents : List UInt8) : Prop :=
  ∀ more feed, Feed.Goes id ⟨contents ++ more, tailer, [], false⟩ feed →
    ∀ pace view, view.Holds id feed.appended →
      ((feed.tailer.step pace view).next ≠ .again ∨ feed.tailer.target? pace view ≠ none) →
      (feed.delivered ++ (feed.tailer.step pace view).delivered =
        if feed.tailer.target? pace view = none then wholeLines feed.appended
        else allLines feed.appended) ∧
      wholeLines contents <+: feed.delivered ++ (feed.tailer.step pace view).delivered

/-- From the beginning of a file all of it is delivered. -/
theorem deliversWhole_of_begun {tailer : Tailer} {cursor : Cursor}
    (following : tailer.cursor = some cursor) (begins : cursor.offset = 0)
    (empty : cursor.fragment = []) (contents : List UInt8) :
    tailer.DeliversWhole cursor.id contents := by
  intro more feed goes pace view reads ends
  have oneFile := goes.oneFile (.start tailer cursor (contents ++ more) following rfl begins empty)
  have delivered := oneFile.delivered_at_end pace view reads ends
  obtain ⟨further, whole⟩ := goes.longer
  have first : wholeLines contents <+: wholeLines feed.appended := by
    rw [← whole, List.append_assoc]
    exact wholeLines_prefix_append contents (more ++ further)
  refine ⟨delivered, ?_⟩
  rw [delivered]
  split
  · exact first
  · exact first.trans (wholeLines_prefix_allLines feed.appended)

end NodeTelemetry.Tail
