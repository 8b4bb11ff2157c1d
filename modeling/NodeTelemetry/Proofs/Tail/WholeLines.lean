/-
This file settles which lines of a file are consumed whole when nothing fails. What is consumed of a
file are pieces that cover it without a gap, and a piece ends behind a line feed or where the file
was left. So a line is consumed whole exactly if the file was not left in the midst of it. If it
was, the first part of the line was consumed then, and the rest is taken for a line of its own when
the file is found again.

That the pieces cover the file without a gap is what the accounts of consumption say, so what is
added here is how each piece ends. A piece that is a line has its only line feed at its end. One
that is not is what was held back when the file was left, and the place where it ends is among the
places at which the file was left. A line of the file holds one line feed, so the piece with its
last byte ends there, and it is the whole line unless a piece before it ended inside the line.
-/

import NodeTelemetry.Proofs.Tail.FirstFile
import NodeTelemetry.Proofs.Tail.Reopening

namespace NodeTelemetry.Tail

/-! ### Segments that cover a file -/

theorem segmentsFrom_append (path : Path) (start : Nat) (first second : List (List UInt8)) :
    segmentsFrom path start (first ++ second) =
      segmentsFrom path start first ++ segmentsFrom path (start + first.flatten.length) second := by
  induction first generalizing start with
  | nil => rfl
  | cons piece others inductionHypothesis =>
    rw [List.cons_append, segmentsFrom, inductionHypothesis, segmentsFrom, List.cons_append,
      List.flatten_cons, List.length_append, Nat.add_assoc]

/-- There is no gap between segments that lie one behind the other. -/
theorem exists_mem_segmentsFrom {path : Path} {start position : Nat} {pieces : List (List UInt8)}
    (reached : start ≤ position) (inside : position < start + pieces.flatten.length) :
    ∃ segment ∈ segmentsFrom path start pieces,
      segment.start ≤ position ∧ position < segment.start + segment.bytes.length := by
  induction pieces generalizing start with
  | nil => exact absurd (Nat.lt_of_le_of_lt reached inside) (Nat.lt_irrefl start)
  | cons piece others inductionHypothesis =>
    by_cases here : position < start + piece.length
    · exact ⟨_, List.mem_cons_self, reached, here⟩
    · rw [List.flatten_cons, List.length_append, ← Nat.add_assoc] at inside
      obtain ⟨segment, member, covers⟩ := inductionHypothesis (Nat.le_of_not_lt here) inside
      exact ⟨segment, List.mem_cons_of_mem _ member, covers⟩

/-- What is held back is consumed as one piece, if there is any. -/
theorem flush_eq_segmentsFrom (cursor : Cursor) :
    cursor.flush = segmentsFrom cursor.path cursor.offset
      (if cursor.fragment.isEmpty then [] else [cursor.fragment]) := by
  unfold Cursor.flush
  split <;> rfl

theorem bytes_mem_of_mem_segmentsFrom {path : Path} {start : Nat} {pieces : List (List UInt8)}
    {segment : Segment} (member : segment ∈ segmentsFrom path start pieces) :
    segment.bytes ∈ pieces :=
  map_bytes_segmentsFrom path start pieces ▸ List.mem_map_of_mem member

/-! ### Lines of a file -/

/-- Whether a line stands in a file, from its first byte on: nothing of it stands further in front.
-/
structure LineAt (bytes line : List UInt8) (start : Nat) : Prop where
  isLine : IsLine line
  holds : line <+: bytes.drop start
  begins : start = 0 ∨ bytes[start - 1]? = some lineFeed

/-- Whether a segment holds what a file holds there, and ends behind the only line feed in it or, if
there is none, where its path was left. -/
structure Piece (segment : Segment) (bytes : List UInt8) (places : List Bookmark) : Prop where
  holds : segment.bytes <+: bytes.drop segment.start
  ends : IsLine segment.bytes ∨ lineFeed ∉ segment.bytes ∧ ∃ place ∈ places,
    place.path = segment.path ∧ place.offset = segment.start + segment.bytes.length

/-- What a file holds within a part of it. -/
theorem getElem?_of_prefix_drop {part bytes : List UInt8} {start position : Nat}
    (holds : part <+: bytes.drop start) (reached : start ≤ position)
    (inside : position < start + part.length) : part[position - start]? = bytes[position]? := by
  obtain ⟨rest, whole⟩ := holds
  have index : position - start < part.length := by omega
  have behind : (bytes.drop start)[position - start]? = bytes[start + (position - start)]? :=
    List.getElem?_drop
  rw [← whole, List.getElem?_append_left index, Nat.add_sub_cancel' reached] at behind
  exact behind

theorem IsLine.getElem?_eq_lineFeed_iff {bytes : List UInt8} (isLine : IsLine bytes)
    {index : Nat} : bytes[index]? = some lineFeed ↔ index + 1 = bytes.length := by
  obtain ⟨body, unbroken, rfl⟩ := isLine
  rw [List.length_append, List.length_singleton, Nat.add_right_cancel_iff]
  constructor
  · intro feeds
    rcases Nat.lt_trichotomy index body.length with within | same | behind
    · rw [List.getElem?_append_left within] at feeds
      exact absurd (List.mem_of_getElem? feeds) unbroken
    · exact same
    · rw [List.getElem?_eq_none (by simp; omega)] at feeds
      cases feeds
  · rintro rfl
    exact List.getElem?_concat_length

namespace LineAt

variable {bytes line : List UInt8} {start : Nat}

/-- Within a line, only its last byte is a line feed. -/
theorem lineFeed_iff (lineAt : LineAt bytes line start) {position : Nat}
    (reached : start ≤ position) (inside : position < start + line.length) :
    bytes[position]? = some lineFeed ↔ position + 1 = start + line.length := by
  rw [← getElem?_of_prefix_drop lineAt.holds reached inside,
    lineAt.isLine.getElem?_eq_lineFeed_iff]
  omega

end LineAt

namespace Piece

variable {segment : Segment} {bytes line : List UInt8} {places : List Bookmark} {start : Nat}

theorem mono (piece : Piece segment bytes places) {more : List Bookmark}
    (subset : places ⊆ more) : Piece segment bytes more where
  holds := piece.holds
  ends := piece.ends.imp_right fun ⟨unbroken, place, left, ends⟩ =>
    ⟨unbroken, place, subset left, ends⟩

/-- A line feed can only be the last byte of a piece. -/
theorem of_lineFeed (piece : Piece segment bytes places) {position : Nat}
    (feeds : bytes[position]? = some lineFeed) (reached : segment.start ≤ position)
    (inside : position < segment.start + segment.bytes.length) :
    IsLine segment.bytes ∧ position + 1 = segment.start + segment.bytes.length := by
  rw [← getElem?_of_prefix_drop piece.holds reached inside] at feeds
  rcases piece.ends with isLine | ⟨unbroken, _⟩
  · have last := isLine.getElem?_eq_lineFeed_iff.mp feeds
    exact ⟨isLine, by omega⟩
  · exact absurd (List.mem_of_getElem? feeds) unbroken

/-- A piece that holds a byte of a line lies within the line. -/
theorem within_line (piece : Piece segment bytes places) (lineAt : LineAt bytes line start)
    {position : Nat} (reached : start ≤ position) (inside : position < start + line.length)
    (before : segment.start ≤ position)
    (covers : position < segment.start + segment.bytes.length) :
    start ≤ segment.start ∧ segment.start + segment.bytes.length ≤ start + line.length := by
  constructor
  · by_contra earlier
    rcases lineAt.begins with first | feeds
    · omega
    · have last := (piece.of_lineFeed feeds (by omega) (by omega)).2
      omega
  · by_contra later
    have feeds : bytes[start + line.length - 1]? = some lineFeed :=
      (lineAt.lineFeed_iff (by omega) (by omega)).mpr (by omega)
    have last := (piece.of_lineFeed feeds (by omega) (by omega)).2
    omega

end Piece

namespace Tailer

variable {pace : Pace} {view : View} {tailer : Tailer} {path : Path}

/-- Nothing is consumed of a path that is not at hand. -/
theorem path_ne_of_mem_segments {segment : Segment}
    (notAtHand : ∀ cursor, tailer.cursor = some cursor → cursor.path ≠ path)
    (member : segment ∈ (tailer.step pace view).segments) : segment.path ≠ path := by
  obtain ⟨cursor, following, current⟩ := exists_cursor_of_mem_segments member
  exact current ▸ notAtHand cursor following

/-- A path that is not at hand is not left. -/
theorem path_ne_of_placeLeft? {place : Bookmark}
    (notAtHand : ∀ cursor, tailer.cursor = some cursor → cursor.path ≠ path)
    (leaves : tailer.placeLeft? pace view = some place) : place.path ≠ path := by
  obtain ⟨cursor, following, current, _⟩ := exists_cursor_of_placeLeft? leaves
  exact current ▸ notAtHand cursor following

theorem mem_placesAfter {place : Bookmark} {places : List Bookmark} :
    place ∈ tailer.placesAfter pace view places ↔
      tailer.placeLeft? pace view = some place ∨ place ∈ places := by
  rw [placesAfter, List.mem_append, Option.mem_toList]

/-- No place is kept for a failed read as long as none fails. -/
theorem resume_step_eq_none (calm : tailer.resume = none)
    (reads : ∀ cursor, tailer.cursor = some cursor → (cursor.source view).failing = false) :
    (tailer.step pace view).tailer.resume = none := by
  have turn := turn_step pace view tailer
  generalize tailer.step pace view = outcome at turn ⊢
  generalize tailer.target? pace view = target at turn
  cases turn with
  | unanswered | nothing | refused | busy | idle | left => exact calm
  | opened => rfl
  | broken cursor lines rest following cut short fails =>
    cases (reads cursor following).symm.trans fails

end Tailer

namespace History

/-! ### What is consumed of a path -/

/-- Whether what was consumed of a path are pieces that cover its file between the baseline and an
offset, none of them in front of and behind a place where the path was left. -/
structure Pieced (history : History) (places : List Bookmark) (path : Path) (id : FileId)
    (offset : Nat) : Prop where
  piece : ∀ segment ∈ history.consumed, segment.path = path →
    Piece segment (history.disk.bytes id) places ∧
      segment.start + segment.bytes.length ≤ offset
  covers : ∀ position, history.baseline path ≤ position → position < offset →
    ∃ segment ∈ history.consumed, segment.path = path ∧
      segment.start ≤ position ∧ position < segment.start + segment.bytes.length
  apart : ∀ place ∈ places, place.path = path → place.offset ≤ offset ∧
    ∀ segment ∈ history.consumed, segment.path = path →
      segment.start + segment.bytes.length ≤ place.offset ∨ place.offset ≤ segment.start

variable {history : History} {places : List Bookmark} {path : Path} {id : FileId} {offset : Nat}
  {line : List UInt8}

/-- A line is consumed whole unless its path was left in the midst of it. -/
theorem Pieced.mem_consumed_iff {start : Nat} (pieced : history.Pieced places path id offset)
    (lineAt : LineAt (history.disk.bytes id) line start) (ahead : history.baseline path ≤ start)
    (read : start + line.length ≤ offset) :
    ⟨path, start, line⟩ ∈ history.consumed ↔
      ∀ place ∈ places, place.path = path →
        ¬(start < place.offset ∧ place.offset < start + line.length) := by
  have long := lineAt.isLine.length_pos
  constructor
  · rintro member place left samePath ⟨behind, before⟩
    have separate : start + line.length ≤ place.offset ∨ place.offset ≤ start :=
      (pieced.apart place left samePath).2 _ member rfl
    omega
  · intro unparted
    obtain ⟨segment, member, samePath, begun, covers⟩ :=
      pieced.covers start ahead (by omega)
    obtain ⟨piece, _⟩ := pieced.piece segment member samePath
    obtain ⟨notEarlier, notLater⟩ :=
      piece.within_line lineAt (Nat.le_refl start) (by omega) begun covers
    have sameStart : segment.start = start := Nat.le_antisymm begun notEarlier
    have whole : segment.start + segment.bytes.length = start + line.length := by
      by_contra shorter
      rcases piece.ends with isLine | ⟨_, place, left, leftPath, ends⟩
      · have last : segment.bytes[segment.bytes.length - 1]? = some lineFeed :=
          isLine.getElem?_eq_lineFeed_iff.mpr (Nat.sub_add_cancel isLine.length_pos)
        have feeds : segment.bytes[segment.start + (segment.bytes.length - 1) - segment.start]? =
            (history.disk.bytes id)[segment.start + (segment.bytes.length - 1)]? :=
          getElem?_of_prefix_drop piece.holds (by omega) (by omega)
        rw [Nat.add_sub_cancel_left, last] at feeds
        have atEnd := (lineAt.lineFeed_iff (by omega) (by omega)).mp feeds.symm
        omega
      · exact unparted place left (leftPath.trans samePath) ⟨by omega, by omega⟩
    have sameBytes : segment.bytes = line := by
      refine List.IsPrefix.eq_of_length ?_ (by omega)
      exact List.prefix_of_prefix_length_le piece.holds (sameStart ▸ lineAt.holds) (by omega)
    have same : segment = ⟨path, start, line⟩ := by
      rw [← samePath, ← sameStart, ← sameBytes]
    exact same ▸ member

/-- Every byte of a line is consumed in a segment that lies within the line. -/
theorem Pieced.exists_within_line {start : Nat} (pieced : history.Pieced places path id offset)
    (lineAt : LineAt (history.disk.bytes id) line start) (ahead : history.baseline path ≤ start)
    (read : start + line.length ≤ offset) {position : Nat} (reached : start ≤ position)
    (inside : position < start + line.length) :
    ∃ segment ∈ history.consumed, segment.path = path ∧
      segment.start ≤ position ∧ position < segment.start + segment.bytes.length ∧
      start ≤ segment.start ∧ segment.start + segment.bytes.length ≤ start + line.length := by
  obtain ⟨segment, member, samePath, begun, covers⟩ :=
    pieced.covers position (ahead.trans reached) (inside.trans_le read)
  obtain ⟨piece, _⟩ := pieced.piece segment member samePath
  exact ⟨segment, member, samePath, begun, covers,
    piece.within_line lineAt reached inside begun covers⟩

/-! ### Changes of the files -/

theorem Pieced.change {disk : Disk} (pieced : history.Pieced places path id offset)
    (longer : history.disk.bytes id <+: disk.bytes id) :
    (history.change disk).Pieced places path id offset where
  piece := fun segment member samePath => by
    obtain ⟨piece, stops⟩ := pieced.piece segment member samePath
    obtain ⟨more, whole⟩ := longer
    refine ⟨⟨?_, piece.ends⟩, stops⟩
    show segment.bytes <+: (disk.bytes id).drop segment.start
    rw [← whole, List.drop_append]
    exact piece.holds.trans (List.prefix_append _ _)
  covers := pieced.covers
  apart := pieced.apart

/-! ### Steps -/

/-- The lines that a step reads lie in the file, with what is held back behind them. -/
theorem Sound.lines_ahead (sound : history.Sound) {view : View} (shows : view.Shows history.disk)
    {cursor : Cursor} (following : history.tailer.cursor = some cursor) {limit : Nat}
    {lines : List (List UInt8)} {rest : List UInt8}
    (cut : Cut limit (cursor.pending (cursor.source view)) lines rest) :
    lines.flatten ++ rest <+: (history.disk.bytes cursor.id).drop cursor.offset :=
  cut.bytes_eq ▸ Cursor.pending_ahead shows.trueTo (sound.held cursor following)

/-- What a step consumes are pieces one behind the other, of which only the last one may be no
line, and this ends where the file at hand is left. -/
theorem Sound.pieces_step (sound : history.Sound) {view : View} (shows : view.Shows history.disk)
    (pace : Pace) {cursor : Cursor} (following : history.tailer.cursor = some cursor) :
    ∃ pieces, (history.tailer.step pace view).segments =
        segmentsFrom cursor.path cursor.offset pieces ∧
      pieces.flatten <+: (history.disk.bytes cursor.id).drop cursor.offset ∧
      ∀ segment ∈ (history.tailer.step pace view).segments,
        IsLine segment.bytes ∨ lineFeed ∉ segment.bytes ∧
          history.tailer.placeLeft? pace view =
            some ⟨cursor.path, cursor.id, segment.start + segment.bytes.length⟩ := by
  have turn := turn_step pace view history.tailer
  rw [Tailer.placeLeft?_of_following following]
  generalize history.tailer.step pace view = outcome at turn ⊢
  generalize history.tailer.target? pace view = target at turn ⊢
  cases turn with
  | unanswered fault locating => cases locating.symm.trans following
  | nothing locating => cases locating.symm.trans following
  | refused path locating => cases locating.symm.trans following
  | opened path opened locating => cases locating.symm.trans following
  | busy current lines rest current_eq cut | broken current lines rest current_eq cut
  | idle current lines rest current_eq cut =>
    obtain rfl := Option.some.inj (current_eq.symm.trans following)
    exact ⟨lines, rfl, (List.prefix_append _ _).trans (sound.lines_ahead shows following cut),
      fun segment member => .inl (cut.isLine _ (bytes_mem_of_mem_segmentsFrom member))⟩
  | left current lines rest path opened current_eq cut short =>
    obtain rfl := Option.some.inj (current_eq.symm.trans following)
    -- Only what is held back may be no line, and it ends where the file is left.
    have held : (current.advance lines rest).flush =
        segmentsFrom current.path (current.offset + lines.flatten.length)
          (if rest.isEmpty then [] else [rest]) := flush_eq_segmentsFrom _
    have flattened : (if rest.isEmpty then [] else [rest]).flatten = rest := by
      split
      · next empty => exact (List.isEmpty_iff.mp empty).symm
      · exact List.append_nil rest
    refine ⟨lines ++ if rest.isEmpty then [] else [rest], ?_, ?_, fun segment member => ?_⟩
    · rw [segmentsFrom_append, ← held]
      rfl
    · rw [List.flatten_append, flattened]
      exact sound.lines_ahead shows following cut
    · rcases List.mem_append.mp member with line | fragment
      · exact .inl (cut.isLine _ (bytes_mem_of_mem_segmentsFrom line))
      · refine .inr ?_
        unfold Cursor.flush at fragment
        split at fragment
        · cases fragment
        · next some =>
          obtain rfl := List.mem_singleton.mp fragment
          refine ⟨cut.complete short, ?_⟩
          rw [if_neg (fun stays => by cases stays.1), bytesOf_append, Cursor.bytesOf_lineSegments,
            Cursor.bytesOf_flush, List.length_append, ← Nat.add_assoc]
          rfl

/-- A path that was never followed is not at hand. -/
theorem Sound.notAtHand (sound : history.Sound) (new : path ∉ history.followed) :
    ∀ cursor, history.tailer.cursor = some cursor → cursor.path ≠ path := by
  rintro cursor following rfl
  exact new (sound.following following).1

/-- How far a path was read follows from what was consumed of it. -/
theorem Accounts.offset_eq (accounts : history.Accounts path id offset) :
    offset = history.baseline path + (history.consumedFrom path).length := by
  have before := accounts.baseline_le
  have inside := accounts.offset_le
  rw [accounts.consumed_eq, List.length_take, List.length_drop]
  omega

theorem consumedFrom_step (history : History) (pace : Pace) (view : View) (path : Path) :
    (history.step pace view).consumedFrom path = history.consumedFrom path ++
      bytesOf ((history.tailer.step pace view).segments.filter (·.path == path)) :=
  consumedFrom_proceed (history.tailer.step pace view).tailer _ path

theorem Sound.baseline_step (sound : history.Sound) (pace : Pace) (view : View)
    (followed : path ∈ history.followed) :
    (history.step pace view).baseline path = history.baseline path := by
  have notSkipping : history.tailer.skipsHistory = false := by
    by_contra skips
    rw [sound.notFollowing (by simpa using skips)] at followed
    cases followed
  rw [baseline, skipped_step_of_notSkipping notSkipping]
  rfl

theorem Pieced.step_elsewhere (pieced : history.Pieced places path id offset)
    (sound : history.Sound) (pace : Pace) (view : View) (followed : path ∈ history.followed)
    (notAtHand : ∀ cursor, history.tailer.cursor = some cursor → cursor.path ≠ path) :
    (history.step pace view).Pieced (history.tailer.placesAfter pace view places) path id
      offset where
  piece := fun segment member samePath => by
    rcases List.mem_append.mp member with before | now
    · obtain ⟨piece, stops⟩ := pieced.piece segment before samePath
      exact ⟨piece.mono (List.subset_append_right _ _), stops⟩
    · exact absurd samePath (Tailer.path_ne_of_mem_segments notAtHand now)
  covers := fun position reached inside => by
    rw [sound.baseline_step pace view followed] at reached
    obtain ⟨segment, member, covers⟩ := pieced.covers position reached inside
    exact ⟨segment, List.mem_append_left _ member, covers⟩
  apart := fun place left samePath => by
    rcases Tailer.mem_placesAfter.mp left with now | before
    · exact absurd samePath (Tailer.path_ne_of_placeLeft? notAtHand now)
    · obtain ⟨behind, separate⟩ := pieced.apart place before samePath
      refine ⟨behind, fun segment member segmentPath => ?_⟩
      rcases List.mem_append.mp member with before | now
      · exact separate segment before segmentPath
      · exact absurd segmentPath (Tailer.path_ne_of_mem_segments notAtHand now)

/-- What is consumed of the file at hand goes on where the pieces before ended. -/
theorem Pieced.step_atHand {cursor : Cursor}
    (pieced : history.Pieced places cursor.path cursor.id cursor.offset)
    (sound : history.Sound) {view : View} (shows : view.Shows history.disk) (pace : Pace)
    (following : history.tailer.cursor = some cursor) :
    (history.step pace view).Pieced (history.tailer.placesAfter pace view places) cursor.path
      cursor.id (cursor.offset + (bytesOf (history.tailer.step pace view).segments).length) := by
  obtain ⟨pieces, segments_eq, ahead, ends⟩ := sound.pieces_step shows pace following
  have further : (bytesOf (history.tailer.step pace view).segments).length =
      pieces.flatten.length := by
    rw [segments_eq, bytesOf_segmentsFrom]
  have between : ∀ segment ∈ (history.tailer.step pace view).segments,
      cursor.offset ≤ segment.start ∧
        segment.start + segment.bytes.length ≤ cursor.offset + pieces.flatten.length :=
    fun segment member => between_of_mem_segmentsFrom (segments_eq ▸ member)
  rw [further]
  refine ⟨fun segment member samePath => ?_, fun position reached inside => ?_,
    fun place left samePath => ?_⟩
  · rcases List.mem_append.mp member with before | now
    · obtain ⟨piece, stops⟩ := pieced.piece segment before samePath
      exact ⟨piece.mono (List.subset_append_right _ _), stops.trans (Nat.le_add_right _ _)⟩
    · refine ⟨⟨bytes_of_mem_segmentsFrom ahead (segments_eq ▸ now), ?_⟩,
        (between segment now).2⟩
      rcases ends segment now with isLine | ⟨unbroken, leaves⟩
      · exact .inl isLine
      · exact .inr ⟨unbroken, _, Tailer.mem_placesAfter.mpr (.inl leaves), samePath.symm, rfl⟩
  · rw [sound.baseline_step pace view (sound.following following).1] at reached
    rcases Nat.lt_or_ge position cursor.offset with before | now
    · obtain ⟨segment, member, covers⟩ := pieced.covers position reached before
      exact ⟨segment, List.mem_append_left _ member, covers⟩
    · obtain ⟨segment, member, covers⟩ :
          ∃ segment ∈ segmentsFrom cursor.path cursor.offset pieces,
            segment.start ≤ position ∧ position < segment.start + segment.bytes.length :=
        exists_mem_segmentsFrom now inside
      exact ⟨segment, List.mem_append_right _ (segments_eq ▸ member),
        path_of_mem_segmentsFrom member, covers⟩
  · rcases Tailer.mem_placesAfter.mp left with now | before
    · -- The file is left behind all that was consumed of it.
      obtain ⟨current, current_eq, _, _, atEnd⟩ := Tailer.exists_cursor_of_placeLeft? now
      obtain rfl := Option.some.inj (current_eq.symm.trans following)
      rw [further] at atEnd
      refine ⟨atEnd.le, fun segment member segmentPath => .inl ?_⟩
      rcases List.mem_append.mp member with before | now
      · have stops := (pieced.piece segment before segmentPath).2
        omega
      · have stops := (between segment now).2
        omega
    · obtain ⟨behind, separate⟩ := pieced.apart place before samePath
      refine ⟨behind.trans (Nat.le_add_right _ _), fun segment member segmentPath => ?_⟩
      rcases List.mem_append.mp member with before | now
      · exact separate segment before segmentPath
      · exact .inr (behind.trans (between segment now).1)

/-- Whether what was consumed of each path that was followed are pieces up to where the tailer would
go on with it. -/
structure Whole (history : History) (places : List Bookmark) : Prop where
  consumedFollowed : ∀ segment ∈ history.consumed, segment.path ∈ history.followed
  leftFollowed : ∀ place ∈ places, place.path ∈ history.followed
  pieced : ∀ path place, history.tailer.bookmark? path = some place →
    history.Pieced places path place.id place.offset

theorem whole_start (disk : Disk) : (start disk).Whole [] where
  consumedFollowed := fun _ member => by cases member
  leftFollowed := fun _ left => by cases left
  pieced := fun _ _ found => by cases found

theorem Whole.change {disk : Disk} (whole : history.Whole places) (sound : history.Sound)
    (grows : history.disk.Grows disk) : (history.change disk).Whole places where
  consumedFollowed := whole.consumedFollowed
  leftFollowed := whole.leftFollowed
  pieced := fun path place found =>
    (whole.pieced path place found).change
      (grows.longer path place.id (sound.known path place found).2.leads)

/-- Of a path that was not followed before nothing was consumed yet. -/
theorem Whole.pieced_of_new (whole : history.Whole places) (sound : history.Sound) (pace : Pace)
    (view : View) (new : path ∉ history.followed)
    (accounts : (history.step pace view).Accounts path id offset) :
    (history.step pace view).Pieced (history.tailer.placesAfter pace view places) path id
      offset := by
  have notAtHand := sound.notAtHand new
  have unconsumed : ∀ segment ∈ (history.step pace view).consumed, segment.path ≠ path := by
    intro segment member
    rcases List.mem_append.mp member with before | now
    · exact ne_of_mem_of_not_mem (whole.consumedFollowed segment before) new
    · exact Tailer.path_ne_of_mem_segments notAtHand now
  have nothing : (history.step pace view).consumedFrom path = [] := by
    rw [consumedFrom, List.filter_eq_nil_iff.mpr fun segment member => by
      simpa using unconsumed segment member]
    rfl
  refine ⟨fun segment member samePath => absurd samePath (unconsumed segment member),
    fun position reached inside => ?_, fun place left samePath => ?_⟩
  · have begins := accounts.offset_eq
    rw [nothing, List.length_nil, Nat.add_zero] at begins
    exact absurd (begins ▸ inside) (Nat.not_lt.mpr reached)
  · rcases Tailer.mem_placesAfter.mp left with now | before
    · exact absurd samePath (Tailer.path_ne_of_placeLeft? notAtHand now)
    · exact absurd samePath (ne_of_mem_of_not_mem (whole.leftFollowed place before) new)

theorem Whole.step (whole : history.Whole places) (sound : history.Sound) {view : View}
    (shows : view.Shows history.disk) {pace : Pace} (after : (history.step pace view).Sound) :
    (history.step pace view).Whole (history.tailer.placesAfter pace view places) where
  consumedFollowed := fun segment member => by
    rcases List.mem_append.mp member with before | now
    · exact subset_followed_step (whole.consumedFollowed segment before)
    · obtain ⟨cursor, following, current⟩ := Tailer.exists_cursor_of_mem_segments now
      exact subset_followed_step (current ▸ (sound.following following).1)
  leftFollowed := fun place left => by
    rcases Tailer.mem_placesAfter.mp left with now | before
    · obtain ⟨cursor, following, current, _⟩ := Tailer.exists_cursor_of_placeLeft? now
      exact subset_followed_step (current ▸ (sound.following following).1)
    · exact subset_followed_step (whole.leftFollowed place before)
  pieced := fun path place found => by
    have accounts := (after.known path place found).2
    cases before : history.tailer.bookmark? path with
    | none => exact whole.pieced_of_new sound pace view (sound.unknown path before).1 accounts
    | some last =>
      obtain ⟨followed, accountsBefore⟩ := sound.known path last before
      have pieced := whole.pieced path last before
      have sameId : last.id = place.id :=
        Option.some.inj (accountsBefore.leads.symm.trans accounts.leads)
      -- The place moves by what is consumed of the path, which is all or nothing.
      have moves : place.offset = last.offset +
          (bytesOf ((history.tailer.step pace view).segments.filter (·.path == path))).length := by
        rw [accounts.offset_eq, consumedFrom_step, sound.baseline_step pace view followed,
          List.length_append, ← Nat.add_assoc, ← accountsBefore.offset_eq]
      by_cases atHand : ∃ cursor, history.tailer.cursor = some cursor ∧ cursor.path = path
      · obtain ⟨cursor, following, rfl⟩ := atHand
        rw [bookmark?_of_following cursor following, if_pos rfl] at before
        obtain rfl := Option.some.inj before
        have all : (history.tailer.step pace view).segments.filter (·.path == cursor.path) =
            (history.tailer.step pace view).segments := by
          refine List.filter_eq_self.mpr fun segment member => ?_
          obtain ⟨current, current_eq, samePath⟩ := Tailer.exists_cursor_of_mem_segments member
          obtain rfl := Option.some.inj (current_eq.symm.trans following)
          simpa using samePath
        rw [← sameId, moves, all]
        exact pieced.step_atHand sound shows pace following
      · have notAtHand : ∀ cursor, history.tailer.cursor = some cursor → cursor.path ≠ path :=
          fun cursor following samePath => atHand ⟨cursor, following, samePath⟩
        have none : (history.tailer.step pace view).segments.filter (·.path == path) = [] := by
          refine List.filter_eq_nil_iff.mpr fun segment member => ?_
          simpa using Tailer.path_ne_of_mem_segments notAtHand member
        rw [← sameId, moves, none]
        exact pieced.step_elsewhere sound pace view followed notAtHand

/-! ### Without errors -/

/-- The histories in which files only come into being and grow and nothing fails, with the places at
which files were left. -/
inductive Errorless : History → List Bookmark → Prop
  | start (disk : Disk) : Errorless (start disk) []
  | change {history : History} {places : List Bookmark} (disk : Disk)
      (errorless : Errorless history places) (grows : history.disk.Grows disk) :
      Errorless (history.change disk) places
  | step {history : History} {places : List Bookmark} (pace : Pace) (view : View)
      (errorless : Errorless history places) (shows : view.Shows history.disk)
      (answers : ∀ fault, view.newest ≠ .error fault)
      (reads : ∀ cursor, history.tailer.cursor = some cursor →
        (cursor.source view).failing = false)
      (opens : ∀ path, history.tailer.target? pace view = some path →
        ∃ id, history.disk.fileAt path = some id) :
      Errorless (history.step pace view) (history.tailer.placesAfter pace view places)

theorem Errorless.calm (errorless : history.Errorless places) : history.tailer.resume = none := by
  induction errorless with
  | start => rfl
  | change disk _ _ inductionHypothesis => exact inductionHypothesis
  | step pace view _ _ _ reads _ inductionHypothesis =>
    exact Tailer.resume_step_eq_none inductionHypothesis reads

theorem Errorless.undisturbed (errorless : history.Errorless places) : history.Undisturbed := by
  induction errorless with
  | start disk => exact .start disk
  | change disk _ grows inductionHypothesis => exact .change disk inductionHypothesis grows
  | step pace view errorless shows _ _ opens inductionHypothesis =>
    refine .step pace view inductionHypothesis shows opens fun bookmark path _ failed => ?_
    cases errorless.calm.symm.trans failed

theorem Errorless.whole (errorless : history.Errorless places)
    (few : history.followed.length ≤ Memory.capacity + 1) : history.Whole places := by
  induction errorless with
  | start disk => exact whole_start disk
  | change disk errorless grows inductionHypothesis =>
    exact (inductionHypothesis few).change (errorless.undisturbed.sound few) grows
  | @step history places pace view errorless shows answers reads opens inductionHypothesis =>
    have fewBefore := (length_followed_le history pace view).trans few
    have after := (Errorless.step pace view errorless shows answers reads opens).undisturbed
    exact (inductionHypothesis fewBefore).step (errorless.undisturbed.sound fewBefore) shows
      (after.sound few)

/-- What was delivered. -/
def delivered (history : History) : List String :=
  history.consumed.filterMap Segment.delivered?

/-- The text of a line that was consumed whole was delivered, unless it is blank. -/
theorem lineText_mem_delivered {start : Nat} (isLine : IsLine line)
    (member : ⟨path, start, line⟩ ∈ history.consumed)
    (some : Text.isAllBlank (lineText line.dropLast) = false) :
    lineText line.dropLast ∈ history.delivered := by
  have text : Segment.text ⟨path, start, line⟩ = lineText line.dropLast := text_of_isLine isLine
  refine List.mem_filterMap.mpr ⟨_, member, ?_⟩
  rw [Segment.delivered?, text, some]
  rfl

/-- A line of a path that was followed is consumed whole, and delivered unless it is blank, exactly
if the path was not left in the midst of it. Otherwise it is consumed in parts. -/
theorem consumes_whole_line_iff (history : History) (places : List Bookmark)
    (errorless : history.Errorless places) (few : history.followed.length ≤ 17) :
    ∀ path ∈ history.followed, ∃ place, history.tailer.bookmark? path = some place ∧
      history.disk.fileAt path = some place.id ∧
      ∀ line start, LineAt (history.disk.bytes place.id) line start →
        history.baseline path ≤ start → start + line.length ≤ place.offset →
        (⟨path, start, line⟩ ∈ history.consumed ↔
          ∀ left ∈ places, left.path = path →
            ¬(start < left.offset ∧ left.offset < start + line.length)) ∧
        ((∀ left ∈ places, left.path = path →
            ¬(start < left.offset ∧ left.offset < start + line.length)) →
          Text.isAllBlank (lineText line.dropLast) = false →
          lineText line.dropLast ∈ history.delivered) ∧
        ∀ position, start ≤ position → position < start + line.length →
          ∃ segment ∈ history.consumed, segment.path = path ∧
            segment.start ≤ position ∧ position < segment.start + segment.bytes.length ∧
            start ≤ segment.start ∧
            segment.start + segment.bytes.length ≤ start + line.length := by
  intro path followed
  have sound := errorless.undisturbed.sound few
  cases found : history.tailer.bookmark? path with
  | none => exact absurd followed (sound.unknown path found).1
  | some place =>
    have pieced := (errorless.whole few).pieced path place found
    refine ⟨place, rfl, (sound.known path place found).2.leads,
      fun line start lineAt ahead read => ?_⟩
    have whole := pieced.mem_consumed_iff lineAt ahead read
    exact ⟨whole, fun unparted => lineText_mem_delivered lineAt.isLine (whole.mpr unparted),
      fun position => pieced.exists_within_line lineAt ahead read⟩

theorem Errorless.look (errorless : history.Errorless places) {tree : FileTree}
    (sound : tree.Sound) (sees : history.disk = tree.disk)
    (answers : (tree.newest .top).toOption.isSome = true)
    (reads : (history.tailer.cursor.all fun cursor =>
      !(cursor.source (.ofTree tree (.directory .top) false)).failing) = true)
    (opens : ((history.tailer.target? (.ofLimit 1000 100 1)
      (.ofTree tree (.directory .top) false)).all
        fun path => (tree.disk.fileAt path).isSome) = true) :
    (history.look tree).Errorless (history.tailer.placesAfter (.ofLimit 1000 100 1)
      (.ofTree tree (.directory .top) false) places) := by
  refine .step _ _ errorless (sees ▸ shows_ofTree sound _ _) (fun fault failed => ?_)
    (fun cursor following => ?_) fun path target => ?_
  · have answer : tree.newest .top = .error fault := failed
    rw [answer] at answers
    cases answers
  · rw [following] at reads
    simpa using reads
  · rw [target] at opens
    rw [sees]
    exact Option.isSome_iff_exists.mp opens

theorem errorless_inTurn :
    inTurn.Errorless [⟨⟨["second"]⟩, 2, 2⟩, ⟨⟨["first"]⟩, 1, 5⟩] := by
  obtain ⟨grows, growsAgain⟩ := grows_trees
  have opened := (Errorless.start firstTree.disk).look sound_firstTree rfl rfl rfl (by decide)
  have read := (opened.change _ grows).look sound_secondTree rfl rfl (by decide) (by decide)
  have left := read.look sound_secondTree rfl rfl (by decide) (by decide)
  have back := (left.change _ growsAgain).look sound_thirdTree rfl rfl (by decide) (by decide)
  have resumed := back.look sound_thirdTree rfl rfl (by decide) (by decide)
  exact resumed.look sound_thirdTree rfl rfl (by decide) (by decide)

theorem lineAt_whole : LineAt (inTurn.disk.bytes 1) [109, 10] 2 where
  isLine := ⟨[109], by decide, rfl⟩
  holds := by decide
  begins := .inr (by decide)

theorem lineAt_torn : LineAt (inTurn.disk.bytes 1) [110, 112, 10] 4 where
  isLine := ⟨[110, 112], by decide, rfl⟩
  holds := by decide
  begins := .inr (by decide)

/-- One line of the first file is consumed whole. In the midst of the next one this file was left
for the second one, so it is consumed in two parts. -/
theorem consumes_inTurn :
    inTurn.Errorless [⟨⟨["second"]⟩, 2, 2⟩, ⟨⟨["first"]⟩, 1, 5⟩] ∧ inTurn.followed.length ≤ 17 ∧
      ⟨⟨["first"]⟩, 2, [109, 10]⟩ ∈ inTurn.consumed ∧ "m" ∈ inTurn.delivered ∧
      ⟨⟨["first"]⟩, 4, [110, 112, 10]⟩ ∉ inTurn.consumed := by
  obtain ⟨place, found, _, whole⟩ := consumes_whole_line_iff inTurn _ errorless_inTurn (by decide)
    ⟨["first"]⟩ (by decide)
  obtain rfl := Option.some.inj (show some ⟨⟨["first"]⟩, 1, 7⟩ = some place from found)
  obtain ⟨consumed, delivered, _⟩ := whole _ _ lineAt_whole (by decide) (by decide)
  obtain ⟨consumedTorn, _, _⟩ := whole _ _ lineAt_torn (by decide) (by decide)
  have unparted : ∀ left ∈ [⟨⟨["second"]⟩, 2, 2⟩, (⟨⟨["first"]⟩, 1, 5⟩ : Bookmark)],
      left.path = ⟨["first"]⟩ → ¬(2 < left.offset ∧ left.offset < 2 + [109, 10].length) := by
    decide
  refine ⟨errorless_inTurn, by decide, consumed.mpr unparted,
    delivered unparted (by decide +kernel), fun member => ?_⟩
  exact consumedTorn.mp member ⟨⟨["first"]⟩, 1, 5⟩ (by decide) rfl (by decide)

/-- A line of which a part was read before its file was left is not delivered. -/
theorem delivering_every_line_whole_fails :
    ¬∀ (history : History) (places : List Bookmark), history.Errorless places →
      history.followed.length ≤ 17 → ∀ path place, history.tailer.bookmark? path = some place →
      ∀ line start, LineAt (history.disk.bytes place.id) line start →
        history.baseline path ≤ start → start + line.length ≤ place.offset →
        Text.isAllBlank (lineText line.dropLast) = false →
        lineText line.dropLast ∈ history.delivered := by
  intro delivers
  have member := delivers inTurn _ errorless_inTurn (by decide) ⟨["first"]⟩
    ⟨⟨["first"]⟩, 1, 7⟩ rfl _ _ lineAt_torn (by decide) (by decide) (by decide +kernel)
  exact absurd member (by decide +kernel)

end History

end NodeTelemetry.Tail
