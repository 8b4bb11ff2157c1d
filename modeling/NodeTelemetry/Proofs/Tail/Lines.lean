/-
This file says what cutting bytes into lines amounts to. A line has its only line feed at its end.
What is cut off the front of some bytes are such lines, the rest is what lies behind them, and
unless the limit was reached there is no line left in the rest. Bytes fall into lines in one way
only, so lines that were cut off one by one are those that a single split at the line feeds gives.

`Cut` says all of this in one structure, and it is proved once for the recursion that cuts lines
off. The proofs about tailers use it and never open that recursion. Segments are lines with the
places at which they stand; they lie one behind the other, so each begins where the one before ends,
and all of them lie between the first place and the last.
-/

import Mathlib.Algebra.Order.BigOperators.Group.List
import Mathlib.Data.List.TakeDrop
import Mathlib.Data.List.TakeWhile
import Mathlib.Tactic.Conv
import NodeTelemetry.Tail.Line

namespace NodeTelemetry.Tail

/-- Bytes with one line feed, at their end. -/
def IsLine (bytes : List UInt8) : Prop :=
  ∃ body, lineFeed ∉ body ∧ bytes = body ++ [lineFeed]

theorem IsLine.length_pos {bytes : List UInt8} (line : IsLine bytes) : 0 < bytes.length := by
  obtain ⟨body, _, rfl⟩ := line
  simp

theorem IsLine.getLast? {bytes : List UInt8} (line : IsLine bytes) :
    bytes.getLast? = some lineFeed := by
  obtain ⟨body, _, rfl⟩ := line
  simp

theorem IsLine.dropLast_append {bytes : List UInt8} (line : IsLine bytes) :
    bytes.dropLast ++ [lineFeed] = bytes := by
  obtain ⟨body, _, rfl⟩ := line
  simp

theorem IsLine.notMem_dropLast {bytes : List UInt8} (line : IsLine bytes) :
    lineFeed ∉ bytes.dropLast := by
  obtain ⟨body, unbroken, rfl⟩ := line
  simpa using unbroken

/-! ### One line -/

theorem splitLine?_eq_none {bytes : List UInt8} (split : splitLine? bytes = none) :
    lineFeed ∉ bytes := by
  rw [splitLine?, List.span_eq_takeWhile_dropWhile] at split
  split at split
  · next nothing =>
    simp only [Prod.mk.injEq, List.dropWhile_eq_nil_iff, bne_iff_ne, ne_eq] at nothing
    exact fun member => nothing.2 lineFeed member rfl
  · cases split

theorem splitLine?_eq_some {bytes line rest : List UInt8}
    (split : splitLine? bytes = some (line, rest)) : IsLine line ∧ bytes = line ++ rest := by
  rw [splitLine?, List.span_eq_takeWhile_dropWhile] at split
  split at split
  · cases split
  · next before feed behind found =>
    simp only [Prod.mk.injEq] at found
    simp only [Option.some.injEq, Prod.mk.injEq] at split
    have isFeed : feed = lineFeed := by
      have stopped := List.head?_dropWhile_not (· != lineFeed) bytes
      rw [found.2] at stopped
      simpa using stopped
    have unbroken : lineFeed ∉ before := by
      rw [← found.1]
      intro member
      simpa using List.mem_takeWhile_imp member
    subst isFeed
    refine ⟨⟨before, unbroken, split.1.symm⟩, ?_⟩
    calc bytes = bytes.takeWhile (· != lineFeed) ++ bytes.dropWhile (· != lineFeed) :=
          List.takeWhile_append_dropWhile.symm
      _ = line ++ rest := by rw [found.1, found.2, ← split.1, ← split.2]; simp

/-! ### Several lines -/

/-- Lines that lie at the front of some bytes, and what lies behind them. -/
structure Cut (limit : Nat) (bytes : List UInt8) (lines : List (List UInt8)) (rest : List UInt8) :
    Prop where
  bytes_eq : bytes = lines.flatten ++ rest
  isLine : ∀ line ∈ lines, IsLine line
  length_le : lines.length ≤ limit
  /-- Only the limit can be why lines are left. -/
  complete : lines.length < limit → lineFeed ∉ rest

theorem cut_takeLines (limit : Nat) (bytes : List UInt8) :
    Cut limit bytes (takeLines limit bytes).1 (takeLines limit bytes).2 := by
  induction limit generalizing bytes with
  | zero =>
    refine ⟨rfl, ?_, Nat.le_refl 0, fun less => absurd less (Nat.lt_irrefl 0)⟩
    exact fun line member => by cases member
  | succ limit inductionHypothesis =>
    unfold takeLines
    split
    · next nothing => exact ⟨rfl, by simp, Nat.zero_le _, fun _ => splitLine?_eq_none nothing⟩
    · next line behind found =>
      obtain ⟨isLine, whole⟩ := splitLine?_eq_some found
      have further := inductionHypothesis behind
      refine ⟨?_, ?_, Nat.succ_le_succ further.length_le, fun less =>
        further.complete (Nat.lt_of_succ_lt_succ less)⟩
      · rw [List.flatten_cons, List.append_assoc, ← further.bytes_eq, whole]
      · exact List.forall_mem_cons.mpr ⟨isLine, further.isLine⟩

namespace Cut

variable {limit : Nat} {bytes rest : List UInt8} {lines : List (List UInt8)}

/-- Where lines were cut off, something was cut off. -/
theorem length_pos (cut : Cut limit bytes lines rest) (some : 0 < lines.length) :
    0 < lines.flatten.length := by
  obtain ⟨line, others, rfl⟩ := List.exists_cons_of_length_pos some
  have first := (cut.isLine line List.mem_cons_self).length_pos
  rw [List.flatten_cons, List.length_append]
  omega

/-- There are no more lines than bytes. -/
theorem count_le (cut : Cut limit bytes lines rest) : lines.length ≤ bytes.length := by
  have each : ∀ length ∈ lines.map List.length, 1 ≤ length := by
    intro length member
    obtain ⟨line, isMember, rfl⟩ := List.mem_map.mp member
    exact (cut.isLine line isMember).length_pos
  have total := List.length_le_sum_of_one_le _ each
  rw [List.length_map, ← List.length_flatten] at total
  rw [cut.bytes_eq, List.length_append]
  omega

/-- From bytes without a line feed no line is cut off. -/
theorem eq_nil (cut : Cut limit bytes lines rest) (unbroken : lineFeed ∉ bytes) :
    lines = [] ∧ rest = bytes := by
  cases lines with
  | nil => exact ⟨rfl, cut.bytes_eq.symm⟩
  | cons line others =>
    obtain ⟨body, _, ends⟩ := cut.isLine line List.mem_cons_self
    refine absurd ?_ unbroken
    rw [cut.bytes_eq, List.flatten_cons, ends]
    simp

end Cut

/-- Bytes are some lines with an unfinished line behind them. -/
theorem exists_lines (bytes : List UInt8) :
    ∃ (lines : List (List UInt8)) (rest : List UInt8), bytes = lines.flatten ++ rest ∧
      (∀ line ∈ lines, IsLine line) ∧ lineFeed ∉ rest := by
  have cut := cut_takeLines (bytes.length + 1) bytes
  exact ⟨_, _, cut.bytes_eq, cut.isLine, cut.complete (Nat.lt_succ_of_le cut.count_le)⟩

/-! ### Splitting at once -/

/-- Lines and an unfinished line behind them are found again by splitting at the line feeds. -/
theorem splitOn_lines {lines : List (List UInt8)} {rest : List UInt8}
    (whole : ∀ line ∈ lines, IsLine line) (unbroken : lineFeed ∉ rest) :
    (lines.flatten ++ rest).splitOn lineFeed = lines.map List.dropLast ++ [rest] := by
  induction lines with
  | nil => exact List.splitOn_eq_singleton unbroken
  | cons line others inductionHypothesis =>
    obtain ⟨isLine, wholeOthers⟩ := List.forall_mem_cons.mp whole
    have opened : (line :: others).flatten ++ rest =
        line.dropLast ++ lineFeed :: (others.flatten ++ rest) := by
      rw [List.flatten_cons]
      conv_lhs => rw [← isLine.dropLast_append]
      simp
    rw [opened, List.splitOn_append_cons_self_of_not_mem isLine.notMem_dropLast,
      inductionHypothesis wholeOthers]
    rfl

/-! ### Segments -/

/-- The bytes of segments one behind the other. -/
def bytesOf (segments : List Segment) : List UInt8 :=
  segments.flatMap Segment.bytes

theorem bytesOf_append (first second : List Segment) :
    bytesOf (first ++ second) = bytesOf first ++ bytesOf second := by
  simp [bytesOf]

theorem map_bytes_segmentsFrom (path : Path) (start : Nat) (lines : List (List UInt8)) :
    (segmentsFrom path start lines).map Segment.bytes = lines := by
  induction lines generalizing start with
  | nil => rfl
  | cons line others inductionHypothesis => simp [segmentsFrom, inductionHypothesis]

theorem bytesOf_segmentsFrom (path : Path) (start : Nat) (lines : List (List UInt8)) :
    bytesOf (segmentsFrom path start lines) = lines.flatten := by
  rw [bytesOf, List.flatMap_def, map_bytes_segmentsFrom]

theorem length_segmentsFrom (path : Path) (start : Nat) (lines : List (List UInt8)) :
    (segmentsFrom path start lines).length = lines.length := by
  rw [← List.length_map (f := Segment.bytes), map_bytes_segmentsFrom]

theorem path_of_mem_segmentsFrom {path : Path} {start : Nat} {lines : List (List UInt8)}
    {segment : Segment} (member : segment ∈ segmentsFrom path start lines) :
    segment.path = path := by
  induction lines generalizing start with
  | nil => cases member
  | cons line others inductionHypothesis =>
    rcases List.mem_cons.mp member with rfl | later
    · rfl
    · exact inductionHypothesis later

/-- Segments that lie one behind the other lie between where they begin and where they end. -/
theorem between_of_mem_segmentsFrom {path : Path} {start : Nat} {lines : List (List UInt8)}
    {segment : Segment} (member : segment ∈ segmentsFrom path start lines) :
    start ≤ segment.start ∧
      segment.start + segment.bytes.length ≤ start + lines.flatten.length := by
  induction lines generalizing start with
  | nil => cases member
  | cons line others inductionHypothesis =>
    rw [List.flatten_cons, List.length_append]
    rcases List.mem_cons.mp member with rfl | later
    · exact ⟨Nat.le_refl _, by simp only; omega⟩
    · have further := inductionHypothesis later
      omega

/-- Each of the segments holds what stands at its place. -/
theorem bytes_of_mem_segmentsFrom {path : Path} {start : Nat} {lines : List (List UInt8)}
    {segment : Segment} {bytes : List UInt8} (ahead : lines.flatten <+: bytes.drop start)
    (member : segment ∈ segmentsFrom path start lines) :
    segment.bytes <+: bytes.drop segment.start := by
  induction lines generalizing start with
  | nil => cases member
  | cons line others inductionHypothesis =>
    rw [List.flatten_cons] at ahead
    rcases List.mem_cons.mp member with rfl | later
    · exact (List.prefix_append _ _).trans ahead
    · refine inductionHypothesis ?_ later
      obtain ⟨rest, whole⟩ := ahead
      rw [← List.drop_drop, ← whole, List.append_assoc, List.drop_left]
      exact List.prefix_append _ _

/-- The text of a line is what stands before the line feed, without a carriage return at its end. -/
theorem text_of_isLine {segment : Segment} (isLine : IsLine segment.bytes) :
    segment.text =
      Text.Utf8.decodeLossy (dropEnd carriageReturn segment.bytes.dropLast) := by
  rw [Segment.text, dropEnd.eq_def lineFeed, if_pos isLine.getLast?]

end NodeTelemetry.Tail
