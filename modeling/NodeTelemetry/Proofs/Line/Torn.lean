/-
This file shows that a line that is torn off before its last bracket is never taken for a line. It
does not matter where it is torn off, be it inside a number, a name or a single character: what is
there is no value of JSON, so nothing is observed, nothing is recorded, and the fragment that is
consumed when a file is left in the midst of a line changes nothing.

Every line that is accepted is a list or an object. Its family has a reader that goes up to the
closing bracket of what it opened and never stops before it, which was shown for all such readers at
once. What is left is to say which reader that is, and that an accepted line begins with a bracket:
a block or a command is read as a record, and a record of the consensus would not be reported if it
were no list.

A file holds bytes, and a fragment may end inside a character. Decoding a part of the bytes gives a
part of the text, and at most one replacement character behind it, which is no bracket. What was
torn off holds the last bracket, so the text of the fragment ends before it.
-/

import NodeTelemetry.Proofs.Json.Brackets
import NodeTelemetry.Proofs.Line.Meaning
import NodeTelemetry.Proofs.Registry.Acceptance
import NodeTelemetry.Proofs.Registry.Interleaving
import NodeTelemetry.Proofs.Text.Decoding
import NodeTelemetry.Tail.Tailer

namespace NodeTelemetry

open Json Tail

variable {family : Family} {table : ValidatorTable} {line : String}
  {observations : List Observation}

/-! ### How the families read their lines -/

theorem Line.BlockTime.fields_lookAhead :
    ∀ field ∈ Line.BlockTime.fields, field.reader.LooksAhead := by
  intro field member
  simp only [Line.BlockTime.fields, List.mem_cons, List.not_mem_nil, or_false] at member
  rcases member with rfl | rfl | rfl
  · exact (numberReader_looksAhead.refine _).orNull.map _
  · exact textReader_looksAhead.orNull.map _
  · exact (numberReader_looksAhead.map _).orNull.map _

theorem Line.Proposal.blockFields_lookAhead :
    ∀ field ∈ Line.Proposal.blockFields, field.reader.LooksAhead := by
  intro field member
  obtain rfl := List.mem_singleton.mp member
  exact textReader_looksAhead.orNull.map _

theorem Line.Proposal.commandFields_lookAhead :
    ∀ field ∈ Line.Proposal.commandFields, field.reader.LooksAhead := by
  intro field member
  obtain rfl := List.mem_singleton.mp member
  exact (recordReader_looksAhead Line.Proposal.blockFields_lookAhead).orNull.map _

theorem Line.readJson_of_error {Value : Type} {reader : Reader Value} {fault : Json.Fault}
    (failed : reader.readAll (Input.ofText line) = .error fault) :
    Line.readJson reader line = .error (.json fault) := by
  rw [Line.readJson, failed]

theorem Line.readAll_of_readJson {Value : Type} {reader : Reader Value} {value : Value}
    (read : Line.readJson reader line = .ok value) :
    reader.readAll (Input.ofText line) = .ok value := by
  unfold Line.readJson at read
  split at read
  next => cases read
  next filled =>
    obtain rfl := Except.ok.inj read
    exact filled

theorem Line.Consensus.exists_list_of_report {record : Json.Value} {statuses : List Status}
    (reported : report record = .ok statuses) : ∃ items, record = .list items := by
  obtain ⟨state, found, _⟩ := bind_eq_ok.mp reported
  obtain ⟨items, _, _, isList, _⟩ := stateOf_eq_ok.mp found
  exact ⟨items, isList⟩

/-- Whether a family reads its lines with a reader that goes up to a closing bracket, and rejects
what this reader does not read. -/
structure Family.Reads {Value : Type} (family : Family) (reader : Reader Value) : Prop where
  brackets : reader.Brackets
  fills : ∀ {table : ValidatorTable} {line : String} {observations : List Observation},
    family.observe table line = .ok observations →
      Opens (Input.ofText line) ∧ ∃ value, reader.readAll (Input.ofText line) = .ok value
  rejects : ∀ {table : ValidatorTable} {line : String} {fault : Json.Fault},
    reader.readAll (Input.ofText line) = .error fault →
      family.observe table line = .error (.json fault)

theorem Family.reads_proposals : Family.proposals.Reads Line.Proposal.proposerReader where
  brackets := recordReader_brackets none Line.Proposal.commandFields_lookAhead
  fills accepted := by
    simp only [Family.observe, Line.Proposal.observe] at accepted
    split at accepted
    next => cases accepted
    next proposer read =>
      have filled := Line.readAll_of_readJson read
      obtain ⟨gap, opening, _⟩ := Reader.readAll_eq_ok filled
      exact ⟨opens_of_record opening, proposer, filled⟩
  rejects failed := by
    simp only [Family.observe, Line.Proposal.observe, Line.readJson_of_error failed]

theorem Family.reads_blocks : Family.blocks.Reads Line.BlockTime.reader where
  brackets := recordReader_brackets _ Line.BlockTime.fields_lookAhead
  fills accepted := by
    simp only [Family.observe, Line.BlockTime.observe] at accepted
    split at accepted
    next => cases accepted
    next record read =>
      have filled := Line.readAll_of_readJson read
      obtain ⟨gap, opening, _⟩ := Reader.readAll_eq_ok filled
      exact ⟨opens_of_record opening, record, filled⟩
  rejects failed := by
    simp only [Family.observe, Line.BlockTime.observe, Line.readJson_of_error failed]

/-- What is reported of the consensus was read as a list. -/
theorem Family.reads_consensus : Family.consensus.Reads (Json.valueReader Json.nestingLimit) where
  brackets := valueReader_brackets _
  fills accepted := by
    simp only [Family.observe, Line.Consensus.observe] at accepted
    split at accepted
    next => cases accepted
    next record read =>
      split at accepted
      next => cases accepted
      next statuses reported =>
        obtain ⟨items, rfl⟩ := Line.Consensus.exists_list_of_report reported
        have filled := Line.readAll_of_readJson read
        obtain ⟨gap, opening, _⟩ := Reader.readAll_eq_ok filled
        exact ⟨opens_of_list opening, _, filled⟩
  rejects failed := by
    simp only [Family.observe, Line.Consensus.observe, Line.readJson_of_error failed]

theorem Family.exists_reads (family : Family) :
    ∃ (Value : Type) (reader : Reader Value), family.Reads reader := by
  cases family with
  | proposals => exact ⟨_, _, reads_proposals⟩
  | blocks => exact ⟨_, _, reads_blocks⟩
  | consensus => exact ⟨_, _, reads_consensus⟩

/-! ### Lines that are torn off -/

theorem Json.isGap_some {character : Char} (blank : isGap (some character) = true) :
    character ∈ [' ', '\t', '\n', '\r'] := by
  unfold isGap at blank
  split at blank <;> simp_all

/-- Of a text that ends with a gap behind a bracket, what stands in front of a closing bracket
stands in front of this last one. -/
theorem Json.prefix_of_closer {inside gap torn further : List Char} {bracket closer : Char}
    (blank : IsGap gap) (same : inside ++ bracket :: gap = torn ++ further)
    (member : closer ∈ further) (isCloser : closer = ']' ∨ closer = '}') : torn <+: inside := by
  rcases List.append_eq_append_iff.mp same with ⟨more, rfl, behind⟩ | ⟨more, rfl, _⟩
  · cases more with
    | nil => exact (List.append_nil inside).symm ▸ List.prefix_rfl
    | cons first others =>
      obtain ⟨_, rfl⟩ := List.cons.inj behind
      have inGap := blank closer (List.mem_append_right others member)
      rcases isCloser with rfl | rfl <;> simp at inGap
  · exact List.prefix_append torn more

/-- A line that is accepted is no line if it is torn off before its last bracket. Whatever there was
of another character behind the last whole one makes no difference. -/
theorem Family.exists_before_bracket (accepted : family.observe table line = .ok observations) :
    ∃ inside bracket gap, (bracket = ']' ∨ bracket = '}') ∧ Json.IsGap gap ∧
      line.toList = inside ++ bracket :: gap ∧
      ∀ torn stub, torn <+: inside → stub = [] ∨ stub = ['\uFFFD'] → ∀ other : ValidatorTable,
        ∃ fault, family.observe other (String.ofList (torn ++ stub)) = .error (.json fault) := by
  obtain ⟨_, reader, reads⟩ := family.exists_reads
  obtain ⟨opens, value, filled⟩ := reads.fills accepted
  obtain ⟨before, closer, behind, isCloser, split, blank, fails⟩ :=
    reads.brackets.readAll_torn opens filled
  obtain ⟨inside, others, written, rfl, shown⟩ := List.map_eq_append_iff.mp split
  obtain ⟨bracket, gap, rfl, rfl, rfl⟩ := List.map_eq_cons_iff.mp shown
  refine ⟨inside, bracket, gap, isCloser.imp Option.some.inj Option.some.inj,
    fun character member => Json.isGap_some (blank _ (List.mem_map_of_mem member)), written, ?_⟩
  intro torn stub isPrefix isStub other
  obtain ⟨fault, failed⟩ := fails (torn.map some) (stub.map some) (isPrefix.map some)
    (isStub.imp (congrArg _) (congrArg _))
  refine ⟨fault, reads.rejects ?_⟩
  rw [Input.ofText, String.toList_ofList, List.map_append]
  exact failed

/-! ### Files that are left in the midst of a line -/

namespace Tail

/-- Whether bytes are the first ones of a line, and a closing bracket of it is still to come. The
bytes of a line are any for which this text is delivered, with U+FFFD for those that form no
character. -/
def IsTornFrom (line : String) (bytes : List UInt8) : Prop :=
  ∃ (segment : Segment) (rest : List UInt8), segment.text = line ∧ segment.bytes = bytes ++ rest ∧
    ∃ byte ∈ rest, byte = 0x5D ∨ byte = 0x7D

theorem dropEnd_prefix_self (byte : UInt8) (bytes : List UInt8) : dropEnd byte bytes <+: bytes := by
  unfold dropEnd
  split
  · exact List.dropLast_prefix bytes
  · exact List.prefix_rfl

/-- Only what stands behind other bytes is dropped. -/
theorem exists_dropEnd_append_cons {byte bracket : UInt8} (other : bracket ≠ byte)
    (front rest : List UInt8) :
    ∃ left, dropEnd byte (front ++ bracket :: rest) = front ++ bracket :: left := by
  unfold dropEnd
  split
  · next ends =>
    rcases List.eq_nil_or_concat rest with rfl | ⟨others, last, rfl⟩
    · rw [List.getLast?_concat] at ends
      exact absurd (Option.some.inj ends) other
    · refine ⟨others, ?_⟩
      rw [List.concat_eq_append, ← List.cons_append, ← List.append_assoc, List.dropLast_concat]
  · exact ⟨rest, rfl⟩

/-- The text of the beginning of a line is the beginning of its text, in which the bracket is not
yet, and behind it at most what stands for the part of a character. -/
theorem exists_text_of_isTornFrom {line : String} {part : Segment}
    (isTorn : IsTornFrom line part.bytes) :
    ∃ torn stub further, (stub = [] ∨ stub = ['\uFFFD']) ∧
      part.text = String.ofList (torn ++ stub) ∧ line.toList = torn ++ further ∧
      ∃ bracket ∈ further, bracket = ']' ∨ bracket = '}' := by
  obtain ⟨segment, rest, rfl, bytes, byte, member, isByte⟩ := isTorn
  obtain ⟨front, behind, rfl⟩ := List.append_of_mem member
  obtain ⟨dropped, kept⟩ :=
    (dropEnd_prefix_self carriageReturn _).trans (dropEnd_prefix_self lineFeed part.bytes)
  have noFeed : byte ≠ lineFeed := by rcases isByte with rfl | rfl <;> decide
  have noReturn : byte ≠ carriageReturn := by rcases isByte with rfl | rfl <;> decide
  have small : byte < 0x80 := by rcases isByte with rfl | rfl <;> decide
  obtain ⟨left, withoutFeed⟩ := exists_dropEnd_append_cons noFeed (part.bytes ++ front) behind
  obtain ⟨others, withoutReturn⟩ := exists_dropEnd_append_cons noReturn (part.bytes ++ front) left
  obtain ⟨torn, stub, further, isStub, shown, all, members⟩ := Text.Utf8.decodeLossy_append
    (dropEnd carriageReturn (dropEnd lineFeed part.bytes)) (dropped ++ (front ++ byte :: others))
  refine ⟨torn, stub, further, isStub, shown, ?_, Char.ofNat byte.toNat, ?_, ?_⟩
  · rw [Segment.text, bytes, ← List.append_assoc, withoutFeed, withoutReturn, ← all,
      ← List.append_assoc, kept, List.append_assoc]
  · refine members byte ?_ small
    exact List.mem_append_right _ (List.mem_append_right _ List.mem_cons_self)
  · exact isByte.imp (fun same => by rw [same]; rfl) (fun same => by rw [same]; rfl)

/-- What is delivered of a fragment is the text of its bytes. -/
theorem Cursor.exists_of_mem_flush {cursor : Cursor} {text : String}
    (delivered : text ∈ cursor.flush.filterMap Segment.delivered?) :
    ∃ segment : Segment, segment.bytes = cursor.fragment ∧ segment.text = text := by
  obtain ⟨segment, member, delivers⟩ := List.mem_filterMap.mp delivered
  unfold Cursor.flush at member
  unfold Segment.delivered? at delivers
  split at member
  · cases member
  · obtain rfl := List.mem_singleton.mp member
    split at delivers
    · cases delivers
    · exact ⟨_, rfl, Option.some.inj delivers⟩

/-- A step delivers the lines that were read, and then at most what was held back. -/
theorem Tailer.delivered_follow (pace : Pace) (view : View) (tailer : Tailer) (cursor : Cursor)
    {reading : Cursor.Reading}
    (read : reading = cursor.readLines (view.stream cursor.id cursor.position) pace.lines) :
    ∃ left, (left = [] ∨ left = reading.cursor.flush) ∧
      (tailer.follow pace view cursor).delivered =
        reading.segments.filterMap Segment.delivered? ++ left.filterMap Segment.delivered? := by
  subst read
  unfold Tailer.follow Outcome.delivered
  dsimp only
  split
  · exact ⟨[], .inl rfl, (List.append_nil _).symm⟩
  · exact ⟨[], .inl rfl, (List.append_nil _).symm⟩
  · unfold Tailer.atEnd
    split
    · exact ⟨_, .inr rfl, List.filterMap_append⟩
    · exact ⟨[], .inl rfl, List.filterMap_append⟩

end Tail

/-- Lines that are rejected leave the exporter as it is. -/
theorem Exporter.handleLines_of_errors (exporter : Exporter) {lines : List String}
    (rejected : ∀ text ∈ lines, ∀ table, ∃ fault, family.observe table text = .error fault) :
    exporter.handleLines (lines.map (family, ·)) = exporter := by
  induction lines with
  | nil => rfl
  | cons text others inductionHypothesis =>
    obtain ⟨first, rest⟩ := List.forall_mem_cons.mp rejected
    obtain ⟨fault, wrong⟩ := first exporter.table
    rw [List.map_cons, handleLines, List.foldl_cons, handleLine_of_error wrong]
    exact inductionHypothesis rest

/-- A line that is accepted ends with a closing bracket and a gap. What is torn off before this
bracket is rejected as no JSON, whatever the table. So if a file is left when the beginning of the
bytes of such a line is held back, the text that is delivered for it is rejected, and the step does
to the exporter what its whole lines do. -/
theorem Family.rejects_torn (accepted : family.observe table line = .ok observations) :
    (∃ inside bracket gap, (bracket = ']' ∨ bracket = '}') ∧ Json.IsGap gap ∧
      line.toList = inside ++ bracket :: gap ∧
      ∀ torn, torn <+: inside → ∀ other : ValidatorTable,
        ∃ fault, family.observe other (String.ofList torn) = .error (.json fault)) ∧
    ∀ (pace : Pace) (view : View) (tailer : Tailer) (cursor : Cursor) (reading : Cursor.Reading),
      reading = cursor.readLines (view.stream cursor.id cursor.position) pace.lines →
      IsTornFrom line reading.cursor.fragment →
      (∀ text ∈ reading.cursor.flush.filterMap Segment.delivered?, ∀ other : ValidatorTable,
        ∃ fault, family.observe other text = .error (.json fault)) ∧
      ∀ exporter : Exporter,
        exporter.handleLines ((tailer.follow pace view cursor).delivered.map (family, ·)) =
          exporter.handleLines
            ((reading.segments.filterMap Segment.delivered?).map (family, ·)) := by
  obtain ⟨inside, bracket, gap, isCloser, isGap, written, fails⟩ :=
    Family.exists_before_bracket accepted
  refine ⟨⟨inside, bracket, gap, isCloser, isGap, written, fun torn isPrefix other => ?_⟩, ?_⟩
  · have failed := fails torn [] isPrefix (.inl rfl) other
    rwa [List.append_nil] at failed
  intro pace view tailer cursor reading read isTorn
  have rejected : ∀ text ∈ reading.cursor.flush.filterMap Segment.delivered?,
      ∀ other : ValidatorTable, ∃ fault, family.observe other text = .error (.json fault) := by
    intro text delivered other
    obtain ⟨part, bytes, rfl⟩ := Cursor.exists_of_mem_flush delivered
    rw [← bytes] at isTorn
    obtain ⟨torn, stub, further, isStub, shown, all, closer, member, isCloserToo⟩ :=
      exists_text_of_isTornFrom isTorn
    rw [shown]
    have isPrefix := Json.prefix_of_closer isGap (written.symm.trans all) member isCloserToo
    exact fails torn stub isPrefix isStub other
  refine ⟨rejected, fun exporter => ?_⟩
  obtain ⟨left, nothing | flushed, delivered⟩ := tailer.delivered_follow pace view cursor read
  · rw [delivered, nothing, List.filterMap_nil, List.append_nil]
  · rw [delivered, flushed, List.map_append, Exporter.handleLines, List.foldl_append]
    refine Exporter.handleLines_of_errors _ fun text member other => ?_
    obtain ⟨fault, wrong⟩ := rejected text member other
    exact ⟨_, wrong⟩

/-- A file with a line and the beginning of another one, beside which there is a newer file. -/
def leftView : View :=
  let text := "\x7b\"height\":7\x7d\n\x7b\"height\":1"
  { newest := .ok (some ⟨["later"]⟩)
    status := fun _ => some ⟨8, 0⟩
    openFile := fun _ => some ⟨8, 0⟩
    stream := fun _ position =>
      ⟨(text.toList.flatMap String.utf8EncodeChar).drop position, false⟩ }

/-- A line that is torn off inside a height, when the file is left. -/
theorem rejects_torn_height :
    let cursor : Cursor := ⟨⟨["first"]⟩, 7, 0, true, []⟩
    let delivered := (Tailer.fresh.follow (.ofLimit 1000 100 5) leftView cursor).delivered
    ∃ observations, Family.blocks.observe .empty "\x7b\"height\":12\x7d" = .ok observations ∧
      delivered = ["\x7b\"height\":7\x7d", "\x7b\"height\":1"] ∧
      (∀ other, ∃ fault,
        Family.blocks.observe other "\x7b\"height\":1" = .error (.json fault)) ∧
      ∀ exporter : Exporter, exporter.handleLines (delivered.map (.blocks, ·)) =
        exporter.handleLine .blocks "\x7b\"height\":7\x7d" := by
  intro cursor delivered
  obtain ⟨observations, accepted⟩ : ∃ observations,
      Family.blocks.observe .empty "\x7b\"height\":12\x7d" = .ok observations :=
    ⟨_, by with_unfolding_all exact rfl⟩
  obtain ⟨⟨inside, bracket, gap, _, isGap, written, torn⟩, left⟩ := Family.rejects_torn accepted
  have isPrefix : "\x7b\"height\":1".toList <+: inside :=
    Json.prefix_of_closer isGap (written.symm.trans (show _ = _ ++ ['2', '}'] by decide))
      (List.mem_cons_of_mem _ List.mem_cons_self) (.inr rfl)
  have isTorn : IsTornFrom "\x7b\"height\":12\x7d"
      ("\x7b\"height\":1".toList.flatMap String.utf8EncodeChar) := by
    refine ⟨⟨⟨["first"]⟩, 0, "\x7b\"height\":12\x7d".toList.flatMap String.utf8EncodeChar⟩,
      [0x32, 0x7D], ?_, ?_, 0x7D, ?_, .inr rfl⟩
    all_goals decide +kernel
  refine ⟨observations, accepted, by decide +kernel, fun other => ?_, fun exporter => ?_⟩
  · have rejected := torn _ isPrefix other
    rwa [String.ofList_toList] at rejected
  · have whole : (cursor.readLines (leftView.stream 7 0) 5).segments.filterMap Segment.delivered? =
        ["\x7b\"height\":7\x7d"] := by decide +kernel
    have same := (left (.ofLimit 1000 100 5) leftView .fresh cursor _ rfl isTorn).2 exporter
    exact same.trans
      (congrArg (fun lines => exporter.handleLines (lines.map (Family.blocks, ·))) whole)

end NodeTelemetry
