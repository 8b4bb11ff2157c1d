/-
This file shows that lines with records are read alike in every layout. Blocks and commands may be
written as objects, with their fields in any order, spelled with any escapes and among any other
members, or as lists. What a line shows depends on the values of its fields alone, and a line in
which a field is held twice is refused.

How a record is read from each layout is proved once for all records. What is left here is what the
fields of each kind of record mean. Each field is given its component of the record: `put` takes
this component over into another record, and the reader of the field answers every text of its value
with just this change. A record that is put together from a blank one by the changes of its fields
is then the record that was written, because those fields that do not come are the ones whose
components are blank anyway.
-/

import NodeTelemetry.Line.BlockTime
import NodeTelemetry.Line.Proposal
import NodeTelemetry.Proofs.Json.Records

namespace NodeTelemetry.Line

open Json (Holds IsGap IsReal IsText IsValue IsWord OrNull RepeatsField WritesRecord)

variable {raw : List Char} {line : String}

/-- Whether a line holds a text and nothing else but gaps. -/
def IsLine (raw : List Char) (line : String) : Prop :=
  ∃ before behind, IsGap before ∧ IsGap behind ∧ line.toList = before ++ (raw ++ behind)

theorem readJson_of_answers {Value : Type} {reader : Json.Reader Value}
    {result : Except Json.Fault Value} (answers : reader.Answers raw result)
    (isLine : IsLine raw line) : readJson reader line = result.mapError .json := by
  obtain ⟨before, behind, isGapBefore, isGapBehind, same⟩ := isLine
  have ends : Json.Ends (behind.map some ++ []) := Json.Ends.behind_gap isGapBehind (by
    intro character first
    cases first)
  have read := answers before _ isGapBefore ends
  have skipped := Json.skipGap_append isGapBehind []
  rw [List.append_nil] at read skipped
  rw [readJson, Json.Reader.readAll, Json.Input.ofText, same, List.map_append, List.map_append, read]
  cases result with
  | error fault => rfl
  | ok value => simp only [Except.map, skipped]; rfl

/-! ### Blocks -/

namespace BlockTime

def names : List String :=
  ["height", "block_time", "apply_duration"]

/-- What a field of a record is written as. -/
def Writes (record : BlockTime) (name : String) (raw : Option (List Char)) : Prop :=
  (name = "height" → Holds IsWord raw record.height) ∧
    (name = "block_time" → Holds IsText raw record.time) ∧
    (name = "apply_duration" → Holds IsReal raw record.applyDuration)

/-- Whether a text is a record in some layout. -/
def IsWritten (record : BlockTime) : List Char → Prop :=
  WritesRecord names record.Writes

/-- Whether a text is a record but for a field that it holds twice. -/
def IsRepeated : List Char → Prop :=
  RepeatsField names (fun name value => ∃ record : BlockTime, record.Writes name (some value))
    fun _ _ => False

/-- Puts the value of a field into another record. -/
def put (record : BlockTime) (name : String) (other : BlockTime) : BlockTime where
  height := if name = "height" then record.height else other.height
  time := if name = "block_time" then record.time else other.time
  applyDuration := if name = "apply_duration" then record.applyDuration else other.applyDuration

/-- The reader of each field answers what is written there with the change of its component. -/
theorem answers_put {record : BlockTime} :
    ∀ field ∈ fields, ∀ value, record.Writes field.name (some value) →
      Json.Starts value ∧ field.reader.Answers value (.ok (record.put field.name)) := by
  intro field member value writes
  simp only [fields, List.mem_cons, List.not_mem_nil, or_false] at member
  rcases member with rfl | rfl | rfl
  · exact Json.Reader.answers_orNull Json.begins_of_isWord Json.wordReader_answers (writes.1 rfl) _
  · exact Json.Reader.answers_orNull Json.begins_of_isText Json.textReader_answers (writes.2.1 rfl) _
  · exact Json.Reader.answers_orNull Json.begins_of_isReal Json.realReader_answers (writes.2.2 rfl) _

/-- The fields that are written make up a record, and the others leave it blank. -/
theorem foldl_put {record : BlockTime} (keys : List String)
    (missing : ∀ name ∈ names, name ∉ keys → record.Writes name none) :
    keys.foldl (fun other key => record.put key other) blank = record := by
  have height : (keys.foldl (fun other key => record.put key other) blank).height =
      record.height :=
    Json.get_foldl BlockTime.height (fun _ => rfl) (fun _ different _ => if_neg different) keys
      fun unwritten => ((missing "height" (by decide) unwritten).1 rfl).symm
  have time : (keys.foldl (fun other key => record.put key other) blank).time = record.time :=
    Json.get_foldl BlockTime.time (fun _ => rfl) (fun _ different _ => if_neg different) keys
      fun unwritten => ((missing "block_time" (by decide) unwritten).2.1 rfl).symm
  have applyDuration : (keys.foldl (fun other key => record.put key other) blank).applyDuration =
      record.applyDuration :=
    Json.get_foldl BlockTime.applyDuration (fun _ => rfl) (fun _ different _ => if_neg different)
      keys fun unwritten => ((missing "apply_duration" (by decide) unwritten).2.2 rfl).symm
  generalize keys.foldl (fun other key => record.put key other) blank = final at *
  cases final
  cases record
  simp_all only

/-- A block is read from each of its layouts. -/
theorem reader_of_isWritten {record : BlockTime} (isWritten : record.IsWritten raw) :
    reader.Answers raw (.ok record) :=
  Json.recordReader_of_writesRecord record.put answers_put foldl_put isWritten

theorem reader_of_isRepeated (isRepeated : IsRepeated raw) :
    reader.Answers raw (.error .misfit) := by
  refine Json.recordReader_of_repeatsField ?_ (fun _ _ _ never => never.elim) isRepeated
  rintro field member value ⟨record, writes⟩
  obtain ⟨starts, answers⟩ := answers_put field member value writes
  exact ⟨starts, _, answers⟩

end BlockTime

/-! ### Proposals -/

namespace Proposal

/-- Whether a text is a block with a proposer in some layout. -/
def IsBlock : List Char → Option String → Prop :=
  fun raw proposer => WritesRecord ["proposer"] (fun _ value => Holds IsText value proposer) raw

/-- Whether a text is a block but for a proposer that it holds twice. -/
def RepeatsProposer : List Char → Prop :=
  RepeatsField ["proposer"] (fun _ value => ∃ proposer, OrNull IsText value proposer)
    fun _ _ => False

/-- Whether a text is a command with a block in some layout. -/
def IsWritten (block : Option (Option String)) : List Char → Prop :=
  WritesRecord ["abci_block"] fun _ value => Holds IsBlock value block

/-- Whether a text is a command but for a block that it holds twice, or for blocks that hold their
proposer twice. -/
def IsRepeated : List Char → Prop :=
  RepeatsField ["abci_block"] (fun _ value => ∃ block, OrNull IsBlock value block)
    fun _ value => RepeatsProposer value

/-- Puts the value of the only field into a record. -/
def put (name : String) (value : Option String) (key : String) (other : Option String) :
    Option String :=
  if key = name then value else other

theorem foldl_put {name : String} {value : Option String} (keys : List String)
    (missing : name ∉ keys → value = none) :
    keys.foldl (fun other key => put name value key other) none = value := by
  have sets (other : Option String) : id (put name value name other) = value := if_pos rfl
  exact Json.get_foldl id sets (fun _ different _ => if_neg different) keys
    fun unwritten => (missing unwritten).symm

theorem answers_proposer {proposer : Option String} :
    ∀ field ∈ blockFields, ∀ value, OrNull IsText value proposer →
      Json.Starts value ∧ field.reader.Answers value (.ok (put "proposer" proposer field.name)) := by
  intro field member value holds
  obtain rfl := List.mem_singleton.mp member
  exact Json.Reader.answers_orNull Json.begins_of_isText Json.textReader_answers holds _

/-- A block with a proposer is read from each of its layouts. -/
theorem blockReader_of_isBlock {proposer : Option String} (isBlock : IsBlock raw proposer) :
    (Json.recordReader blockFields none).Answers raw (.ok proposer) :=
  Json.recordReader_of_writesRecord (put "proposer" proposer) answers_proposer
    (fun keys missing => foldl_put keys (missing "proposer" (by decide))) isBlock

theorem blockReader_of_repeatsProposer (repeats : RepeatsProposer raw) :
    (Json.recordReader blockFields none).Answers raw (.error .misfit) := by
  refine Json.recordReader_of_repeatsField ?_ (fun _ _ _ never => never.elim) repeats
  rintro field member value ⟨proposer, holds⟩
  obtain ⟨starts, answers⟩ := answers_proposer field member value holds
  exact ⟨starts, _, answers⟩

theorem answers_block {block : Option (Option String)} :
    ∀ field ∈ commandFields, ∀ value, OrNull IsBlock value block →
      Json.Starts value ∧
        field.reader.Answers value (.ok (put "abci_block" (block.getD none) field.name)) := by
  intro field member value holds
  obtain rfl := List.mem_singleton.mp member
  exact Json.Reader.answers_orNull Json.begins_of_writesRecord blockReader_of_isBlock holds _

/-- The proposer of a command is read from each of its layouts. -/
theorem proposerReader_of_isWritten {block : Option (Option String)}
    (isWritten : IsWritten block raw) : proposerReader.Answers raw (.ok (block.getD none)) := by
  refine Json.recordReader_of_writesRecord (put "abci_block" (block.getD none)) answers_block
    (fun keys missing => foldl_put keys fun unwritten => ?_) isWritten
  have nothing : block = none := missing "abci_block" (by decide) unwritten
  rw [nothing, Option.getD_none]

theorem proposerReader_of_isRepeated (isRepeated : IsRepeated raw) :
    proposerReader.Answers raw (.error .misfit) := by
  refine Json.recordReader_of_repeatsField ?_ ?_ isRepeated
  · rintro field member value ⟨block, holds⟩
    obtain ⟨starts, answers⟩ := answers_block field member value holds
    exact ⟨starts, _, answers⟩
  · intro field member value repeats
    obtain rfl := List.mem_singleton.mp member
    have begins := Json.begins_of_repeatsField repeats
    exact ⟨begins.starts, ((blockReader_of_repeatsProposer repeats).orNull begins).map _⟩

end Proposal

/-! ### Lines -/

/-- What a line shows that holds a record. The layout does not matter: the height and the duration
of a block are observed in this order if the block holds them, and one of them must be held; a
command counts for its proposer, if this is a text that is not empty. If a field is held twice, the
line is refused. -/
theorem observe_of_layouts (isLine : IsLine raw line) :
    (∀ record : BlockTime, record.IsWritten raw → BlockTime.observe line =
      match record.height, record.applyDuration with
      | none, none => .error (.missingField "height and apply_duration")
      | some height, none => .ok [BlockTime.heightObservation height]
      | none, some duration => .ok [BlockTime.durationObservation duration]
      | some height, some duration =>
        .ok [BlockTime.heightObservation height, BlockTime.durationObservation duration]) ∧
    (BlockTime.IsRepeated raw → BlockTime.observe line = .error (.json .misfit)) ∧
    (∀ block : Option (Option String), Proposal.IsWritten block raw → Proposal.observe line =
      match block with
      | some (some proposer) =>
        if proposer = "" then .ok [] else .ok [Proposal.countObservation proposer]
      | _ => .ok []) ∧
    (Proposal.IsRepeated raw → Proposal.observe line = .error (.json .misfit)) := by
  refine ⟨fun record isWritten => ?_, fun isRepeated => ?_, fun block isWritten => ?_,
    fun isRepeated => ?_⟩
  · have read := readJson_of_answers (BlockTime.reader_of_isWritten isWritten) isLine
    rw [BlockTime.observe, read]
    obtain ⟨height, time, duration⟩ := record
    cases height with
    | none => cases duration <;> rfl
    | some height => cases duration <;> rfl
  · have read := readJson_of_answers (BlockTime.reader_of_isRepeated isRepeated) isLine
    rw [BlockTime.observe, read]
    rfl
  · have read := readJson_of_answers (Proposal.proposerReader_of_isWritten isWritten) isLine
    rw [Proposal.observe, read]
    rcases block with _ | _ | proposer
    · rfl
    · rfl
    · by_cases empty : proposer = ""
      · subst empty
        rfl
      · simp [Except.mapError, Proposal.observations, String.isEmpty_iff, empty]
  · have read := readJson_of_answers (Proposal.proposerReader_of_isRepeated isRepeated) isLine
    rw [Proposal.observe, read]
    rfl

/-! ### Lines in several layouts -/

namespace BlockTime

theorem isWord_seven : IsWord ['7'] 7 := by
  have isDigits : Json.IsDigits ['7'] [7] := ⟨by decide, List.forall_mem_singleton.mpr rfl, rfl⟩
  refine ⟨⟨false, [7], [], none⟩, ⟨⟨['7'], [], [], rfl, isDigits, .absent, .absent⟩, ?_⟩, rfl, rfl,
    rfl, rfl⟩
  intro others same
  cases same

theorem writes_height : Writes ⟨some 7, none, none⟩ "height" (some ['7']) :=
  ⟨fun _ => isWord_seven, fun same => absurd same (by decide), fun same => absurd same (by decide)⟩

theorem spells_height : Json.Spells "heigh\\u0074".toList "height".toList := by
  have isHex : Json.IsHex "0074".toList (((0 * 16 + 0) * 16 + 7) * 16 + 4) := .four rfl rfl rfl rfl
  have last : Json.Spells "\\u0074".toList ['t'] := .unit isHex rfl rfl .nil
  exact .plain (by decide) (.plain (by decide) (.plain (by decide) (.plain (by decide)
    (.plain (by decide) last))))

theorem isMember_height : Json.IsMember ("height", ['7']) "\"heigh\\u0074\" : 7 ".toList :=
  @Json.IsMember.written [] _ [' '] [' '] ['7'] [' '] "height" (by decide) spells_height
    (by decide) (by decide) (by decide)

/-- An object with a list inside, and in it half of a surrogate pair. -/
theorem isValue_nested : IsValue "\x7b\"y\":[\"\\ud800\"]\x7d".toList := by
  have noGap := List.forall_mem_nil (· ∈ [' ', '\t', '\n', '\r'])
  have half : Json.IsLoose "\\ud800".toList := .unit (.four rfl rfl rfl rfl) .nil
  have list : IsValue "[\"\\ud800\"]".toList := .nested (.last (.item noGap) (.text half) noGap)
  exact .nested (.last (.member noGap (.plain (by decide) .nil) noGap noGap) list noGap)

/-- The height of a block behind another member, spelled with an escape and with gaps around it. -/
def scattered : String :=
  "\x7b\"x\":\x7b\"y\":[\"\\ud800\"]\x7d,\"heigh\\u0074\" : 7 \x7d"

theorem isWritten_scattered : IsWritten ⟨some 7, none, none⟩ scattered.toList := by
  have other : Json.IsMember ("x", "\x7b\"y\":[\"\\ud800\"]\x7d".toList)
      "\"x\":\x7b\"y\":[\"\\ud800\"]\x7d".toList :=
    @Json.IsMember.written [] ['x'] [] [] _ [] "x" (by decide) (.plain (by decide) .nil)
      (by decide) (by decide) (by decide)
  refine .object (.inr ⟨_, .more other (.last isMember_height), rfl⟩) (by decide) ?_ ?_
  · intro key value member
    simp only [List.mem_cons, Prod.mk.injEq, List.not_mem_nil, or_false] at member
    rcases member with ⟨rfl, rfl⟩ | ⟨rfl, rfl⟩
    · exact isValue_nested
    · exact writes_height
  · intro name _ absent
    refine ⟨?_, fun _ => rfl, fun _ => rfl⟩
    rintro rfl
    exact absurd (by decide) absent

/-- The height of a block spelled in two ways. -/
theorem isRepeated_height : IsRepeated "\x7b\"height\":7,\"heigh\\u0074\" : 7 \x7d".toList := by
  have plain : Json.IsMember ("height", ['7']) "\"height\":7".toList :=
    @Json.IsMember.written [] _ [] [] ['7'] [] "height" (by decide)
      (Json.spells_self rfl) (by decide) (by decide) (by decide)
  refine .object (.inr ⟨_, .more plain (.last isMember_height), rfl⟩) ?_
    (.inl ⟨"height", by decide, by decide⟩)
  intro key value member
  have same : (key, value) = ("height", ['7']) := by simpa using member
  cases same
  exact .inl ⟨_, writes_height⟩

end BlockTime

namespace Proposal

theorem isText_validator : IsText "\"v\"".toList "v" :=
  ⟨['v'], rfl, Json.spells_self rfl⟩

/-- A block as a list inside a command as an object. -/
theorem isWritten_list : IsWritten (some (some "v")) "\x7b\"abci_block\":[\"v\"]\x7d".toList := by
  have isBlock : IsBlock "[\"v\"]".toList (some "v") :=
    .list ⟨_, .last ⟨[], [], by decide, by decide, rfl⟩, rfl⟩ (.cons isText_validator .nil)
  have isMember : Json.IsMember ("abci_block", "[\"v\"]".toList) "\"abci_block\":[\"v\"]".toList :=
    @Json.IsMember.written [] _ [] [] _ [] "abci_block" (by decide)
      (Json.spells_self rfl) (by decide) (by decide) (by decide)
  refine .object (.inr ⟨_, .last isMember, rfl⟩) (by decide) ?_ ?_
  · intro key value member
    obtain ⟨rfl, rfl⟩ := Prod.mk.inj (List.mem_singleton.mp member)
    exact isBlock
  · intro name known absent
    exact absurd known absent

/-- A block that holds its proposer twice inside a command as a list. -/
theorem isRepeated_proposer :
    IsRepeated "[\x7b\"proposer\":\"v\",\"proposer\":\"v\"\x7d]".toList := by
  have isMember : Json.IsMember ("proposer", "\"v\"".toList) "\"proposer\":\"v\"".toList :=
    @Json.IsMember.written [] _ [] [] _ [] "proposer" (by decide)
      (Json.spells_self rfl) (by decide) (by decide) (by decide)
  have repeats : RepeatsProposer "\x7b\"proposer\":\"v\",\"proposer\":\"v\"\x7d".toList := by
    refine .object (.inr ⟨_, .more isMember (.last isMember), rfl⟩) ?_
      (.inl ⟨"proposer", by decide, by decide⟩)
    intro key value member
    have same : (key, value) = ("proposer", "\"v\"".toList) := by simpa using member
    cases same
    exact .inl ⟨some "v", isText_validator⟩
  have isElement : Json.IsElement "\x7b\"proposer\":\"v\",\"proposer\":\"v\"\x7d".toList
      "\x7b\"proposer\":\"v\",\"proposer\":\"v\"\x7d".toList :=
    ⟨[], [], by decide, by decide, rfl⟩
  exact .list ⟨_, .last isElement, rfl⟩ (.cons (.inr repeats) .nil)
    ⟨_, _, List.mem_singleton.mpr rfl, repeats⟩

end Proposal

/-- Four lines in which a layout is used to the full. -/
theorem observe_scattered :
    BlockTime.observe (" " ++ BlockTime.scattered) = .ok [BlockTime.heightObservation 7] ∧
    BlockTime.observe "\x7b\"height\":7,\"heigh\\u0074\" : 7 \x7d" = .error (.json .misfit) ∧
    Proposal.observe "\x7b\"abci_block\":[\"v\"]\x7d" = .ok [Proposal.countObservation "v"] ∧
    Proposal.observe "[\x7b\"proposer\":\"v\",\"proposer\":\"v\"\x7d]" =
      .error (.json .misfit) := by
  have whole (line : String) : IsLine line.toList line :=
    ⟨[], [], by decide, by decide, (List.append_nil _).symm⟩
  have indented : IsLine BlockTime.scattered.toList (" " ++ BlockTime.scattered) :=
    ⟨[' '], [], by decide, by decide, rfl⟩
  exact ⟨(observe_of_layouts indented).1 _ BlockTime.isWritten_scattered,
    (observe_of_layouts (whole _)).2.1 BlockTime.isRepeated_height,
    (observe_of_layouts (whole _)).2.2.1 _ Proposal.isWritten_list,
    (observe_of_layouts (whole _)).2.2.2 Proposal.isRepeated_proposer⟩

end NodeTelemetry.Line
