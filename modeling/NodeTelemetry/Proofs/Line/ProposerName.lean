/-
This file shows that the names of proposers are decoded exactly. However a name is spelled, the line
counts for this name, and a line whose name is spelled wrongly counts for nobody.

The two cases meet in the tokens of a string. A string without a fault denotes a text, and it is
read as this text in whatever of the four ways each character is written. A string with a fault is
refused, and with it the block in which it stands, the command around it and the line. So no name is
ever taken for another one: half of a pair of units is not replaced by some other character, and a
control character is not left out.
-/

import NodeTelemetry.Family
import NodeTelemetry.Proofs.Json.Refusals
import NodeTelemetry.Proofs.Line.Layouts

namespace NodeTelemetry.Line

open Json (Denotes Faulty Holds IsLiteral IsText Token WritesRecord)

variable {raw literal : List Char} {line : String}

/-- A line is refused with the value that stands in it. -/
theorem readJson_of_refuses {Value : Type} {reader : Json.Reader Value}
    (refuses : reader.Refuses raw) (isLine : IsLine raw line) :
    ∃ fault, readJson reader line = .error (.json fault) := by
  obtain ⟨before, behind, isGapBefore, _, same⟩ := isLine
  obtain ⟨fault, refused⟩ := refuses before (behind.map some) isGapBefore
  refine ⟨fault, ?_⟩
  rw [readJson, Json.Reader.readAll, Json.Input.ofText, same, List.map_append, List.map_append,
    refused]

namespace Proposal

/-- Whether a text is a command in some layout with a block in some layout, whose proposer is
written as a string. -/
def Names (literal : List Char) : List Char → Prop :=
  WritesRecord ["abci_block"] fun _ block => ∃ inner, block = some inner ∧
    WritesRecord ["proposer"] (fun _ proposer => proposer = some literal) inner

/-- A command is one with a proposer if its name is a text. -/
theorem isWritten_of_names {proposer : String} (names : Names literal raw)
    (isText : IsText literal proposer) : IsWritten (some (some proposer)) raw := by
  refine names.imp fun _ block held => ?_
  obtain ⟨inner, rfl, block⟩ := held
  refine block.imp fun _ value written => ?_
  obtain rfl := written
  exact isText

/-- A command is refused if the name of its proposer is. -/
theorem proposerReader_refuses (names : Names literal raw) (begins : Json.Begins literal)
    (refuses : Json.textReader.Refuses literal) : proposerReader.Refuses raw := by
  have blockRefuses {inner : List Char} (block : WritesRecord (Json.fieldNames blockFields)
      (fun _ proposer => proposer = some literal) inner) :
      (Json.recordReader blockFields none).Refuses inner := by
    refine Json.recordReader_refuses ?_ block none
    rintro _ rfl
    exact ⟨literal, rfl, begins.starts, (refuses.orNull begins).map _⟩
  have command : WritesRecord (Json.fieldNames commandFields) _ raw := names
  refine Json.recordReader_refuses ?_ command none
  rintro _ ⟨inner, rfl, block⟩
  have beginsBlock := Json.begins_of_writesRecord block
  exact ⟨inner, rfl, beginsBlock.starts, ((blockRefuses block).orNull beginsBlock).map _⟩

/-- The name of a proposer is decoded exactly. A line whose proposer is a string that denotes a name
counts once for this name, however it is spelled, and a line whose proposer is a string with half of
a pair of units, a control character or an escape that does not exist is refused and counts for
nobody. There are no other strings. -/
theorem observe_of_names (isLine : IsLine raw line) (names : Names literal raw) :
    (∀ proposer, proposer ≠ "" → Denotes literal proposer →
      observe line = .ok
        [{ name := "proposer_count"
           labels := [("proposer", proposer)]
           change := .increment Binary64.one }]) ∧
    ∀ tokens, IsLiteral tokens literal →
      (Faulty tokens → (∃ fault, observe line = .error (.json fault)) ∧
        ∀ table, Family.proposals.recorded table line = []) ∧
      (¬Faulty tokens → ∃ proposer, Denotes literal proposer) := by
  refine ⟨fun proposer named denotes => ?_, fun tokens isLiteral => ⟨fun faulty => ?_,
    Json.exists_denotes_of_not_faulty isLiteral⟩⟩
  · have isWritten := isWritten_of_names names (Json.isText_of_denotes denotes)
    have present : ¬proposer.isEmpty = true := fun empty => named (String.isEmpty_iff.mp empty)
    rw [observe, readJson_of_answers (proposerReader_of_isWritten isWritten) isLine]
    show Except.ok (observations (some proposer)) = _
    rw [observations, if_neg present]
    rfl
  · have refuses := proposerReader_refuses names (Json.begins_of_isLiteral isLiteral)
      (Json.textReader_refuses isLiteral faulty)
    obtain ⟨fault, refused⟩ := readJson_of_refuses refuses isLine
    have wrong : observe line = .error (.json fault) := by
      rw [observe, refused]
    refine ⟨⟨fault, wrong⟩, fun table => ?_⟩
    rw [Family.recorded, show Family.proposals.observe table line = _ from wrong]

/-! ### A name in two spellings -/

/-- An object with one member. -/
def objectOf (name : String) (value : List Char) : List Char :=
  '{' :: ('"' :: (name.toList ++ '"' :: ':' :: value) ++ ['}'])

/-- A line with a name spelled in some way. -/
def lineOf (literal : List Char) : String :=
  String.ofList (objectOf "abci_block" (objectOf "proposer" literal))

theorem writesRecord_objectOf {name : String} (plain : name.toList.all (Json.IsPlain ·) = true)
    {Says : String → Option (List Char) → Prop} {value : List Char}
    (written : Says name (some value)) : WritesRecord [name] Says (objectOf name value) := by
  have isMember : Json.IsMember (name, value) ('"' :: (name.toList ++ '"' :: ':' :: value)) := by
    have noGap := List.forall_mem_nil (· ∈ [' ', '\t', '\n', '\r'])
    have isMember := @Json.IsMember.written [] _ [] [] value [] name noGap
      (Json.spells_self plain) noGap noGap noGap
    simpa using isMember
  refine .object (.inr ⟨_, .last isMember, rfl⟩) (by simp) ?_ ?_
  · intro key held member
    obtain ⟨rfl, rfl⟩ := Prod.mk.inj (List.mem_singleton.mp member)
    rwa [if_pos List.mem_cons_self]
  · intro key known absent
    exact absurd known absent

/-- Whatever stands in the place of the name is its spelling. -/
theorem names_lineOf (literal : List Char) :
    Names literal (lineOf literal).toList ∧ IsLine (lineOf literal).toList (lineOf literal) := by
  rw [lineOf, String.toList_ofList]
  refine ⟨writesRecord_objectOf rfl ⟨_, rfl, writesRecord_objectOf rfl rfl⟩, [], [],
    by decide, by decide, ?_⟩
  rw [String.toList_ofList, List.append_nil, List.nil_append]

/-- A name of which no character is written by itself. -/
def spelled : List Char :=
  "\"\\u0076\\uD83D\\ude00\\/\"".toList

theorem denotes_spelled : Denotes spelled "v😀/" := by
  have unit : Json.WritesUnit 'v'.toNat "0076".toList :=
    .cons (.inl rfl) (.cons (.inl rfl) (.cons (.inl rfl) (.cons (.inl rfl) .nil)))
  have leading : Json.WritesUnit (0xD800 + ('😀'.toNat - 0x10000) / 0x400) "D83D".toList :=
    .cons (.inr rfl) (.cons (.inr rfl) (.cons (.inr rfl) (.cons (.inr rfl) .nil)))
  have trailing : Json.WritesUnit (0xDC00 + ('😀'.toNat - 0x10000) % 0x400) "de00".toList :=
    .cons (.inl rfl) (.cons (.inl rfl) (.cons (.inl rfl) (.cons (.inl rfl) .nil)))
  exact ⟨_, .cons (.unit unit) (.cons (.pair (by decide) leading trailing)
    (.cons (.short (by decide)) .nil)), rfl⟩

/-- A name that is half of a pair of units and nothing else. -/
def halved : List Char :=
  "\"\\ud83d\"".toList

theorem isLiteral_halved : IsLiteral [.unit 0xD83D] halved := by
  have half : Json.WritesUnit 0xD83D "d83d".toList :=
    .cons (.inl rfl) (.cons (.inl rfl) (.cons (.inl rfl) (.cons (.inl rfl) .nil)))
  exact ⟨_, .unit half .nil, rfl⟩

theorem faulty_halved : Faulty [.unit 0xD83D] := by
  refine ⟨[], _, [], rfl, .leading (by unfold Json.IsLeading; decide) ?_⟩
  intro next others same
  cases same

/-- A name that is spelled with escapes only, and one that cannot be decoded. -/
theorem observe_spelled :
    observe (lineOf spelled) = .ok
      [{ name := "proposer_count"
         labels := [("proposer", "v😀/")]
         change := .increment Binary64.one }] ∧
    (∃ fault, observe (lineOf halved) = .error (.json fault)) ∧
    ∀ table, Family.proposals.recorded table (lineOf halved) = [] := by
  obtain ⟨names, isLine⟩ := names_lineOf spelled
  obtain ⟨namesToo, isLineToo⟩ := names_lineOf halved
  exact ⟨(observe_of_names isLine names).1 _ (by decide) denotes_spelled,
    ((observe_of_names isLineToo namesToo).2 _ isLiteral_halved).1 faulty_halved⟩

end Proposal

end NodeTelemetry.Line
