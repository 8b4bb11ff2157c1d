/-
This file says what it means that a reader refuses a text, whatever follows it and whichever fault
is reported, and shows that a record is refused in every layout if the value of its field is.

To answer a text a reader must know where the text ends. A refusal asks for less: some fault is
found inside the text, and whatever follows it can make no difference. So nothing is required of
what stands behind, and the fault itself is left open, since a string may have several and which of
them is found first depends on its characters.
-/

import NodeTelemetry.Proofs.Json.Literals
import NodeTelemetry.Proofs.Json.Records

namespace NodeTelemetry.Json

variable {Value First Second State Record : Type} {raw : List Char}

/-- Whether a reader refuses a text wherever it stands. -/
def Reader.Refuses (reader : Reader Value) (raw : List Char) : Prop :=
  ∀ (gap : List Char) (rest : Input), IsGap gap →
    ∃ fault, reader.read (gap.map some ++ (raw.map some ++ rest)) = .error fault

namespace Reader.Refuses

theorem map {reader : Reader First} (refuses : reader.Refuses raw) (change : First → Second) :
    (reader.map change).Refuses raw := by
  intro gap rest isGap
  obtain ⟨fault, refused⟩ := refuses gap rest isGap
  exact ⟨fault, by simp only [Reader.map, refused]⟩

/-- A refusal of something that is not `null` stays one where `null` is allowed. -/
theorem orNull {reader : Reader Value} (refuses : reader.Refuses raw) (begins : Begins raw) :
    reader.orNull.Refuses raw := by
  intro gap rest isGap
  have skipped := skipGap_of_starts isGap begins.starts rest
  obtain ⟨fault, refused⟩ := refuses [] rest (List.forall_mem_nil _)
  rw [List.map_nil, List.nil_append] at refused
  obtain ⟨first, others, rfl, _, notNull⟩ := begins
  refine ⟨fault, ?_⟩
  simp only [Reader.orNull, skipped]
  split
  · next same => exact absurd (Option.some.inj (List.cons.inj same).1) notNull
  · rw [refused]

end Reader.Refuses

/-! ### Strings -/

theorem begins_of_isLiteral {tokens : List Token} (isLiteral : IsLiteral tokens raw) :
    Begins raw := by
  obtain ⟨inside, _, rfl⟩ := isLiteral
  exact ⟨'"', _, rfl, .inl (by decide), by decide⟩

/-- A string with a fault is refused. -/
theorem textReader_refuses {tokens : List Token} (isLiteral : IsLiteral tokens raw)
    (faulty : Faulty tokens) : textReader.Refuses raw := by
  intro gap rest isGap
  have skipped := skipGap_of_starts isGap (begins_of_isLiteral isLiteral).starts rest
  obtain ⟨inside, lexes, rfl⟩ := isLiteral
  obtain ⟨fault, refused⟩ := textFrom_of_faulty lexes faulty [] rest
  refine ⟨fault, ?_⟩
  simp only [textReader, skipped]
  simp only [List.map_cons, List.map_append, List.map_nil, List.cons_append, List.append_assoc,
    List.nil_append, refused]

/-! ### The members of an object -/

section

variable {onKey : State → String → Except Fault (Reader State)} {state next : State} {first : Bool}
  {joint text value : List Char} {key : String} {reader : Reader State}

/-- An object is refused at a member whose value is. -/
theorem membersOf_refused (isJoint : IsJoint first joint) (isMember : IsMember (key, value) text)
    (accepts : onKey state key = .ok reader) (refuses : reader.Refuses value) (rest : Input) :
    ∃ fault, membersOf onKey state first (joint.map some ++ (text.map some ++ rest)) =
      .error fault := by
  obtain ⟨gapBefore, spells, gapBetween, gapAfter, _⟩ := isMember
  simp only [List.map_append, List.map_cons, List.append_assoc, List.cons_append]
  obtain ⟨fault, refused⟩ := refuses _ _ gapAfter
  refine ⟨fault, ?_⟩
  rw [membersOf, nextKey_member isJoint gapBefore spells]
  simp only [accepts]
  rw [takeColon_append gapBetween]
  dsimp only
  rw [refused]

/-- A member whose value is answered is read, and reading goes on behind it. -/
theorem membersOf_read (isJoint : IsJoint first joint) (isMember : IsMember (key, value) text)
    (accepts : onKey state key = .ok reader) (answers : reader.Answers value (.ok next))
    {rest : Input} (ends : Ends rest) :
    ∃ gap, IsGap gap ∧ membersOf onKey state first (joint.map some ++ (text.map some ++ rest)) =
      membersOf onKey next false (gap.map some ++ rest) := by
  obtain ⟨gapBefore, spells, gapBetween, gapAfter, gapBehind⟩ := isMember
  simp only [List.map_append, List.map_cons, List.append_assoc, List.cons_append]
  have read := answers _ _ gapAfter (ends.behind_gap gapBehind)
  refine ⟨_, gapBehind, ?_⟩
  rw [membersOf, nextKey_member isJoint gapBefore spells]
  simp only [accepts]
  rw [takeColon_append gapBetween]
  dsimp only
  rw [read]
  rfl

end

/-! ### Records -/

section

variable {field : Field Record} {first : Bool} {joint value : List Char}

/-- An object with one field is refused as soon as this field is met. -/
theorem membersOf_refuses {members : List (String × List Char)} {inside : List Char}
    (separated : Separated IsMember members inside) (isJoint : IsJoint first joint)
    (written : ∀ key value, (key, value) ∈ members →
      if key ∈ fieldNames [field] then field.reader.Refuses value else IsValue value)
    (present : field.name ∈ members.map Prod.fst) (blank : Record) (rest : Input) :
    ∃ fault, membersOf (fieldReader [field]) ([], blank) first
      (joint.map some ++ (inside.map some ++ some '}' :: rest)) = .error fault := by
  have accepts : fieldReader [field] ([], blank) field.name =
      .ok (field.reader.map fun change => ([field.name], change blank)) := by
    simp [fieldReader]
  have refused {key : String} {value text : List Char} {first : Bool} {joint : List Char}
      (known : key ∈ fieldNames [field]) (isJoint : IsJoint first joint)
      (isMember : IsMember (key, value) text) (refuses : field.reader.Refuses value)
      (rest : Input) : ∃ fault, membersOf (fieldReader [field]) ([], blank) first
        (joint.map some ++ (text.map some ++ rest)) = .error fault := by
    obtain rfl : key = field.name := List.mem_singleton.mp known
    exact membersOf_refused isJoint isMember accepts (refuses.map _) rest
  induction separated generalizing first joint with
  | @last member text isMember =>
    obtain ⟨key, value⟩ := member
    obtain rfl : field.name = key := by simpa using present
    have known : field.name ∈ fieldNames [field] := List.mem_cons_self
    have here := written field.name value List.mem_cons_self
    rw [if_pos known] at here
    exact refused known isJoint isMember here _
  | @more member members text others isMember _ inductionHypothesis =>
    obtain ⟨key, value⟩ := member
    have here := written key value List.mem_cons_self
    rw [List.map_append, List.map_cons, List.append_assoc, List.cons_append]
    by_cases known : key ∈ fieldNames [field]
    · rw [if_pos known] at here
      exact refused known isJoint isMember here _
    · rw [if_neg known] at here
      obtain ⟨gap, isGap, read⟩ := membersOf_read isJoint isMember (fieldReader_unknown known _)
        ((skipValue_answers here).map fun _ => (([] : List String), blank)) (ends_comma _)
      have elsewhere : field.name ∈ members.map Prod.fst := by
        refine (List.mem_cons.mp present).resolve_left fun same => known ?_
        exact List.mem_singleton.mpr same.symm
      obtain ⟨fault, further⟩ := inductionHypothesis (.comma isGap)
        (fun key value member => written key value (List.mem_cons_of_mem _ member)) elsewhere
      rw [List.map_append, List.append_assoc] at further
      exact ⟨fault, read.trans further⟩

/-- A record with one field is refused in every layout if the value of the field is. -/
theorem recordReader_refuses {Says : String → Option (List Char) → Prop}
    (refuses : ∀ held, Says field.name held →
      ∃ value, held = some value ∧ Starts value ∧ field.reader.Refuses value)
    (writes : WritesRecord (fieldNames [field]) Says raw) (blank : Record) :
    (recordReader [field] blank).Refuses raw := by
  intro gap rest isGap
  cases writes with
  | @object members _ isObject _ written missing =>
    -- The field never says nothing, so it is among the members.
    have present : field.name ∈ members.map Prod.fst := by
      by_contra absent
      obtain ⟨_, none, _⟩ := refuses none (missing field.name List.mem_cons_self absent)
      cases none
    have refusesMembers : ∀ key value, (key, value) ∈ members →
        if key ∈ fieldNames [field] then field.reader.Refuses value else IsValue value := by
      intro key value member
      have here := written key value member
      by_cases known : key ∈ fieldNames [field]
      · rw [if_pos known] at here ⊢
        obtain rfl : key = field.name := List.mem_singleton.mp known
        obtain ⟨_, same, _, refused⟩ := refuses _ here
        rwa [Option.some.inj same]
      · rw [if_neg known] at here ⊢
        exact here
    obtain ⟨_, _, rfl, _⟩ | ⟨inside, separated, rfl⟩ := isObject
    · exact absurd present List.not_mem_nil
    · obtain ⟨fault, refused⟩ := membersOf_refuses separated .first refusesMembers present blank
        rest
      refine ⟨fault, ?_⟩
      rw [List.map_nil, List.nil_append] at refused
      simp only [List.map_cons, List.map_append, List.map_nil, List.append_assoc, List.cons_append,
        List.nil_append, recordReader, skipGap_append_cons isGap (some '{') rfl, recordFromObject,
        refused]
  | @list values _ isList written =>
    obtain ⟨inside, separated, rfl⟩ := isList
    obtain _ | ⟨here, _ | _⟩ := written
    obtain ⟨_, same, starts, refused⟩ := refuses _ here
    obtain rfl := Option.some.inj same
    cases separated with
    | more _ nothing => cases nothing
    | last isElement =>
      obtain ⟨before, behind, gapBefore, _, rfl⟩ := isElement
      obtain ⟨fault, read⟩ := refused [] (behind.map some ++ some ']' :: rest)
        (List.forall_mem_nil _)
      have element := nextElement_element .first gapBefore starts
        (behind.map some ++ some ']' :: rest)
      rw [List.map_nil, List.nil_append] at read element
      refine ⟨fault, ?_⟩
      simp only [List.map_cons, List.map_append, List.map_nil, List.append_assoc, List.cons_append,
        List.nil_append, recordReader, skipGap_append_cons isGap (some '[') rfl, recordFromList,
        element, read]

end

end NodeTelemetry.Json
