/-
This file shows that a record is refused for what is wrong with one of its fields, whatever its
layout and wherever the field stands, and that the fault is the one that the reader of the field
finds.

A record is read member by member or element by element. In front of the field that is wrong each
member is answered by its own reader, or passed over if nobody knows its key, so the reading comes
to that field in the end, wherever it stands. There the reader of the field finds its fault, and a
fault ends the reading of the whole record. The induction is over the members in front of the field,
and the field must be among them, since a missing field is another fault.
-/

import NodeTelemetry.Proofs.Json.Records

namespace NodeTelemetry.Json

variable {Record : Type} {fields : List (Field Record)} {name : String} {fault : Fault}

/-- What the reader of a field makes of a text: a fault if it is the field with some name, else a
change. -/
def Field.Meets (field : Field Record) (name : String) (fault : Fault) (value : List Char) : Prop :=
  Starts value ∧ if field.name = name then field.reader.Answers value (.error fault)
    else ∃ change, field.reader.Answers value (.ok change)

theorem Field.Meets.refuses {field : Field Record} {value : List Char}
    (meets : field.Meets name fault value) (named : field.name = name) :
    field.reader.Answers value (.error fault) := by
  have answers := meets.2
  rwa [if_pos named] at answers

theorem Field.Meets.accepts {field : Field Record} {value : List Char}
    (meets : field.Meets name fault value) (other : field.name ≠ name) :
    ∃ change, field.reader.Answers value (.ok change) := by
  have answers := meets.2
  rwa [if_neg other] at answers

/-- The members of an object in front of the refused field are read, and then there is the fault. -/
theorem runs_error (members : List (String × List Char)) (state : List String × Record)
    (eachOnce : EachOnce fields state.1 (members.map Prod.fst))
    (written : ∀ key value, (key, value) ∈ members → if key ∈ fieldNames fields then
      ∀ field ∈ fields, field.name = key → field.Meets name fault value else IsValue value)
    (known : name ∈ fieldNames fields) (present : name ∈ members.map Prod.fst) :
    Runs (fieldReader fields) state members (.error fault) := by
  induction members generalizing state with
  | nil => exact absurd present List.not_mem_nil
  | cons member others inductionHypothesis =>
    obtain ⟨key, value⟩ := member
    have writtenToo := fun key value member => written key value (List.mem_cons_of_mem _ member)
    have here := written key value List.mem_cons_self
    by_cases isField : key ∈ fieldNames fields
    · obtain ⟨field, member, rfl, accepts⟩ := eachOnce.exists_fieldReader isField
      rw [if_pos isField] at here
      by_cases named : field.name = name
      · exact .failed (accepts state.2) (((here field member rfl).refuses named).map _)
      · obtain ⟨change, answers⟩ := (here field member rfl).accepts named
        exact .read (accepts state.2) (answers.map _) (inductionHypothesis _
          (eachOnce.behind_field isField) writtenToo
          (List.mem_of_ne_of_mem (Ne.symm named) present))
    · rw [if_neg isField] at here
      have elsewhere : name ≠ key := fun same => isField (same ▸ known)
      exact runs_unknown isField here (inductionHypothesis state eachOnce.behind writtenToo
        (List.mem_of_ne_of_mem elsewhere present))

/-- The elements of a list in front of the refused field are read, and then there is the fault. -/
theorem fills_error {values : List (List Char)}
    (written : List.Forall₂ (fun field value => field.Meets name fault value) fields values)
    (known : name ∈ fieldNames fields) (record : Record) :
    Fills fields record values (.error fault) := by
  induction written generalizing record with
  | nil => exact absurd known List.not_mem_nil
  | @cons field value fields values meets _ inductionHypothesis =>
    by_cases named : field.name = name
    · exact .failed meets.1 (meets.refuses named)
    · obtain ⟨change, answers⟩ := meets.accepts named
      exact .read meets.1 answers
        (inductionHypothesis (List.mem_of_ne_of_mem (Ne.symm named) known) _)

/-- A record is refused for the value of one field if nothing else is wrong with it. -/
theorem recordReader_error (name : String) {Says : String → Option (List Char) → Prop}
    {raw : List Char} (known : name ∈ fieldNames fields) (held : ¬Says name none)
    (meets : ∀ field ∈ fields, ∀ value, Says field.name (some value) → field.Meets name fault value)
    (writes : WritesRecord (fieldNames fields) Says raw) (blank : Record) :
    (recordReader fields blank).Answers raw (.error fault) := by
  cases writes with
  | @object members _ isObject once written missing =>
    have present : name ∈ members.map Prod.fst := by
      by_contra absent
      exact held (missing name known absent)
    refine recordReader_object isObject (runs_error members ([], blank)
      ⟨once, List.forall_mem_nil _⟩ (fun key value member => ?_) known present)
    have here := written key value member
    by_cases isField : key ∈ fieldNames fields
    · rw [if_pos isField] at here ⊢
      rintro field among rfl
      exact meets field among value here
    · rw [if_neg isField] at here ⊢
      exact here
  | list isList written =>
    have fieldsSay := (List.forall₂_and_left _ _).mpr ⟨meets, List.forall₂_map_left_iff.mp written⟩
    exact recordReader_list isList
      (fills_error (fieldsSay.imp fun _ value both => both.1 value both.2) known blank)

end NodeTelemetry.Json
