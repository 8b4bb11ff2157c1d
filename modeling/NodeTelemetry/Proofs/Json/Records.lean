/-
This file shows how records are read from objects and from lists. `Runs` says what becomes of the
members of an object one after the other and `Fills` what becomes of the elements of a list, both on
the texts of the values alone; that the readers follow them is proved once for every layout. A
record whose fields are written once is then the same in whatever order and form they are written,
and one with a field that is written twice is refused.

Layout and meaning are separated in this way. The gaps, commas, quotes and escapes of an object are
dealt with in one induction over its members, in which the reader of each value is only known to
answer the text of the value. From then on there are keys and texts only, and what becomes of them
is a matter of the record: a key that is no field is passed over, one that is seen for the first
time changes the record, and one that was seen before is refused.

Different fields change different components of a record. So where each of them comes once at most,
the order in which they come makes no difference to any component, and a component whose field does
not come keeps the value of the blank record.
-/

import NodeTelemetry.Json.Record
import NodeTelemetry.Proofs.Json.Answers

namespace NodeTelemetry.Json

variable {Record State : Type} {raw : List Char}

/-- What stands between an item and the one before it: nothing in front of the first one. -/
inductive IsJoint : Bool → List Char → Prop
  | first : IsJoint true []
  | comma {gap : List Char} (isGap : IsGap gap) : IsJoint false (gap ++ [','])

/-! ### The members of an object -/

/-- What becomes of a state behind the members of an object, of which only the keys and the texts of
the values matter. -/
inductive Runs (onKey : State → String → Except Fault (Reader State)) :
    State → List (String × List Char) → Except Fault State → Prop
  | nil (state : State) : Runs onKey state [] (.ok state)
  | refused {state : State} {key : String} {value : List Char} {fault : Fault}
      {others : List (String × List Char)} (refuses : onKey state key = .error fault) :
      Runs onKey state ((key, value) :: others) (.error fault)
  | failed {state : State} {key : String} {value : List Char} {reader : Reader State}
      {fault : Fault} {others : List (String × List Char)} (accepts : onKey state key = .ok reader)
      (answers : reader.Answers value (.error fault)) :
      Runs onKey state ((key, value) :: others) (.error fault)
  | read {state next : State} {key : String} {value : List Char} {reader : Reader State}
      {others : List (String × List Char)} {result : Except Fault State}
      (accepts : onKey state key = .ok reader) (answers : reader.Answers value (.ok next))
      (runs : Runs onKey next others result) : Runs onKey state ((key, value) :: others) result

/-- Behind the last member an object is over. -/
theorem nextKey_closer {first : Bool} {gap : List Char} (isGap : IsGap gap) (rest : Input) :
    nextKey first (gap.map some ++ some '}' :: rest) = .ok (.closed, rest) := by
  simp only [nextKey, skipGap_append_cons isGap (some '}') rfl]

/-- A member is found behind its comma by its key, in whatever way this is spelled. -/
theorem nextKey_member {first : Bool} {joint before spelled : List Char} {key : String}
    (isJoint : IsJoint first joint) (isGap : IsGap before) (spells : Spells spelled key.toList)
    (rest : Input) :
    nextKey first (joint.map some ++
        (before.map some ++ some '"' :: (spelled.map some ++ some '"' :: rest))) =
      .ok (.item key, rest) := by
  have decoded := textFrom_of_spells spells [] rest
  simp only [List.reverse_nil, List.map_nil, List.nil_append, String.ofList_toList] at decoded
  have quote := skipGap_append_cons isGap (some '"') rfl
    (spelled.map some ++ some '"' :: rest)
  cases isJoint with
  | first => simp only [List.map_nil, List.nil_append, nextKey, quote, if_true, keyTurn, decoded]
  | comma isGapBefore =>
    simp only [List.map_append, List.map_cons, List.map_nil, List.append_assoc, List.cons_append,
      List.nil_append, nextKey, skipGap_append_cons isGapBefore (some ',') rfl, quote,
      Bool.false_eq_true, if_false, keyTurn, decoded]

theorem takeColon_append {gap : List Char} (isGap : IsGap gap) (rest : Input) :
    takeColon (gap.map some ++ some ':' :: rest) = .ok rest := by
  simp only [takeColon, skipGap_append_cons isGap (some ':') rfl]

section

variable {onKey : State → String → Except Fault (Reader State)} {state : State} {first : Bool}
  {joint text value : List Char} {key : String} {others : List (String × List Char)}
  {result : Except Fault State}

theorem membersOf_closer {gap : List Char} (isGap : IsGap gap) (rest : Input) :
    membersOf onKey state first (gap.map some ++ some '}' :: rest) = .ok (state, rest) := by
  rw [membersOf, nextKey_closer isGap]

/-- One member is read as its key and the text of its value say, and then what follows is. -/
theorem membersOf_member (isJoint : IsJoint first joint) (isMember : IsMember (key, value) text)
    {rest final : Input} (ends : Ends rest) (runs : Runs onKey state ((key, value) :: others) result)
    (goesOn : ∀ (next : State) (gap : List Char), Runs onKey next others result → IsGap gap →
      membersOf onKey next false (gap.map some ++ rest) = result.map (·, final)) :
    membersOf onKey state first (joint.map some ++ (text.map some ++ rest)) =
      result.map (·, final) := by
  obtain ⟨gapBefore, spells, gapBetween, gapAfter, gapBehind⟩ := isMember
  simp only [List.map_append, List.map_cons, List.append_assoc, List.cons_append]
  rw [membersOf, nextKey_member isJoint gapBefore spells]
  cases runs with
  | refused refuses => simp only [refuses, Except.map]
  | failed accepts answers =>
    have read := answers _ _ gapAfter (ends.behind_gap gapBehind)
    simp only [accepts]
    rw [takeColon_append gapBetween]
    dsimp only
    rw [read]
    rfl
  | read accepts answers runs =>
    have read := answers _ _ gapAfter (ends.behind_gap gapBehind)
    simp only [accepts]
    rw [takeColon_append gapBetween]
    dsimp only
    rw [read]
    exact goesOn _ _ runs gapBehind

/-- The members of an object are read as their keys and the texts of their values say, whatever gaps
and escapes they are written with. -/
theorem membersOf_of_runs {members : List (String × List Char)} {inside : List Char}
    (separated : Separated IsMember members inside) (isJoint : IsJoint first joint)
    (runs : Runs onKey state members result) (rest : Input) :
    membersOf onKey state first (joint.map some ++ (inside.map some ++ some '}' :: rest)) =
      result.map (·, rest) := by
  induction separated generalizing state first joint with
  | @last member text isMember =>
    refine membersOf_member isJoint isMember (ends_closer .object rest) runs ?_
    intro next gap runs isGap
    cases runs with
    | nil => exact membersOf_closer isGap rest
  | @more member members text others isMember _ inductionHypothesis =>
    rw [List.map_append, List.map_cons, List.append_assoc, List.cons_append]
    refine membersOf_member isJoint isMember (ends_comma _) runs ?_
    -- The gap behind this value is what stands in front of the next comma.
    intro next gap runs isGap
    have further := inductionHypothesis (.comma isGap) runs
    rw [List.map_append, List.append_assoc] at further
    exact further

end

/-! ### The elements of a list -/

/-- What becomes of a record behind the elements of a list, of which only the texts matter. -/
inductive Fills : List (Field Record) → Record → List (List Char) → Except Fault Record → Prop
  | nil (record : Record) : Fills [] record [] (.ok record)
  | failed {field : Field Record} {fields : List (Field Record)} {record : Record}
      {value : List Char} {values : List (List Char)} {fault : Fault} (starts : Starts value)
      (answers : field.reader.Answers value (.error fault)) :
      Fills (field :: fields) record (value :: values) (.error fault)
  | read {field : Field Record} {fields : List (Field Record)} {record : Record}
      {change : Record → Record} {value : List Char} {values : List (List Char)}
      {result : Except Fault Record} (starts : Starts value)
      (answers : field.reader.Answers value (.ok change))
      (fills : Fills fields (change record) values result) :
      Fills (field :: fields) record (value :: values) result

/-- An element is found behind its comma, with the gap in front of it left out. -/
theorem nextElement_element {first : Bool} {joint before value : List Char}
    (isJoint : IsJoint first joint) (isGap : IsGap before) (starts : Starts value) (rest : Input) :
    nextElement first (joint.map some ++ (before.map some ++ (value.map some ++ rest))) =
      .ok (.item (), value.map some ++ rest) := by
  have begins := skipGap_of_starts isGap starts rest
  obtain ⟨character, others, rfl, isFirst⟩ := starts
  have notBracket : character ≠ ']' := isFirst.ne (by decide) rfl
  have notComma : character ≠ ',' := isFirst.ne (by decide) rfl
  cases isJoint with
  | first =>
    rw [List.map_nil, List.nil_append, nextElement, begins, List.map_cons, List.cons_append]
    split
    · next same => exact absurd (Option.some.inj (List.cons.inj same).1) notBracket
    · next same => exact absurd (Option.some.inj (List.cons.inj same).1) notComma
    · next empty => cases empty
    · rfl
  | comma isGapBefore =>
    simp only [List.map_append, List.map_cons, List.map_nil, List.append_assoc, List.cons_append,
      List.nil_append] at begins ⊢
    simp only [nextElement, skipGap_append_cons isGapBefore (some ',') rfl, begins,
      Bool.false_eq_true, if_false]
    split
    · next empty => cases empty
    · next same => exact absurd (Option.some.inj (List.cons.inj same).1) notBracket
    · rfl

section

variable {fields : List (Field Record)} {record : Record} {first : Bool}
  {joint text value : List Char} {values : List (List Char)} {result : Except Fault Record}

theorem recordFromList_nil {gap : List Char} (isGap : IsGap gap) (rest : Input) :
    recordFromList [] record first (gap.map some ++ some ']' :: rest) = .ok (record, rest) := by
  simp only [recordFromList, endList, skipGap_append_cons isGap (some ']') rfl]

/-- One element is read as its text says, and then what follows is. -/
theorem recordFromList_element (isJoint : IsJoint first joint) (isElement : IsElement value text)
    {rest final : Input} (ends : Ends rest) (fills : Fills fields record (value :: values) result)
    (goesOn : ∀ (others : List (Field Record)) (next : Record) (gap : List Char),
      Fills others next values result → IsGap gap →
      recordFromList others next false (gap.map some ++ rest) = result.map (·, final)) :
    recordFromList fields record first (joint.map some ++ (text.map some ++ rest)) =
      result.map (·, final) := by
  obtain ⟨before, behind, gapBefore, gapBehind, rfl⟩ := isElement
  simp only [List.map_append, List.append_assoc]
  cases fills with
  | failed starts answers =>
    have read := answers [] _ (List.forall_mem_nil _) (ends.behind_gap gapBehind)
    rw [List.map_nil, List.nil_append] at read
    simp only [recordFromList, nextElement_element isJoint gapBefore starts, read, Except.map]
  | read starts answers fills =>
    have read := answers [] _ (List.forall_mem_nil _) (ends.behind_gap gapBehind)
    rw [List.map_nil, List.nil_append] at read
    simp only [recordFromList, nextElement_element isJoint gapBefore starts, read, Except.map]
    exact goesOn _ _ _ fills gapBehind

/-- The elements of a list are read as their texts say, whatever gaps they are written with. -/
theorem recordFromList_of_fills {inside : List Char} (separated : Separated IsElement values inside)
    (isJoint : IsJoint first joint) (fills : Fills fields record values result) (rest : Input) :
    recordFromList fields record first (joint.map some ++ (inside.map some ++ some ']' :: rest)) =
      result.map (·, rest) := by
  induction separated generalizing fields record first joint with
  | last isElement =>
    refine recordFromList_element isJoint isElement (ends_closer .list rest) fills ?_
    intro others next gap fills isGap
    cases fills with
    | nil => exact recordFromList_nil isGap rest
  | more isElement _ inductionHypothesis =>
    rw [List.map_append, List.map_cons, List.append_assoc, List.cons_append]
    refine recordFromList_element isJoint isElement (ends_comma _) fills ?_
    intro others next gap fills isGap
    have further := inductionHypothesis (.comma isGap) fills
    rw [List.map_append, List.append_assoc] at further
    exact further

end

/-! ### Objects and lists as records -/

section

variable {fields : List (Field Record)} {blank : Record}

/-- A record is read from an object as its members say. -/
theorem recordReader_object {members : List (String × List Char)} (isObject : IsObject members raw)
    {result : Except Fault (List String × Record)}
    (runs : Runs (fieldReader fields) ([], blank) members result) :
    (recordReader fields blank).Answers raw (result.map Prod.snd) := by
  intro gap rest isGap _
  have behindBrace {inside : List Char} (read : membersOf (fieldReader fields) ([], blank) true
      (inside.map some ++ some '}' :: rest) = result.map (·, rest)) :
      (recordReader fields blank).read
          (gap.map some ++ (('{' :: (inside ++ ['}'])).map some ++ rest)) =
        (result.map Prod.snd).map (·, rest) := by
    simp only [List.map_cons, List.map_append, List.map_nil, List.append_assoc, List.cons_append,
      List.nil_append, recordReader, skipGap_append_cons isGap (some '{') rfl,
      recordFromObject, read]
    cases result with
    | error fault => rfl
    | ok state => rfl
  obtain ⟨inside, isGapInside, rfl, rfl⟩ | ⟨inside, separated, rfl⟩ := isObject
  · cases runs with
    | nil => exact behindBrace (membersOf_closer isGapInside rest)
  · exact behindBrace (membersOf_of_runs separated .first runs rest)

/-- A record is read from a list as its elements say. -/
theorem recordReader_list {values : List (List Char)} (isList : IsList values raw)
    {result : Except Fault Record} (fills : Fills fields blank values result) :
    (recordReader fields blank).Answers raw result := by
  intro gap rest isGap _
  obtain ⟨inside, separated, rfl⟩ := isList
  have read := recordFromList_of_fills separated .first fills rest
  rw [List.map_nil, List.nil_append] at read
  simp only [List.map_cons, List.map_append, List.map_nil, List.append_assoc, List.cons_append,
    List.nil_append, recordReader, skipGap_append_cons isGap (some '[') rfl, read]

end

/-! ### Fields by their names -/

/-- The names of the fields of a record. -/
def fieldNames (fields : List (Field Record)) : List String :=
  fields.map (·.name)

/-- The fields that are held by an object with some members, in the order of these. -/
def heldFields (fields : List (Field Record)) (members : List (String × List Char)) : List String :=
  (members.map Prod.fst).filter (· ∈ fieldNames fields)

section

variable {fields : List (Field Record)} {key : String} {value : List Char}

theorem heldFields_of_mem (known : key ∈ fieldNames fields) (others : List (String × List Char)) :
    heldFields fields ((key, value) :: others) = key :: heldFields fields others :=
  List.filter_cons_of_pos (by simpa using known)

theorem heldFields_of_notMem (unknown : key ∉ fieldNames fields)
    (others : List (String × List Char)) :
    heldFields fields ((key, value) :: others) = heldFields fields others :=
  List.filter_cons_of_neg (by simpa using unknown)

/-- A key that is no field has its value passed over. -/
theorem fieldReader_unknown (unknown : key ∉ fieldNames fields) (state : List String × Record) :
    fieldReader fields state key = .ok (skipValue.map fun _ => state) := by
  have none : fields.find? (·.name == key) = none := by
    rw [List.find?_eq_none]
    intro field member same
    exact unknown (List.mem_map.mpr ⟨field, member, eq_of_beq same⟩)
  rw [fieldReader, none]

/-- A key that is a field is read with the reader of the field, unless it was seen already. -/
theorem exists_fieldReader (known : key ∈ fieldNames fields) :
    ∃ field ∈ fields, field.name = key ∧ ∀ state : List String × Record,
      fieldReader fields state key = if state.1.contains key then .error .misfit
        else .ok (field.reader.map fun change => (key :: state.1, change state.2)) := by
  obtain ⟨named, member, rfl⟩ := List.mem_map.mp known
  cases found : fields.find? (·.name == named.name) with
  | none => exact absurd (List.find?_eq_none.mp found named member) (by simp)
  | some field =>
    refine ⟨field, List.mem_of_find?_eq_some found, eq_of_beq (List.find?_some found :), ?_⟩
    intro state
    rw [fieldReader, found]

/-- A member that is no field leaves everything as it is. -/
theorem runs_unknown {state : List String × Record} {others : List (String × List Char)}
    {result : Except Fault (List String × Record)} (unknown : key ∉ fieldNames fields)
    (isValue : IsValue value) (runs : Runs (fieldReader fields) state others result) :
    Runs (fieldReader fields) state ((key, value) :: others) result :=
  .read (fieldReader_unknown unknown state) ((skipValue_answers isValue).map _) runs

/-- Whether no field comes twice among keys or comes among them after it was seen. -/
structure EachOnce (fields : List (Field Record)) (seen keys : List String) : Prop where
  once : ∀ name ∈ fieldNames fields, keys.count name ≤ 1
  fresh : ∀ name ∈ seen, name ∉ keys

theorem EachOnce.behind {seen keys : List String} (eachOnce : EachOnce fields seen (key :: keys)) :
    EachOnce fields seen keys where
  once name known := Nat.le_trans (List.count_le_count_cons ..) (eachOnce.once name known)
  fresh name member further := eachOnce.fresh name member (List.mem_cons_of_mem key further)

theorem EachOnce.behind_field {seen keys : List String}
    (eachOnce : EachOnce fields seen (key :: keys)) (known : key ∈ fieldNames fields) :
    EachOnce fields (key :: seen) keys := by
  have count := eachOnce.once key known
  rw [List.count_cons_self] at count
  have single : key ∉ keys := List.count_eq_zero.mp (by omega)
  exact ⟨eachOnce.behind.once, List.forall_mem_cons.mpr ⟨single, eachOnce.behind.fresh⟩⟩

/-- A field that comes for the first time is read with its reader. -/
theorem EachOnce.exists_fieldReader {seen keys : List String}
    (eachOnce : EachOnce fields seen (key :: keys)) (known : key ∈ fieldNames fields) :
    ∃ field ∈ fields, field.name = key ∧ ∀ record, fieldReader fields (seen, record) key =
      .ok (field.reader.map fun change => (key :: seen, change record)) := by
  obtain ⟨field, member, named, reads⟩ := Json.exists_fieldReader known
  have unseen : key ∉ seen := fun among => eachOnce.fresh key among List.mem_cons_self
  refine ⟨field, member, named, fun record => ?_⟩
  rw [reads, List.contains_eq_mem, decide_eq_false unseen]
  rfl

/-- The fields among the members of an object change the record one after the other, if none of them
is there twice. -/
theorem runs_of_once (put : String → Record → Record) (members : List (String × List Char))
    (seen : List String) (record : Record)
    (eachOnce : EachOnce fields seen (members.map Prod.fst))
    (written : ∀ key value, (key, value) ∈ members → if key ∈ fieldNames fields then
      ∀ field ∈ fields, field.name = key → field.reader.Answers value (.ok (put key))
      else IsValue value) :
    ∃ seenToo, Runs (fieldReader fields) (seen, record) members
      (.ok (seenToo, (heldFields fields members).foldl (fun record key => put key record)
        record)) := by
  induction members generalizing seen record with
  | nil => exact ⟨seen, .nil _⟩
  | cons member others inductionHypothesis =>
    obtain ⟨key, value⟩ := member
    have writtenToo := fun key value member => written key value (List.mem_cons_of_mem _ member)
    have here := written key value List.mem_cons_self
    by_cases known : key ∈ fieldNames fields
    · obtain ⟨field, member, named, accepts⟩ := eachOnce.exists_fieldReader known
      rw [if_pos known] at here
      obtain ⟨seenToo, runs⟩ := inductionHypothesis (key :: seen) (put key record)
        (eachOnce.behind_field known) writtenToo
      rw [heldFields_of_mem known]
      exact ⟨seenToo, .read (accepts record) ((here field member named).map _) runs⟩
    · rw [if_neg known] at here
      obtain ⟨seenToo, runs⟩ := inductionHypothesis seen record eachOnce.behind writtenToo
      rw [heldFields_of_notMem known]
      exact ⟨seenToo, runs_unknown known here runs⟩

/-- Whether a name comes again among keys that follow those seen already. -/
def ComesAgain (seen keys : List String) (name : String) : Prop :=
  name ∈ keys ∧ (name ∈ seen ∨ 2 ≤ keys.count name)

theorem ComesAgain.behind_other {seen keys : List String} {name other : String}
    (again : ComesAgain seen (other :: keys) name) (different : other ≠ name) :
    ComesAgain seen keys name := by
  obtain ⟨member, twice⟩ := again
  rw [List.count_cons_of_ne different] at twice
  exact ⟨List.mem_of_ne_of_mem different.symm member, twice⟩

/-- A name that comes again still does behind one that is seen for the first time. -/
theorem ComesAgain.behind_seen {seen keys : List String} {name other : String}
    (again : ComesAgain seen (other :: keys) name) (unseen : other ∉ seen) :
    ComesAgain (other :: seen) keys name := by
  by_cases same : other = name
  · subst same
    have twice := again.2.resolve_left unseen
    rw [List.count_cons_self] at twice
    exact ⟨List.count_pos_iff.mp (by omega), .inl List.mem_cons_self⟩
  · obtain ⟨member, twice⟩ := again.behind_other same
    exact ⟨member, twice.imp_left (List.mem_cons_of_mem other)⟩

/-- An object in which a field is there twice, or in which the value of one is refused, is refused
itself if nothing else is wrong with it. -/
theorem runs_misfit {Fits Repeats : String → List Char → Prop}
    (fits : ∀ field ∈ fields, ∀ value, Fits field.name value →
      ∃ change, field.reader.Answers value (.ok change))
    (refuses : ∀ field ∈ fields, ∀ value, Repeats field.name value →
      field.reader.Answers value (.error .misfit))
    (members : List (String × List Char)) (state : List String × Record)
    (written : ∀ key value, (key, value) ∈ members →
      if key ∈ fieldNames fields then Fits key value ∨ Repeats key value else IsValue value)
    (repeats : (∃ name ∈ fieldNames fields, ComesAgain state.1 (members.map Prod.fst) name) ∨
      ∃ key value, (key, value) ∈ members ∧ key ∈ fieldNames fields ∧ Repeats key value) :
    Runs (fieldReader fields) state members (.error .misfit) := by
  induction members generalizing state with
  | nil =>
    rcases repeats with ⟨name, _, member, _⟩ | ⟨key, value, member, _⟩
    · exact absurd member List.not_mem_nil
    · exact absurd member List.not_mem_nil
  | cons member others inductionHypothesis =>
    obtain ⟨key, value⟩ := member
    have writtenToo := fun key value member => written key value (List.mem_cons_of_mem _ member)
    have here := written key value List.mem_cons_self
    by_cases known : key ∈ fieldNames fields
    · obtain ⟨field, member, rfl, reads⟩ := exists_fieldReader known
      rw [if_pos known] at here
      -- Of two members with one name the first is read like any other, and the second is refused.
      by_cases among : field.name ∈ state.1
      · exact .refused (by rw [reads, List.contains_eq_mem, decide_eq_true among, if_pos rfl])
      have accepts : fieldReader fields state field.name = .ok
          (field.reader.map fun change => (field.name :: state.1, change state.2)) := by
        rw [reads, List.contains_eq_mem, decide_eq_false among]
        rfl
      by_cases refused : Repeats field.name value
      · exact .failed accepts ((refuses field member value refused).map _)
      obtain ⟨change, answers⟩ := fits field member value (here.resolve_right refused)
      refine .read accepts (answers.map _) (inductionHypothesis _ writtenToo ?_)
      rcases repeats with ⟨name, isField, again⟩ | ⟨key, inner, member, isField, repeats⟩
      · exact .inl ⟨name, isField, again.behind_seen among⟩
      · rcases List.mem_cons.mp member with same | further
        · cases same
          exact absurd repeats refused
        · exact .inr ⟨key, inner, further, isField, repeats⟩
    · rw [if_neg known] at here
      refine runs_unknown known here (inductionHypothesis state writtenToo ?_)
      rcases repeats with ⟨name, isField, again⟩ | ⟨other, inner, member, isField, repeats⟩
      · refine .inl ⟨name, isField, again.behind_other ?_⟩
        rintro rfl
        exact known isField
      · rcases List.mem_cons.mp member with same | further
        · cases same
          exact absurd isField known
        · exact .inr ⟨other, inner, further, isField, repeats⟩

/-- The elements of a list change the record one after the other, in the order of the fields. -/
theorem fills_of_forall₂ {Says : String → List Char → Prop} {put : String → Record → Record}
    (reads : ∀ field ∈ fields, ∀ value, Says field.name value →
      Starts value ∧ field.reader.Answers value (.ok (put field.name)))
    {values : List (List Char)}
    (written : List.Forall₂ (fun field value => Says field.name value) fields values)
    (record : Record) : Fills fields record values
      (.ok ((fieldNames fields).foldl (fun record key => put key record) record)) := by
  induction written generalizing record with
  | nil => exact .nil record
  | @cons field value fields values here _ inductionHypothesis =>
    obtain ⟨starts, answers⟩ := reads field List.mem_cons_self value here
    exact .read starts answers (inductionHypothesis
      (fun other member => reads other (List.mem_cons_of_mem field member)) _)

/-- A list in which the value of one field is refused is refused itself. -/
theorem fills_misfit {Fits Repeats : String → List Char → Prop}
    (starts : ∀ field ∈ fields, ∀ value, Fits field.name value ∨ Repeats field.name value →
      Starts value)
    (fits : ∀ field ∈ fields, ∀ value, Fits field.name value →
      ∃ change, field.reader.Answers value (.ok change))
    (refuses : ∀ field ∈ fields, ∀ value, Repeats field.name value →
      field.reader.Answers value (.error .misfit))
    {values : List (List Char)} (written : List.Forall₂ (fun field value =>
      Fits field.name value ∨ Repeats field.name value) fields values)
    (repeats : ∃ field value, (field, value) ∈ fields.zip values ∧ Repeats field.name value)
    (record : Record) : Fills fields record values (.error .misfit) := by
  induction written generalizing record with
  | nil =>
    obtain ⟨_, _, member, _⟩ := repeats
    exact absurd member List.not_mem_nil
  | @cons field value fields values here _ inductionHypothesis =>
    have begins := starts field List.mem_cons_self value here
    by_cases refused : Repeats field.name value
    · exact .failed begins (refuses field List.mem_cons_self value refused)
    obtain ⟨change, answers⟩ := fits field List.mem_cons_self value (here.resolve_right refused)
    refine .read begins answers (inductionHypothesis
      (fun other member => starts other (List.mem_cons_of_mem field member))
      (fun other member => fits other (List.mem_cons_of_mem field member))
      (fun other member => refuses other (List.mem_cons_of_mem field member)) ?_ _)
    obtain ⟨other, inner, member, repeats⟩ := repeats
    rcases List.mem_cons.mp member with same | further
    · cases same
      exact absurd repeats refused
    · exact ⟨other, inner, further, repeats⟩

end

/-! ### Records in every layout -/

/-- A component of a record that is set under one name only has in the end the value that is set
there, unless the name is not among the keys and the component had another value before. -/
theorem get_foldl {Component : Type} (get : Record → Component) {put : String → Record → Record}
    {name : String} {value : Component} (sets : ∀ record, get (put name record) = value)
    (keeps : ∀ other, other ≠ name → ∀ record, get (put other record) = get record)
    (keys : List String) {record : Record} (absent : name ∉ keys → get record = value) :
    get (keys.foldl (fun record key => put key record) record) = value := by
  induction keys generalizing record with
  | nil => exact absent List.not_mem_nil
  | cons key others inductionHypothesis =>
    refine inductionHypothesis fun unwritten => ?_
    by_cases same : key = name
    · subst same
      exact sets record
    · rw [keeps key same]
      exact absent fun member => unwritten (List.mem_of_ne_of_mem (Ne.symm same) member)

theorem begins_of_isObject {members : List (String × List Char)} (isObject : IsObject members raw) :
    Begins raw := by
  obtain ⟨_, _, _, rfl⟩ | ⟨_, _, rfl⟩ := isObject
  · exact ⟨'{', _, rfl, .inl (by decide), by decide⟩
  · exact ⟨'{', _, rfl, .inl (by decide), by decide⟩

theorem begins_of_isList {values : List (List Char)} (isList : IsList values raw) : Begins raw := by
  obtain ⟨_, _, rfl⟩ := isList
  exact ⟨'[', _, rfl, .inl (by decide), by decide⟩

/-- A record does not begin as `null` does. -/
theorem begins_of_writesRecord {names : List String} {Says : String → Option (List Char) → Prop}
    (writes : WritesRecord names Says raw) : Begins raw := by
  cases writes with
  | object isObject => exact begins_of_isObject isObject
  | list isList => exact begins_of_isList isList

/-- What is written stays written if its fields say less. -/
theorem WritesRecord.imp {names : List String} {Says SaysToo : String → Option (List Char) → Prop}
    (writes : WritesRecord names Says raw)
    (weaker : ∀ name held, Says name held → SaysToo name held) :
    WritesRecord names SaysToo raw := by
  cases writes with
  | object isObject once written missing =>
    refine .object isObject once (fun key value member => ?_)
      fun name known absent => weaker name none (missing name known absent)
    have here := written key value member
    by_cases known : key ∈ names
    · rw [if_pos known] at here ⊢
      exact weaker key _ here
    · rw [if_neg known] at here ⊢
      exact here
  | list isList written => exact .list isList (written.imp fun _ _ => weaker _ _)

theorem begins_of_repeatsField {names : List String} {Fits Repeats : String → List Char → Prop}
    (repeats : RepeatsField names Fits Repeats raw) : Begins raw := by
  cases repeats with
  | object isObject => exact begins_of_isObject isObject
  | list isList => exact begins_of_isList isList

section

variable {fields : List (Field Record)} {blank : Record}

/-- A record is read as what its fields say, whatever its layout. What each field says is what it
puts into the record, and the fields that are missing leave it blank. -/
theorem recordReader_of_writesRecord {Says : String → Option (List Char) → Prop}
    (put : String → Record → Record) {record : Record}
    (reads : ∀ field ∈ fields, ∀ value, Says field.name (some value) →
      Starts value ∧ field.reader.Answers value (.ok (put field.name)))
    (whole : ∀ keys : List String, (∀ name ∈ fieldNames fields, name ∉ keys → Says name none) →
      keys.foldl (fun record key => put key record) blank = record)
    (writes : WritesRecord (fieldNames fields) Says raw) :
    (recordReader fields blank).Answers raw (.ok record) := by
  cases writes with
  | @object members _ isObject once written missing =>
    have complete : (heldFields fields members).foldl (fun record key => put key record) blank =
        record := by
      refine whole _ fun name known absent => missing name known fun member => absent ?_
      exact List.mem_filter.mpr ⟨member, decide_eq_true known⟩
    have answered : ∀ key value, (key, value) ∈ members → if key ∈ fieldNames fields then
        ∀ field ∈ fields, field.name = key → field.reader.Answers value (.ok (put key))
        else IsValue value := by
      intro key value member
      have here := written key value member
      by_cases known : key ∈ fieldNames fields
      · rw [if_pos known] at here ⊢
        rintro field isField rfl
        exact (reads field isField value here).2
      · rw [if_neg known] at here ⊢
        exact here
    obtain ⟨seen, runs⟩ := runs_of_once put members [] blank ⟨once, List.forall_mem_nil _⟩
      answered
    rw [complete] at runs
    exact recordReader_object isObject runs
  | list isList written =>
    have fills := fills_of_forall₂ reads (List.forall₂_map_left_iff.mp written) blank
    rw [whole _ fun name known absent => absurd known absent] at fills
    exact recordReader_list isList fills

/-- A record in which a field is held twice is refused, whatever its layout. -/
theorem recordReader_of_repeatsField {Fits Repeats : String → List Char → Prop}
    (fits : ∀ field ∈ fields, ∀ value, Fits field.name value →
      Starts value ∧ ∃ change, field.reader.Answers value (.ok change))
    (refuses : ∀ field ∈ fields, ∀ value, Repeats field.name value →
      Starts value ∧ field.reader.Answers value (.error .misfit))
    (repeats : RepeatsField (fieldNames fields) Fits Repeats raw) :
    (recordReader fields blank).Answers raw (.error .misfit) := by
  cases repeats with
  | @object members _ isObject written repeats =>
    refine recordReader_object isObject (runs_misfit (fun field member value fit =>
      (fits field member value fit).2) (fun field member value repeats =>
      (refuses field member value repeats).2) members _ written ?_)
    refine repeats.imp_left ?_
    rintro ⟨name, known, twice⟩
    exact ⟨name, known, List.count_pos_iff.mp (by omega), .inr twice⟩
  | @list values _ isList written repeats =>
    refine recordReader_list isList (fills_misfit ?_ (fun field member value fit =>
      (fits field member value fit).2) (fun field member value repeats =>
      (refuses field member value repeats).2) (List.forall₂_map_left_iff.mp written) ?_ blank)
    · rintro field member value (fit | repeats)
      · exact (fits field member value fit).1
      · exact (refuses field member value repeats).1
    · obtain ⟨name, value, member, repeats⟩ := repeats
      rw [fieldNames, List.zip_map_left] at member
      obtain ⟨pair, among, same⟩ := List.mem_map.mp member
      obtain ⟨rfl, rfl⟩ := Prod.mk.inj same
      exact ⟨pair.1, pair.2, among, repeats⟩

end

end NodeTelemetry.Json
