/-
This file shows that lists, objects and records are over with their closing bracket and not before.
Whatever is read inside them looks ahead by one character at most, and there always is one, so the
bracket is found at the same place whatever follows it. An input that such a value fills is
therefore no longer one if it is cut off anywhere in front of its last bracket.

The argument runs backwards. If an input that was cut off were still read, then what was taken off
it would be taken off the whole input as well, since a bracket ends the value without a look at what
follows. So both would leave off at the same bracket, but the whole input leaves off at its last
one, which was cut away. All that remains to be shown is that each reader leaves off in this way,
and this follows the readers: elements and members are taken one after the other, each with a look
ahead of one character, which is still there because the bracket comes later.

At the place of the cut there may be part of a character, which decoding replaces. It is neither a
bracket nor a gap, so it cannot end a value and cannot stand behind one.
-/

import NodeTelemetry.Json.Value
import NodeTelemetry.Proofs.Json.Lookahead

namespace NodeTelemetry.Json

variable {input middle rest : Input}

/-! ### Brackets -/

/-- Whether an input begins with an opening bracket. -/
def Opens (input : Input) : Prop :=
  ∃ bracket following, (bracket = some '[' ∨ bracket = some '{') ∧
    skipGap input = bracket :: following

def IsCloser (character : Option Char) : Prop :=
  character = some ']' ∨ character = some '}'

/-- Whether something is left of an input behind a closing bracket, without a look at it. -/
def LeftClosed (leaves : Input → Input → Prop) (input rest : Input) : Prop :=
  ∃ before bracket, IsCloser bracket ∧ input = before ++ bracket :: rest ∧
    ∀ others, leaves (before ++ bracket :: others) others

section Closing

variable {leaves first second both : Input → Input → Prop}

/-- A closing bracket is a mark of one's own, behind which nothing is looked at. -/
theorem LeftClosed.unseen (left : LeftClosed leaves input rest) : LeftUnseen leaves input rest := by
  obtain ⟨before, bracket, _, same, all⟩ := left
  refine ⟨before ++ [bracket], same.trans (List.append_cons ..), fun others => ?_⟩
  rw [← List.append_cons]
  exact all others

/-- A gap in front of a closing bracket is over with the bracket. -/
theorem leftClosed_skipGap {bracket : Option Char} (isCloser : IsCloser bracket)
    (skipped : skipGap input = bracket :: rest) :
    LeftClosed (skipGap · = bracket :: ·) input rest := by
  obtain ⟨gap, same, all⟩ := leftAtSight_skipGap_cons skipped
  exact ⟨gap, bracket, isCloser, same, fun others => (all (bracket :: others) rfl).2⟩

/-- What goes on to a closing bracket begins alike whatever follows the bracket. -/
theorem LeftAtSight.followedByClosed (left : LeftAtSight first input middle)
    (leftToo : LeftClosed second middle rest) :
    LeftClosed (Relation.Comp first second) input rest := by
  obtain ⟨taken, rfl, all⟩ := left
  obtain ⟨before, bracket, isCloser, rfl, allToo⟩ := leftToo
  refine ⟨taken ++ before, bracket, isCloser, (List.append_assoc ..).symm, fun others => ?_⟩
  rw [List.append_assoc]
  refine ⟨_, all _ ?_, allToo others⟩
  cases before <;> rfl

theorem LeftClosed.of_imp (left : LeftClosed first input rest)
    (imp : ∀ {input rest}, first input rest → second input rest) : LeftClosed second input rest := by
  obtain ⟨before, bracket, isCloser, same, all⟩ := left
  exact ⟨before, bracket, isCloser, same, fun others => imp (all others)⟩

end Closing

/-! ### Readers of single values -/

/-- Whether a reader looks ahead by one character at most. -/
structure Reader.LooksAhead {Value : Type} (reader : Reader Value) : Prop where
  atSight : ∀ {input rest : Input} {value : Value}, reader.read input = .ok (value, rest) →
    LeftAtSight (Takes reader.read value) input rest

namespace Reader.LooksAhead

variable {First Second Value : Type}

theorem map {reader : Reader First} (looksAhead : reader.LooksAhead) (change : First → Second) :
    (reader.map change).LooksAhead := by
  refine ⟨fun {input rest value} success => ?_⟩
  simp only [Reader.map] at success
  split at success
  next => cases success
  next first behind read =>
    obtain ⟨rfl, rfl⟩ := Prod.mk.inj (Except.ok.inj success)
    refine (looksAhead.atSight read).of_imp fun read => ?_
    simp only [Takes, Reader.map, read]

theorem refine {reader : Reader First} (looksAhead : reader.LooksAhead)
    (accept : First → Option Second) : (reader.refine accept).LooksAhead := by
  refine ⟨fun {input rest value} success => ?_⟩
  simp only [Reader.refine] at success
  split at success
  next => cases success
  next first behind read =>
    split at success
    next => cases success
    next accepts =>
      obtain ⟨rfl, rfl⟩ := Prod.mk.inj (Except.ok.inj success)
      refine (looksAhead.atSight read).of_imp fun read => ?_
      simp only [Takes, Reader.refine, read, accepts]

/-- What is not `null` still is not when something else follows. -/
theorem orNull {reader : Reader Value} (looksAhead : reader.LooksAhead) :
    reader.orNull.LooksAhead := by
  refine ⟨fun {input rest value} success => ?_⟩
  simp only [Reader.orNull] at success
  split at success
  next following skipped =>
    split at success
    next => cases success
    next behind word =>
      obtain ⟨rfl, rfl⟩ := Prod.mk.inj (Except.ok.inj success)
      refine ((leftUnseen_skipGap skipped).followedBy (leftUnseen_takeWord word)).atSight.of_imp ?_
      rintro other rest ⟨_, skipped, word⟩
      simp only [Takes, Reader.orNull, skipped, word]
  next notNull =>
    split at success
    next => cases success
    next value behind read =>
      obtain ⟨rfl, rfl⟩ := Prod.mk.inj (Except.ok.inj success)
      refine (looksAhead.atSight read).behindGap (reader.shorter read) fun alike read => ?_
      simp only [Takes, Reader.orNull]
      split
      next further skipped =>
        rw [skipped] at alike
        obtain ⟨others, same⟩ := List.head?_eq_some_iff.mp alike.symm
        exact absurd same (notNull others)
      next => simp only [read]

end Reader.LooksAhead

/-- A string is over with its quote, which needs no look ahead. -/
theorem textReader_looksAhead : textReader.LooksAhead := by
  refine ⟨fun {input rest value} success => ?_⟩
  simp only [textReader] at success
  split at success
  next following skipped =>
    refine ((leftUnseen_skipGap skipped).followedBy (leftUnseen_textFrom success)).atSight.of_imp ?_
    rintro other rest ⟨_, skipped, read⟩
    simp only [Takes, textReader, skipped, read]
  next => cases success

/-- A number is over where the next character does not go on with it. -/
theorem numberReader_looksAhead : numberReader.LooksAhead := by
  refine ⟨fun {input rest value} success => ?_⟩
  simp only [numberReader] at success
  split at success
  next begins =>
    refine (leftAtSight_takeNumber success).behindGap (Number.length_lt_of_take success)
      fun {other _} alike taken => ?_
    have beginsToo : beginsNumber (skipGap other) = true := by
      obtain ⟨first, others, skipped⟩ : ∃ first others, skipGap input = first :: others := by
        cases skipped : skipGap input with
        | nil => rw [skipped] at begins; cases begins
        | cons first others => exact ⟨first, others, rfl⟩
      rw [skipped] at begins alike
      obtain ⟨further, same⟩ := List.head?_eq_some_iff.mp alike
      rw [same]
      exact begins
    simp only [Takes, numberReader, beginsToo, if_true]
    exact taken
  next => cases success

theorem skipValue_looksAhead : skipValue.LooksAhead := by
  refine ⟨fun {input rest value} success => ?_⟩
  obtain ⟨behind, passed, same⟩ := exists_of_map_eq_ok success
  obtain ⟨rfl, rfl⟩ := Prod.mk.inj same
  refine (leftAtSight_passValueIn passed).of_imp fun passed => ?_
  simp only [Takes, skipValue, passed, Except.map]

/-! ### Lists -/

theorem nextElement_first {character : Option Char} {following : Input}
    (skipped : skipGap input = character :: following) (noCloser : character ≠ some ']') :
    nextElement true input = .ok (.item (), character :: following) := by
  rw [nextElement, skipped]
  split
  next same => exact absurd (List.cons.inj same).1 noCloser
  next same => rw [if_pos rfl, same]
  next empty => cases empty
  next => rw [if_pos rfl]

theorem nextElement_comma {character : Option Char} {following : Input}
    (comma : skipGap input = some ',' :: middle) (skipped : skipGap middle = character :: following)
    (noCloser : character ≠ some ']') :
    nextElement false input = .ok (.item (), character :: following) := by
  simp only [nextElement, comma, skipped, Bool.false_eq_true, if_false]
  split
  next empty => cases empty
  next same => exact absurd (List.cons.inj same).1 noCloser
  next => rfl

/-- All ways to the next element of a list. -/
theorem nextElement_eq_ok {first : Bool} {turn : Turn Unit}
    (next : nextElement first input = .ok (turn, rest)) :
    turn = .closed ∧ skipGap input = some ']' :: rest ∨
      turn = .item () ∧ ∃ character following, rest = character :: following ∧
        character ≠ some ']' ∧
        (first = true ∧ skipGap input = rest ∨
          first = false ∧ ∃ middle, skipGap input = some ',' :: middle ∧ skipGap middle = rest) := by
  unfold nextElement at next
  split at next
  next following skipped =>
    obtain ⟨rfl, rfl⟩ := Prod.mk.inj (Except.ok.inj next)
    exact .inl ⟨rfl, skipped⟩
  next following skipped =>
    split at next
    next isFirst =>
      obtain ⟨rfl, rfl⟩ := Prod.mk.inj (Except.ok.inj next)
      exact .inr ⟨rfl, _, _, rfl, by decide, .inl ⟨isFirst, skipped⟩⟩
    next notFirst =>
      split at next
      next => cases next
      next => cases next
      next present open_ =>
        obtain ⟨rfl, rfl⟩ := Prod.mk.inj (Except.ok.inj next)
        obtain ⟨character, others, same⟩ := List.exists_cons_of_ne_nil present
        exact .inr ⟨rfl, character, others, same, fun closed => open_ others (closed ▸ same),
          .inr ⟨Bool.eq_false_iff.mpr notFirst, following, skipped, rfl⟩⟩
  next => cases next
  next noCloser noComma present =>
    split at next
    next isFirst =>
      obtain ⟨rfl, rfl⟩ := Prod.mk.inj (Except.ok.inj next)
      obtain ⟨character, others, same⟩ := List.exists_cons_of_ne_nil present
      exact .inr ⟨rfl, character, others, same, fun closed => noCloser others (closed ▸ same),
        .inl ⟨isFirst, rfl⟩⟩
    next => cases next

/-- A list that is over is over with its bracket. -/
theorem leftClosed_nextElement {first : Bool}
    (closed : nextElement first input = .ok (.closed, rest)) :
    LeftClosed (Takes (nextElement first) .closed) input rest := by
  rcases nextElement_eq_ok closed with ⟨_, skipped⟩ | ⟨differs, _⟩
  · refine (leftClosed_skipGap (.inl rfl) skipped).of_imp fun skipped => ?_
    simp only [Takes, nextElement, skipped]
  · cases differs

/-- An element begins with the same character whatever follows it. -/
theorem leftAtSight_nextElement {first : Bool}
    (item : nextElement first input = .ok (.item (), rest)) :
    LeftAtSight (Takes (nextElement first) (.item ())) input rest := by
  rcases nextElement_eq_ok item with ⟨differs, _⟩ | ⟨_, character, following, rfl, noCloser, ways⟩
  · cases differs
  · rcases ways with ⟨rfl, skipped⟩ | ⟨rfl, middle, comma, skipped⟩
    · refine (leftAtSight_skipGap_cons skipped).of_imp ?_
      rintro other rest ⟨alike, skipped⟩
      obtain ⟨further, rfl⟩ := List.head?_eq_some_iff.mp alike
      exact nextElement_first skipped noCloser
    · refine ((leftUnseen_skipGap comma).atSight.followedBy
        (leftAtSight_skipGap_cons skipped)).of_imp ?_
      rintro other rest ⟨_, comma, alike, skipped⟩
      obtain ⟨further, rfl⟩ := List.head?_eq_some_iff.mp alike
      exact nextElement_comma comma skipped noCloser

section

variable {Value : Type} {reader : Reader Value} {collected : List Value} {first : Bool}

theorem elementsOf_closed (closed : nextElement first input = .ok (.closed, rest)) :
    elementsOf reader collected first input = .ok (collected.reverse, rest) := by
  rw [elementsOf, closed]

theorem elementsOf_item {value : Value} (item : nextElement first input = .ok (.item (), middle))
    (element : reader.read middle = .ok (value, rest)) :
    elementsOf reader collected first input = elementsOf reader (value :: collected) false rest := by
  rw [elementsOf, item]
  dsimp only
  rw [element]

/-- The elements of a list are read up to its bracket. -/
theorem leftClosed_elementsOf (looksAhead : reader.LooksAhead) {values : List Value}
    (read : elementsOf reader collected first input = .ok (values, rest)) :
    LeftClosed (Takes (elementsOf reader collected first) values) input rest := by
  fun_induction elementsOf reader collected first input with
  | case1 => cases read
  | case2 collected first input following closed =>
    obtain ⟨rfl, rfl⟩ := Prod.mk.inj (Except.ok.inj read)
    exact (leftClosed_nextElement closed).of_imp elementsOf_closed
  | case3 => cases read
  | case4 collected first input following item value remaining element inductionHypothesis =>
    refine ((leftAtSight_nextElement item).followedByClosed
      ((looksAhead.atSight element).followedByClosed (inductionHypothesis read))).of_imp ?_
    rintro other rest ⟨_, item, _, element, read⟩
    rw [Takes, elementsOf_item item element, read]

end

/-! ### Objects -/

theorem leftUnseen_keyTurn {turn : Turn String} (success : keyTurn input = .ok (turn, rest)) :
    LeftUnseen (Takes keyTurn turn) input rest := by
  unfold keyTurn at success
  split at success
  next => cases success
  next key behind read =>
    obtain ⟨rfl, rfl⟩ := Prod.mk.inj (Except.ok.inj success)
    refine (leftUnseen_textFrom read).of_imp fun read => ?_
    simp only [Takes, keyTurn, read]

theorem leftUnseen_takeColon (taken : takeColon input = .ok rest) :
    LeftUnseen (Passes takeColon) input rest := by
  unfold takeColon at taken
  split at taken
  next following colon =>
    obtain rfl := Except.ok.inj taken
    refine (leftUnseen_skipGap colon).of_imp fun colon => ?_
    simp only [Passes, takeColon, colon]
  next => cases taken

theorem not_keyTurn_closed (closed : keyTurn input = .ok (.closed, rest)) : False := by
  unfold keyTurn at closed
  split at closed
  next => cases closed
  next => cases (Prod.mk.inj (Except.ok.inj closed)).1

theorem leftClosed_nextKey {first : Bool} (closed : nextKey first input = .ok (.closed, rest)) :
    LeftClosed (Takes (nextKey first) .closed) input rest := by
  unfold nextKey at closed
  split at closed
  next following skipped =>
    obtain ⟨_, rfl⟩ := Prod.mk.inj (Except.ok.inj closed)
    refine (leftClosed_skipGap (.inr rfl) skipped).of_imp fun skipped => ?_
    simp only [Takes, nextKey, skipped]
  next =>
    split at closed
    next => cases closed
    next =>
      split at closed
      next => exact (not_keyTurn_closed closed).elim
      next => cases closed
  next =>
    split at closed
    next => exact (not_keyTurn_closed closed).elim
    next => cases closed
  next => cases closed

theorem leftUnseen_nextKey {first : Bool} {key : String}
    (item : nextKey first input = .ok (.item key, rest)) :
    LeftUnseen (Takes (nextKey first) (.item key)) input rest := by
  unfold nextKey at item
  split at item
  next => cases (Prod.mk.inj (Except.ok.inj item)).1
  next following comma =>
    split at item
    next => cases item
    next notFirst =>
      split at item
      next behind quote =>
        refine ((leftUnseen_skipGap comma).followedBy
          ((leftUnseen_skipGap quote).followedBy (leftUnseen_keyTurn item))).of_imp ?_
        rintro other rest ⟨_, comma, _, quote, read⟩
        simp only [Takes, nextKey, comma, if_neg notFirst, quote, read]
      next => cases item
  next following quote =>
    split at item
    next isFirst =>
      refine ((leftUnseen_skipGap quote).followedBy (leftUnseen_keyTurn item)).of_imp ?_
      rintro other rest ⟨_, quote, read⟩
      simp only [Takes, nextKey, quote, if_pos isFirst, read]
    next => cases item
  next => cases item

section

variable {State : Type} {onKey : State → String → Except Fault (Reader State)} {state : State}
  {first : Bool}

theorem membersOf_closed (closed : nextKey first input = .ok (.closed, rest)) :
    membersOf onKey state first input = .ok (state, rest) := by
  rw [membersOf, closed]

theorem membersOf_item {key : String} {reader : Reader State} {behind : Input} {next : State}
    (item : nextKey first input = .ok (.item key, middle)) (accepts : onKey state key = .ok reader)
    (colon : takeColon middle = .ok behind) (value : reader.read behind = .ok (next, rest)) :
    membersOf onKey state first input = membersOf onKey next false rest := by
  rw [membersOf, item]
  simp only [accepts]
  rw [colon]
  dsimp only
  rw [value]

/-- The members of an object are read up to its bracket. -/
theorem leftClosed_membersOf
    (lookAhead : ∀ {state key reader}, onKey state key = .ok reader → reader.LooksAhead)
    {final : State} (read : membersOf onKey state first input = .ok (final, rest)) :
    LeftClosed (Takes (membersOf onKey state first) final) input rest := by
  fun_induction membersOf onKey state first input with
  | case1 => cases read
  | case2 state first input following closed =>
    obtain ⟨rfl, rfl⟩ := Prod.mk.inj (Except.ok.inj read)
    exact (leftClosed_nextKey closed).of_imp membersOf_closed
  | case3 => cases read
  | case4 => cases read
  | case5 => cases read
  | case6 state first input key following item reader accepts behind colon next remaining value
      inductionHypothesis =>
    refine (((leftUnseen_nextKey item).followedBy
      (leftUnseen_takeColon colon)).atSight.followedByClosed
        (((lookAhead accepts).atSight value).followedByClosed (inductionHypothesis read))).of_imp ?_
    rintro other rest ⟨_, ⟨_, item, colon⟩, _, value, read⟩
    rw [Takes, membersOf_item item accepts colon value, read]

end

/-! ### Records -/

section

variable {Record : Type} {fields : List (Field Record)} {record final : Record} {first : Bool}

theorem leftClosed_endList (ended : endList input = .ok rest) :
    LeftClosed (Passes endList) input rest := by
  unfold endList at ended
  split at ended
  next following skipped =>
    obtain rfl := Except.ok.inj ended
    refine (leftClosed_skipGap (.inl rfl) skipped).of_imp fun skipped => ?_
    simp only [Passes, endList, skipped]
  next => cases ended

/-- A record is read from a list up to its bracket. -/
theorem leftClosed_recordFromList (lookAhead : ∀ field ∈ fields, field.reader.LooksAhead)
    (read : recordFromList fields record first input = .ok (final, rest)) :
    LeftClosed (Takes (recordFromList fields record first) final) input rest := by
  induction fields generalizing record first input with
  | nil =>
    unfold recordFromList at read
    split at read
    next => cases read
    next ended =>
      obtain ⟨rfl, rfl⟩ := Prod.mk.inj (Except.ok.inj read)
      refine (leftClosed_endList ended).of_imp fun ended => ?_
      simp only [Takes, recordFromList, ended]
  | cons field others inductionHypothesis =>
    unfold recordFromList at read
    split at read
    next => cases read
    next closed =>
      split at read
      next mayLack =>
        obtain ⟨rfl, rfl⟩ := Prod.mk.inj (Except.ok.inj read)
        refine (leftClosed_nextElement closed).of_imp fun closed => ?_
        simp only [Takes, recordFromList, closed, if_pos mayLack]
      next => cases read
    next item =>
      split at read
      next => cases read
      next change behind value =>
        have further := inductionHypothesis
          (fun other member => lookAhead other (List.mem_cons_of_mem _ member)) read
        refine ((leftAtSight_nextElement item).followedByClosed
          (((lookAhead field List.mem_cons_self).atSight value).followedByClosed further)).of_imp ?_
        rintro other rest ⟨_, item, _, value, further⟩
        simp only [Takes, recordFromList, item, value, further]

theorem leftClosed_recordFromObject (lookAhead : ∀ field ∈ fields, field.reader.LooksAhead)
    (read : recordFromObject fields record input = .ok (final, rest)) :
    LeftClosed (Takes (recordFromObject fields record) final) input rest := by
  have members {state : List String × Record} {key : String}
      {reader : Reader (List String × Record)}
      (accepts : fieldReader fields state key = .ok reader) : reader.LooksAhead := by
    unfold fieldReader at accepts
    split at accepts
    next =>
      obtain rfl := Except.ok.inj accepts
      exact skipValue_looksAhead.map _
    next field found =>
      split at accepts
      next => cases accepts
      next =>
        obtain rfl := Except.ok.inj accepts
        exact (lookAhead field (List.mem_of_find?_eq_some found)).map _
  unfold recordFromObject at read
  split at read
  next => cases read
  next read' =>
    obtain ⟨rfl, rfl⟩ := Prod.mk.inj (Except.ok.inj read)
    refine (leftClosed_membersOf members read').of_imp fun read => ?_
    simp only [Takes, recordFromObject, read]

/-- A record is read up to its bracket, whichever of the two it is. -/
theorem leftClosed_recordReader (lookAhead : ∀ field ∈ fields, field.reader.LooksAhead)
    (read : (recordReader fields record).read input = .ok (final, rest)) :
    LeftClosed (Takes (recordReader fields record).read final) input rest := by
  simp only [recordReader] at read
  split at read
  next following skipped =>
    refine ((leftUnseen_skipGap skipped).atSight.followedByClosed
      (leftClosed_recordFromList lookAhead read)).of_imp ?_
    rintro other rest ⟨_, skipped, read⟩
    simp only [Takes, recordReader, skipped, read]
  next following skipped =>
    refine ((leftUnseen_skipGap skipped).atSight.followedByClosed
      (leftClosed_recordFromObject lookAhead read)).of_imp ?_
    rintro other rest ⟨_, skipped, read⟩
    simp only [Takes, recordReader, skipped, read]
  next => cases read

theorem recordReader_looksAhead (lookAhead : ∀ field ∈ fields, field.reader.LooksAhead) :
    (recordReader fields record).LooksAhead :=
  ⟨fun read => (leftClosed_recordReader lookAhead read).unseen.atSight⟩

end

/-! ### Values of any type -/

section

variable {reader : Reader Value} {inner : Option (Reader Value)} {value : Value}

theorem leftUnseen_readWord {word : List Char} {meaning : Value}
    (read : readWord word meaning input = .ok (value, rest)) :
    LeftUnseen (Takes (readWord word meaning) value) input rest := by
  unfold readWord at read
  split at read
  next => cases read
  next taken =>
    obtain ⟨rfl, rfl⟩ := Prod.mk.inj (Except.ok.inj read)
    refine (leftUnseen_takeWord taken).of_imp fun taken => ?_
    simp only [Takes, readWord, taken]

theorem leftClosed_readList (looksAhead : reader.LooksAhead)
    (read : readList reader input = .ok (value, rest)) :
    LeftClosed (Takes (readList reader) value) input rest := by
  unfold readList at read
  split at read
  next => cases read
  next items behind elements =>
    obtain ⟨rfl, rfl⟩ := Prod.mk.inj (Except.ok.inj read)
    refine (leftClosed_elementsOf looksAhead elements).of_imp fun elements => ?_
    simp only [Takes, readList, elements]

theorem leftClosed_readObject (looksAhead : reader.LooksAhead)
    (read : readObject reader input = .ok (value, rest)) :
    LeftClosed (Takes (readObject reader) value) input rest := by
  unfold readObject at read
  split at read
  next => cases read
  next members behind elements =>
    obtain ⟨rfl, rfl⟩ := Prod.mk.inj (Except.ok.inj read)
    refine (leftClosed_membersOf (fun accepts => ?_) elements).of_imp fun elements => ?_
    · obtain rfl := Except.ok.inj accepts
      exact looksAhead.map _
    · simp only [Takes, readObject, elements]

/-- Lists and objects are read up to their brackets. -/
theorem leftClosed_readValue (lookAhead : ∀ reader ∈ inner, reader.LooksAhead) (opens : Opens input)
    (read : readValue inner input = .ok (value, rest)) :
    LeftClosed (Takes (readValue inner) value) input rest := by
  obtain ⟨bracket, following, opening, skipped⟩ := opens
  cases inner with
  | none => rcases opening with rfl | rfl <;> simp [readValue, skipped] at read
  | some reader =>
    have looksAhead := lookAhead reader rfl
    have gap := (leftUnseen_skipGap skipped).atSight
    rcases opening with rfl | rfl
    · simp only [readValue, skipped] at read
      refine (gap.followedByClosed (leftClosed_readList looksAhead read)).of_imp ?_
      rintro other rest ⟨_, skipped, read⟩
      simp only [Takes, readValue, skipped, read]
    · simp only [readValue, skipped] at read
      refine (gap.followedByClosed (leftClosed_readObject looksAhead read)).of_imp ?_
      rintro other rest ⟨_, skipped, read⟩
      simp only [Takes, readValue, skipped, read]

theorem leftAtSight_word {letter : Char} {word : List Char} {meaning : Value} {following : Input}
    (skipped : skipGap input = some letter :: following)
    (read : readWord word meaning following = .ok (value, rest))
    (goesOn : ∀ {input following : Input}, skipGap input = some letter :: following →
      readValue inner input = readWord word meaning following) :
    LeftAtSight (Takes (readValue inner) value) input rest := by
  refine ((leftUnseen_skipGap skipped).followedBy (leftUnseen_readWord read)).atSight.of_imp ?_
  rintro other rest ⟨_, skipped, read⟩
  rw [Takes, goesOn skipped, read]

/-- A value of any kind is read with a look ahead by one character at most. -/
theorem leftAtSight_readValue (lookAhead : ∀ reader ∈ inner, reader.LooksAhead)
    (read : readValue inner input = .ok (value, rest)) :
    LeftAtSight (Takes (readValue inner) value) input rest := by
  have whole := read
  unfold readValue at read
  split at read
  next => cases read
  next skipped =>
    exact (leftClosed_readValue lookAhead ⟨_, _, .inl rfl, skipped⟩ whole).unseen.atSight
  next skipped =>
    exact (leftClosed_readValue lookAhead ⟨_, _, .inr rfl, skipped⟩ whole).unseen.atSight
  next following skipped =>
    split at read
    next => cases read
    next text behind decoded =>
      obtain ⟨rfl, rfl⟩ := Prod.mk.inj (Except.ok.inj read)
      refine ((leftUnseen_skipGap skipped).followedBy
        (leftUnseen_textFrom decoded)).atSight.of_imp ?_
      rintro other rest ⟨_, skipped, decoded⟩
      simp only [Takes, readValue, skipped, decoded]
  next skipped => exact leftAtSight_word skipped read fun same => by simp only [readValue, same]
  next skipped => exact leftAtSight_word skipped read fun same => by simp only [readValue, same]
  next skipped => exact leftAtSight_word skipped read fun same => by simp only [readValue, same]
  next noList noObject noText noNull noTrue noFalse =>
    split at read
    next => cases read
    next number behind taken =>
      obtain ⟨rfl, rfl⟩ := Prod.mk.inj (Except.ok.inj read)
      refine (leftAtSight_takeNumber taken).behindGap (Number.length_lt_of_take taken)
        fun alike taken => ?_
      unfold Takes readValue
      split
      next empty =>
        rw [empty] at taken
        cases taken
      next same => exact (not_cons_of_head? alike same noList).elim
      next same => exact (not_cons_of_head? alike same noObject).elim
      next same => exact (not_cons_of_head? alike same noText).elim
      next same => exact (not_cons_of_head? alike same noNull).elim
      next same => exact (not_cons_of_head? alike same noTrue).elim
      next same => exact (not_cons_of_head? alike same noFalse).elim
      next => rw [taken]

end

/-- A reader of values looks ahead by one character at most, and so do those for the values inside.
-/
theorem exists_read_valueReader (depth : Nat) :
    ∃ inner : Option (Reader Value), (∀ reader ∈ inner, reader.LooksAhead) ∧
      (valueReader depth).read = readValue inner := by
  induction depth with
  | zero => exact ⟨none, (fun reader absent => by cases absent), rfl⟩
  | succ depth inductionHypothesis =>
    obtain ⟨inner, lookAhead, same⟩ := inductionHypothesis
    refine ⟨some (valueReader depth), fun reader present => ?_, rfl⟩
    obtain rfl := Option.some.inj present
    refine ⟨fun {input rest value} read => ?_⟩
    rw [same] at read ⊢
    exact leftAtSight_readValue lookAhead read

/-- A value that is a list begins with its bracket. -/
theorem exists_skipGap_of_list {inner : Option (Reader Value)} {items : List Value}
    (read : readValue inner input = .ok (.list items, rest)) :
    ∃ following, skipGap input = some '[' :: following := by
  unfold readValue at read
  split at read
  next => cases read
  next following skipped => exact ⟨following, skipped⟩
  next =>
    split at read
    next => cases read
    next =>
      unfold readObject at read
      split at read <;> cases read
  next => split at read <;> cases read
  next => unfold readWord at read; split at read <;> cases read
  next => unfold readWord at read; split at read <;> cases read
  next => unfold readWord at read; split at read <;> cases read
  next => split at read <;> cases read

/-! ### Inputs that are cut off -/

/-- What may stand at the end of an input that is cut off, behind its last whole character: nothing,
or what shows that there was part of another character. -/
def IsStub (input : Input) : Prop :=
  input = [] ∨ input = [some '\uFFFD']

/-- Whether a reader takes what begins with a bracket up to a closing bracket, and does not take
what has nothing but a stub behind its gap. -/
structure Reader.Brackets {Value : Type} (reader : Reader Value) : Prop where
  closes : ∀ {input rest : Input} {value : Value}, Opens input →
    reader.read input = .ok (value, rest) → LeftClosed (Takes reader.read value) input rest
  refuses : ∀ {input : Input}, IsStub (skipGap input) → ∃ fault, reader.read input = .error fault

/-- A record begins with a bracket, or it would not have been read. -/
theorem opens_of_record {Record : Type} {fields : List (Field Record)} {record final : Record}
    (read : (recordReader fields record).read input = .ok (final, rest)) : Opens input := by
  simp only [recordReader] at read
  split at read
  next following skipped => exact ⟨_, following, .inl rfl, skipped⟩
  next following skipped => exact ⟨_, following, .inr rfl, skipped⟩
  next => cases read

/-- Records go from bracket to bracket. -/
theorem recordReader_brackets {Record : Type} {fields : List (Field Record)} (record : Record)
    (lookAhead : ∀ field ∈ fields, field.reader.LooksAhead) :
    (recordReader fields record).Brackets where
  closes _ read := leftClosed_recordReader lookAhead read
  refuses stub := by
    rcases stub with none | some <;> simp only [recordReader, *]
    · exact ⟨_, rfl⟩
    · exact ⟨_, rfl⟩

theorem opens_of_list {depth : Nat} {items : List Value}
    (read : (valueReader depth).read input = .ok (.list items, rest)) : Opens input := by
  obtain ⟨inner, _, same⟩ := exists_read_valueReader depth
  obtain ⟨following, skipped⟩ := exists_skipGap_of_list (same ▸ read)
  exact ⟨_, following, .inl rfl, skipped⟩

/-- Lists and objects of any values go from bracket to bracket. -/
theorem valueReader_brackets (depth : Nat) : (valueReader depth).Brackets where
  closes opens read := by
    obtain ⟨inner, lookAhead, same⟩ := exists_read_valueReader depth
    rw [same] at read ⊢
    exact leftClosed_readValue lookAhead opens read
  refuses stub := by
    obtain ⟨inner, lookAhead, same⟩ := exists_read_valueReader depth
    rw [same]
    rcases stub with none | some <;> simp only [readValue, *]
    · exact ⟨_, rfl⟩
    · exact ⟨_, rfl⟩

section

variable {Value : Type} {reader : Reader Value} {value : Value}

/-- An input that is filled by a value has nothing but a gap behind it. -/
theorem Reader.readAll_eq_ok (filled : reader.readAll input = .ok value) :
    ∃ gap, reader.read input = .ok (value, gap) ∧ ∀ character ∈ gap, isGap character = true := by
  unfold readAll at filled
  split at filled
  next => cases filled
  next gap read =>
    split at filled
    next skipped =>
      obtain rfl := Except.ok.inj filled
      exact ⟨gap, read, List.dropWhile_eq_nil_iff.mp skipped⟩
    next => cases filled

/-- An input that is cut off begins with the same bracket, or nothing but its gap is left. -/
theorem Opens.cut {torn further : Input} (opens : Opens (torn ++ further)) (stub : Input) :
    Opens (torn ++ stub) ∨ skipGap (torn ++ stub) = skipGap stub := by
  obtain ⟨bracket, following, opening, skipped⟩ := opens
  cases left : skipGap torn with
  | nil =>
    have gap := List.dropWhile_eq_nil_iff.mp left
    exact .inr (List.dropWhile_append_of_pos gap)
  | cons character others =>
    have goesOn (more : Input) : skipGap (torn ++ more) = character :: (others ++ more) := by
      have solid := isGap_of_skipGap left
      rw [skipGap, List.dropWhile_append, ← skipGap, left]
      rfl
    obtain ⟨rfl, _⟩ := List.cons.inj (skipped.symm.trans (goesOn further))
    exact .inl ⟨bracket, _, opening, goesOn stub⟩

theorem IsStub.skipGap {stub : Input} (isStub : IsStub stub) : IsStub (skipGap stub) := by
  rcases isStub with rfl | rfl
  · exact .inl rfl
  · exact .inr rfl

/-- A stub is neither a closing bracket nor a gap. -/
theorem IsStub.eq_nil {torn stub before gap : Input} {bracket : Option Char} (isStub : IsStub stub)
    (isCloser : IsCloser bracket) (isGap : ∀ character ∈ gap, isGap character = true)
    (same : torn ++ stub = before ++ bracket :: gap) : stub = [] := by
  rcases isStub with rfl | rfl
  · rfl
  · exfalso
    rcases List.eq_nil_or_concat gap with rfl | ⟨others, last, rfl⟩
    · obtain ⟨_, same⟩ := List.append_inj' same rfl
      obtain ⟨rfl, _⟩ := List.cons.inj same
      rcases isCloser with other | other <;> cases other
    · rw [List.concat_eq_append, ← List.cons_append, ← List.append_assoc] at same
      obtain ⟨_, same⟩ := List.append_inj' same rfl
      obtain ⟨rfl, _⟩ := List.cons.inj same
      have blank := isGap (some '\uFFFD') (List.concat_eq_append ▸ List.mem_concat_self)
      cases blank

/-- An input that begins with a bracket and is filled by a value ends with a closing bracket and a
gap, and it is filled by nothing if it is cut off before this bracket. -/
theorem Reader.Brackets.readAll_torn (brackets : reader.Brackets) (opens : Opens input)
    (filled : reader.readAll input = .ok value) :
    ∃ inside bracket gap, IsCloser bracket ∧ input = inside ++ bracket :: gap ∧
      (∀ character ∈ gap, isGap character = true) ∧
      ∀ torn stub, torn <+: inside → IsStub stub →
        ∃ fault, reader.readAll (torn ++ stub) = .error fault := by
  obtain ⟨gap, read, isGap⟩ := Reader.readAll_eq_ok filled
  obtain ⟨inside, bracket, isCloser, rfl, all⟩ := brackets.closes opens read
  refine ⟨inside, bracket, gap, isCloser, rfl, isGap, ?_⟩
  rintro torn stub ⟨further, rfl⟩ isStub
  cases outcome : reader.readAll (torn ++ stub) with
  | error fault => exact ⟨fault, rfl⟩
  | ok other =>
    exfalso
    obtain ⟨gapToo, readToo, isGapToo⟩ := Reader.readAll_eq_ok outcome
    rw [List.append_assoc] at opens read
    rcases opens.cut stub with opensToo | stubOnly
    · obtain ⟨before, bracketToo, isCloserToo, same, allToo⟩ := brackets.closes opensToo readToo
      obtain rfl := isStub.eq_nil isCloserToo isGapToo same
      -- What was left behind the first bracket would be left behind the last one, which is in it.
      have again := allToo (gapToo ++ (further ++ bracket :: gap))
      rw [← List.cons_append, ← List.append_assoc, ← same, List.append_nil, Takes, read] at again
      have lengths := congrArg List.length (Prod.mk.inj (Except.ok.inj again)).2
      simp only [List.length_append, List.length_cons] at lengths
      omega
    · obtain ⟨fault, refused⟩ := brackets.refuses (stubOnly ▸ isStub.skipGap)
      cases refused.symm.trans readToo

end

end NodeTelemetry.Json
