/-
This file says what a record of the consensus means, without saying how it is read: which validators
it lists as jailed and which have a stake in some round. A record that is formed as it should be is
accepted, and then one status is observed for each validator with a stake, by ascending bytes of the
short addresses. Every other record is refused. So the order in which jailed validators, rounds and
stakes are written does not matter, and neither does how often they are.

The relations of the first sections say where in a record its parts are. Each of the readers
succeeds exactly if its part is there, and with the values that the relation gives, so both
directions of every lemma are needed: one to accept what is formed as it should be, the other one to
refuse the rest. A list is read if all its items are, so the statements about a record are put
together from those about its items.

What is listed matters as a set only. Of two records that are alike the same addresses are listed,
and the ascending list of some texts is determined by which texts are in it. Only the fault that is
reported depends on the order, since it is the first one that is met.
-/

import NodeTelemetry.Proofs.Line.Consensus
import NodeTelemetry.Proofs.Text.ByteOrder

namespace NodeTelemetry.Line.Consensus

open Json (Value)

/-! ### The parts of a record -/

/-- Whether a record is a list with a list at position 1, at whose position 1 the state stands. -/
def Carries (record state : Value) : Prop :=
  ∃ items inner members, record = .list items ∧ items[1]? = some (.list inner) ∧
    inner[1]? = some (.object members) ∧ state = .object members

/-- Whether a value lacks a member, for which null may be written. -/
def Lacks (value : Value) (key : String) : Prop :=
  value.member? key = none ∨ value.member? key = some .null

/-- Whether a state has rounds, in whatever form. It has none if its execution state is missing or
is no object. -/
def HasRounds (state rounds : Value) : Prop :=
  ∃ execution, state.member? "execution_state" = some execution ∧
    execution.member? "round_to_stakes" = some rounds

/-- Whether a round is a list with the stakes at its position 1. -/
def IsRound (round : Value) (stakes : List Value) : Prop :=
  ∃ items, round = .list items ∧ items[1]? = some (.list stakes)

/-- Whether a stake is a list that begins with the address of a validator. -/
def IsStake (stake : Value) (address : String) : Prop :=
  ∃ items, stake = .list items ∧ items[0]? = some (.text address)

/-! ### The meaning of a record -/

/-- Whether the jailed validators of a state are listed as they should be. -/
def ListsJailed (state : Value) : Prop :=
  Lacks state "jailed_validators" ∨
    ∃ entries, state.member? "jailed_validators" = some (.list entries) ∧
      ∀ entry ∈ entries, ∃ address, entry = .text address

/-- Whether the rounds of a state are listed as they should be. -/
def ListsRounds (state : Value) : Prop :=
  (∀ rounds, HasRounds state rounds → rounds = .null) ∨
    ∃ rounds, HasRounds state (.list rounds) ∧ ∀ round ∈ rounds, ∃ stakes, IsRound round stakes ∧
      ∀ stake ∈ stakes, ∃ address, IsStake stake address

/-- Whether a record is formed as it should be. -/
def WellFormed (record : Value) : Prop :=
  ∃ state, Carries record state ∧ ListsJailed state ∧ ListsRounds state

/-- Whether a record lists a validator as jailed. -/
def Jails (record : Value) (address : String) : Prop :=
  ∃ state entries, Carries record state ∧
    state.member? "jailed_validators" = some (.list entries) ∧ .text address ∈ entries

/-- Whether a validator has a stake in some round of a record. -/
def HoldsStake (record : Value) (address : String) : Prop :=
  ∃ state rounds, Carries record state ∧ HasRounds state (.list rounds) ∧
    ∃ round ∈ rounds, ∃ stakes, IsRound round stakes ∧ ∃ stake ∈ stakes, IsStake stake address

theorem Carries.unique {record state other : Value} (carries : Carries record state)
    (carriesOther : Carries record other) : state = other := by
  obtain ⟨items, inner, members, rfl, outer, state_eq, rfl⟩ := carries
  obtain ⟨_, _, _, same, outerOther, otherState, rfl⟩ := carriesOther
  obtain rfl := Value.list.inj same
  obtain rfl := Value.list.inj (Option.some.inj (outer.symm.trans outerOther))
  exact Option.some.inj (state_eq.symm.trans otherState)

theorem HasRounds.unique {state rounds others : Value} (has : HasRounds state rounds)
    (hasOthers : HasRounds state others) : rounds = others := by
  obtain ⟨execution, found, rounds_eq⟩ := has
  obtain ⟨_, foundOther, others_eq⟩ := hasOthers
  obtain rfl := Option.some.inj (found.symm.trans foundOther)
  exact Option.some.inj (rounds_eq.symm.trans others_eq)

theorem IsRound.unique {round : Value} {stakes others : List Value} (isRound : IsRound round stakes)
    (isRoundToo : IsRound round others) : stakes = others := by
  obtain ⟨items, rfl, found⟩ := isRound
  obtain ⟨_, same, foundOther⟩ := isRoundToo
  obtain rfl := Value.list.inj same
  exact Value.list.inj (Option.some.inj (found.symm.trans foundOther))

theorem IsStake.unique {stake : Value} {address other : String} (isStake : IsStake stake address)
    (isStakeToo : IsStake stake other) : address = other := by
  obtain ⟨items, rfl, found⟩ := isStake
  obtain ⟨_, same, foundOther⟩ := isStakeToo
  obtain rfl := Value.list.inj same
  exact Value.text.inj (Option.some.inj (found.symm.trans foundOther))

/-! ### Reading lists -/

/-- What is done in two parts succeeds if both do. -/
theorem bind_eq_ok {First Second : Type} {first : Except Fault First}
    {next : First → Except Fault Second} {result : Second} :
    (first >>= next) = .ok result ↔ ∃ value, first = .ok value ∧ next value = .ok result := by
  cases first with
  | error fault =>
    constructor
    · intro success
      cases success
    · rintro ⟨_, success, _⟩
      cases success
  | ok value =>
    refine ⟨fun success => ⟨value, rfl, success⟩, fun ⟨other, same, success⟩ => ?_⟩
    obtain rfl := Except.ok.inj same
    exact success

section Lists

variable {Item Result : Type} {read : Item → Except Fault Result} {items : List Item}

/-- A list is read if all its items are. -/
theorem exists_mapM_eq_ok (reads : ∀ item ∈ items, ∃ result, read item = .ok result) :
    ∃ results, items.mapM read = .ok results := by
  induction items with
  | nil => exact ⟨[], rfl⟩
  | cons item others inductionHypothesis =>
    obtain ⟨⟨result, first⟩, readOthers⟩ := List.forall_mem_cons.mp reads
    obtain ⟨results, rest⟩ := inductionHypothesis readOthers
    exact ⟨result :: results, by rw [List.mapM_cons, first, rest]; rfl⟩

/-- If a list is read, all its items are, and what is read is what they are read as. -/
theorem of_mapM_eq_ok {results : List Result} (success : items.mapM read = .ok results) :
    (∀ item ∈ items, ∃ result ∈ results, read item = .ok result) ∧
      ∀ result ∈ results, ∃ item ∈ items, read item = .ok result := by
  induction items generalizing results with
  | nil =>
    obtain rfl := Except.ok.inj success
    exact ⟨fun _ member => (List.not_mem_nil member).elim,
      fun _ member => (List.not_mem_nil member).elim⟩
  | cons item others inductionHypothesis =>
    rw [List.mapM_cons] at success
    obtain ⟨result, first, success⟩ := bind_eq_ok.mp success
    obtain ⟨results, rest, success⟩ := bind_eq_ok.mp success
    obtain rfl := Except.ok.inj success
    obtain ⟨forwards, backwards⟩ := inductionHypothesis rest
    refine ⟨List.forall_mem_cons.mpr ⟨⟨result, List.mem_cons_self, first⟩, fun other member => ?_⟩,
      List.forall_mem_cons.mpr ⟨⟨item, List.mem_cons_self, first⟩, fun other member => ?_⟩⟩
    · obtain ⟨found, among, reads⟩ := forwards other member
      exact ⟨found, List.mem_cons_of_mem _ among, reads⟩
    · obtain ⟨found, among, reads⟩ := backwards other member
      exact ⟨found, List.mem_cons_of_mem _ among, reads⟩

end Lists

/-! ### Reading the parts -/

/-- The state of a record is found if the record carries one. -/
theorem stateOf_eq_ok {record state : Value} :
    stateOf record = .ok state ↔ Carries record state := by
  constructor
  · intro success
    unfold stateOf at success
    split at success
    · next members found =>
      obtain ⟨second, outer, stands⟩ := Option.bind_eq_some_iff.mp found
      obtain ⟨items, rfl, itemAt⟩ := Value.item?_eq_some.mp outer
      obtain ⟨inner, rfl, stateAt⟩ := Value.item?_eq_some.mp stands
      exact ⟨items, inner, members, rfl, itemAt, stateAt, (Except.ok.inj success).symm⟩
    · cases success
  · rintro ⟨items, inner, members, rfl, itemAt, stateAt, rfl⟩
    simp only [stateOf, Value.item?, itemAt, Option.bind_some, stateAt]

theorem jailedAddress_eq_ok {entry : Value} {address : String} :
    jailedAddress entry = .ok address ↔ entry = .text address := by
  cases entry <;> simp [jailedAddress, Value.text?]

/-- The address of a stake is found if there is one at its front. -/
theorem stakeAddress_eq_ok {stake : Value} {address : String} :
    stakeAddress stake = .ok address ↔ IsStake stake address := by
  constructor
  · intro success
    unfold stakeAddress at success
    split at success
    · next found =>
      obtain rfl := Except.ok.inj success
      obtain ⟨first, itemAt, isText⟩ := Option.bind_eq_some_iff.mp found
      obtain ⟨items, rfl, first_eq⟩ := Value.item?_eq_some.mp itemAt
      exact ⟨items, rfl, Value.text?_eq_some.mp isText ▸ first_eq⟩
    · cases success
  · rintro ⟨items, rfl, first_eq⟩
    simp only [stakeAddress, Value.item?, first_eq, Option.bind_some, Value.text?]

/-- The addresses of a round are found if its stakes are listed and each has one. -/
theorem roundAddresses_eq_ok {round : Value} {addresses : List String} :
    roundAddresses round = .ok addresses ↔
      ∃ stakes, IsRound round stakes ∧ stakes.mapM stakeAddress = .ok addresses := by
  constructor
  · intro success
    unfold roundAddresses at success
    split at success
    · next stakes found =>
      obtain ⟨second, itemAt, isList⟩ := Option.bind_eq_some_iff.mp found
      obtain ⟨items, rfl, second_eq⟩ := Value.item?_eq_some.mp itemAt
      exact ⟨stakes, ⟨items, rfl, Value.list?_eq_some.mp isList ▸ second_eq⟩, success⟩
    · cases success
  · rintro ⟨stakes, ⟨items, rfl, second_eq⟩, success⟩
    simp only [roundAddresses, Value.item?, second_eq, Option.bind_some, Value.list?, success]

/-- Jailed validators are found if none are listed or each entry is an address. -/
theorem jailedAddresses_eq_ok {state : Value} {addresses : List String} :
    jailedAddresses state = .ok addresses ↔
      Lacks state "jailed_validators" ∧ addresses = [] ∨
        ∃ entries, state.member? "jailed_validators" = some (.list entries) ∧
          entries.mapM jailedAddress = .ok addresses := by
  constructor
  · intro success
    unfold jailedAddresses at success
    split at success
    · next missing => exact .inl ⟨.inl missing, (Except.ok.inj success).symm⟩
    · next null => exact .inl ⟨.inr null, (Except.ok.inj success).symm⟩
    · next entries listed => exact .inr ⟨entries, listed, success⟩
    · cases success
  · rintro (⟨missing | null, rfl⟩ | ⟨entries, listed, success⟩)
    · rw [jailedAddresses, missing]
    · rw [jailedAddresses, null]
    · rw [jailedAddresses, listed]
      exact success

/-- The rounds of a state, as they are looked up. -/
theorem bind_member?_eq_some {state rounds : Value} :
    (state.member? "execution_state").bind (Value.member? "round_to_stakes") = some rounds ↔
      HasRounds state rounds :=
  Option.bind_eq_some_iff

/-- Stakes are found if no rounds are listed or each round has its stakes. -/
theorem stakeAddresses_eq_ok {state : Value} {addresses : List String} :
    stakeAddresses state = .ok addresses ↔
      (∀ rounds, HasRounds state rounds → rounds = .null) ∧ addresses = [] ∨
        ∃ rounds lists, HasRounds state (.list rounds) ∧ rounds.mapM roundAddresses = .ok lists ∧
          addresses = lists.flatten := by
  constructor
  · intro success
    unfold stakeAddresses at success
    split at success
    · next missing =>
      refine .inl ⟨fun rounds has => ?_, (Except.ok.inj success).symm⟩
      cases missing.symm.trans (bind_member?_eq_some.mpr has)
    · next null =>
      refine .inl ⟨fun rounds has => ?_, (Except.ok.inj success).symm⟩
      exact has.unique (bind_member?_eq_some.mp null)
    · next rounds listed =>
      cases read : rounds.mapM roundAddresses with
      | error fault =>
        rw [read] at success
        cases success
      | ok lists =>
        rw [read] at success
        exact .inr ⟨rounds, lists, bind_member?_eq_some.mp listed, read,
          (Except.ok.inj success).symm⟩
    · cases success
  · rintro (⟨lacks, rfl⟩ | ⟨rounds, lists, has, read, rfl⟩)
    · cases found : (state.member? "execution_state").bind (Value.member? "round_to_stakes") with
      | none => rw [stakeAddresses, found]
      | some rounds =>
        obtain rfl := lacks rounds (bind_member?_eq_some.mp found)
        rw [stakeAddresses, found]
    · rw [stakeAddresses, bind_member?_eq_some.mpr has]
      simp only [read]
      rfl

/-! ### Reading a record -/

/-- Addresses are found in a record if they are in its state. -/
theorem addressesIn_eq_ok {record : Value} {jailed holders : List String} :
    addressesIn record = .ok (jailed, holders) ↔
      ∃ state, Carries record state ∧ jailedAddresses state = .ok jailed ∧
        stakeAddresses state = .ok holders := by
  constructor
  · intro success
    obtain ⟨state, carried, success⟩ := bind_eq_ok.mp success
    obtain ⟨addresses, listed, success⟩ := bind_eq_ok.mp success
    obtain ⟨others, held, success⟩ := bind_eq_ok.mp success
    obtain ⟨rfl, rfl⟩ := Prod.mk.inj (Except.ok.inj success)
    exact ⟨state, stateOf_eq_ok.mp carried, listed, held⟩
  · rintro ⟨state, carries, listed, held⟩
    exact bind_eq_ok.mpr ⟨state, stateOf_eq_ok.mpr carries,
      bind_eq_ok.mpr ⟨jailed, listed, bind_eq_ok.mpr ⟨holders, held, rfl⟩⟩⟩

variable {record : Value} {jailed holders : List String} {address : String}

/-- The jailed validators of a state are read if they are listed as they should be. -/
theorem exists_jailedAddresses_iff {state : Value} :
    (∃ jailed, jailedAddresses state = .ok jailed) ↔ ListsJailed state := by
  constructor
  · rintro ⟨jailed, success⟩
    rcases jailedAddresses_eq_ok.mp success with ⟨lacks, _⟩ | ⟨entries, listed, read⟩
    · exact .inl lacks
    · refine .inr ⟨entries, listed, fun entry member => ?_⟩
      obtain ⟨address, _, reads⟩ := (of_mapM_eq_ok read).1 entry member
      exact ⟨address, jailedAddress_eq_ok.mp reads⟩
  · rintro (lacks | ⟨entries, listed, texts⟩)
    · exact ⟨[], jailedAddresses_eq_ok.mpr (.inl ⟨lacks, rfl⟩)⟩
    · have reads : ∀ entry ∈ entries, ∃ address, jailedAddress entry = .ok address :=
        fun entry member => (texts entry member).imp fun _ => jailedAddress_eq_ok.mpr
      obtain ⟨jailed, read⟩ := exists_mapM_eq_ok reads
      exact ⟨jailed, jailedAddresses_eq_ok.mpr (.inr ⟨entries, listed, read⟩)⟩

/-- The stakes of a state are read if the rounds are listed as they should be. -/
theorem exists_stakeAddresses_iff {state : Value} :
    (∃ holders, stakeAddresses state = .ok holders) ↔ ListsRounds state := by
  constructor
  · rintro ⟨holders, success⟩
    rcases stakeAddresses_eq_ok.mp success with ⟨lacks, _⟩ | ⟨rounds, lists, has, read, _⟩
    · exact .inl lacks
    · refine .inr ⟨rounds, has, fun round member => ?_⟩
      obtain ⟨addresses, _, reads⟩ := (of_mapM_eq_ok read).1 round member
      obtain ⟨stakes, isRound, readStakes⟩ := roundAddresses_eq_ok.mp reads
      refine ⟨stakes, isRound, fun stake among => ?_⟩
      obtain ⟨address, _, readStake⟩ := (of_mapM_eq_ok readStakes).1 stake among
      exact ⟨address, stakeAddress_eq_ok.mp readStake⟩
  · rintro (lacks | ⟨rounds, has, areRounds⟩)
    · exact ⟨[], stakeAddresses_eq_ok.mpr (.inl ⟨lacks, rfl⟩)⟩
    · obtain ⟨lists, read⟩ : ∃ lists, rounds.mapM roundAddresses = .ok lists := by
        refine exists_mapM_eq_ok fun round member => ?_
        obtain ⟨stakes, isRound, areStakes⟩ := areRounds round member
        have reads : ∀ stake ∈ stakes, ∃ address, stakeAddress stake = .ok address :=
          fun stake among => (areStakes stake among).imp fun _ => stakeAddress_eq_ok.mpr
        obtain ⟨addresses, readStakes⟩ := exists_mapM_eq_ok reads
        exact ⟨addresses, roundAddresses_eq_ok.mpr ⟨stakes, isRound, readStakes⟩⟩
      exact ⟨lists.flatten, stakeAddresses_eq_ok.mpr (.inr ⟨rounds, lists, has, read, rfl⟩)⟩

/-- A record is read if it is formed as it should be. -/
theorem exists_addressesIn_iff :
    (∃ jailed holders, addressesIn record = .ok (jailed, holders)) ↔ WellFormed record := by
  constructor
  · rintro ⟨jailed, holders, success⟩
    obtain ⟨state, carries, listed, held⟩ := addressesIn_eq_ok.mp success
    exact ⟨state, carries, exists_jailedAddresses_iff.mp ⟨jailed, listed⟩,
      exists_stakeAddresses_iff.mp ⟨holders, held⟩⟩
  · rintro ⟨state, carries, listsJailed, listsRounds⟩
    obtain ⟨jailed, listed⟩ := exists_jailedAddresses_iff.mpr listsJailed
    obtain ⟨holders, held⟩ := exists_stakeAddresses_iff.mpr listsRounds
    exact ⟨jailed, holders, addressesIn_eq_ok.mpr ⟨state, carries, listed, held⟩⟩

/-- What is read as jailed is what the record lists as jailed. -/
theorem mem_jailed_iff (success : addressesIn record = .ok (jailed, holders)) :
    address ∈ jailed ↔ Jails record address := by
  obtain ⟨state, carries, listed, _⟩ := addressesIn_eq_ok.mp success
  rcases jailedAddresses_eq_ok.mp listed with ⟨lacks, rfl⟩ | ⟨entries, found, read⟩
  · refine ⟨fun member => (List.not_mem_nil member).elim, ?_⟩
    rintro ⟨other, entries, carriesOther, found, _⟩
    obtain rfl := carries.unique carriesOther
    rcases lacks with missing | null
    · cases missing.symm.trans found
    · cases null.symm.trans found
  · constructor
    · intro member
      obtain ⟨entry, among, reads⟩ := (of_mapM_eq_ok read).2 address member
      exact ⟨state, entries, carries, found, jailedAddress_eq_ok.mp reads ▸ among⟩
    · rintro ⟨other, others, carriesOther, foundOther, among⟩
      obtain rfl := carries.unique carriesOther
      obtain rfl := Value.list.inj (Option.some.inj (found.symm.trans foundOther))
      obtain ⟨text, member, reads⟩ := (of_mapM_eq_ok read).1 _ among
      exact Value.text.inj (jailedAddress_eq_ok.mp reads) ▸ member

/-- What is read as a holder is what has a stake in some round. -/
theorem mem_holders_iff (success : addressesIn record = .ok (jailed, holders)) :
    address ∈ holders ↔ HoldsStake record address := by
  obtain ⟨state, carries, _, held⟩ := addressesIn_eq_ok.mp success
  rcases stakeAddresses_eq_ok.mp held with ⟨lacks, rfl⟩ | ⟨rounds, lists, has, read, rfl⟩
  · refine ⟨fun member => (List.not_mem_nil member).elim, ?_⟩
    rintro ⟨other, rounds, carriesOther, has, _⟩
    obtain rfl := carries.unique carriesOther
    cases lacks _ has
  · rw [List.mem_flatten]
    constructor
    · rintro ⟨addresses, listed, member⟩
      obtain ⟨round, among, reads⟩ := (of_mapM_eq_ok read).2 addresses listed
      obtain ⟨stakes, isRound, readStakes⟩ := roundAddresses_eq_ok.mp reads
      obtain ⟨stake, amongStakes, readStake⟩ := (of_mapM_eq_ok readStakes).2 address member
      exact ⟨state, rounds, carries, has, round, among, stakes, isRound, stake, amongStakes,
        stakeAddress_eq_ok.mp readStake⟩
    · rintro ⟨other, others, carriesOther, hasOthers, round, among, stakes, isRound, stake,
        amongStakes, isStake⟩
      obtain rfl := carries.unique carriesOther
      obtain rfl := Value.list.inj (has.unique hasOthers)
      obtain ⟨addresses, listed, reads⟩ := (of_mapM_eq_ok read).1 round among
      obtain ⟨found, isRoundToo, readStakes⟩ := roundAddresses_eq_ok.mp reads
      obtain rfl := isRound.unique isRoundToo
      obtain ⟨text, member, readStake⟩ := (of_mapM_eq_ok readStakes).1 stake amongStakes
      refine ⟨addresses, listed, ?_⟩
      have same : text = address := (stakeAddress_eq_ok.mp readStake).unique isStake
      exact same ▸ member

/-! ### Repetitions and the order of what is listed -/

/-- Whether two rounds list the same stakes, in whatever order and however often. -/
def AlikeRounds (first second : Value) : Prop :=
  first = second ∨ ∃ stakes others, IsRound first stakes ∧ IsRound second others ∧
    ∀ stake, stake ∈ stakes ↔ stake ∈ others

/-- Whether two records list the same jailed validators and the same rounds, in whatever order and
however often, and the same stakes in each round. -/
def Alike (first second : Value) : Prop :=
  ∃ state other, Carries first state ∧ Carries second other ∧
    (state.member? "jailed_validators" = other.member? "jailed_validators" ∨
      ∃ entries others, state.member? "jailed_validators" = some (.list entries) ∧
        other.member? "jailed_validators" = some (.list others) ∧
        ∀ entry, entry ∈ entries ↔ entry ∈ others) ∧
    ((∀ rounds, HasRounds state rounds ↔ HasRounds other rounds) ∨
      ∃ rounds others, HasRounds state (.list rounds) ∧ HasRounds other (.list others) ∧
        (∀ round ∈ rounds, ∃ twin ∈ others, AlikeRounds round twin) ∧
        ∀ twin ∈ others, ∃ round ∈ rounds, AlikeRounds round twin)

theorem AlikeRounds.symm {first second : Value} (alike : AlikeRounds first second) :
    AlikeRounds second first := by
  rcases alike with rfl | ⟨stakes, others, isRound, isOther, same⟩
  · exact .inl rfl
  · exact .inr ⟨others, stakes, isOther, isRound, fun stake => (same stake).symm⟩

theorem AlikeRounds.stakes {first second : Value} (alike : AlikeRounds first second)
    {stakes : List Value} (isRound : IsRound first stakes) :
    ∃ others, IsRound second others ∧ ∀ stake, stake ∈ stakes ↔ stake ∈ others := by
  rcases alike with rfl | ⟨found, others, isRoundToo, isOther, same⟩
  · exact ⟨stakes, isRound, fun _ => Iff.rfl⟩
  · obtain rfl := isRound.unique isRoundToo
    exact ⟨others, isOther, same⟩

namespace Alike

variable {first second : Value}

theorem symm (alike : Alike first second) : Alike second first := by
  obtain ⟨state, other, carries, carriesOther, jails, has⟩ := alike
  refine ⟨other, state, carriesOther, carries, ?_, ?_⟩
  · rcases jails with same | ⟨entries, others, listed, listedOther, same⟩
    · exact .inl same.symm
    · exact .inr ⟨others, entries, listedOther, listed, fun entry => (same entry).symm⟩
  · rcases has with same | ⟨rounds, others, listed, listedOther, forwards, backwards⟩
    · exact .inl fun rounds => (same rounds).symm
    · exact .inr ⟨others, rounds, listedOther, listed,
        fun twin member => (backwards twin member).imp fun _ found => ⟨found.1, found.2.symm⟩,
        fun round member => (forwards round member).imp fun _ found => ⟨found.1, found.2.symm⟩⟩

/-- A record that is like one that is formed as it should be is so as well. -/
theorem wellFormed (alike : Alike first second) (wellFormed : WellFormed first) :
    WellFormed second := by
  obtain ⟨state, other, carries, carriesOther, jails, has⟩ := alike
  obtain ⟨_, carriesToo, listsJailed, listsRounds⟩ := wellFormed
  obtain rfl := carries.unique carriesToo
  refine ⟨other, carriesOther, ?_, ?_⟩
  · rcases jails with same | ⟨entries, others, listed, listedOther, same⟩
    · unfold ListsJailed Lacks at listsJailed ⊢
      exact same ▸ listsJailed
    · refine .inr ⟨others, listedOther, fun entry member => ?_⟩
      rcases listsJailed with (missing | null) | ⟨_, listedToo, texts⟩
      · cases missing.symm.trans listed
      · cases null.symm.trans listed
      · obtain rfl := Value.list.inj (Option.some.inj (listed.symm.trans listedToo))
        exact texts entry ((same entry).mpr member)
  · rcases has with same | ⟨rounds, others, listed, listedOther, _, backwards⟩
    · rcases listsRounds with lacks | ⟨rounds, listed, areRounds⟩
      · exact .inl fun rounds hasOther => lacks rounds ((same rounds).mpr hasOther)
      · exact .inr ⟨rounds, (same _).mp listed, areRounds⟩
    · refine .inr ⟨others, listedOther, fun twin member => ?_⟩
      rcases listsRounds with lacks | ⟨_, listedToo, areRounds⟩
      · cases lacks _ listed
      · obtain rfl := Value.list.inj (listed.unique listedToo)
        obtain ⟨round, among, alikeRounds⟩ := backwards twin member
        obtain ⟨stakes, isRound, areStakes⟩ := areRounds round among
        obtain ⟨twinStakes, isTwin, same⟩ := alikeRounds.stakes isRound
        exact ⟨twinStakes, isTwin, fun stake held => areStakes stake ((same stake).mpr held)⟩

theorem jails {address : String} (alike : Alike first second) (jailed : Jails first address) :
    Jails second address := by
  obtain ⟨state, other, carries, carriesOther, jails, _⟩ := alike
  obtain ⟨_, entries, carriesToo, listed, member⟩ := jailed
  obtain rfl := carries.unique carriesToo
  rcases jails with same | ⟨_, others, listedToo, listedOther, same⟩
  · exact ⟨other, entries, carriesOther, same ▸ listed, member⟩
  · obtain rfl := Value.list.inj (Option.some.inj (listed.symm.trans listedToo))
    exact ⟨other, others, carriesOther, listedOther, (same _).mp member⟩

theorem holdsStake {address : String} (alike : Alike first second)
    (holds : HoldsStake first address) : HoldsStake second address := by
  obtain ⟨state, other, carries, carriesOther, _, has⟩ := alike
  obtain ⟨_, rounds, carriesToo, listed, round, among, stakes, isRound, stake, held, isStake⟩ :=
    holds
  obtain rfl := carries.unique carriesToo
  rcases has with same | ⟨_, others, listedToo, listedOther, forwards, _⟩
  · exact ⟨other, rounds, carriesOther, (same _).mp listed, round, among, stakes, isRound, stake,
      held, isStake⟩
  · obtain rfl := Value.list.inj (listed.unique listedToo)
    obtain ⟨twin, amongOthers, alikeRounds⟩ := forwards round among
    obtain ⟨twinStakes, isTwin, same⟩ := alikeRounds.stakes isRound
    exact ⟨other, others, carriesOther, listedOther, twin, amongOthers, twinStakes, isTwin, stake,
      (same stake).mp held, isStake⟩

end Alike

/-- The different texts of a list depend only on which texts are in it. -/
theorem ascending_congr {first second : List String}
    (same : ∀ text, text ∈ first ↔ text ∈ second) : ascending first = ascending second := by
  have once (texts : List String) : (ascending texts).Nodup :=
    (pairwise_ascending texts).imp String.ne_of_lt
  have permuted : (ascending first).Perm (ascending second) := by
    refine (List.perm_ext_iff_of_nodup (once first) (once second)).mpr fun text => ?_
    rw [mem_ascending, mem_ascending, same]
  exact permuted.eq_of_pairwise
    (fun _ _ _ _ less greater => absurd greater (String.lt_asymm less))
    (pairwise_ascending first) (pairwise_ascending second)

theorem addressesOf_of_decoded {line : String}
    (decoded : readJson (Json.valueReader Json.nestingLimit) line = .ok record) :
    addressesOf line = addressesIn record := by
  rw [addressesOf, decoded]

/-- A line whose record is not formed as it should be is refused. -/
theorem exists_observe_error (table : ValidatorTable) {line : String}
    (decoded : readJson (Json.valueReader Json.nestingLimit) line = .ok record)
    (malformed : ¬WellFormed record) : ∃ fault, observe table line = .error fault := by
  rw [observe_eq, addressesOf_of_decoded decoded]
  cases read : addressesIn record with
  | error fault => exact ⟨fault, rfl⟩
  | ok addresses => exact absurd (exists_addressesIn_iff.mp ⟨_, _, read⟩) malformed

/-- Of records that are alike the same is observed. -/
theorem observe_of_alike {table : ValidatorTable} {line otherLine : String} {other : Value}
    (decoded : readJson (Json.valueReader Json.nestingLimit) line = .ok record)
    (decodedOther : readJson (Json.valueReader Json.nestingLimit) otherLine = .ok other)
    (alike : Alike record other) :
    (observe table line).toOption = (observe table otherLine).toOption := by
  by_cases wellFormed : WellFormed record
  · obtain ⟨jailed, holders, read⟩ := exists_addressesIn_iff.mpr wellFormed
    obtain ⟨jailedOther, holdersOther, readOther⟩ :=
      exists_addressesIn_iff.mpr (alike.wellFormed wellFormed)
    have sameHolders : ascending holders = ascending holdersOther := by
      refine ascending_congr fun address => ?_
      rw [mem_holders_iff read, mem_holders_iff readOther]
      exact ⟨alike.holdsStake, alike.symm.holdsStake⟩
    have sameJailed (address : String) :
        jailed.contains address = jailedOther.contains address := by
      rw [Bool.eq_iff_iff, List.contains_iff_mem, List.contains_iff_mem, mem_jailed_iff read,
        mem_jailed_iff readOther]
      exact ⟨alike.jails, alike.symm.jails⟩
    rw [observe_eq, observe_eq, addressesOf_of_decoded decoded,
      addressesOf_of_decoded decodedOther, read, readOther]
    simp only [Except.map, sameHolders, sameJailed]
  · obtain ⟨fault, refused⟩ := exists_observe_error table decoded wellFormed
    obtain ⟨faultOther, refusedOther⟩ := exists_observe_error table decodedOther
      fun wellFormedOther => wellFormed (alike.symm.wellFormed wellFormedOther)
    rw [refused, refusedOther]
    rfl

/-- A line is accepted exactly if its record is formed as it should be. Then the status of each
validator with a stake is observed, by ascending bytes of the short addresses, and whether it is
jailed. The same is observed of a line with the same jailed validators, rounds and stakes in another
order, with or without repetitions, and if it is refused the other is refused too. Only which fault
is reported depends on the order, as this is the first one that is met. -/
theorem observe_of_decoded (table : ValidatorTable) (line : String) (record : Value)
    (decoded : readJson (Json.valueReader Json.nestingLimit) line = .ok record) :
    (WellFormed record → ∃ jailed addresses : List String,
      (∀ address, address ∈ jailed ↔ Jails record address) ∧
      (∀ address, address ∈ addresses ↔ HoldsStake record address) ∧
      addresses.Pairwise
        (fun first second => Text.Utf8.encode first < Text.Utf8.encode second) ∧
      observe table line = .ok (addresses.map fun address =>
        { name := "validator_jailed_status"
          labels := [("validator", (table.resolve address).fullAddress),
            ("name", (table.resolve address).name)]
          change := .set (if address ∈ jailed then Binary64.one else Binary64.zero) })) ∧
    (¬WellFormed record → ∃ fault, observe table line = .error fault) ∧
    ∀ otherLine other, readJson (Json.valueReader Json.nestingLimit) otherLine = .ok other →
      Alike record other → (observe table line).toOption = (observe table otherLine).toOption := by
  refine ⟨fun wellFormed => ?_, exists_observe_error table decoded,
    fun otherLine other decodedOther => observe_of_alike decoded decodedOther⟩
  obtain ⟨jailed, holders, read⟩ := exists_addressesIn_iff.mpr wellFormed
  refine ⟨jailed, ascending holders, fun address => mem_jailed_iff read,
    fun address => mem_ascending.trans (mem_holders_iff read),
    (pairwise_ascending holders).imp Text.Utf8.encode_lt_encode, ?_⟩
  rw [observe_eq, addressesOf_of_decoded decoded, read]
  simp only [Except.map, Status.observation, List.contains_iff_mem]
  rfl

/-- A line with two stakes in a round, in which one of the two validators is jailed. -/
def pairLine : String :=
  "[0,[0,\x7b\"jailed_validators\":[\"b\"],\"execution_state\":" ++
    "\x7b\"round_to_stakes\":[[0,[[\"b\"],[\"a\"]]]]\x7d\x7d]]"

/-- A line with the stakes the other way round, and with repetitions. -/
def shuffledLine : String :=
  "[0,[0,\x7b\"jailed_validators\":[\"b\",\"b\"],\"execution_state\":" ++
    "\x7b\"round_to_stakes\":[[0,[[\"a\"],[\"b\"]]],[0,[[\"b\"],[\"a\"],[\"a\"]]]]\x7d\x7d]]"

/-- The record of a line that lists jailed validators and rounds. -/
def recordOf (jailed rounds : List Value) : Value :=
  .list [.number (.whole 0), .list [.number (.whole 0),
    .object [("jailed_validators", .list jailed),
      ("execution_state", .object [("round_to_stakes", .list rounds)])]]]

/-- A round in which some addresses have stakes. -/
def roundOf (addresses : List String) : Value :=
  .list [.number (.whole 0), .list (addresses.map fun address => .list [.text address])]

theorem decoded_pairLine : readJson (Json.valueReader Json.nestingLimit) pairLine =
    .ok (recordOf [.text "b"] [roundOf ["b", "a"]]) := by
  with_unfolding_all exact rfl

set_option maxRecDepth 2000 in
theorem decoded_shuffledLine : readJson (Json.valueReader Json.nestingLimit) shuffledLine =
    .ok (recordOf [.text "b", .text "b"] [roundOf ["a", "b"], roundOf ["b", "a", "a"]]) := by
  with_unfolding_all exact rfl

theorem isRound_roundOf (addresses : List String) :
    IsRound (roundOf addresses) (addresses.map fun address => .list [.text address]) :=
  ⟨_, rfl, rfl⟩

theorem carries_recordOf (jailed rounds : List Value) :
    ∃ state, Carries (recordOf jailed rounds) state ∧
      state.member? "jailed_validators" = some (.list jailed) ∧ HasRounds state (.list rounds) :=
  ⟨_, ⟨_, _, _, rfl, rfl, rfl, rfl⟩, rfl, _, rfl, rfl⟩

/-- Rounds are alike if the same addresses have stakes in them. -/
theorem alikeRounds_roundOf {first second : List String}
    (same : ∀ address, address ∈ first ↔ address ∈ second) :
    AlikeRounds (roundOf first) (roundOf second) := by
  refine .inr ⟨_, _, isRound_roundOf first, isRound_roundOf second, fun stake => ?_⟩
  simp only [List.mem_map, same]

theorem wellFormed_pair : WellFormed (recordOf [.text "b"] [roundOf ["b", "a"]]) := by
  obtain ⟨state, carries, listed, has⟩ := carries_recordOf [.text "b"] [roundOf ["b", "a"]]
  refine ⟨state, carries, .inr ⟨_, listed, fun entry member => ?_⟩,
    .inr ⟨_, has, fun round member => ?_⟩⟩
  · exact ⟨"b", List.mem_singleton.mp member⟩
  · obtain rfl := List.mem_singleton.mp member
    refine ⟨_, isRound_roundOf _, fun stake held => ?_⟩
    obtain ⟨address, _, rfl⟩ := List.mem_map.mp held
    exact ⟨address, _, rfl, rfl⟩

theorem alike_shuffled :
    Alike (recordOf [.text "b"] [roundOf ["b", "a"]])
      (recordOf [.text "b", .text "b"] [roundOf ["a", "b"], roundOf ["b", "a", "a"]]) := by
  obtain ⟨state, carries, listed, has⟩ := carries_recordOf [.text "b"] [roundOf ["b", "a"]]
  obtain ⟨other, carriesOther, listedOther, hasOther⟩ :=
    carries_recordOf [.text "b", .text "b"] [roundOf ["a", "b"], roundOf ["b", "a", "a"]]
  have turned : AlikeRounds (roundOf ["b", "a"]) (roundOf ["a", "b"]) :=
    alikeRounds_roundOf fun address => by simp [or_comm]
  have repeated : AlikeRounds (roundOf ["b", "a"]) (roundOf ["b", "a", "a"]) :=
    alikeRounds_roundOf fun address => by simp
  refine ⟨state, other, carries, carriesOther,
    .inr ⟨_, _, listed, listedOther, fun entry => by simp⟩,
    .inr ⟨_, _, has, hasOther, fun round member => ?_, fun twin member => ?_⟩⟩
  · obtain rfl := List.mem_singleton.mp member
    exact ⟨_, List.mem_cons_self, turned⟩
  · refine ⟨_, List.mem_singleton_self _, ?_⟩
    rcases List.mem_cons.mp member with rfl | last
    · exact turned
    · obtain rfl := List.mem_singleton.mp last
      exact repeated

/-- The line is accepted, and the one that is shuffled shows the same. -/
theorem observes_pair :
    readJson (Json.valueReader Json.nestingLimit) pairLine =
        .ok (recordOf [.text "b"] [roundOf ["b", "a"]]) ∧
      ∃ observations, observe .empty pairLine = .ok observations ∧
        (observe .empty shuffledLine).toOption = some observations := by
  obtain ⟨accepts, _, shuffle⟩ := observe_of_decoded .empty pairLine _ decoded_pairLine
  obtain ⟨jailed, addresses, _, _, _, observed⟩ := accepts wellFormed_pair
  have same := shuffle shuffledLine _ decoded_shuffledLine alike_shuffled
  rw [observed] at same
  exact ⟨decoded_pairLine, _, observed, same.symm⟩

end NodeTelemetry.Line.Consensus
