/-
This file shows that IPv6 addresses are read as they are written. Of a text that leaves out a run of
zeros the groups in front of the run and those behind it are read, and as many zeros are put between
them as are missing. It does not matter which run is left out. An address with an IPv4 address at
its end is the only one that is not written in groups alone.

At every group the reader first tries an IPv4 address, whose first octet might stand there. What is
written as a group is never taken for one, since no point follows its digits, not even behind those
among them that are digits in base ten as well. So groups are taken as groups, one after the other,
until there is no further one: at the gap, where two colons follow, or at the end, where something
stands that goes on with neither a digit nor a group.
-/

import NodeTelemetry.Net.Ipv6
import NodeTelemetry.Proofs.Net.Ipv4

namespace NodeTelemetry.Net

variable {rest : List Char}

/-! ### Groups are no octets -/

/-- A digit in base ten is one in base sixteen. -/
theorem digit?_sixteen {character : Char} (noDigit : digit? 16 character = none) :
    digit? 10 character = none := by
  unfold digit? at *
  simp only [Option.filter_eq_none_iff, decide_eq_true_eq] at *
  intro value isValue
  have notSixteen := noDigit value isValue
  omega

theorem Stops.ten (stops : Stops 16 rest) : Stops 10 rest :=
  fun character first => digit?_sixteen (stops character first)

/-- No point follows the digits in base ten at the front of digits in base sixteen. -/
theorem head?_takeDigits {text : List Char}
    (digits : ∀ character ∈ text, (digit? 16 character).isSome = true)
    (noPoint : rest.head? ≠ some '.') (stops : Stops 16 rest) :
    (takeDigits 10 (text ++ rest)).2.head? ≠ some '.' := by
  induction text with
  | nil => rwa [List.nil_append, takeDigits_of_stops stops.ten]
  | cons character text inductionHypothesis =>
    obtain ⟨first, others⟩ := List.forall_mem_cons.mp digits
    rw [List.cons_append, takeDigits]
    cases isDigit : digit? 10 character with
    | some value => exact inductionHypothesis others
    | none =>
      rintro same
      obtain rfl := Option.some.inj same
      cases first

/-- Behind an octet stands what stands behind its digits. -/
theorem rest_of_takeOctet {text : List Char} {octet : UInt8}
    (taken : takeOctet text = some (octet, rest)) : (takeDigits 10 text).2 = rest := by
  unfold takeOctet at taken
  split at taken
  · cases taken
  · cases taken
  · next same =>
    rw [same]
    split at taken
    · cases taken
    · exact congrArg Prod.snd (Option.some.inj taken)

/-- Without a point behind the first digits there is no IPv4 address. -/
theorem Ipv4.take_eq_none {text : List Char} (noPoint : (takeDigits 10 text).2.head? ≠ some '.') :
    Ipv4.take text = none := by
  unfold Ipv4.take
  cases taken : takeOctet text with
  | none => rfl
  | some octet =>
    rw [rest_of_takeOctet taken] at noPoint
    simp only [Option.bind_eq_bind, Option.bind_some, takeMark_eq_none noPoint, Option.bind_none]

theorem Ipv4.take_of_stops (stops : Stops 10 rest) : Ipv4.take rest = none := by
  rw [Ipv4.take, takeOctet, takeDigits_of_stops stops]
  rfl

namespace Ipv6

/-! ### What follows a group -/

/-- Whether a text goes on neither with a digit nor with another group, nor makes the group in front
of it an octet. -/
structure Closes (rest : List Char) : Prop where
  stops : Stops 16 rest
  noPoint : rest.head? ≠ some '.'
  noGroup : ∀ others, rest = ':' :: others → Stops 16 others

theorem takeGroup_toDigits (group : UInt16) (stops : Stops 16 rest) :
    takeGroup (Nat.toDigits 16 group.toNat ++ rest) = some (group, rest) := by
  have present := isBase_sixteen.digitsOf_toDigits_ne_nil group.toNat
  have short : (digitsOf 16 (Nat.toDigits 16 group.toNat)).length ≤ 4 :=
    Nat.le_trans (length_digitsOf_le 16 _)
      ((Nat.length_toDigits_le_iff (by decide) (by decide)).mpr group.toNat_lt)
  unfold takeGroup
  rw [isBase_sixteen.takeDigits_toDigits group.toNat stops]
  split
  · next same => exact absurd (congrArg Prod.fst same) present
  · next same =>
    obtain ⟨rfl, rfl⟩ := Prod.mk.inj same
    rw [if_neg (Nat.not_lt.mpr short), isBase_sixteen.numberOf_toDigits, UInt16.ofNat_toNat]

theorem takeGroup_of_stops (stops : Stops 16 rest) : takeGroup rest = none := by
  rw [takeGroup, takeDigits_of_stops stops]

/-! ### Several groups -/

/-- A group is taken as one, not as the first octet of an IPv4 address. -/
theorem takeGroups_succ (room : Nat) (first : Bool) (group : UInt16) (stops : Stops 16 rest)
    (noPoint : rest.head? ≠ some '.') :
    takeGroups (room + 1) first
        ((if first then [] else [':']) ++ (Nat.toDigits 16 group.toNat ++ rest)) =
      (group :: (takeGroups room false rest).1, (takeGroups room false rest).2) := by
  have noOctet : Ipv4.take (Nat.toDigits 16 group.toNat ++ rest) = none :=
    Ipv4.take_eq_none (head?_takeDigits (fun _ member => isBase_sixteen.digit?_of_mem_toDigits member)
      noPoint stops)
  cases first <;>
    simp [takeGroups, takeMark, noOctet, takeGroup_toDigits group stops]

theorem takeGroups_of_stops (room : Nat) (stops : Stops 16 rest) :
    takeGroups room true rest = ([], false, rest) := by
  cases room with
  | zero => rfl
  | succ room => simp [takeGroups, Ipv4.take_of_stops stops.ten, takeGroup_of_stops stops]

/-- Where no group goes on, none is taken. -/
theorem takeGroups_of_closes (room : Nat) (closes : Closes rest) :
    takeGroups room false rest = ([], false, rest) := by
  cases room with
  | zero => rfl
  | succ room =>
    cases rest with
    | nil => rfl
    | cons character others =>
      by_cases colon : character = ':'
      · have stops := closes.noGroup others (by rw [colon])
        simp [takeGroups, takeMark, colon, Ipv4.take_of_stops stops.ten, takeGroup_of_stops stops]
      · simp [takeGroups, takeMark, colon]

/-- The groups behind the first one with their colons. -/
def otherGroupsText (groups : List UInt16) : List Char :=
  groups.flatMap fun group => ':' :: Nat.toDigits 16 group.toNat

theorem otherGroupsText_cons (group : UInt16) (groups : List UInt16) :
    otherGroupsText (group :: groups) =
      ':' :: (Nat.toDigits 16 group.toNat ++ otherGroupsText groups) :=
  List.flatMap_cons

theorem groupsText_cons (group : UInt16) (groups : List UInt16) :
    groupsText (group :: groups) = Nat.toDigits 16 group.toNat ++ otherGroupsText groups := by
  induction groups generalizing group with
  | nil => exact (List.append_nil _).symm
  | cons next others inductionHypothesis =>
    rw [otherGroupsText_cons, ← inductionHypothesis]
    rfl

/-- Behind a group another one follows or the end does, and neither goes on with its digits. -/
theorem Closes.behind_group (closes : Closes rest) (groups : List UInt16) :
    Stops 16 (otherGroupsText groups ++ rest) ∧ (otherGroupsText groups ++ rest).head? ≠ some '.' := by
  cases groups with
  | nil => exact ⟨closes.stops, closes.noPoint⟩
  | cons group groups =>
    rw [otherGroupsText_cons, List.cons_append]
    exact ⟨stops_cons (by decide) _, by simp⟩

theorem takeGroups_otherGroupsText (groups : List UInt16) {room : Nat} (fits : groups.length ≤ room)
    (closes : Closes rest) :
    takeGroups room false (otherGroupsText groups ++ rest) = (groups, false, rest) := by
  induction groups generalizing room with
  | nil => exact takeGroups_of_closes room closes
  | cons group groups inductionHypothesis =>
    obtain ⟨room, rfl⟩ := Nat.exists_eq_add_of_le' (Nat.succ_le_of_lt (Nat.zero_lt_of_lt fits))
    obtain ⟨stops, noPoint⟩ := closes.behind_group groups
    have taken := takeGroups_succ room false group stops noPoint
    rw [inductionHypothesis (Nat.le_of_succ_le_succ fits)] at taken
    rw [otherGroupsText_cons, List.cons_append, List.append_assoc]
    exact taken

/-- Groups are read as they are written, up to what closes them. -/
theorem takeGroups_groupsText (groups : List UInt16) {room : Nat} (fits : groups.length ≤ room)
    (closes : Closes rest) :
    takeGroups room true (groupsText groups ++ rest) = (groups, false, rest) := by
  cases groups with
  | nil => exact takeGroups_of_stops room closes.stops
  | cons group groups =>
    obtain ⟨room, rfl⟩ := Nat.exists_eq_add_of_le' (Nat.succ_le_of_lt (Nat.zero_lt_of_lt fits))
    obtain ⟨stops, noPoint⟩ := closes.behind_group groups
    have taken := takeGroups_succ room true group stops noPoint
    rw [takeGroups_otherGroupsText groups (Nat.le_of_succ_le_succ fits) closes] at taken
    rw [groupsText_cons, List.append_assoc]
    exact taken

/-! ### Whole addresses -/

theorem ofGroups?_groups (address : Ipv6) : ofGroups? address.groups = some address :=
  dif_pos address.length_groups

/-- An address of which no group is left out. -/
theorem take_of_all {text : List Char} {address : Ipv6} {embedded : Bool}
    (taken : takeGroups 8 true text = (address.groups, embedded, rest)) :
    take text = some (address, rest) := by
  simp [take, taken, address.length_groups, ofGroups?_groups]

/-- An address with a gap between two sequences of groups. -/
theorem take_of_gap {text behind : List Char} {head tail : List UInt16} {zeros : Nat}
    {address : Ipv6} {embedded : Bool}
    (groups : address.groups = head ++ List.replicate zeros 0 ++ tail) (missing : 0 < zeros)
    (takenHead : takeGroups 8 true text = (head, false, ':' :: ':' :: behind))
    (takenTail : takeGroups (7 - head.length) true behind = (tail, embedded, rest)) :
    take text = some (address, rest) := by
  have length := address.length_groups
  rw [groups, List.length_append, List.length_append, List.length_replicate] at length
  have short : head.length ≠ 8 := by omega
  have left : 8 - head.length - tail.length = zeros := by omega
  have made : ofGroups? (head ++ (List.replicate zeros 0 ++ tail)) = some address := by
    rw [← List.append_assoc, ← groups, ofGroups?_groups]
  simp [take, takenHead, takenTail, short, left, takeMark, made]

theorem closes_gap (rest : List Char) : Closes (':' :: ':' :: rest) where
  stops := stops_cons (by decide) _
  noPoint := by simp
  noGroup others same := by
    obtain rfl := (List.cons.inj same).2
    exact stops_cons (by decide) _

/-- An address that is written with a gap for some zeros is read again, whichever zeros these are.
-/
theorem take_compressed {address : Ipv6} {head tail : List UInt16} {zeros : Nat}
    (groups : address.groups = head ++ List.replicate zeros 0 ++ tail) (missing : 0 < zeros)
    (closes : Closes rest) :
    take (groupsText head ++ [':', ':'] ++ groupsText tail ++ rest) = some (address, rest) := by
  have length := address.length_groups
  rw [groups, List.length_append, List.length_append, List.length_replicate] at length
  refine take_of_gap groups missing ?_ (takeGroups_groupsText tail (by omega) closes)
  rw [List.append_assoc, List.append_assoc]
  exact takeGroups_groupsText head (by omega) (closes_gap _)

/-- The zeros from a position on are between the groups in front of it and those behind the zeros.
-/
theorem take_zerosFrom_drop (groups : List UInt16) (start : Nat) :
    groups = groups.take start ++ List.replicate (zerosFrom groups start) 0 ++
      groups.drop (start + zerosFrom groups start) := by
  have parts := @List.takeWhile_append_dropWhile _ (· == 0) (groups.drop start)
  have zeros : (groups.drop start).takeWhile (· == 0) =
      List.replicate (zerosFrom groups start) 0 :=
    List.eq_replicate_iff.mpr
      ⟨rfl, fun group member => eq_of_beq (List.all_eq_true.mp List.all_takeWhile group member)⟩
  have behind : groups.drop (start + zerosFrom groups start) =
      (groups.drop start).dropWhile (· == 0) :=
    List.drop_drop.symm.trans ((congrArg (List.drop _) parts.symm).trans List.drop_left)
  rw [behind, ← zeros, List.append_assoc, parts, List.take_append_drop]

/-! ### Addresses with an IPv4 address at their end -/

theorem halves_group (group : UInt16) :
    (group / 256).toUInt8.toUInt16 * 256 + group.toUInt8.toUInt16 = group := by
  have small := group.toNat_lt
  apply UInt16.toNat_inj.mp
  simp only [UInt16.toNat_add, UInt16.toNat_mul, UInt8.toNat_toUInt16, UInt16.toNat_toUInt8,
    UInt16.toNat_div, UInt16.reduceToNat]
  omega

/-- An address that holds an IPv4 address has five zeros in front of it and a group of ones. -/
theorem groups_of_mapped {address : Ipv6} {inner : Ipv4} (mapped : address.mapped? = some inner) :
    address.groups = [] ++ List.replicate 5 0 ++ (0xFFFF :: groupsOfIpv4 inner) := by
  unfold mapped? at mapped
  split at mapped
  · next high low same =>
    obtain rfl := Option.some.inj mapped
    rw [same, groupsOfIpv4, halves_group, halves_group]
    rfl
  · cases mapped

theorem takeGroups_ipv4 (room : Nat) (inner : Ipv4) (stops : Stops 10 rest) :
    takeGroups (room + 2) false (':' :: (inner.text ++ rest)) =
      (groupsOfIpv4 inner, true, rest) := by
  simp [takeGroups, takeMark, Ipv4.take_text inner stops]

/-- An address that ends with an IPv4 address is read as it is written. -/
theorem take_mapped {address : Ipv6} {inner : Ipv4} (mapped : address.mapped? = some inner)
    (stops : Stops 16 rest) :
    take ([':', ':', 'f', 'f', 'f', 'f', ':'] ++ inner.text ++ rest) = some (address, rest) := by
  have head := takeGroups_of_closes 8 (closes_gap (['f', 'f', 'f', 'f', ':'] ++ inner.text ++ rest))
  have tail := @takeGroups_succ (':' :: (inner.text ++ rest)) 6 true 0xFFFF
    (stops_cons (by decide) _) (by simp)
  rw [takeGroups_ipv4 4 inner stops.ten] at tail
  exact take_of_gap (groups_of_mapped mapped) (by decide) head tail

/-! ### All addresses -/

/-- Every address is read as it is written. -/
theorem take_text (address : Ipv6) (closes : Closes rest) :
    take (address.text ++ rest) = some (address, rest) := by
  unfold text
  split
  · next inner mapped => exact take_mapped mapped closes.stops
  · dsimp only
    split
    · next run =>
      exact take_compressed (take_zerosFrom_drop _ _) (Nat.zero_lt_of_lt run) closes
    · refine take_of_all (takeGroups_groupsText address.groups ?_ closes)
      exact Nat.le_of_eq address.length_groups

end Ipv6

end NodeTelemetry.Net
