/-
This file reads and writes IPv6 addresses: eight groups in base sixteen with colons between them,
where one run of zeros may be left out and the last two groups may be written as an IPv4 address.
There are many ways to write an address but only one in which it is written here.
-/

import NodeTelemetry.Net.Ipv4

namespace NodeTelemetry.Net

structure Ipv6 where
  groups : List UInt16
  length_groups : groups.length = 8
deriving DecidableEq

namespace Ipv6

/-! ### Reading -/

/-- Takes a group of at most four digits. -/
def takeGroup (text : List Char) : Option (UInt16 × List Char) :=
  match takeDigits 16 text with
  | ([], _) => none
  | (digits, rest) =>
    if 4 < digits.length then none else some (UInt16.ofNat (numberOf 16 digits), rest)

/-- The two groups that an IPv4 address fills. -/
def groupsOfIpv4 (address : Ipv4) : List UInt16 :=
  [address.first.toUInt16 * 256 + address.second.toUInt16,
    address.third.toUInt16 * 256 + address.fourth.toUInt16]

/-- Takes at most `room` groups, and tells whether the last two were an IPv4 address. All but the
first come behind a colon. -/
def takeGroups (room : Nat) (first : Bool) (text : List Char) :
    List UInt16 × Bool × List Char :=
  match room with
  | 0 => ([], false, text)
  | room + 1 =>
    match if first then some text else takeMark ':' text with
    | none => ([], false, text)
    | some item =>
      match if 1 ≤ room then Ipv4.take item else none with
      | some (address, rest) => (groupsOfIpv4 address, true, rest)
      | none =>
        match takeGroup item with
        | none => ([], false, text)
        | some (group, rest) =>
          let (groups, embedded, rest) := takeGroups room false rest
          (group :: groups, embedded, rest)

/-- The address of eight groups. -/
def ofGroups? (groups : List UInt16) : Option Ipv6 :=
  if length : groups.length = 8 then some ⟨groups, length⟩ else none

/-- Takes an address off the front. Where groups are left out there is at least one, and no IPv4
address comes before them. -/
def take (text : List Char) : Option (Ipv6 × List Char) := do
  let (head, embedded, rest) := takeGroups 8 true text
  if head.length = 8 then return (← ofGroups? head, rest)
  if embedded then none
  let rest ← takeMark ':' (← takeMark ':' rest)
  let (tail, _, rest) := takeGroups (7 - head.length) true rest
  let zeros := List.replicate (8 - head.length - tail.length) 0
  return (← ofGroups? (head ++ zeros ++ tail), rest)

/-! ### Writing -/

/-- How many zeros there are from a position on. -/
def zerosFrom (groups : List UInt16) (position : Nat) : Nat :=
  ((groups.drop position).takeWhile (· == 0)).length

/-- Where the longest run of zeros begins, the first of the longest ones. -/
def longestZeros (groups : List UInt16) : Nat :=
  (List.range groups.length).foldl (fun best position =>
    if zerosFrom groups best < zerosFrom groups position then position else best) 0

/-- Groups with colons between them. -/
def groupsText : List UInt16 → List Char
  | [] => []
  | [group] => Nat.toDigits 16 group.toNat
  | group :: groups => Nat.toDigits 16 group.toNat ++ ':' :: groupsText groups

/-- The IPv4 address that is embedded in an address for the purpose of being reached by it. -/
def mapped? (address : Ipv6) : Option Ipv4 :=
  match address.groups with
  | [0, 0, 0, 0, 0, 0xFFFF, high, low] =>
    some ⟨(high / 256).toUInt8, high.toUInt8, (low / 256).toUInt8, low.toUInt8⟩
  | _ => none

def text (address : Ipv6) : List Char :=
  match address.mapped? with
  | some inner => [':', ':', 'f', 'f', 'f', 'f', ':'] ++ inner.text
  | none =>
    let start := longestZeros address.groups
    let zeros := zerosFrom address.groups start
    if 1 < zeros then
      groupsText (address.groups.take start) ++ [':', ':'] ++
        groupsText (address.groups.drop (start + zeros))
    else groupsText address.groups

end Ipv6

end NodeTelemetry.Net
