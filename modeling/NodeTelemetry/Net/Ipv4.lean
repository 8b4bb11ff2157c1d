/-
This file reads and writes IPv4 addresses: four octets in base ten with points between them.
-/

import NodeTelemetry.Powers

namespace NodeTelemetry.Net

/-! ### Numbers -/

/-- The value of a digit in a base of at most sixteen, in either case. -/
def digit? (base : Nat) (character : Char) : Option Nat :=
  let value :=
    if '0' ≤ character && character ≤ '9' then some (character.toNat - '0'.toNat)
    else if 'a' ≤ character && character ≤ 'f' then some (character.toNat - 'a'.toNat + 10)
    else if 'A' ≤ character && character ≤ 'F' then some (character.toNat - 'A'.toNat + 10)
    else none
  value.filter (· < base)

/-- Takes all digits at the front. -/
def takeDigits (base : Nat) (text : List Char) : List Nat × List Char :=
  match text with
  | [] => ([], [])
  | character :: rest =>
    match digit? base character with
    | none => ([], text)
    | some value =>
      let (values, rest) := takeDigits base rest
      (value :: values, rest)

/-- The number that digits write. -/
def numberOf (base : Nat) (digits : List Nat) : Nat :=
  digits.foldl (fun number digit => number * base + digit) 0

/-- Takes a number below a bound in base ten. -/
def takeNumber (bound : Nat) (text : List Char) : Option (Nat × List Char) :=
  let (digits, rest) := takeDigits 10 text
  let number := numberOf 10 digits
  if digits.isEmpty || bound ≤ number then none else some (number, rest)

/-- Takes a character that must stand at the front. -/
def takeMark (mark : Char) (text : List Char) : Option (List Char) :=
  match text with
  | character :: rest => if character = mark then some rest else none
  | [] => none

/-! ### Addresses -/

structure Ipv4 where
  first : UInt8
  second : UInt8
  third : UInt8
  fourth : UInt8
deriving DecidableEq

/-- Takes an octet: at most three digits, and a zero in front of others is refused. -/
def takeOctet (text : List Char) : Option (UInt8 × List Char) :=
  match takeDigits 10 text with
  | ([], _) => none
  | (0 :: _ :: _, _) => none
  | (digits, rest) =>
    if 3 < digits.length || 256 ≤ numberOf 10 digits then none
    else some (UInt8.ofNat (numberOf 10 digits), rest)

namespace Ipv4

/-- Takes an address off the front. -/
def take (text : List Char) : Option (Ipv4 × List Char) := do
  let (first, rest) ← takeOctet text
  let (second, rest) ← takeOctet (← takeMark '.' rest)
  let (third, rest) ← takeOctet (← takeMark '.' rest)
  let (fourth, rest) ← takeOctet (← takeMark '.' rest)
  return (⟨first, second, third, fourth⟩, rest)

def octetText (octet : UInt8) : List Char :=
  Nat.toDigits 10 octet.toNat

def text (address : Ipv4) : List Char :=
  octetText address.first ++ '.' :: octetText address.second ++ '.' :: octetText address.third ++
    '.' :: octetText address.fourth

end Ipv4

end NodeTelemetry.Net
