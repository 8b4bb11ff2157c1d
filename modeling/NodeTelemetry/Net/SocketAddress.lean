/-
This file reads and writes the addresses that a server listens on: an IPv4 address or an IPv6
address in brackets, and a port. An IPv6 address may carry the number of its scope, which is written
unless it is zero.
-/

import NodeTelemetry.Net.Ipv6

namespace NodeTelemetry.Net

inductive SocketAddress
  | v4 (host : Ipv4) (port : UInt16)
  | v6 (host : Ipv6) (scope : UInt32) (port : UInt16)
deriving DecidableEq

namespace SocketAddress

/-- Takes a colon and a port. -/
def takePort (text : List Char) : Option (UInt16 × List Char) := do
  let (number, rest) ← takeNumber (twoTo 16) (← takeMark ':' text)
  return (UInt16.ofNat number, rest)

/-- Takes a percent sign and the number of a scope. -/
def takeScope (text : List Char) : Option (UInt32 × List Char) := do
  let (number, rest) ← takeNumber (twoTo 32) (← takeMark '%' text)
  return (UInt32.ofNat number, rest)

def takeV4 (text : List Char) : Option (SocketAddress × List Char) := do
  let (host, rest) ← Ipv4.take text
  let (port, rest) ← takePort rest
  return (.v4 host port, rest)

def takeV6 (text : List Char) : Option (SocketAddress × List Char) := do
  let (host, rest) ← Ipv6.take (← takeMark '[' text)
  let (scope, rest) := (takeScope rest).getD (0, rest)
  let (port, rest) ← takePort (← takeMark ']' rest)
  return (.v6 host scope port, rest)

/-- The address that a text is. -/
def ofText? (text : String) : Option SocketAddress :=
  match (takeV4 text.toList).or (takeV6 text.toList) with
  | some (address, []) => some address
  | _ => none

def numberText (number : Nat) : List Char :=
  Nat.toDigits 10 number

def text : SocketAddress → String
  | .v4 host port => String.ofList (host.text ++ ':' :: numberText port.toNat)
  | .v6 host scope port =>
    let scopeText := if scope = 0 then [] else '%' :: numberText scope.toNat
    String.ofList ('[' :: host.text ++ scopeText ++ ']' :: ':' :: numberText port.toNat)

end SocketAddress

end NodeTelemetry.Net
