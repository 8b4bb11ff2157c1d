/-
This file shows that the addresses of servers are read as they are written. A scope of zero is not
written and is what is read where none is written, and no text of an IPv6 address begins as one of
an IPv4 address. So an address is known by its text.

The text of an address consists of a host, a scope for one kind of hosts, and a port. Each of them
is read up to the mark that follows it: a colon, a percent sign or a bracket. None of these marks is
a digit in any base, so each part is over where its writer left off. An address of the first kind is
tried first, and it fails at the bracket with which one of the second kind begins.
-/

import NodeTelemetry.Net.SocketAddress
import NodeTelemetry.Proofs.Net.Ipv6
import NodeTelemetry.Proofs.Text.Trimming

namespace NodeTelemetry.Net

variable {rest : List Char}

theorem Ipv6.closes_cons {mark : Char} (noDigit : digit? 16 mark = none) (noPoint : mark ≠ '.')
    (noColon : mark ≠ ':') (rest : List Char) : Closes (mark :: rest) where
  stops := stops_cons noDigit rest
  noPoint same := noPoint (Option.some.inj same)
  noGroup _ same := absurd (List.cons.inj same).1 noColon

namespace SocketAddress

/-! ### Ports and scopes -/

/-- A port is read as it is written, if no digit follows. -/
theorem takePort_text (port : UInt16) (stops : Stops 10 rest) :
    takePort (':' :: (numberText port.toNat ++ rest)) = some (port, rest) := by
  have small : port.toNat < twoTo 16 := port.toNat_lt
  have taken := takeNumber_toDigits small stops
  simp only [takePort, takeMark_cons, numberText, taken, Option.bind_eq_bind, Option.bind_some,
    Option.pure_def, UInt16.ofNat_toNat]

theorem takeScope_text (scope : UInt32) (stops : Stops 10 rest) :
    takeScope ('%' :: (numberText scope.toNat ++ rest)) = some (scope, rest) := by
  have small : scope.toNat < twoTo 32 := scope.toNat_lt
  have taken := takeNumber_toDigits small stops
  simp only [takeScope, takeMark_cons, numberText, taken, Option.bind_eq_bind, Option.bind_some,
    Option.pure_def, UInt32.ofNat_toNat]

/-- How a scope is written behind an address. -/
def scopeText (scope : UInt32) : List Char :=
  if scope = 0 then [] else '%' :: numberText scope.toNat

/-- A scope is read as it is written, also when it is not. -/
theorem takeScope_scopeText (scope : UInt32) (rest : List Char) :
    (takeScope (scopeText scope ++ ']' :: rest)).getD (0, scopeText scope ++ ']' :: rest) =
      (scope, ']' :: rest) := by
  unfold scopeText
  split
  · next zero =>
    rw [zero, List.nil_append, takeScope, takeMark_eq_none (by simp)]
    rfl
  · rw [List.cons_append, takeScope_text scope (stops_cons (by decide) rest)]
    rfl

theorem closes_scopeText (scope : UInt32) (rest : List Char) :
    Ipv6.Closes (scopeText scope ++ ']' :: rest) := by
  unfold scopeText
  split <;> exact Ipv6.closes_cons (by decide) (by decide) (by decide) _

/-! ### Whole texts -/

theorem takeV4_text (host : Ipv4) (port : UInt16) :
    takeV4 (host.text ++ ':' :: numberText port.toNat) = some (.v4 host port, []) := by
  have stops : Stops 10 (':' :: numberText port.toNat) := stops_cons (by decide) _
  have taken := takePort_text port (nofun : Stops 10 [])
  rw [List.append_nil] at taken
  simp only [takeV4, Ipv4.take_text host stops, taken, Option.bind_eq_bind, Option.bind_some,
    Option.pure_def]

/-- An IPv6 address with its scope and its port is read as it is written. -/
theorem takeV6_text (host : Ipv6) (scope : UInt32) (port : UInt16) :
    takeV6 ('[' :: (host.text ++ (scopeText scope ++ ']' :: ':' :: numberText port.toNat))) =
      some (.v6 host scope port, []) := by
  have taken := takePort_text port (nofun : Stops 10 [])
  rw [List.append_nil] at taken
  simp only [takeV6, takeMark_cons, Ipv6.take_text host (closes_scopeText scope _),
    takeScope_scopeText, taken, Option.bind_eq_bind, Option.bind_some, Option.pure_def]

theorem takeV4_bracket (rest : List Char) : takeV4 ('[' :: rest) = none := by
  rw [takeV4, Ipv4.take_of_stops (stops_cons (by decide) rest)]
  rfl

theorem toList_text_v4 (host : Ipv4) (port : UInt16) :
    (text (.v4 host port)).toList = host.text ++ ':' :: numberText port.toNat :=
  String.toList_ofList

theorem toList_text_v6 (host : Ipv6) (scope : UInt32) (port : UInt16) :
    (text (.v6 host scope port)).toList =
      '[' :: (host.text ++ (scopeText scope ++ ']' :: ':' :: numberText port.toNat)) := by
  simp only [text, scopeText, String.toList_ofList, List.cons_append, List.append_assoc]

/-- An address is read again from the text that is written for it. -/
theorem ofText?_text (address : SocketAddress) : ofText? address.text = some address := by
  unfold ofText?
  cases address with
  | v4 host port =>
    rw [toList_text_v4, takeV4_text]
    rfl
  | v6 host scope port =>
    rw [toList_text_v6, takeV4_bracket, takeV6_text]
    rfl

/-- Different addresses have different texts. -/
theorem text_inj {address other : SocketAddress} : address.text = other.text ↔ address = other := by
  refine ⟨fun same => ?_, congrArg text⟩
  have read := congrArg ofText? same
  rw [ofText?_text, ofText?_text] at read
  exact Option.some.inj read

/-! ### The ends of a text -/

theorem isBlank_of_mem_toDigits {number : Nat} {character : Char}
    (member : character ∈ Nat.toDigits 10 number) : Text.isBlank character = false :=
  Text.isBlank_of_isDigit (Nat.isDigit_of_mem_toDigits (by decide) (by decide) member)

/-- What is written behind a colon ends without a blank. -/
theorem isBlank_last_numberText (number : Nat) :
    Text.isBlank ((numberText number).getLast?.getD ':') = false := by
  cases last : (numberText number).getLast? with
  | none => decide
  | some digit => exact isBlank_of_mem_toDigits (List.mem_of_getLast? last)

/-- What is written in front of a point begins without a blank. -/
theorem isBlank_head_octetText (octet : UInt8) :
    Text.isBlank ((Ipv4.octetText octet).head?.getD '.') = false := by
  cases head : (Ipv4.octetText octet).head? with
  | none => decide
  | some digit => exact isBlank_of_mem_toDigits (List.mem_of_head? head)

/-- There are no blanks at the ends of the text of an address. -/
theorem trim_text (address : SocketAddress) : Text.trim address.text = address.text := by
  apply Text.IsTrimmed.trim_eq
  cases address with
  | v4 host port =>
    rw [toList_text_v4]
    constructor
    · intro character isHead
      simp only [Ipv4.text, List.append_assoc, List.cons_append, List.head?_append,
        List.head?_cons, Option.or_some] at isHead
      obtain rfl := Option.some.inj isHead
      exact isBlank_head_octetText host.first
    · intro character isLast
      rw [List.getLast?_append, List.getLast?_cons, Option.some_or] at isLast
      obtain rfl := Option.some.inj isLast
      exact isBlank_last_numberText port.toNat
  | v6 host scope port =>
    rw [toList_text_v6]
    constructor
    · intro character isHead
      obtain rfl := Option.some.inj isHead
      decide
    · intro character isLast
      simp only [List.getLast?_cons, List.getLast?_append, Option.some_or, Option.getD_some]
        at isLast
      obtain rfl := Option.some.inj isLast
      exact isBlank_last_numberText port.toNat

end SocketAddress

end NodeTelemetry.Net
