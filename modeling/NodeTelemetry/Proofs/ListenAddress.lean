/-
This file shows what the variable for the address to listen on does to the settings. Blanks around
its value do not matter but are kept in the fault. The address that the settings hold may be written
and set again: the settings stay the same, so the text of an address is one of its spellings.

Two of the variables can have values that are refused, and a fault in the first one is reported
before the second one is looked at. So setting the variable for the address changes nothing about
the other one, and whether a value is accepted is a question about this value alone, if the other
variable is in order. The value is trimmed and parsed, and both are done before the settings see
anything of it. Hence two values lead to the same settings if they are the same address when they
are trimmed.
-/

import Mathlib.Logic.Function.Basic
import NodeTelemetry.Proofs.Net.SocketAddress
import NodeTelemetry.Settings

namespace NodeTelemetry.Settings

open Net

variable {lookup other : String → Option String} {value : String} {address : SocketAddress}
  {settings : Settings} {fault : Fault}

/-! ### What the settings follow from -/

/-- The settings depend on an environment only by what is read from it. -/
theorem ofLookup_congr
    (same : ∀ name, name ≠ "METRICS_LISTEN_ADDR" → lookup name = other name)
    (address : readListenAddress lookup = readListenAddress other) :
    ofLookup lookup = ofLookup other := by
  have isValidator : readIsValidator lookup = readIsValidator other := by
    rw [readIsValidator, readIsValidator, same _ (by decide)]
  rw [ofLookup, ofLookup, isValidator, address, same "NODE_HOME" (by decide),
    same "HOME" (by decide), same "VALIDATOR_ADDRESS" (by decide),
    same "VALIDATOR_API_URL" (by decide)]

/-- There is no fault but that of one of the two variables that are read. -/
theorem ofLookup_eq_error_iff : ofLookup lookup = .error fault ↔
    readIsValidator lookup = .error fault ∨
      (∃ isValidator, readIsValidator lookup = .ok isValidator) ∧
        readListenAddress lookup = .error fault := by
  unfold ofLookup
  cases readIsValidator lookup with
  | error found => simp
  | ok isValidator => cases readListenAddress lookup <;> simp

theorem exists_ofLookup_eq_ok_iff : (∃ settings, ofLookup lookup = .ok settings) ↔
    (∃ isValidator, readIsValidator lookup = .ok isValidator) ∧
      ∃ address, readListenAddress lookup = .ok address := by
  unfold ofLookup
  cases readIsValidator lookup with
  | error found => simp
  | ok isValidator => cases readListenAddress lookup <;> simp

theorem readListenAddress_of_ofLookup (accepted : ofLookup lookup = .ok settings) :
    readListenAddress lookup = .ok settings.listenAddress := by
  unfold ofLookup at accepted
  split at accepted
  · cases accepted
  · split at accepted
    · cases accepted
    · next address read =>
      obtain rfl := Except.ok.inj accepted
      exact read

/-! ### Setting the variable -/

/-- An environment in which the variable for the address has a value. -/
def listeningOn (lookup : String → Option String) (value : String) : String → Option String :=
  Function.update lookup "METRICS_LISTEN_ADDR" (some value)

theorem listeningOn_of_ne {name : String} (different : name ≠ "METRICS_LISTEN_ADDR")
    (lookup : String → Option String) (value : String) :
    listeningOn lookup value name = lookup name :=
  Function.update_of_ne different _ _

theorem readIsValidator_listeningOn (lookup : String → Option String) (value : String) :
    readIsValidator (listeningOn lookup value) = readIsValidator lookup := by
  rw [readIsValidator, readIsValidator, listeningOn_of_ne (by decide)]

/-- The address that is read is the one that the trimmed value is parsed as. -/
theorem readListenAddress_listeningOn (lookup : String → Option String) (value : String) :
    readListenAddress (listeningOn lookup value) =
      (SocketAddress.ofText? (Text.trim value)).elim
        (.error (.notAddress "METRICS_LISTEN_ADDR" value)) .ok := by
  simp only [readListenAddress, listeningOn, Function.update_self]
  cases SocketAddress.ofText? (Text.trim value) <;> rfl

theorem readListenAddress_eq_ok_iff : readListenAddress (listeningOn lookup value) = .ok address ↔
    SocketAddress.ofText? (Text.trim value) = some address := by
  rw [readListenAddress_listeningOn]
  cases SocketAddress.ofText? (Text.trim value) <;> simp

theorem readListenAddress_eq_error_iff :
    readListenAddress (listeningOn lookup value) = .error fault ↔
      SocketAddress.ofText? (Text.trim value) = none ∧
        fault = .notAddress "METRICS_LISTEN_ADDR" value := by
  rw [readListenAddress_listeningOn]
  cases SocketAddress.ofText? (Text.trim value) <;> simp [eq_comm]

/-- Values that are the same address lead to the same settings. -/
theorem ofLookup_listeningOn_congr {first second : String}
    (isFirst : SocketAddress.ofText? (Text.trim first) = some address)
    (isSecond : SocketAddress.ofText? (Text.trim second) = some address) :
    ofLookup (listeningOn lookup first) = ofLookup (listeningOn lookup second) := by
  refine ofLookup_congr (fun name different => ?_) ?_
  · rw [listeningOn_of_ne different, listeningOn_of_ne different]
  · rw [readListenAddress_eq_ok_iff.mpr isFirst, readListenAddress_eq_ok_iff.mpr isSecond]

/-- The address of accepted settings is that of the value. -/
theorem ofText?_of_accepted (accepted : ofLookup (listeningOn lookup value) = .ok settings) :
    SocketAddress.ofText? (Text.trim value) = some settings.listenAddress :=
  readListenAddress_eq_ok_iff.mp (readListenAddress_of_ofLookup accepted)

/-- The text of any address is accepted. -/
theorem exists_ofLookup_text (lookup : String → Option String) (address : SocketAddress)
    (accepted : ∃ isValidator, readIsValidator lookup = .ok isValidator) :
    ∃ settings, ofLookup (listeningOn lookup address.text) = .ok settings ∧
      settings.listenAddress = address := by
  have read : readListenAddress (listeningOn lookup address.text) = .ok address := by
    rw [readListenAddress_eq_ok_iff, SocketAddress.trim_text, SocketAddress.ofText?_text]
  rw [← readIsValidator_listeningOn lookup address.text] at accepted
  obtain ⟨settings, isOk⟩ := exists_ofLookup_eq_ok_iff.mpr ⟨accepted, address, read⟩
  have same := (readListenAddress_of_ofLookup isOk).symm.trans read
  exact ⟨settings, isOk, Except.ok.inj same⟩

/-- Whether a value is accepted, and the settings that follow from it, do not depend on the white
space around it. The text of the address that was accepted is accepted again with the same settings,
and it is the same text for two values if and only if they are the same address. There is no address
whose text is not accepted. If a value is refused, the fault holds it with its white space. -/
theorem ofLookup_listeningOn (lookup : String → Option String) (value : String) :
    Text.IsTrimOf value (Text.trim value) ∧
    (∀ settings, ofLookup (listeningOn lookup value) = .ok settings ↔
      ofLookup (listeningOn lookup (Text.trim value)) = .ok settings) ∧
    ((∃ settings, ofLookup (listeningOn lookup value) = .ok settings) ↔
      (∃ isValidator, readIsValidator lookup = .ok isValidator) ∧
        (SocketAddress.ofText? (Text.trim value)).isSome = true) ∧
    (∀ settings, ofLookup (listeningOn lookup value) = .ok settings →
      SocketAddress.ofText? (Text.trim value) = some settings.listenAddress ∧
      ofLookup (listeningOn lookup settings.listenAddress.text) = .ok settings ∧
      ∀ otherValue others, ofLookup (listeningOn lookup otherValue) = .ok others →
        (settings.listenAddress.text = others.listenAddress.text ↔
          settings.listenAddress = others.listenAddress)) ∧
    ((∃ isValidator, readIsValidator lookup = .ok isValidator) → ∀ address : SocketAddress,
      ∃ settings, ofLookup (listeningOn lookup address.text) = .ok settings ∧
        settings.listenAddress = address) ∧
    ∀ fault, ofLookup (listeningOn lookup value) = .error fault ↔
      readIsValidator lookup = .error fault ∨
        (∃ isValidator, readIsValidator lookup = .ok isValidator) ∧
          SocketAddress.ofText? (Text.trim value) = none ∧
            fault = .notAddress "METRICS_LISTEN_ADDR" value := by
  refine ⟨Text.isTrimOf_trim value, fun settings => ⟨fun accepted => ?_, fun accepted => ?_⟩, ?_,
    fun settings accepted => ?_,
    fun accepted address => exists_ofLookup_text lookup address accepted, fun fault => ?_⟩
  · have isAddress := ofText?_of_accepted accepted
    have trimmed : SocketAddress.ofText? (Text.trim (Text.trim value)) = _ :=
      (congrArg _ (Text.trim_trim value)).trans isAddress
    exact (ofLookup_listeningOn_congr trimmed isAddress).trans accepted
  · have trimmed := ofText?_of_accepted accepted
    have isAddress : SocketAddress.ofText? (Text.trim value) = _ :=
      (congrArg _ (Text.trim_trim value).symm).trans trimmed
    exact (ofLookup_listeningOn_congr isAddress trimmed).trans accepted
  · rw [exists_ofLookup_eq_ok_iff, readIsValidator_listeningOn, Option.isSome_iff_exists]
    simp only [readListenAddress_eq_ok_iff]
  · have isAddress := ofText?_of_accepted accepted
    have again : SocketAddress.ofText? (Text.trim settings.listenAddress.text) = _ :=
      (congrArg _ (SocketAddress.trim_text _)).trans (SocketAddress.ofText?_text _)
    exact ⟨isAddress, (ofLookup_listeningOn_congr again isAddress).trans accepted,
      fun _ _ _ => SocketAddress.text_inj⟩
  · rw [ofLookup_eq_error_iff, readIsValidator_listeningOn, readListenAddress_eq_error_iff]

/-- The text of an address is shorter than some of its spellings. -/
example :
    (ofLookup (listeningOn (fun _ => none) " [2001:0DB8::000A:1.2.3.4%007]:0080\n")).toOption.map
      (fun settings => settings.listenAddress.text) = some "[2001:db8::a:102:304%7]:80" := by
  decide +kernel

end NodeTelemetry.Settings
