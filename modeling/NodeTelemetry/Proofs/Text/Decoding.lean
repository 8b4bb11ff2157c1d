/-
This file shows what is decoded if bytes are cut in two: the characters that the first ones are
decoded to are the first ones that all bytes are decoded to, except that an unreadable one may stand
for the part of a character at the cut. What carries this is that bytes add to what was read and
take nothing back, and that a character that has begun takes no byte that could stand for itself.

The decoder reads byte by byte. It keeps the characters that are complete and what there is of the
next one. A byte either goes on with the character that has begun, completes it, or shows that it is
not going to be completed; then an unreadable one is put in its place and the byte is read as a
beginning. In none of these cases is anything taken back that was read, so the induction over the
bytes is about what is added.
-/

import Mathlib.Tactic.SplitIfs
import NodeTelemetry.Text.Utf8

namespace NodeTelemetry.Text.Utf8

/-- Whether no byte that stands for itself belongs to the character that has begun. -/
def Pending.TakesHigh : Pending → Prop
  | .nothing => True
  | .character _ low _ _ => 0x80 ≤ low

/-- A character that has just begun takes no byte that stands for itself. -/
theorem takesHigh_lead (byte : UInt8) : (lead byte).2.TakesHigh := by
  unfold lead
  split_ifs <;> simp [Pending.TakesHigh]

/-- The character that a byte stands for if it stands for itself. -/
theorem lead_of_lt {byte : UInt8} (small : byte < 0x80) :
    lead byte = (some (Char.ofNat byte.toNat), .nothing) :=
  if_pos small

/-! ### One byte -/

/-- Whether a state follows when one byte is read behind some characters. -/
structure Follows (decoded : List (Option Char)) (byte : UInt8)
    (state : List (Option Char) × Pending) : Prop where
  adds : ∃ added, state.1 = added ++ decoded ∧
    (byte < 0x80 → some (Char.ofNat byte.toNat) ∈ added)
  takesHigh : state.2.TakesHigh

/-- A byte that is read as a beginning adds to what was read. -/
theorem follows_begin (decoded : List (Option Char)) (byte : UInt8) :
    Follows decoded byte (begin decoded byte) := by
  have high := takesHigh_lead byte
  unfold begin
  cases leads : lead byte with
  | mk character pending =>
    rw [leads] at high
    cases pending with
    | nothing =>
      refine ⟨⟨[character], rfl, fun small => ?_⟩, trivial⟩
      obtain ⟨rfl, _⟩ := Prod.mk.inj (leads.symm.trans (lead_of_lt small))
      exact List.mem_singleton_self _
    | character missing low most value =>
      refine ⟨⟨[], rfl, fun small => ?_⟩, high⟩
      cases (Prod.mk.inj (leads.symm.trans (lead_of_lt small))).2

/-- Whatever has begun, a byte adds to what was read. -/
theorem follows_push {pending : Pending} (high : pending.TakesHigh)
    (decoded : List (Option Char)) (byte : UInt8) :
    Follows decoded byte (push decoded pending byte) := by
  cases pending with
  | nothing => exact follows_begin decoded byte
  | character missing low most value =>
    unfold push
    dsimp only
    split
    · next inRange =>
      have least : low ≤ byte := of_decide_eq_true (Bool.and_eq_true_iff.mp inRange).1
      have large : ¬byte < 0x80 := UInt8.not_lt.mpr (UInt8.le_trans high least)
      split
      · exact ⟨⟨[_], rfl, fun small => absurd small large⟩, trivial⟩
      · exact ⟨⟨[], rfl, fun small => absurd small large⟩, UInt8.le_refl _⟩
    · obtain ⟨⟨added, same, member⟩, high⟩ := follows_begin (none :: decoded) byte
      exact ⟨⟨added ++ [none], by rw [same, List.append_assoc]; rfl,
        fun small => List.mem_append_left _ (member small)⟩, high⟩

/-! ### All bytes -/

/-- What bytes are decoded to stands behind what was read, and every byte that stands for itself is
there. -/
theorem decodeFrom_eq_append {pending : Pending} (high : pending.TakesHigh)
    (decoded : List (Option Char)) (bytes : List UInt8) :
    ∃ further, decodeFrom decoded pending bytes = decoded.reverse ++ further ∧
      ∀ byte ∈ bytes, byte < 0x80 → some (Char.ofNat byte.toNat) ∈ further := by
  induction bytes generalizing decoded pending with
  | nil =>
    cases pending with
    | nothing => exact ⟨[], (List.append_nil _).symm, fun _ none => (List.not_mem_nil none).elim⟩
    | character =>
      exact ⟨[none], List.reverse_cons, fun _ none => (List.not_mem_nil none).elim⟩
  | cons byte others inductionHypothesis =>
    obtain ⟨⟨added, same, member⟩, high⟩ := follows_push high decoded byte
    obtain ⟨further, decodes, members⟩ := inductionHypothesis high (push decoded pending byte).1
    refine ⟨added.reverse ++ further, ?_, List.forall_mem_cons.mpr ⟨fun small => ?_, ?_⟩⟩
    · exact decodes.trans (by rw [same, List.reverse_append, List.append_assoc])
    · exact List.mem_append_left _ (List.mem_reverse.mpr (member small))
    · exact fun other among small => List.mem_append_right _ (members other among small)

/-- Bytes that are cut in two are decoded to the same characters in front of the cut, up to what
stands for the part of a character there. -/
theorem decodeFrom_append {pending : Pending} (high : pending.TakesHigh)
    (decoded : List (Option Char)) (first second : List UInt8) :
    ∃ whole stub further, (stub = [] ∨ stub = [none]) ∧
      decodeFrom decoded pending first = whole ++ stub ∧
      decodeFrom decoded pending (first ++ second) = whole ++ further ∧
      ∀ byte ∈ second, byte < 0x80 → some (Char.ofNat byte.toNat) ∈ further := by
  induction first generalizing decoded pending with
  | nil =>
    obtain ⟨further, decodes, members⟩ := decodeFrom_eq_append high decoded second
    cases pending with
    | nothing =>
      exact ⟨decoded.reverse, [], further, .inl rfl, (List.append_nil _).symm, decodes, members⟩
    | character =>
      exact ⟨decoded.reverse, [none], further, .inr rfl, List.reverse_cons, decodes, members⟩
  | cons byte others inductionHypothesis =>
    exact inductionHypothesis (follows_push high decoded byte).takesHigh _

/-- So the text of the first bytes is the beginning of the text of all, with U+FFFD at its end for
the part of a character at the cut. -/
theorem decodeLossy_append (first second : List UInt8) :
    ∃ whole stub further, (stub = [] ∨ stub = ['\uFFFD']) ∧
      decodeLossy first = String.ofList (whole ++ stub) ∧
      (decodeLossy (first ++ second)).toList = whole ++ further ∧
      ∀ byte ∈ second, byte < 0x80 → Char.ofNat byte.toNat ∈ further := by
  obtain ⟨whole, stub, further, isStub, cut, all, members⟩ :=
    decodeFrom_append (show Pending.nothing.TakesHigh from trivial) [] first second
  refine ⟨whole.map (·.getD '\uFFFD'), stub.map (·.getD '\uFFFD'), further.map (·.getD '\uFFFD'),
    isStub.imp (congrArg _) (congrArg _), ?_, ?_, fun byte member small => ?_⟩
  · rw [decodeLossy, decode, cut, List.map_append]
  · rw [decodeLossy, decode, all, List.map_append, String.toList_ofList]
  · exact List.mem_map.mpr ⟨_, members byte member small, rfl⟩

end NodeTelemetry.Text.Utf8
