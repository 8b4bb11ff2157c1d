/-
This file says what the lines of the block logs leave behind: the height and the duration, each from
the last accepted line that holds one, and nothing else. A line may hold only one of them, and one
that is not accepted, even if only the other field is wrong with it, counts for neither.

A line is read as a whole before anything of it is recorded. So a record that is refused for one of
its fields has no other field to show, and what is recorded for a line is at most one height and one
duration. Each of them replaces the value of its own metric and leaves the other one alone, and by
induction over the lines only the last value of each kind is left.
-/

import NodeTelemetry.Proofs.Binary64.NearestNumber
import NodeTelemetry.Proofs.Registry.Interleaving

namespace NodeTelemetry

/-! ### What a line holds -/

namespace Line.BlockTime

/-- The record of a line that is accepted. -/
def accepted? (line : String) : Option BlockTime :=
  match observe line with
  | .error _ => none
  | .ok _ => (readJson reader line).toOption

/-- The height that an accepted line holds. -/
def heightOf? (line : String) : Option UInt64 :=
  (accepted? line).bind BlockTime.height

/-- The duration that an accepted line holds. -/
def durationOf? (line : String) : Option Binary64 :=
  (accepted? line).bind BlockTime.applyDuration

/-- What is recorded for a line is its height and its duration, as far as it holds them. -/
theorem recorded_eq (table : ValidatorTable) (line : String) :
    Family.blocks.recorded table line =
      ((heightOf? line).map heightObservation).toList ++
        ((durationOf? line).map durationObservation).toList := by
  unfold Family.recorded
  rw [show Family.blocks.observe table line = observe line from rfl, heightOf?, durationOf?,
    accepted?]
  cases accepted : observe line with
  | error fault => rfl
  | ok shown =>
    rw [observe] at accepted
    cases decoded : readJson reader line with
    | error fault =>
      rw [decoded] at accepted
      cases accepted
    | ok record =>
      simp only [decoded, observations] at accepted
      split at accepted
      · cases accepted
      · exact (Except.ok.inj accepted).symm

end Line.BlockTime

open Binary64 (IsNearest nearestWhole)
open Line.BlockTime (durationOf? heightOf?)

/-! ### The last of several values -/

/-- The last of some values, or the earlier one if there are none. -/
def latest {Value : Type} (values : List Value) (earlier : Value) : Value :=
  values.getLast?.getD earlier

/-- A further item replaces the earlier value only if it holds one. -/
theorem latest_filterMap_cons {Item Value : Type} (held : Item → Option Value) (item : Item)
    (items : List Item) (earlier : Value) :
    latest ((item :: items).filterMap held) earlier =
      latest (items.filterMap held) ((held item).getD earlier) := by
  cases here : held item with
  | none => rw [List.filterMap_cons_none here, Option.getD_none]
  | some value => rw [List.filterMap_cons_some here, latest, List.getLast?_cons, Option.getD_some,
      Option.getD_some, latest]

/-! ### Lines of blocks -/

namespace Exporter

/-- The height as it is published: the nearest binary64 number, as a signed word. -/
def publishedHeight (height : UInt64) : Int64 :=
  (Binary64.ofNat height.toNat).toInt64

theorem record_heightObservation (registry : Registry) (height : UInt64) :
    registry.record (Line.BlockTime.heightObservation height) =
      { registry with blockHeight := publishedHeight height } :=
  rfl

theorem record_durationObservation (registry : Registry) (duration : Binary64) :
    registry.record (Line.BlockTime.durationObservation duration) =
      { registry with applyDuration := duration } :=
  rfl

/-- A line sets the values that it holds and keeps the others. -/
theorem handleLine_blocks (exporter : Exporter) (line : String) :
    exporter.handleLine .blocks line =
      { exporter with registry := { exporter.registry with
          blockHeight := ((heightOf? line).map publishedHeight).getD exporter.registry.blockHeight
          applyDuration := (durationOf? line).getD exporter.registry.applyDuration } } := by
  rw [handleLine, Line.BlockTime.recorded_eq, recordAll, Registry.recordAll, List.foldl_append]
  cases heightOf? line with
  | none =>
    cases durationOf? line with
    | none => rfl
    | some duration => exact congrArg (Exporter.mk _ _) (record_durationObservation _ duration)
  | some height =>
    have published := record_heightObservation exporter.registry height
    cases durationOf? line with
    | none => exact congrArg (Exporter.mk _ _) published
    | some duration =>
      have both := congrArg (Registry.record · (Line.BlockTime.durationObservation duration)) published
      exact congrArg (Exporter.mk _ _) (both.trans (record_durationObservation _ duration))

/-- A height is published as the nearest whole number of at most 53 significant bits, but as no more
than the greatest signed word. -/
theorem toInt_publishedHeight (height : UInt64) :
    (publishedHeight height).toInt =
      min (nearestWhole height.toNat : Int) (twoTo 63 - 1 : Nat) :=
  Binary64.toInt64_ofNat_of_lt height.toNat_lt

/-- Behind any lines of the block logs the height is the nearest one to that in the last accepted
line with a height, and the duration is that in the last accepted line with a duration. Without such
a line they are what they were, and neither depends on the other. Everything else stays as it is.
Nearest is a height among all binary64 numbers, and so it is among the whole numbers that have as
many bits, and what is published of it is this whole number, or the greatest signed word if this is
less. -/
theorem handleLines_blocks (exporter : Exporter) (lines : List String) :
    exporter.handleLines (lines.map fun line => (.blocks, line)) =
      { exporter with registry := { exporter.registry with
          blockHeight := latest ((lines.filterMap heightOf?).map publishedHeight)
            exporter.registry.blockHeight
          applyDuration := latest (lines.filterMap durationOf?)
            exporter.registry.applyDuration } } ∧
    ∀ height : UInt64,
      Binary64.IsNearestTo height.toNat (Binary64.ofNat height.toNat) ∧
      IsNearest height.toNat (nearestWhole height.toNat) ∧
      (publishedHeight height).toInt =
        min (nearestWhole height.toNat : Int) (twoTo 63 - 1 : Nat) := by
  refine ⟨?_, fun height => ⟨Binary64.isNearestTo_ofNat height.toNat_lt,
    Binary64.isNearest_nearestWhole _, toInt_publishedHeight height⟩⟩
  rw [List.map_filterMap]
  induction lines generalizing exporter with
  | nil => rfl
  | cons line lines inductionHypothesis =>
    rw [latest_filterMap_cons, latest_filterMap_cons]
    have further := inductionHypothesis (exporter.handleLine .blocks line)
    rw [handleLine_blocks] at further
    rw [← further, ← handleLine_blocks]
    rfl

/-- A line with both fields, one that is refused for its duration, and one without a height. -/
def threeBlocks : List String :=
  ["\x7b\"height\":7,\"apply_duration\":1\x7d", "\x7b\"height\":8,\"apply_duration\":\"1\"\x7d",
    "\x7b\"apply_duration\":2\x7d"]

/-- The line that is refused counts for neither field, so the height is that of the first line and
the duration that of the last. -/
theorem handleLines_threeBlocks :
    let after := fresh.handleLines (threeBlocks.map fun line => (.blocks, line))
    after.registry.blockHeight.toInt = 7 ∧ after.registry.applyDuration = Binary64.ofNat 2 := by
  intro after
  obtain ⟨handled, published⟩ := handleLines_blocks fresh threeBlocks
  have heights : threeBlocks.filterMap heightOf? = [7] := by decide +kernel
  have durations : threeBlocks.filterMap durationOf? = [Binary64.ofNat 1, Binary64.ofNat 2] := by
    decide +kernel
  refine ⟨?_, ?_⟩
  · show (fresh.handleLines _).registry.blockHeight.toInt = 7
    rw [handled, heights]
    exact (published 7).2.2.trans (by decide)
  · show (fresh.handleLines _).registry.applyDuration = _
    rw [handled, durations]
    rfl

end Exporter

end NodeTelemetry
