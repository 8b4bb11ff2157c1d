/-
This file says what the published height of a block is after a line of the block logs: the height
that the line holds, as far as a binary64 number can hold it, since this is what an observation
carries.

A line with a height is accepted, whatever else it holds, and what it shows is recorded. The height
is turned into a binary64 number in the observation and back into a signed word in the registry, so
the published height is the nearest number with a significand of 53 bits. That is the height itself
if 53 bits are enough for it.
-/

import NodeTelemetry.Proofs.Binary64.Nearest
import NodeTelemetry.Proofs.Registry.Acceptance

namespace NodeTelemetry.Exporter

open Binary64 (Fits IsNearest nearestWhole)
open Line (BlockTime readJson)

/-- The line is accepted, and the duration that it may hold besides is another metric. -/
theorem blockHeight_handleLine (exporter : Exporter) {line : String} {record : BlockTime}
    {height : UInt64} (decoded : readJson BlockTime.reader line = .ok record)
    (carried : record.height = some height) :
    (∃ observations, BlockTime.observe line = .ok observations) ∧
      (exporter.handleLine .blocks line).registry.blockHeight =
        (Binary64.ofNat height.toNat).toInt64 := by
  obtain ⟨_, time, duration⟩ := record
  obtain rfl := carried
  have shown : BlockTime.observe line = .ok (BlockTime.heightObservation height ::
      (duration.map BlockTime.durationObservation).toList) := by
    rw [BlockTime.observe, decoded]
    rfl
  refine ⟨⟨_, shown⟩, ?_⟩
  rw [registry_handleLine_of_ok (show Family.blocks.observe exporter.table line = _ from shown)]
  cases duration <;> rfl

/-- After a line that holds a height, the published height is the nearest one that has at most 53
bits from the first to the last that is set, and of two equally near ones the one with fewer bits,
but no more than the greatest signed word. So all heights are published as they are that have no
more bits themselves, among them all up to `2 ^ 53`, and of the others just the greatest signed
word. -/
theorem blockHeight_handleLine_nearest (exporter : Exporter) {line : String} {record : BlockTime}
    {height : UInt64} (decoded : readJson BlockTime.reader line = .ok record)
    (carried : record.height = some height) (small : height.toNat < twoTo 63) :
    (∃ observations, BlockTime.observe line = .ok observations) ∧
      IsNearest height.toNat (nearestWhole height.toNat) ∧
      (exporter.handleLine .blocks line).registry.blockHeight.toInt =
        min (nearestWhole height.toNat : Int) (twoTo 63 - 1 : Nat) ∧
      ((exporter.handleLine .blocks line).registry.blockHeight.toInt = height.toNat ↔
        Fits 53 height.toNat ∨ height.toNat = twoTo 63 - 1) ∧
      (height.toNat ≤ twoTo 53 →
        (exporter.handleLine .blocks line).registry.blockHeight.toInt = height.toNat) := by
  obtain ⟨accepted, published⟩ := blockHeight_handleLine exporter decoded carried
  have exact := Binary64.toInt64_ofNat_eq_self small
  rw [published]
  refine ⟨accepted, Binary64.isNearest_nearestWhole _,
    Binary64.toInt64_ofNat_of_lt (Nat.lt_trans small (by decide)), exact, fun short => ?_⟩
  have fits := Binary64.fits_of_le (by decide) short 0
  rw [show height.toNat * twoTo 0 = height.toNat from Nat.mul_one _] at fits
  exact exact.mpr (.inl fits)

/-- The least height that needs 54 bits. -/
def longHeight : UInt64 :=
  9007199254740993

/-- A line with this height. -/
def longHeightLine : String :=
  "\x7b\"height\":9007199254740993\x7d"

theorem decoded_longHeightLine :
    readJson BlockTime.reader longHeightLine = .ok ⟨some longHeight, none, none⟩ := by
  with_unfolding_all exact rfl

/-- Of the two heights next to it, which are as near, the one with fewer bits is published. -/
theorem blockHeight_longHeightLine :
    longHeight.toNat < twoTo 63 ∧
      (fresh.handleLine .blocks longHeightLine).registry.blockHeight.toInt = 9007199254740992 ∧
      ¬Fits 53 longHeight.toNat := by
  obtain ⟨_, _, published, exact, _⟩ := blockHeight_handleLine_nearest fresh decoded_longHeightLine
    rfl (by decide)
  have rounded : (fresh.handleLine .blocks longHeightLine).registry.blockHeight.toInt =
      9007199254740992 := by
    rw [published]
    decide
  refine ⟨by decide, rounded, fun fits => ?_⟩
  have same := exact.mpr (.inl fits)
  rw [rounded] at same
  exact absurd same (by decide)

/-- So not every height up to the greatest signed word is published as it is. -/
theorem not_blockHeight_exact :
    ¬∀ (exporter : Exporter) (line : String) (record : BlockTime) (height : UInt64),
      readJson BlockTime.reader line = .ok record → record.height = some height →
        height.toNat < twoTo 63 →
          (exporter.handleLine .blocks line).registry.blockHeight.toInt = height.toNat := by
  intro exact
  have same := exact fresh longHeightLine _ longHeight decoded_longHeightLine rfl (by decide)
  rw [(blockHeight_handleLine fresh decoded_longHeightLine rfl).2,
    Binary64.toInt64_ofNat_of_lt (by decide)] at same
  exact absurd same (by decide)

end NodeTelemetry.Exporter
