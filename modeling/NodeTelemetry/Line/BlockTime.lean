/-
This file reads the lines of the block time logs. A line is the record of a block, with its height
and how long it took to apply.
-/

import NodeTelemetry.Json.Record
import NodeTelemetry.Line.Fault
import NodeTelemetry.Observation

namespace NodeTelemetry.Line

/-- The record of a block. Anything may be missing. -/
structure BlockTime where
  height : Option UInt64
  time : Option String
  applyDuration : Option Binary64
deriving DecidableEq

namespace BlockTime

def blank : BlockTime :=
  ⟨none, none, none⟩

def fields : List (Json.Field BlockTime) :=
  [⟨"height",
      Json.wordReader.orNull.map fun height record => { record with height := height }, false⟩,
    ⟨"block_time",
      Json.textReader.orNull.map fun time record => { record with time := time }, false⟩,
    ⟨"apply_duration",
      Json.realReader.orNull.map fun duration record => { record with applyDuration := duration },
      false⟩]

def reader : Json.Reader BlockTime :=
  Json.recordReader fields blank

def heightObservation (height : UInt64) : Observation :=
  { name := Metric.blockHeight.name
    labels := []
    change := .set (Binary64.ofNat height.toNat) }

def durationObservation (duration : Binary64) : Observation :=
  { name := Metric.applyDuration.name
    labels := []
    change := .set duration }

/-- What a record shows. It must hold the height or the duration. -/
def observations (record : BlockTime) : Except Fault (List Observation) :=
  if record.height.isNone && record.applyDuration.isNone then
    .error (.missingField "height and apply_duration")
  else
    .ok ((record.height.map heightObservation).toList ++
      (record.applyDuration.map durationObservation).toList)

/-- What a line shows. -/
def observe (line : String) : Except Fault (List Observation) :=
  match readJson reader line with
  | .error fault => .error fault
  | .ok record => record.observations

end BlockTime

end NodeTelemetry.Line
