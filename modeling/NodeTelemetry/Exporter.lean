/-
This file holds the state that the parts of the exporter share: the settings, the table of
validators and the published values. Lines of the logs change the values, answers of the validator
directory change the table and the values.
-/

import NodeTelemetry.Registry.Exposition
import NodeTelemetry.Settings
import NodeTelemetry.Validator.Refresh

namespace NodeTelemetry

structure Exporter where
  settings : Settings
  table : ValidatorTable
  registry : Registry

namespace Exporter

/-- The state at the start. -/
def ofSettings (settings : Settings) : Exporter :=
  { settings := settings
    table := ValidatorTable.empty
    registry := Registry.empty }

/-- Records what was observed. -/
def recordAll (exporter : Exporter) (observations : List Observation) : Exporter :=
  { exporter with registry := exporter.registry.recordAll observations }

/-- Handles a line of a family. A line that something is wrong with changes nothing. -/
def handleLine (exporter : Exporter) (family : Family) (line : String) : Exporter :=
  exporter.recordAll (family.recorded exporter.table line)

/-- Handles answers of the validator directory. -/
def handleAnswers (exporter : Exporter) (answers : List Directory.Answer) : Exporter :=
  let (table, observations) := Directory.refreshAll exporter.table answers
  { exporter with table := table }.recordAll observations

end Exporter

end NodeTelemetry
