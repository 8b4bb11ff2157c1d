/-
This file writes the published values as the text that collectors of metrics read: for each metric
two lines that describe it and one line for each sample. Label values are escaped so that a sample
always stays one line.
-/

import NodeTelemetry.Binary64.Shortest
import NodeTelemetry.Registry.Basic

namespace NodeTelemetry.Registry

/-! ### Lines -/

inductive Kind
  | counter
  | gauge
deriving DecidableEq

def Kind.text : Kind → String
  | .counter => "counter"
  | .gauge => "gauge"

/-- A character of a label value as it is written between quotes. -/
def escapedCharacter : Char → List Char
  | '\\' => ['\\', '\\']
  | '\n' => ['\\', 'n']
  | '"' => ['\\', '"']
  | character => [character]

def escapedLabel (value : String) : String :=
  String.ofList (value.toList.flatMap escapedCharacter)

/-- A label as it is written inside the braces. -/
def labelText (label : String × String) : String :=
  label.1 ++ "=\"" ++ escapedLabel label.2 ++ "\""

/-- The labels of a sample in braces, and nothing if there are none. -/
def labelsText (labels : List (String × String)) : String :=
  if labels.isEmpty then "" else "\x7b" ++ ",".intercalate (labels.map labelText) ++ "\x7d"

/-- A metric with its samples as they are written: the labels by name, and the value as a number. -/
structure Exposed where
  name : String
  help : String
  kind : Kind
  samples : List (List (String × String) × Binary64)

/-- The name under which a metric is published. -/
def Exposed.fullName (exposed : Exposed) : String :=
  "hl_" ++ exposed.name

def Exposed.sampleLine (exposed : Exposed) (sample : List (String × String) × Binary64) : String :=
  exposed.fullName ++ labelsText sample.1 ++ " " ++ sample.2.text

/-- The lines of a metric, none if it has no samples. -/
def Exposed.lines (exposed : Exposed) : List String :=
  if exposed.samples.isEmpty then []
  else
    ("# HELP " ++ exposed.fullName ++ " " ++ exposed.help) ::
      ("# TYPE " ++ exposed.fullName ++ " " ++ exposed.kind.text) ::
        exposed.samples.map exposed.sampleLine

/-! ### Metrics -/

/-- Whether label values stand before others, or are the same: values are compared one by one. -/
def labelsPrecede : List (String × String) → List (String × String) → Bool
  | [], _ => true
  | _ :: _, [] => false
  | (_, left) :: lefts, (_, right) :: rights =>
    if left < right then true else if right < left then false else labelsPrecede lefts rights

def sorted (samples : List (List (String × String) × Binary64)) :
    List (List (String × String) × Binary64) :=
  samples.mergeSort fun left right => labelsPrecede left.1 right.1

def exposedDuration (registry : Registry) : Exposed :=
  { name := Metric.applyDuration.name
    help := "Apply duration from latest block time file"
    kind := .gauge
    samples := [([], registry.applyDuration)] }

def exposedHeight (registry : Registry) : Exposed :=
  { name := Metric.blockHeight.name
    help := "Block height from latest block time file"
    kind := .gauge
    samples := [([], Binary64.ofInt registry.blockHeight.toInt)] }

def exposedProposers (registry : Registry) : Exposed :=
  { name := Metric.proposerCount.name
    help := "Count of proposals by proposer"
    kind := .counter
    samples := sorted (registry.proposerCount.map fun sample =>
      (["proposer"].zip sample.labels, Binary64.ofNat sample.value.toNat)) }

def exposedValidators (registry : Registry) : Exposed :=
  { name := Metric.validatorCount.name
    help := "Total number of validators"
    kind := .gauge
    samples := [([], Binary64.ofInt registry.validatorCount.toInt)] }

/-- The labels are declared with the validator first and written with the name first. -/
def exposedJailed (registry : Registry) : Exposed :=
  { name := Metric.jailedStatus.name
    help := "Jailed status of validators"
    kind := .gauge
    samples := sorted (registry.jailedStatus.map fun sample =>
      ((["validator", "name"].zip sample.labels).reverse, sample.value)) }

/-- All metrics by ascending name. -/
def exposed (registry : Registry) : List Exposed :=
  [registry.exposedDuration, registry.exposedHeight, registry.exposedProposers,
    registry.exposedValidators, registry.exposedJailed]

/-- The text that is published. -/
def expose (registry : Registry) : String :=
  String.join ((registry.exposed.flatMap Exposed.lines).map (· ++ "\n"))

end NodeTelemetry.Registry
