/-
This file holds the values of a metric that is kept apart by labels. A sample is found by its label
values written one behind the other, so samples whose values join to the same text are one sample,
which keeps the label values it was created with.
-/

namespace NodeTelemetry

/-- One value of a metric, with the values of its labels in the order of their declaration. -/
structure Sample (Value : Type) where
  labels : List String
  value : Value
deriving DecidableEq

/-- The text by which a sample is found. -/
def Sample.key {Value : Type} (sample : Sample Value) : String :=
  String.join sample.labels

/-- Samples in the order of their creation, with different keys. -/
abbrev Samples (Value : Type) := List (Sample Value)

namespace Samples

variable {Value : Type}

def find? (samples : Samples Value) (labels : List String) : Option (Sample Value) :=
  List.find? (·.key == String.join labels) samples

/-- Changes the value under some labels, which is `initial` if there is none yet. -/
def update (samples : Samples Value) (labels : List String) (initial : Value)
    (change : Value → Value) : Samples Value :=
  match samples with
  | [] => [⟨labels, change initial⟩]
  | sample :: others =>
    if sample.key == String.join labels then ⟨sample.labels, change sample.value⟩ :: others
    else sample :: update others labels initial change

end Samples

end NodeTelemetry
