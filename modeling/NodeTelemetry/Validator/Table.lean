/-
This file holds the table that finds validators by their short address. It has one entry for each
short address, the one put in last.
-/

import NodeTelemetry.Validator.Basic

namespace NodeTelemetry

/-- Validators with different short addresses. -/
structure ValidatorTable where
  entries : List Validator

namespace ValidatorTable

def empty : ValidatorTable :=
  ⟨[]⟩

/-- Puts a validator in, in place of one with the same short address. -/
def insert (table : ValidatorTable) (validator : Validator) : ValidatorTable :=
  ⟨table.entries.filter (·.shortAddress != validator.shortAddress) ++ [validator]⟩

def ofList (validators : List Validator) : ValidatorTable :=
  validators.foldl insert empty

def find? (table : ValidatorTable) (shortAddress : String) : Option Validator :=
  table.entries.find? (·.shortAddress == shortAddress)

/-- The validator with a short address, or what stands in for it. -/
def resolve (table : ValidatorTable) (shortAddress : String) : Validator :=
  (table.find? shortAddress).getD (Validator.unknown shortAddress)

def size (table : ValidatorTable) : Nat :=
  table.entries.length

def isEmpty (table : ValidatorTable) : Bool :=
  table.entries.isEmpty

end ValidatorTable

end NodeTelemetry
