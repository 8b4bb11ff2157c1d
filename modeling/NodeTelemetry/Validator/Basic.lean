/-
This file holds what is known about a validator. The logs name validators by an abbreviation of the
address, so a validator carries its address in both forms.
-/

namespace NodeTelemetry

structure Validator where
  shortAddress : String
  fullAddress : String
  name : String
deriving DecidableEq

namespace Validator

/-- The name of a validator that has not given any. -/
def unknownName : String :=
  "Unknown"

/-- The form of an address in the logs: its first six and last four characters. An address of fewer
than ten characters stands as it is. -/
def abbreviate (address : String) : String :=
  let characters := address.toList
  if characters.length < 10 then address
  else String.ofList (characters.take 6 ++ ['.', '.'] ++ characters.drop (characters.length - 4))

/-- The validator with an address and perhaps a name. -/
def ofAddress (address : String) (name : Option String) : Validator :=
  { shortAddress := abbreviate address
    fullAddress := address
    name := name.getD unknownName }

/-- What stands in for a validator of which only the short address is known. -/
def unknown (shortAddress : String) : Validator :=
  { shortAddress := shortAddress
    fullAddress := shortAddress
    name := unknownName }

end Validator

end NodeTelemetry
