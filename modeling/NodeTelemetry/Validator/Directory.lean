/-
This file asks the validator directory, a service that answers with a list of all validators, and
reads its answers.
-/

import NodeTelemetry.Json.Record
import NodeTelemetry.Text.Utf8
import NodeTelemetry.Validator.Table

namespace NodeTelemetry.Directory

/-- What the directory says about one validator. -/
structure Summary where
  address : String
  name : Option String
deriving DecidableEq

/-- Why there is no answer. -/
inductive Fault
  /-- The service could not be reached or did not answer in time. -/
  | transport
  /-- The service answered with a status that tells no success. -/
  | status (code : Nat)
  /-- The answer is not a list of validators. -/
  | protocol
deriving DecidableEq

/-- The message of a fault, where it does not depend on how the service was reached. -/
def Fault.message? : Fault → Option String
  | .status code => some ("validator directory returned HTTP status " ++ toString code)
  | .transport | .protocol => none

abbrev Answer := Except Fault (List Summary)

/-! ### The exchange -/

/-- What comes back for a request. -/
inductive Exchange
  | reply (status : Nat) (body : List UInt8)
  | silence

def requestMethod : String :=
  "POST"

def requestContentType : String :=
  "application/json"

def requestBody : String :=
  "\x7b\"type\":\"validatorSummaries\"\x7d"

/-- The fields of a summary, all of them missing at first. -/
def summaryFields : List (Json.Field (Option String × Option String)) :=
  [⟨"validator", Json.textReader.map fun address record => (some address, record.2), false⟩,
    ⟨"name", Json.textReader.orNull.map fun name record => (record.1, name), true⟩]

/-- Reads what the directory says about one validator. The address must be there. -/
def summaryReader : Json.Reader Summary :=
  (Json.recordReader summaryFields (none, none)).refine fun record =>
    record.1.map fun address => ⟨address, record.2⟩

/-- Reads the body of an answer. -/
def readBody (body : List UInt8) : Except Json.Fault (List Summary) :=
  (Json.listReader summaryReader).readAll (Text.Utf8.decode body)

/-- The answer that an exchange amounts to. The body counts only if the status tells success. -/
def Exchange.answer : Exchange → Answer
  | .silence => .error .transport
  | .reply status body =>
    if 200 ≤ status && status < 300 then
      match readBody body with
      | .error _ => .error .protocol
      | .ok summaries => .ok summaries
    else .error (.status status)

/-! ### From answers to the table -/

/-- The table of the validators in an answer. -/
def tableOf (summaries : List Summary) : ValidatorTable :=
  ValidatorTable.ofList (summaries.map fun summary =>
    Validator.ofAddress summary.address summary.name)

end NodeTelemetry.Directory
