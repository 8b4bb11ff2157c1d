/-
This file decides which pipelines are launched. A family whose directory is required is refused
while this directory is missing, and a refused family keeps no other one from being launched.
-/

import NodeTelemetry.Settings

namespace NodeTelemetry.Supervision

/-- What a pipeline needs to know about its family. -/
structure Plan where
  name : String
  root : String
  required : Bool
  polling : Polling
deriving DecidableEq

/-- Why a pipeline is not launched. -/
inductive Refusal
  | missingRoot (family root : String)
deriving DecidableEq

def Refusal.message : Refusal → String
  | .missingRoot family root =>
    family ++ ": required log directory " ++ root ++ " does not exist"

/-- Launches a pipeline, with the directories that exist. -/
def launch (isDirectory : String → Bool) (plan : Plan) : Except Refusal Plan :=
  if plan.required && !isDirectory plan.root then .error (.missingRoot plan.name plan.root)
  else .ok plan

/-- Launches what can be launched of some pipelines, in their order. -/
def launchAll (isDirectory : String → Bool) (plans : List Plan) : List Plan :=
  plans.filterMap fun plan => (launch isDirectory plan).toOption

/-- The plan for a family. -/
def planFor (settings : Settings) (family : Family) : Plan :=
  { name := family.name
    root := settings.directoryOf family
    required := Settings.isRequired family
    polling := settings.pollingOf family }

/-- The plans for all families to follow. -/
def plans (settings : Settings) : List Plan :=
  settings.families.map (planFor settings)

end NodeTelemetry.Supervision
