/-
This file holds the start of the exporter: it reads its settings, listens on its address and
launches the pipelines. If one of these fails, it gives up with a message.
-/

import NodeTelemetry.Supervision.Launch

namespace NodeTelemetry.Startup

/-- Why an address cannot be listened on. -/
inductive ListenFault
  | permissionDenied
  | addressInUse
  | addressNotAvailable
  | other (description : String)
deriving DecidableEq

def ListenFault.description : ListenFault → String
  | .permissionDenied => "Permission denied (os error 13)"
  | .addressInUse => "Address already in use (os error 98)"
  | .addressNotAvailable => "Cannot assign requested address (os error 99)"
  | .other description => description

/-- Why the exporter gives up. -/
inductive Fault
  | settings (fault : Settings.Fault)
  | listener (address : Net.SocketAddress) (fault : ListenFault)
  | noPipeline
deriving DecidableEq

def Fault.message : Fault → String
  | .settings fault => "invalid configuration: " ++ fault.message
  | .listener address fault =>
    "failed to bind metrics listener on " ++ address.text ++ ": " ++ fault.description
  | .noPipeline => "no log pipeline could be started"

/-- The last line that an exporter writes which gives up. -/
def Fault.report (fault : Fault) : String :=
  "fatal error: " ++ fault.message

/-! ### The parts of the start -/

def settings (lookup : String → Option String) : Except Fault Settings :=
  match Settings.ofLookup lookup with
  | .error fault => .error (.settings fault)
  | .ok settings => .ok settings

/-- The plans of the pipelines that are launched. -/
def pipelines (settings : Settings) (isDirectory : String → Bool) :
    Except Fault (List Supervision.Plan) :=
  match Supervision.launchAll isDirectory (Supervision.plans settings) with
  | [] => .error .noPipeline
  | plans => .ok plans

/-- The whole start, with what stands in the way of listening on an address and the directories that
exist. -/
def start (lookup : String → Option String)
    (obstacle : Net.SocketAddress → Option ListenFault) (isDirectory : String → Bool) :
    Except Fault (Settings × List Supervision.Plan) :=
  match settings lookup with
  | .error fault => .error fault
  | .ok settings =>
    match obstacle settings.listenAddress with
    | some fault => .error (.listener settings.listenAddress fault)
    | none =>
      match pipelines settings isDirectory with
      | .error fault => .error fault
      | .ok plans => .ok (settings, plans)

end NodeTelemetry.Startup
