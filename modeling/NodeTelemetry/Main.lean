/-
This file runs the exporter: it reads the environment, listens, keeps the table of validators up to
date and follows the logs until it is interrupted.
-/

import NodeTelemetry.Machine.Clock
import NodeTelemetry.Machine.Files
import NodeTelemetry.Machine.Network
import NodeTelemetry.Supervision.Pipeline
import Std.Async.Signal

namespace NodeTelemetry.Machine

open Supervision Tail

/-- What the threads of the exporter share. -/
structure Shared where
  exporter : IO.Ref Exporter
  cancellation : Cancellation

/-- The variables of the environment. -/
def environment : IO (String → Option String) := do
  let found ← Settings.variableNames.filterMapM fun name => do
    return (← IO.getEnv name).map (name, ·)
  return fun name => found.lookup name

/-! ### Threads -/

/-- Keeps the table of validators up to date. -/
def refresh (shared : Shared) (settings : Settings) : IO Unit := do
  let mut going := true
  while going do
    let answer := (← ask settings).answer
    shared.exporter.modify (·.handleAnswers [answer])
    going ← wait shared.cancellation settings.refreshInterval

/-- Handles what a pipeline consumed, and tells how long it is to rest. -/
def perform (shared : Shared) (family : Family) (actions : List Action) : IO Nat := do
  let mut rest := 0
  for action in actions do
    match action with
    | .consume segments =>
      for line in segments.filterMap Segment.delivered? do
        shared.exporter.modify (·.handleLine family line)
    | .rest (.wait milliseconds) => rest := milliseconds
    | _ => pure ()
  return rest

/-- One step of the tailer at work. -/
def tail (shared : Shared) (family : Family) (plan : Plan) (regime : Regime) (pipeline : Pipeline)
    (tailer : Tailer) (desk : Desk) : IO (Pipeline × Desk) := do
  let (view, seen) ← desk.look plan.root regime.pace tailer
  let (stepped, actions) := pipeline.respond regime (.look view)
  let rest ← perform shared family actions
  let followed ← seen.follow plan.root tailer (stepped.tailer?.getD tailer)
  let _ ← wait shared.cancellation rest
  return (stepped, followed)

/-- Runs the pipeline of a family. -/
def supervise (shared : Shared) (family : Family) (plan : Plan) (restartDelay : Nat) : IO Unit := do
  let regime : Regime :=
    { pace := Pace.ofLimit plan.polling.rotation plan.polling.idle defaultLines
      restartDelay := restartDelay }
  let mut pipeline := Pipeline.launched
  let mut desk := Desk.empty
  while pipeline.phase != .stopped do
    match pipeline.tailer? with
    | none =>
      let completed ← wait shared.cancellation restartDelay
      pipeline := (pipeline.respond regime (.delayed completed)).1
      desk := Desk.empty
    | some tailer =>
      if ← shared.cancellation.get then
        pipeline := (pipeline.respond regime (.ended .returned true)).1
      else
        try
          (pipeline, desk) ← tail shared family plan regime pipeline tailer desk
        catch error =>
          let ending := Ending.died (.text (toString error))
          let cancelled ← shared.cancellation.get
          pipeline := (pipeline.respond regime (.ended ending cancelled)).1

/-! ### The program -/

/-- Gives up with a message. -/
def giveUp (fault : Startup.Fault) : IO UInt32 := do
  IO.eprintln fault.report
  return 1

/-- Runs all threads until the program is interrupted. -/
def run (settings : Settings) (server : Std.Async.TCP.Socket.Server) (plans : List Plan)
    (shared : Shared) : IO UInt32 := do
  let interrupt ← Std.Async.Signal.Waiter.mk .sigint false
  let interrupted ← interrupt.wait
  let _ ← (serve shared.exporter server).toIO
  let _ ← IO.asTask (refresh shared settings) .dedicated
  let pipelines ← plans.mapM fun plan => do
    let family := (Family.ofName? plan.name).getD .blocks
    IO.asTask (supervise shared family plan settings.restartDelay) .dedicated
  let _ ← interrupted.block
  shared.cancellation.set true
  for pipeline in pipelines do
    let _ ← IO.wait pipeline
  return 0

end NodeTelemetry.Machine

open NodeTelemetry NodeTelemetry.Machine in
def main : IO UInt32 := do
  match Startup.settings (← environment) with
  | .error fault => giveUp fault
  | .ok settings =>
    match ← listen settings.listenAddress with
    | .error fault => giveUp (.listener settings.listenAddress fault)
    | .ok server =>
      let present ← (Supervision.plans settings).filterM fun plan => isDirectory plan.root
      match Startup.pipelines settings fun root => present.any (·.root == root) with
      | .error fault => giveUp fault
      | .ok plans =>
        let shared : Shared :=
          { exporter := ← IO.mkRef (Exporter.ofSettings settings)
            cancellation := ← IO.mkRef false }
        run settings server plans shared
