/-
This file supervises the tailer of a family. While the pipeline has not been cancelled, a tailer
that ended for whatever reason is replaced by a new one after a delay. The new tailer knows nothing
of what the old one did.

The pipeline counts its restarts in a word of 64 bits. The count goes up when a tailer has ended and
before the delay, also if the pipeline is found cancelled in the delay and no restart follows.
Behind its greatest value it starts over.
-/

import NodeTelemetry.Tail.Tailer

namespace NodeTelemetry.Supervision

open Tail

/-! ### How a tailer ends -/

/-- What a tailer that dies leaves behind. -/
inductive LastWords
  | text (words : String)
  | nothing
deriving DecidableEq

/-- How an attempt to run a tailer ends. -/
inductive Ending
  | returned
  | died (lastWords : LastWords)
  /-- The tailer could not be started at all. -/
  | unstarted (obstacle : String)
deriving DecidableEq

def LastWords.message : LastWords → String
  | .text words => words
  | .nothing => "unknown panic"

/-- The reason that is given for an ending, if there is one. -/
def Ending.reason? : Ending → Option String
  | .returned => none
  | .died lastWords => some lastWords.message
  | .unstarted obstacle => some ("failed to spawn tailer thread: " ++ obstacle)

/-! ### The life of a pipeline -/

inductive Phase
  /-- A tailer is at work. -/
  | running (tailer : Tailer)
  /-- The last tailer ended, the next one is to come. -/
  | waiting
  | stopped
deriving DecidableEq

structure Pipeline where
  phase : Phase
  /-- How often an ending was followed by a delay, in a word that starts over behind the last one.
  -/
  counter : UInt64
deriving DecidableEq

/-- The count of restarts as it is told. -/
def Pipeline.restarts (pipeline : Pipeline) : Nat :=
  pipeline.counter.toNat

/-- How a pipeline works: how its tailers read, and how long it waits before it starts the next one,
in milliseconds. -/
structure Regime where
  pace : Pace
  restartDelay : Nat

/-- What happens to a pipeline. -/
inductive Event
  /-- The tailer has the time for a step, with this to be seen. -/
  | look (view : View)
  /-- The attempt ended, and then the pipeline was found cancelled or not. -/
  | ended (ending : Ending) (cancelled : Bool)
  /-- The delay is over, at its end or because the pipeline was cancelled. -/
  | delayed (completed : Bool)

/-- What a pipeline does. -/
inductive Action
  | start (tailer : Tailer)
  | consume (segments : List Segment)
  | rest (next : Next)
  | report (ending : Ending)
  | delay (milliseconds : Nat)
  | stop
deriving DecidableEq

namespace Pipeline

/-- A pipeline with its first tailer. -/
def launched : Pipeline :=
  { phase := .running Tailer.fresh
    counter := 0 }

/-- What a pipeline does about an event, and the pipeline afterwards. Events that do not belong to
its phase do not concern it. -/
def respond (regime : Regime) (pipeline : Pipeline) (event : Event) : Pipeline × List Action :=
  match pipeline.phase, event with
  | .running tailer, .look view =>
    let outcome := tailer.step regime.pace view
    ({ pipeline with phase := .running outcome.tailer },
      [.consume outcome.segments, .rest outcome.next])
  | .running _, .ended _ true => ({ pipeline with phase := .stopped }, [.stop])
  | .running _, .ended ending false =>
    ({ phase := .waiting, counter := pipeline.counter + 1 },
      [.report ending, .delay regime.restartDelay])
  | .waiting, .delayed true =>
    ({ pipeline with phase := .running Tailer.fresh }, [.start Tailer.fresh])
  | .waiting, .delayed false => ({ pipeline with phase := .stopped }, [.stop])
  | _, _ => (pipeline, [])

/-- What a pipeline does about several events. -/
def respondAll (regime : Regime) (pipeline : Pipeline) (events : List Event) :
    Pipeline × List Action :=
  events.foldl (fun state event =>
    let (pipeline, actions) := respond regime state.1 event
    (pipeline, state.2 ++ actions)) (pipeline, [])

/-- All that a pipeline does from its launch on. -/
def run (regime : Regime) (events : List Event) : Pipeline × List Action :=
  let (pipeline, actions) := launched.respondAll regime events
  (pipeline, .start Tailer.fresh :: actions)

/-- The tailer at work, if there is one. -/
def tailer? (pipeline : Pipeline) : Option Tailer :=
  match pipeline.phase with
  | .running tailer => some tailer
  | _ => none

end Pipeline

end NodeTelemetry.Supervision
