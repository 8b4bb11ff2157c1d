/-
This file follows a pipeline from its launch on, through any number of attempts to run a tailer and
with any moment of cancellation. At no time is there more than one tailer, each of them is new, the
delay lies between the end of one and the beginning of the next, and none begins once the pipeline
was found cancelled.

The chronicle is a list of entries with their moments, and each attempt adds some of its own behind
those that are there. One invariant carries the results: every entry is in order with respect to
those before it, and what the pipeline is doing fits the numbers of attempts, endings and setbacks
so far. Each entry keeps it, whatever happens in it, so an induction over the looks of an attempt
and then over the attempts gives the whole chronicle.

The count of restarts is the count of the endings after which the pipeline went on: one less than
the attempts, unless it was in a delay that the pipeline was found cancelled. It is kept in a word
and starts over behind 64 bits, so it is the number of these setbacks only up to multiples of `2 ^
64`, and the number itself as long as there are fewer.
-/

import Mathlib.Data.List.Induction
import NodeTelemetry.Powers
import NodeTelemetry.Proofs.Pause
import NodeTelemetry.Supervision.Pipeline

namespace NodeTelemetry.Supervision

open Tail

/-! ### What goes on around a pipeline -/

/-- One attempt to run a tailer, and what takes how long in it, in nanoseconds. -/
structure Attempt where
  /-- What the tailer has before it in its steps, each with the time since what came before. -/
  looks : List (Nat × View)
  /-- How long it takes from the last step until the end of the tailer is noticed. -/
  remainder : Nat
  ending : Ending
  /-- How long it takes to report the end. -/
  reporting : Nat
  /-- How much longer each sleep of the delay takes than was asked for. -/
  excess : Nat → Nat

/-- Something that happened to a pipeline, and what the pipeline did about it. -/
structure Entry where
  moment : Nat
  event : Event
  actions : List Action
  /-- The count of restarts afterwards. -/
  restarts : Nat

/-- A pipeline at some moment, with all that happened to it until then. -/
structure Chronicle where
  now : Nat
  pipeline : Pipeline
  entries : List Entry

/-- Whether a moment has come, if it ever does. -/
def hasCome (cancellation : Option Nat) (now : Nat) : Bool :=
  cancellation.any (· ≤ now)

namespace Attempt

/-- The delay that begins when the end of the attempt has been reported. -/
def delay (regime : Regime) (cancellation : Option Nat) (attempt : Attempt) (start : Nat) :
    Pause.Course :=
  Pause.course ⟨attempt.excess, cancellation.map (· - start)⟩ (regime.restartDelay * Pause.millisecond)

end Attempt

namespace Chronicle

/-- A pipeline that was launched just now. -/
def launched : Chronicle :=
  { now := 0
    pipeline := .launched
    entries := [] }

/-- The chronicle after some time has passed and something has happened. -/
def add (regime : Regime) (chronicle : Chronicle) (passed : Nat) (event : Event) : Chronicle :=
  let (pipeline, actions) := chronicle.pipeline.respond regime event
  let moment := chronicle.now + passed
  { now := moment
    pipeline := pipeline
    entries := chronicle.entries ++ [⟨moment, event, actions, pipeline.restarts⟩] }

/-- The chronicle after the steps of a tailer. -/
def follow (regime : Regime) (chronicle : Chronicle) (looks : List (Nat × View)) : Chronicle :=
  looks.foldl (fun chronicle look => chronicle.add regime look.1 (.look look.2)) chronicle

/-- The chronicle after the end of a tailer was noticed. -/
def conclude (regime : Regime) (cancellation : Option Nat) (chronicle : Chronicle)
    (attempt : Attempt) : Chronicle :=
  chronicle.add regime attempt.remainder
    (.ended attempt.ending (hasCome cancellation (chronicle.now + attempt.remainder)))

/-- The chronicle after the delay that follows on an attempt. -/
def pause (regime : Regime) (cancellation : Option Nat) (chronicle : Chronicle)
    (attempt : Attempt) : Chronicle :=
  let course := attempt.delay regime cancellation (chronicle.now + attempt.reporting)
  chronicle.add regime (attempt.reporting + course.finish) (.delayed course.completed)

/-- The chronicle after one attempt, and the delay if there is one. Nothing happens to a pipeline
without a tailer. -/
def turn (regime : Regime) (cancellation : Option Nat) (chronicle : Chronicle) (attempt : Attempt) :
    Chronicle :=
  if chronicle.pipeline.tailer?.isSome then
    let concluded := (chronicle.follow regime attempt.looks).conclude regime cancellation attempt
    if concluded.pipeline.phase = .waiting then concluded.pause regime cancellation attempt
    else concluded
  else chronicle

end Chronicle

/-- All that happens to a pipeline from its launch on, in the course of some attempts. -/
def chronicle (regime : Regime) (cancellation : Option Nat) (attempts : List Attempt) : Chronicle :=
  attempts.foldl (Chronicle.turn regime cancellation) .launched

/-! ### The delay -/

namespace Attempt

variable (regime : Regime) (cancellation : Option Nat) (attempt : Attempt) (start : Nat)

theorem isCancelled_delay (now : Nat) :
    Pause.Surroundings.isCancelled ⟨attempt.excess, cancellation.map (· - start)⟩ now =
      hasCome cancellation (start + now) := by
  cases cancellation with
  | none => rfl
  | some moment =>
    simp only [Pause.Surroundings.isCancelled, hasCome, Option.map_some, Option.any_some,
      decide_eq_decide]
    omega

/-- A delay is completed if the pipeline is not found cancelled at its end. -/
theorem completed_delay :
    (attempt.delay regime cancellation start).completed =
      !hasCome cancellation (start + (attempt.delay regime cancellation start).finish) := by
  rw [← isCancelled_delay cancellation attempt start]
  exact Pause.completed_courseFrom _ _ _ _

variable {regime cancellation attempt start}

/-- A delay that is completed has lasted its time. -/
theorem le_finish_delay (completed : (attempt.delay regime cancellation start).completed = true) :
    regime.restartDelay * Pause.millisecond ≤ (attempt.delay regime cancellation start).finish :=
  Pause.deadline_le_finish _ _ _ _ completed

theorem finish_delay_le {slack : Nat} (hurried : ∀ sleep, attempt.excess sleep ≤ slack) :
    (attempt.delay regime cancellation start).finish ≤
      regime.restartDelay * Pause.millisecond + slack :=
  Pause.finish_le_deadline_add hurried (Nat.zero_le _)

end Attempt

/-! ### What is counted -/

def Action.isStart : Action → Bool
  | .start _ => true
  | _ => false

/-- Whether an attempt ended. -/
def Event.isEnding : Event → Bool
  | .ended _ _ => true
  | _ => false

/-- Whether an attempt ended and the pipeline was not found cancelled. -/
def Event.isSetback : Event → Bool
  | .ended _ cancelled => !cancelled
  | _ => false

/-- Whether the pipeline was found cancelled. -/
def Event.isCancellation : Event → Bool
  | .look _ => false
  | .ended _ cancelled => cancelled
  | .delayed completed => !completed

/-- How many attempts have begun, the one included that began with the launch. -/
def attemptsIn (entries : List Entry) : Nat :=
  (entries.flatMap (·.actions)).countP Action.isStart + 1

def endingsIn (entries : List Entry) : Nat :=
  entries.countP (·.event.isEnding)

def setbacksIn (entries : List Entry) : Nat :=
  entries.countP (·.event.isSetback)

section Counting

variable (entries : List Entry) (entry : Entry)

theorem attemptsIn_concat : attemptsIn (entries ++ [entry]) =
    attemptsIn entries + entry.actions.countP Action.isStart := by
  simp only [attemptsIn, List.flatMap_append, List.flatMap_singleton, List.countP_append]
  omega

theorem endingsIn_concat :
    endingsIn (entries ++ [entry]) = endingsIn entries + entry.event.isEnding.toNat := by
  cases kind : entry.event.isEnding <;> simp [endingsIn, kind]

theorem setbacksIn_concat :
    setbacksIn (entries ++ [entry]) = setbacksIn entries + entry.event.isSetback.toNat := by
  cases kind : entry.event.isSetback <;> simp [setbacksIn, kind]

end Counting

/-! ### Entries in order -/

variable {regime : Regime} {cancellation : Option Nat} {attempts : List Attempt}

/-- A pipeline reported an ending and began its delay. -/
structure Entry.IsSetback (regime : Regime) (entry : Entry) (ending : Ending) : Prop where
  event : entry.event = .ended ending false
  actions : entry.actions = [.report ending, .delay regime.restartDelay]

/-- An entry stands behind a setback, no sooner than after the delay, and no later than the report
of the setback and the last sleep of the delay make it. -/
def Entry.IsDelayed (regime : Regime) (attempts : List Attempt) (before : List Entry)
    (entry : Entry) : Prop :=
  ∃ earlier setback ending, before = earlier ++ [setback] ∧ setback.IsSetback regime ending ∧
    setback.moment + regime.restartDelay * Pause.millisecond ≤ entry.moment ∧
    ∀ slack, (∀ attempt ∈ attempts, ∀ sleep, attempt.reporting + attempt.excess sleep ≤ slack) →
      entry.moment ≤ setback.moment + regime.restartDelay * Pause.millisecond + slack

/-- What holds of an entry behind some others. -/
structure Entry.Orderly (regime : Regime) (cancellation : Option Nat) (attempts : List Attempt)
    (before : List Entry) (entry : Entry) : Prop where
  /-- There is one tailer at most: none ends that did not begin, and none begins while another one
  is there. -/
  alone : endingsIn (before ++ [entry]) ≤ attemptsIn (before ++ [entry]) ∧
    attemptsIn (before ++ [entry]) ≤ endingsIn (before ++ [entry]) + 1
  /-- A tailer that is started has no file at hand, is to read the first one from its end, and
  remembers nothing. -/
  fresh : ∀ tailer, .start tailer ∈ entry.actions →
    tailer.cursor = none ∧ tailer.skipsHistory = true ∧ tailer.resume = none ∧ tailer.memory = []
  /-- A tailer is started in place of one that ended, after the delay. -/
  delayed : ∀ tailer, .start tailer ∈ entry.actions → entry.IsDelayed regime attempts before
  /-- Nothing happens any more once the pipeline was found cancelled. -/
  uncancelled : ∀ earlier ∈ before, earlier.event.isCancellation = false
  /-- The pipeline is found cancelled whenever it looks at a time when it is. -/
  truthful : (∃ view, entry.event = .look view) ∨
    entry.event.isCancellation = hasCome cancellation entry.moment
  stops : entry.event.isCancellation = true → entry.actions = [.stop]
  /-- The count never goes down before it starts over. -/
  ascending : setbacksIn (before ++ [entry]) < twoTo 64 →
    ∀ earlier ∈ before, earlier.restarts ≤ entry.restarts
  counted : entry.restarts = setbacksIn (before ++ [entry]) % twoTo 64

/-- What is so of every entry and those before it stays so when an entry is added of which it is so
as well. -/
theorem forall_split_concat {property : List Entry → Entry → Prop} {entries : List Entry}
    {added : Entry}
    (all : ∀ before entry after, entries = before ++ entry :: after → property before entry)
    (last : property entries added) :
    ∀ before entry after, entries ++ [added] = before ++ entry :: after → property before entry := by
  intro before entry after split
  rcases List.eq_nil_or_concat after with rfl | ⟨others, final, rfl⟩
  · obtain ⟨rfl, same⟩ := List.append_inj' split rfl
    rw [List.cons.injEq] at same
    exact same.1 ▸ last
  · rw [List.concat_eq_append, ← List.cons_append, ← List.append_assoc] at split
    exact all before entry others (List.append_inj' split rfl).1

/-! ### Chronicles in order -/

namespace Pipeline

theorem exists_of_isSome_tailer? {pipeline : Pipeline} (atWork : pipeline.tailer?.isSome) :
    ∃ tailer, pipeline.phase = .running tailer := by
  unfold tailer? at atWork
  split at atWork
  next tailer running => exact ⟨tailer, running⟩
  next => cases atWork

theorem respondAll_concat (pipeline : Pipeline) (events : List Event) (event : Event) :
    pipeline.respondAll regime (events ++ [event]) =
      let (before, actions) := pipeline.respondAll regime events
      let (after, further) := before.respond regime event
      (after, actions ++ further) := by
  rw [respondAll, List.foldl_append]
  rfl

/-- Nothing that happens to a pipeline concerns it once it has stopped. -/
theorem respondAll_of_stopped {pipeline : Pipeline} (stopped : pipeline.phase = .stopped)
    (events : List Event) : pipeline.respondAll regime events = (pipeline, []) := by
  induction events using List.reverseRecOn with
  | nil => rfl
  | append_singleton events event inductionHypothesis =>
    rw [respondAll_concat, inductionHypothesis]
    simp only [respond, stopped, List.append_nil]

/-- What a pipeline does about some events and one more it does about them one after the other. -/
theorem run_concat {events : List Event} {event : Event} {before after : Pipeline}
    {actions further : List Action} (run : Pipeline.run regime events = (before, actions))
    (responded : before.respond regime event = (after, further)) :
    Pipeline.run regime (events ++ [event]) = (after, actions ++ further) := by
  simp only [Pipeline.run, Prod.mk.injEq] at run
  obtain ⟨rfl, rfl⟩ := run
  simp only [Pipeline.run, respondAll_concat, responded, List.cons_append]

end Pipeline

namespace Chronicle

/-- The pipeline has gone on after each ending. -/
structure Going (chronicle : Chronicle) : Prop where
  endings : endingsIn chronicle.entries = setbacksIn chronicle.entries
  uncancelled : ∀ entry ∈ chronicle.entries, entry.event.isCancellation = false

/-- How a chronicle stands, depending on what the pipeline is doing. -/
def Stands (regime : Regime) (chronicle : Chronicle) : Prop :=
  match chronicle.pipeline.phase with
  | .running _ =>
    chronicle.Going ∧ attemptsIn chronicle.entries = setbacksIn chronicle.entries + 1
  | .waiting =>
    chronicle.Going ∧ attemptsIn chronicle.entries = setbacksIn chronicle.entries ∧
      ∃ earlier setback ending, chronicle.entries = earlier ++ [setback] ∧
        setback.IsSetback regime ending ∧ setback.moment = chronicle.now
  | .stopped =>
    attemptsIn chronicle.entries = endingsIn chronicle.entries ∧
      ∃ before last, chronicle.entries = before ++ [last] ∧
        ((∃ ending, last.event = .ended ending true) ∧
            attemptsIn chronicle.entries = setbacksIn chronicle.entries + 1 ∨
          last.event = .delayed false ∧
            attemptsIn chronicle.entries = setbacksIn chronicle.entries)

/-- What holds of a chronicle at any time. -/
structure Kept (regime : Regime) (cancellation : Option Nat) (attempts : List Attempt)
    (chronicle : Chronicle) : Prop where
  told : Pipeline.run regime (chronicle.entries.map (·.event)) =
    (chronicle.pipeline, .start Tailer.fresh :: chronicle.entries.flatMap (·.actions))
  orderly : ∀ before entry after, chronicle.entries = before ++ entry :: after →
    entry.Orderly regime cancellation attempts before
  counted : chronicle.pipeline.restarts = setbacksIn chronicle.entries % twoTo 64
  stands : chronicle.Stands regime

theorem kept_launched : launched.Kept regime cancellation attempts where
  told := rfl
  orderly before entry after split := by cases (List.append_eq_nil_iff.mp split.symm).2
  counted := rfl
  stands := ⟨⟨rfl, fun entry member => by cases member⟩, rfl⟩

variable {chronicle : Chronicle} {tailer : Tailer} {event : Event} {after : Pipeline}
  {actions : List Action} {passed : Nat}

/-- However a chronicle stands, there is one tailer at most. -/
theorem Stands.alone (stands : chronicle.Stands regime) :
    endingsIn chronicle.entries ≤ attemptsIn chronicle.entries ∧
      attemptsIn chronicle.entries ≤ endingsIn chronicle.entries + 1 := by
  unfold Stands at stands
  split at stands
  · obtain ⟨going, attempted⟩ := stands
    rw [going.endings, attempted]
    omega
  · obtain ⟨going, attempted, _⟩ := stands
    rw [going.endings, attempted]
    omega
  · omega

/-- Until the count starts over, no entry has a higher one than a later entry. -/
theorem Kept.restarts_le (kept : chronicle.Kept regime cancellation attempts) {entry : Entry}
    {count : Nat} (counted : count = setbacksIn (chronicle.entries ++ [entry]) % twoTo 64)
    (few : setbacksIn (chronicle.entries ++ [entry]) < twoTo 64) :
    ∀ earlier ∈ chronicle.entries, earlier.restarts ≤ count := by
  intro earlier member
  obtain ⟨before, behind, split⟩ := List.append_of_mem member
  have fewer : setbacksIn (before ++ [earlier]) ≤ setbacksIn (chronicle.entries ++ [entry]) := by
    rw [split, List.append_cons before earlier behind, List.append_assoc]
    exact (List.prefix_append _ _).sublist.countP_le
  rw [(kept.orderly before earlier behind split).counted, counted, Nat.mod_eq_of_lt few,
    Nat.mod_eq_of_lt (Nat.lt_of_le_of_lt fewer few)]
  exact fewer

/-! ### One event -/

theorem add_eq (responded : chronicle.pipeline.respond regime event = (after, actions)) :
    chronicle.add regime passed event =
      ⟨chronicle.now + passed, after,
        chronicle.entries ++ [⟨chronicle.now + passed, event, actions, after.restarts⟩]⟩ := by
  simp only [add, responded]

/-- While a pipeline goes on, an ending is a setback. -/
theorem Going.add (going : chronicle.Going)
    (responded : chronicle.pipeline.respond regime event = (after, actions))
    (uncancelled : event.isCancellation = false) (same : event.isSetback = event.isEnding) :
    (chronicle.add regime passed event).Going where
  endings := by rw [add_eq responded, endingsIn_concat, setbacksIn_concat, going.endings, same]
  uncancelled := by
    rw [add_eq responded]
    exact List.forall_mem_append.mpr
      ⟨going.uncancelled, List.forall_mem_singleton.mpr uncancelled⟩

/-- The count goes up by one with a setback, unless it starts over. -/
theorem Kept.counted_add (kept : chronicle.Kept regime cancellation attempts) {entry : Entry}
    (counts : after.counter =
      if entry.event.isSetback then chronicle.pipeline.counter + 1 else chronicle.pipeline.counter) :
    after.restarts = setbacksIn (chronicle.entries ++ [entry]) % twoTo 64 := by
  have before : chronicle.pipeline.counter.toNat = setbacksIn chronicle.entries % twoTo 64 :=
    kept.counted
  rw [setbacksIn_concat, Pipeline.restarts, counts]
  cases entry.event.isSetback with
  | false => exact before
  | true => rw [if_pos rfl, UInt64.toNat_add, UInt64.toNat_one, before, Nat.mod_add_mod]; rfl

/-- A chronicle stays in order with an event that is in order in itself. -/
theorem Kept.add (kept : chronicle.Kept regime cancellation attempts) (going : chronicle.Going)
    (responded : chronicle.pipeline.respond regime event = (after, actions))
    (counts : after.counter =
      if event.isSetback then chronicle.pipeline.counter + 1 else chronicle.pipeline.counter)
    (started : ∀ tailer, .start tailer ∈ actions → tailer = Tailer.fresh ∧
      Entry.IsDelayed regime attempts chronicle.entries
        ⟨chronicle.now + passed, event, actions, after.restarts⟩)
    (truthful : (∃ view, event = .look view) ∨
      event.isCancellation = hasCome cancellation (chronicle.now + passed))
    (stops : event.isCancellation = true → actions = [.stop])
    (stands : (chronicle.add regime passed event).Stands regime) :
    (chronicle.add regime passed event).Kept regime cancellation attempts := by
  have alone := stands.alone
  rw [add_eq responded] at alone stands ⊢
  have counted : after.restarts = setbacksIn (chronicle.entries ++
      [⟨chronicle.now + passed, event, actions, after.restarts⟩]) % twoTo 64 :=
    kept.counted_add counts
  refine ⟨?_, forall_split_concat kept.orderly ?_, counted, stands⟩
  · rw [List.map_append, List.flatMap_append, List.map_singleton, List.flatMap_singleton,
      ← List.cons_append]
    exact Pipeline.run_concat kept.told responded
  · exact {
      alone := alone
      fresh := fun tailer member => by
        obtain ⟨rfl, _⟩ := started tailer member
        exact ⟨rfl, rfl, rfl, rfl⟩
      delayed := fun tailer member => (started tailer member).2
      uncancelled := going.uncancelled
      truthful := truthful
      stops := stops
      ascending := kept.restarts_le counted
      counted := counted }

/-- A step of the tailer. -/
theorem Kept.look (kept : chronicle.Kept regime cancellation attempts)
    (running : chronicle.pipeline.phase = .running tailer) (passed : Nat) (view : View) :
    (chronicle.add regime passed (.look view)).Kept regime cancellation attempts ∧
      (chronicle.add regime passed (.look view)).pipeline.phase =
        .running (tailer.step regime.pace view).tailer := by
  obtain ⟨going, attempted⟩ : _ ∧ _ := by simpa only [Stands, running] using kept.stands
  have responded : chronicle.pipeline.respond regime (.look view) =
      (⟨.running (tailer.step regime.pace view).tailer, chronicle.pipeline.counter⟩,
        [.consume (tailer.step regime.pace view).segments,
          .rest (tailer.step regime.pace view).next]) := by
    simp only [Pipeline.respond, running]
  have goes : (chronicle.add regime passed (.look view)).Going := going.add responded rfl rfl
  refine ⟨kept.add going responded rfl (by simp) (.inl ⟨view, rfl⟩) (by simp [Event.isCancellation])
    ?_, ?_⟩
  · rw [add_eq responded] at goes ⊢
    exact ⟨goes, by rw [attemptsIn_concat, setbacksIn_concat, attempted]; rfl⟩
  · rw [add_eq responded]

/-- The end of a tailer. -/
theorem Kept.conclude (kept : chronicle.Kept regime cancellation attempts)
    (running : chronicle.pipeline.phase = .running tailer) (attempt : Attempt) :
    (chronicle.conclude regime cancellation attempt).Kept regime cancellation attempts := by
  obtain ⟨going, attempted⟩ : _ ∧ _ := by simpa only [Stands, running] using kept.stands
  unfold Chronicle.conclude
  generalize come : hasCome cancellation (chronicle.now + attempt.remainder) = cancelled
  cases cancelled with
  | true =>
    have responded : chronicle.pipeline.respond regime (.ended attempt.ending true) =
        (⟨.stopped, chronicle.pipeline.counter⟩, [.stop]) := by
      simp only [Pipeline.respond, running]
    refine kept.add going responded rfl (by simp) (.inr come.symm) (fun _ => rfl) ?_
    rw [add_eq responded]
    refine ⟨?_, chronicle.entries, _, rfl, .inl ⟨⟨attempt.ending, rfl⟩, ?_⟩⟩
    · rw [attemptsIn_concat, endingsIn_concat, attempted, going.endings]
      rfl
    · rw [attemptsIn_concat, setbacksIn_concat, attempted]
      rfl
  | false =>
    have responded : chronicle.pipeline.respond regime (.ended attempt.ending false) =
        (⟨.waiting, chronicle.pipeline.counter + 1⟩,
          [.report attempt.ending, .delay regime.restartDelay]) := by
      simp only [Pipeline.respond, running]
    have goes : (chronicle.add regime attempt.remainder (.ended attempt.ending false)).Going :=
      going.add responded rfl rfl
    refine kept.add going responded rfl (by simp) (.inr come.symm) (by simp [Event.isCancellation]) ?_
    rw [add_eq responded] at goes ⊢
    refine ⟨goes, ?_, chronicle.entries, _, attempt.ending, rfl, ⟨rfl, rfl⟩, rfl⟩
    rw [attemptsIn_concat, setbacksIn_concat, attempted]
    rfl

/-- The end of a delay at its time. -/
theorem Kept.resume (kept : chronicle.Kept regime cancellation attempts)
    (waiting : chronicle.pipeline.phase = .waiting)
    (uncancelled : hasCome cancellation (chronicle.now + passed) = false)
    (least : regime.restartDelay * Pause.millisecond ≤ passed)
    (most : ∀ slack,
      (∀ attempt ∈ attempts, ∀ sleep, attempt.reporting + attempt.excess sleep ≤ slack) →
        passed ≤ regime.restartDelay * Pause.millisecond + slack) :
    (chronicle.add regime passed (.delayed true)).Kept regime cancellation attempts := by
  obtain ⟨going, attempted, earlier, setback, ending, split, isSetback, moment⟩ : _ ∧ _ ∧ _ := by
    simpa only [Stands, waiting] using kept.stands
  have responded : chronicle.pipeline.respond regime (.delayed true) =
      (⟨.running Tailer.fresh, chronicle.pipeline.counter⟩, [.start Tailer.fresh]) := by
    simp only [Pipeline.respond, waiting]
  refine kept.add going responded rfl (fun tailer member => ?_) (.inr uncancelled.symm)
    (by simp [Event.isCancellation]) ?_
  · rw [List.mem_singleton, Action.start.injEq] at member
    refine ⟨member, earlier, setback, ending, split, isSetback, ?_, fun slack hurried => ?_⟩
    · rw [moment]
      exact Nat.add_le_add_left least chronicle.now
    · rw [moment, Nat.add_assoc]
      exact Nat.add_le_add_left (most slack hurried) chronicle.now
  · have goes : (chronicle.add regime passed (.delayed true)).Going := going.add responded rfl rfl
    rw [add_eq responded] at goes ⊢
    exact ⟨goes, by rw [attemptsIn_concat, setbacksIn_concat, attempted]; rfl⟩

/-- The end of a delay in which the pipeline was cancelled. -/
theorem Kept.giveUp (kept : chronicle.Kept regime cancellation attempts)
    (waiting : chronicle.pipeline.phase = .waiting)
    (cancelled : hasCome cancellation (chronicle.now + passed) = true) :
    (chronicle.add regime passed (.delayed false)).Kept regime cancellation attempts := by
  obtain ⟨going, attempted, _⟩ : _ ∧ _ ∧ _ := by
    simpa only [Stands, waiting] using kept.stands
  have responded : chronicle.pipeline.respond regime (.delayed false) =
      (⟨.stopped, chronicle.pipeline.counter⟩, [.stop]) := by
    simp only [Pipeline.respond, waiting]
  refine kept.add going responded rfl (by simp) (.inr cancelled.symm) (fun _ => rfl) ?_
  rw [add_eq responded]
  refine ⟨?_, chronicle.entries, _, rfl, .inr ⟨rfl, ?_⟩⟩
  · rw [attemptsIn_concat, endingsIn_concat, attempted, going.endings]
    rfl
  · rw [attemptsIn_concat, setbacksIn_concat, attempted]
    rfl

/-- The delay after the end of a tailer. -/
theorem Kept.pause (kept : chronicle.Kept regime cancellation attempts)
    (waiting : chronicle.pipeline.phase = .waiting) {attempt : Attempt}
    (member : attempt ∈ attempts) :
    (chronicle.pause regime cancellation attempt).Kept regime cancellation attempts := by
  have last := attempt.completed_delay regime cancellation (chronicle.now + attempt.reporting)
  rw [Nat.add_assoc] at last
  show (chronicle.add regime _ (.delayed (attempt.delay regime cancellation _).completed)).Kept _ _ _
  cases completed :
      (attempt.delay regime cancellation (chronicle.now + attempt.reporting)).completed with
  | true =>
    rw [completed, Bool.true_eq, Bool.not_eq_true'] at last
    refine kept.resume waiting last ?_ fun slack hurried => ?_
    · exact Nat.le_add_left_of_le (Attempt.le_finish_delay completed)
    · have reported := hurried attempt member 0
      have finished :
          (attempt.delay regime cancellation (chronicle.now + attempt.reporting)).finish ≤ _ :=
        Attempt.finish_delay_le fun sleep => Nat.le_sub_of_add_le' (hurried attempt member sleep)
      omega
  | false =>
    rw [completed, Bool.false_eq, Bool.not_eq_false'] at last
    exact kept.giveUp waiting last

/-! ### All attempts -/

/-- Any number of steps of the tailer. -/
theorem Kept.follow (kept : chronicle.Kept regime cancellation attempts)
    (running : chronicle.pipeline.phase = .running tailer) (looks : List (Nat × View)) :
    (chronicle.follow regime looks).Kept regime cancellation attempts ∧
      ∃ other, (chronicle.follow regime looks).pipeline.phase = .running other := by
  induction looks generalizing chronicle tailer with
  | nil => exact ⟨kept, tailer, running⟩
  | cons look others inductionHypothesis =>
    obtain ⟨looked, stillRunning⟩ := kept.look running look.1 look.2
    exact inductionHypothesis looked stillRunning

/-- One attempt, with the delay behind it if there is one. -/
theorem Kept.turn (kept : chronicle.Kept regime cancellation attempts) {attempt : Attempt}
    (member : attempt ∈ attempts) :
    (chronicle.turn regime cancellation attempt).Kept regime cancellation attempts := by
  simp only [Chronicle.turn]
  split
  next atWork =>
    obtain ⟨tailer, running⟩ := Pipeline.exists_of_isSome_tailer? atWork
    obtain ⟨followed, other, stillRunning⟩ := kept.follow running attempt.looks
    have concluded := followed.conclude stillRunning attempt
    split
    next waiting => exact concluded.pause waiting member
    next => exact concluded
  next => exact kept

end Chronicle

/-- A chronicle is in order after any attempts. -/
theorem kept_chronicle (regime : Regime) (cancellation : Option Nat) (attempts : List Attempt) :
    (chronicle regime cancellation attempts).Kept regime cancellation attempts :=
  List.foldlRecOn attempts _ Chronicle.kept_launched fun _ kept _ member => kept.turn member

/-- Whatever becomes of the tailers of a pipeline, and whenever it is cancelled: the chronicle tells
what the pipeline does about all that happens to it, each of its entries is in order, and the count
of restarts is the count of the setbacks, until it starts over behind the last word. A pipeline that
has stopped does nothing any more. It was found cancelled after an ending, and then there was one
attempt more than there were setbacks, or in a delay, and then there were as many. -/
theorem chronicle_in_order (regime : Regime) (cancellation : Option Nat) (attempts : List Attempt) :
    let whole := chronicle regime cancellation attempts
    Pipeline.run regime (whole.entries.map (·.event)) =
        (whole.pipeline, .start Tailer.fresh :: whole.entries.flatMap (·.actions)) ∧
      (∀ before entry after, whole.entries = before ++ entry :: after →
        entry.Orderly regime cancellation attempts before) ∧
      whole.pipeline.restarts = setbacksIn whole.entries % twoTo 64 ∧
      (setbacksIn whole.entries < twoTo 64 →
        whole.pipeline.restarts = setbacksIn whole.entries) ∧
      (whole.pipeline.phase = .stopped →
        (∀ events, whole.pipeline.respondAll regime events = (whole.pipeline, [])) ∧
          ∃ before last, whole.entries = before ++ [last] ∧
            ((∃ ending, last.event = .ended ending true) ∧
                attemptsIn whole.entries = setbacksIn whole.entries + 1 ∨
              last.event = .delayed false ∧
                attemptsIn whole.entries = setbacksIn whole.entries)) := by
  have kept := kept_chronicle regime cancellation attempts
  refine ⟨kept.told, kept.orderly, kept.counted,
    fun few => kept.counted.trans (Nat.mod_eq_of_lt few), fun stopped =>
    ⟨Pipeline.respondAll_of_stopped stopped, ?_⟩⟩
  obtain ⟨_, closing⟩ : _ ∧ _ := by simpa only [Chronicle.Stands, stopped] using kept.stands
  exact closing

/-- A regime with a short delay. -/
def brisk : Regime :=
  { pace := Pace.ofLimit 10 10 1
    restartDelay := 20 }

/-- A tailer that dies, one that cannot be started, and one that returns. -/
def threeAttempts : List Attempt :=
  [⟨[], 50 * Pause.millisecond, .died (.text "poisoned line"), 0, fun _ => 0⟩,
    ⟨[], 0, .unstarted "out of memory", Pause.millisecond, fun _ => 0⟩,
    ⟨[], 45 * Pause.millisecond, .returned, 0, fun _ => 0⟩]

/-- There are two restarts if the cancellation comes before the third tailer ends, and two as well
if it comes before the third tailer begins. -/
theorem chronicle_in_order_threeAttempts :
    let late := chronicle brisk (some (130 * Pause.millisecond)) threeAttempts
    let early := chronicle brisk (some (80 * Pause.millisecond)) threeAttempts
    (late.pipeline = ⟨.stopped, 2⟩ ∧ attemptsIn late.entries = 3 ∧
        ∃ before last ending, late.entries = before ++ [last] ∧ last.event = .ended ending true) ∧
      early.pipeline = ⟨.stopped, 2⟩ ∧ attemptsIn early.entries = 2 ∧
        ∃ before last, early.entries = before ++ [last] ∧ last.event = .delayed false := by
  intro late early
  have lateEnd : late.pipeline = ⟨.stopped, 2⟩ := by decide +kernel
  have earlyEnd : early.pipeline = ⟨.stopped, 2⟩ := by decide +kernel
  have lateAttempts : attemptsIn late.entries = 3 := by decide +kernel
  have earlyAttempts : attemptsIn early.entries = 2 := by decide +kernel
  have lateSetbacks : setbacksIn late.entries = 2 := by decide +kernel
  have earlySetbacks : setbacksIn early.entries = 2 := by decide +kernel
  obtain ⟨_, _, _, _, lateClosing⟩ :=
    chronicle_in_order brisk (some (130 * Pause.millisecond)) threeAttempts
  obtain ⟨_, _, _, _, earlyClosing⟩ :=
    chronicle_in_order brisk (some (80 * Pause.millisecond)) threeAttempts
  refine ⟨⟨lateEnd, lateAttempts, ?_⟩, earlyEnd, earlyAttempts, ?_⟩
  · obtain ⟨before, last, split, ⟨⟨ending, ended⟩, _⟩ | ⟨_, count⟩⟩ :=
      (lateClosing (congrArg Pipeline.phase lateEnd)).2
    · exact ⟨before, last, ending, split, ended⟩
    · cases lateAttempts.symm.trans (count.trans lateSetbacks)
  · obtain ⟨before, last, split, ⟨_, count⟩ | ⟨delayed, _⟩⟩ :=
      (earlyClosing (congrArg Pipeline.phase earlyEnd)).2
    · cases earlyAttempts.symm.trans (count.trans (congrArg (· + 1) earlySetbacks))
    · exact ⟨before, last, split, delayed⟩

end NodeTelemetry.Supervision
