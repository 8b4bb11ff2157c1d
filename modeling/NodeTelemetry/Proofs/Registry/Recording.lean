/-
This file says what an observation does to the published values. It changes at most the metric it
names, and how it changes this metric does not depend on the others. So what becomes of a metric is
settled by the observations that name it and by their order, whatever is observed in between.

Recording looks at the name of an observation, at its change and at its labels, and then at the one
metric that has this name. `Effect` lists what can come of this: nothing, or a change of one metric
that is the same for all registries. It is the only place where the recording of an observation is
opened. All that follows is shown for an effect: it treats registries alike that agree on a metric,
and it leaves alone each metric that is not named.
-/

import NodeTelemetry.Proofs.Registry.Samples
import NodeTelemetry.Registry.Basic

namespace NodeTelemetry

theorem Metric.name_injective {first second : Metric} (same : first.name = second.name) :
    first = second := by
  revert same
  cases first <;> cases second <;> decide

namespace Registry

/-! ### What an observation does -/

/-- What an observation can do to all registries: nothing, or a change of the metric it names. -/
inductive Effect (observation : Observation) : (Registry → Registry) → Prop
  | rejected : Effect observation id
  | proposerCount (labels : List String) (change : UInt64 → UInt64)
      (named : observation.name = Metric.proposerCount.name) (labelled : labels.length = 1) :
      Effect observation fun registry =>
        { registry with proposerCount := registry.proposerCount.update labels 0 change }
  | blockHeight (value : Int64) (named : observation.name = Metric.blockHeight.name) :
      Effect observation fun registry => { registry with blockHeight := value }
  | applyDuration (value : Binary64) (named : observation.name = Metric.applyDuration.name) :
      Effect observation fun registry => { registry with applyDuration := value }
  | jailedStatus (labels : List String) (value : Binary64)
      (named : observation.name = Metric.jailedStatus.name) (labelled : labels.length = 2) :
      Effect observation fun registry =>
        { registry with
          jailedStatus := registry.jailedStatus.update labels Binary64.zero fun _ => value }
  | validatorCount (value : Int64) (named : observation.name = Metric.validatorCount.name) :
      Effect observation fun registry => { registry with validatorCount := value }

/-- What recording does is one of the effects, whatever is recorded. -/
theorem effect_record (observation : Observation) :
    Effect observation fun registry => registry.record observation := by
  obtain ⟨name, labels, change⟩ := observation
  unfold record accept?
  cases change with
  | increment amount =>
    by_cases accepted :
        (name = Metric.proposerCount.name && (labels.map (·.2)).length == 1) = true
    · simp only [accepted, if_true, Option.getD_some]
      simp only [Bool.and_eq_true, decide_eq_true_eq, beq_iff_eq] at accepted
      exact .proposerCount _ _ accepted.1 accepted.2
    · simp only [accepted]
      exact .rejected
  | set value =>
    by_cases height : name = Metric.blockHeight.name
    · simp only [height, if_true, Option.getD_some]
      exact .blockHeight _ rfl
    by_cases duration : name = Metric.applyDuration.name
    · simp only [duration, if_true]
      exact .applyDuration _ rfl
    by_cases status : (name = Metric.jailedStatus.name && (labels.map (·.2)).length == 2) = true
    · simp only [height, duration, status, if_true, if_false, Option.getD_some]
      simp only [Bool.and_eq_true, decide_eq_true_eq, beq_iff_eq] at status
      exact .jailedStatus _ _ status.1 status.2
    by_cases count : name = Metric.validatorCount.name
    · simp only [count, if_true]
      exact .validatorCount _ rfl
    · simp only [height, duration, status, count, if_false]
      exact .rejected

/-! ### One metric among the others -/

/-- Whether two registries hold the same of a metric. -/
def AgreesOn (metric : Metric) (first second : Registry) : Prop :=
  match metric with
  | .proposerCount => first.proposerCount = second.proposerCount
  | .blockHeight => first.blockHeight = second.blockHeight
  | .applyDuration => first.applyDuration = second.applyDuration
  | .jailedStatus => first.jailedStatus = second.jailedStatus
  | .validatorCount => first.validatorCount = second.validatorCount

variable {metric : Metric} {first second third registry : Registry} {observation : Observation}

theorem AgreesOn.refl (metric : Metric) (registry : Registry) :
    AgreesOn metric registry registry := by
  cases metric <;> rfl

theorem AgreesOn.symm (agrees : AgreesOn metric first second) :
    AgreesOn metric second first := by
  cases metric <;> exact Eq.symm agrees

theorem AgreesOn.trans (agrees : AgreesOn metric first second)
    (agreesToo : AgreesOn metric second third) : AgreesOn metric first third := by
  cases metric <;> exact Eq.trans agrees agreesToo

/-- Registries that agree on every metric are the same. -/
theorem eq_of_agreesOn (agree : ∀ metric, AgreesOn metric first second) : first = second := by
  obtain ⟨proposals, height, duration, status, count⟩ := first
  obtain rfl : proposals = _ := agree .proposerCount
  obtain rfl : height = _ := agree .blockHeight
  obtain rfl : duration = _ := agree .applyDuration
  obtain rfl : status = _ := agree .jailedStatus
  obtain rfl : count = _ := agree .validatorCount
  rfl

/-- What becomes of a metric depends only on the metric. -/
theorem Effect.agreesOn {effect : Registry → Registry} (acts : Effect observation effect)
    (agrees : AgreesOn metric first second) :
    AgreesOn metric (effect first) (effect second) := by
  cases acts with
  | rejected => exact agrees
  | proposerCount labels change =>
    cases metric with
    | proposerCount => exact congrArg (Samples.update · labels 0 change) agrees
    | _ => exact agrees
  | blockHeight value =>
    cases metric with
    | blockHeight => rfl
    | _ => exact agrees
  | applyDuration value =>
    cases metric with
    | applyDuration => rfl
    | _ => exact agrees
  | jailedStatus labels value =>
    cases metric with
    | jailedStatus => exact congrArg (Samples.update · labels Binary64.zero fun _ => value) agrees
    | _ => exact agrees
  | validatorCount value =>
    cases metric with
    | validatorCount => rfl
    | _ => exact agrees

/-- A metric that is not named does not change. -/
theorem Effect.frame {effect : Registry → Registry} (acts : Effect observation effect)
    (other : observation.name ≠ metric.name) (registry : Registry) :
    AgreesOn metric (effect registry) registry := by
  cases acts with
  | rejected => exact AgreesOn.refl metric registry
  | proposerCount labels change named =>
    cases metric with
    | proposerCount => exact absurd named other
    | _ => rfl
  | blockHeight value named =>
    cases metric with
    | blockHeight => exact absurd named other
    | _ => rfl
  | applyDuration value named =>
    cases metric with
    | applyDuration => exact absurd named other
    | _ => rfl
  | jailedStatus labels value named =>
    cases metric with
    | jailedStatus => exact absurd named other
    | _ => rfl
  | validatorCount value named =>
    cases metric with
    | validatorCount => exact absurd named other
    | _ => rfl

/-! ### Several observations -/

/-- Registries that agree on a metric still do behind any observations. -/
theorem AgreesOn.recordAll (agrees : AgreesOn metric first second)
    (observations : List Observation) :
    AgreesOn metric (first.recordAll observations) (second.recordAll observations) := by
  induction observations generalizing first second with
  | nil => exact agrees
  | cons observation others inductionHypothesis =>
    exact inductionHypothesis ((effect_record observation).agreesOn agrees)

/-- What becomes of a metric is settled by the observations that name it. -/
theorem agreesOn_recordAll_filter (metric : Metric) (observations : List Observation)
    (registry : Registry) :
    AgreesOn metric (registry.recordAll observations)
      (registry.recordAll (observations.filter (·.name = metric.name))) := by
  induction observations generalizing registry with
  | nil => exact AgreesOn.refl metric registry
  | cons observation others inductionHypothesis =>
    refine (inductionHypothesis (registry.record observation)).trans ?_
    by_cases names : observation.name = metric.name
    · rw [List.filter_cons_of_pos (by simpa using names)]
      exact AgreesOn.refl metric _
    · rw [List.filter_cons_of_neg (by simpa using names)]
      exact ((effect_record observation).frame names registry).recordAll _

/-- Observations of different metrics can be recorded in any order. -/
theorem recordAll_eq_of_filters {observations others : List Observation}
    (same : ∀ metric : Metric, observations.filter (·.name = metric.name) =
      others.filter (·.name = metric.name)) (registry : Registry) :
    registry.recordAll observations = registry.recordAll others := by
  refine eq_of_agreesOn fun metric => ?_
  have filtered := agreesOn_recordAll_filter metric observations registry
  rw [same metric] at filtered
  exact filtered.trans (agreesOn_recordAll_filter metric others registry).symm

end Registry

end NodeTelemetry
