/-
This file shows which pipelines the exporter starts. Two variables may hold what is refused, of
which the truth value is looked at first, and whatever else is set there are settings. The proposals
and the blocks need no directory, so they are launched with any settings, and behind them the
consensus on a validator whose address is known and whose directory exists. A pipeline that is
refused leaves the others as they are, which is why the exporter never gives up for want of a
pipeline.

No launch looks at another one, so launching all plans is keeping those that can be launched, in
their order. Whatever the settings, the first two are among them, and the fault of having no
pipeline at all is never met. The names, directories and waiting times of the plans are written down
once more as what the variables say, so nothing about them is left to the definitions that are run.
-/

import NodeTelemetry.Proofs.ListenAddress
import NodeTelemetry.Startup

namespace NodeTelemetry

open Net

/-! ### Truth values -/

namespace Settings

variable {lookup : String → Option String} {text : String} {fault : Fault} {settings : Settings}

/-- What a text is compared as, when it is to be a truth value. -/
def wordOf (text : String) : String :=
  Text.lowerAscii (Text.trim text)

def MeansYes (text : String) : Prop :=
  wordOf text ∈ ["1", "true", "yes", "on"]

def MeansNo (text : String) : Prop :=
  wordOf text ∈ ["", "0", "false", "no", "off"]

instance : DecidablePred MeansYes :=
  fun text => inferInstanceAs (Decidable (wordOf text ∈ ["1", "true", "yes", "on"]))

instance : DecidablePred MeansNo :=
  fun text => inferInstanceAs (Decidable (wordOf text ∈ ["", "0", "false", "no", "off"]))

theorem boolean?_eq (text : String) :
    boolean? text =
      if MeansYes text then some true else if MeansNo text then some false else none := by
  have yes : trueWords.contains (wordOf text) = true ↔ MeansYes text := List.contains_iff_mem
  have no : falseWords.contains (wordOf text) = true ↔ MeansNo text := List.contains_iff_mem
  simp only [← yes, ← no]
  rfl

theorem boolean?_eq_some_true_iff : boolean? text = some true ↔ MeansYes text := by
  rw [boolean?_eq]
  by_cases yes : MeansYes text
  · simp [yes]
  · by_cases no : MeansNo text <;> simp [yes, no]

theorem boolean?_eq_none_iff : boolean? text = none ↔ ¬MeansYes text ∧ ¬MeansNo text := by
  rw [boolean?_eq]
  by_cases yes : MeansYes text
  · simp [yes]
  · by_cases no : MeansNo text <;> simp [yes, no]

/-! ### What is refused -/

/-- Whether the variable for validators holds a text that is no truth value. -/
def HoldsNoTruthValue (lookup : String → Option String) (text : String) : Prop :=
  lookup "IS_VALIDATOR" = some text ∧ ¬MeansYes text ∧ ¬MeansNo text

/-- Whether the variable for the address to listen on holds a text that is no address. -/
def HoldsNoAddress (lookup : String → Option String) (text : String) : Prop :=
  lookup "METRICS_LISTEN_ADDR" = some text ∧ SocketAddress.ofText? (Text.trim text) = none

theorem readIsValidator_eq_error_iff : readIsValidator lookup = .error fault ↔
    ∃ text, HoldsNoTruthValue lookup text ∧ fault = .notBoolean "IS_VALIDATOR" text := by
  unfold readIsValidator HoldsNoTruthValue
  simp only [← boolean?_eq_none_iff]
  cases lookup "IS_VALIDATOR" with
  | none => simp
  | some text => cases found : boolean? text <;> grind

theorem readIsValidator_eq_ok_true_iff : readIsValidator lookup = .ok true ↔
    ∃ text, lookup "IS_VALIDATOR" = some text ∧ MeansYes text := by
  unfold readIsValidator
  simp only [← boolean?_eq_some_true_iff]
  cases lookup "IS_VALIDATOR" with
  | none => simp [default]
  | some text => cases found : boolean? text <;> simp [found]

theorem readListenAddress_eq_error_iff_lookup : readListenAddress lookup = .error fault ↔
    ∃ text, HoldsNoAddress lookup text ∧ fault = .notAddress "METRICS_LISTEN_ADDR" text := by
  unfold readListenAddress HoldsNoAddress
  cases lookup "METRICS_LISTEN_ADDR" with
  | none => simp
  | some text => cases found : SocketAddress.ofText? (Text.trim text) <;> grind

/-- A result that is refused for texts of some kind is there if there is no such text. -/
theorem exists_eq_ok_iff {Value : Type} {result : Except Fault Value} {Holds : String → Prop}
    {faultOf : String → Fault}
    (refused : ∀ fault, result = .error fault ↔ ∃ text, Holds text ∧ fault = faultOf text) :
    (∃ value, result = .ok value) ↔ ¬∃ text, Holds text := by
  cases result with
  | error fault =>
    obtain ⟨text, holds, _⟩ := (refused fault).mp rfl
    refine ⟨fun ⟨_, isOk⟩ => ?_, fun nothing => absurd ⟨text, holds⟩ nothing⟩
    cases isOk
  | ok value =>
    refine ⟨fun _ ⟨text, holds⟩ => ?_, fun _ => ⟨value, rfl⟩⟩
    cases (refused (faultOf text)).mpr ⟨text, holds, rfl⟩

theorem exists_readIsValidator_eq_ok_iff :
    (∃ isValidator, readIsValidator lookup = .ok isValidator) ↔
      ¬∃ text, HoldsNoTruthValue lookup text :=
  exists_eq_ok_iff fun _ => readIsValidator_eq_error_iff

theorem exists_readListenAddress_eq_ok_iff :
    (∃ address, readListenAddress lookup = .ok address) ↔ ¬∃ text, HoldsNoAddress lookup text :=
  exists_eq_ok_iff fun _ => readListenAddress_eq_error_iff_lookup

/-! ### Directories -/

/-- The directory with the data of the node. -/
def dataDirectory (lookup : String → Option String) : String :=
  join (join (((lookup "NODE_HOME").or (lookup "HOME")).getD ".") "hl") "data"

/-- The directory of the consensus logs of a validator with some address. -/
def consensusDirectory (lookup : String → Option String) (address : String) : String :=
  join (dataDirectory lookup) ("consensus" ++ address)

/-- The address of the validator, which is empty unless it is set. -/
def addressIn (lookup : String → Option String) : String :=
  ((lookup "VALIDATOR_ADDRESS").map Text.trim).getD ""

/-- Whether the consensus is followed, with the variables that are set and the directories that
exist. -/
def FollowsConsensus (lookup : String → Option String) (isDirectory : String → Bool) : Prop :=
  (∃ text, lookup "IS_VALIDATOR" = some text ∧ MeansYes text) ∧
    ∃ text, lookup "VALIDATOR_ADDRESS" = some text ∧ Text.trim text ≠ "" ∧
      isDirectory (consensusDirectory lookup (Text.trim text)) = true

/-- The settings that are accepted are what the variables say. -/
theorem fields_of_ofLookup (accepted : ofLookup lookup = .ok settings) :
    readIsValidator lookup = .ok settings.isValidator ∧
      settings.nodeHome = ((lookup "NODE_HOME").or (lookup "HOME")).getD "." ∧
      settings.validatorAddress = addressIn lookup ∧
      settings.pollingOf = default.pollingOf := by
  unfold ofLookup at accepted
  split at accepted
  · cases accepted
  · next isValidator read =>
    split at accepted
    · cases accepted
    · obtain rfl := Except.ok.inj accepted
      exact ⟨read, rfl, rfl, funext fun family => by cases family <;> rfl⟩

/-- The logs of the consensus are in a directory of their own for each address. -/
theorem directoryOf_consensus (accepted : ofLookup lookup = .ok settings) :
    settings.directoryOf .consensus = consensusDirectory lookup settings.validatorAddress := by
  obtain ⟨_, home, _⟩ := fields_of_ofLookup accepted
  simp only [directoryOf, consensusDirectory, dataDirectory, home]

theorem followsConsensus_iff {isDirectory : String → Bool} (accepted : ofLookup lookup = .ok settings) :
    FollowsConsensus lookup isDirectory ↔
      settings.isValidator = true ∧ settings.validatorAddress ≠ "" ∧
        isDirectory (settings.directoryOf .consensus) = true := by
  obtain ⟨validates, _, address, _⟩ := fields_of_ofLookup accepted
  rw [directoryOf_consensus accepted, FollowsConsensus, ← readIsValidator_eq_ok_true_iff, validates,
    Except.ok.injEq, address, addressIn]
  cases lookup "VALIDATOR_ADDRESS" with
  | none => simp
  | some text => simp

end Settings

/-! ### Launching -/

namespace Supervision

variable {isDirectory : String → Bool} {plan : Plan}

/-- Whether nothing stands in the way of launching a pipeline. -/
def Plan.canLaunch (isDirectory : String → Bool) (plan : Plan) : Bool :=
  !plan.required || isDirectory plan.root

/-- A pipeline is launched if nothing stands in its way. -/
theorem launch_eq (isDirectory : String → Bool) (plan : Plan) :
    launch isDirectory plan =
      if plan.canLaunch isDirectory then .ok plan else .error (.missingRoot plan.name plan.root) := by
  unfold launch Plan.canLaunch
  cases plan.required <;> cases isDirectory plan.root <;> rfl

/-- Launching plans is keeping those that can be launched. -/
theorem launchAll_eq_filter (isDirectory : String → Bool) (plans : List Plan) :
    launchAll isDirectory plans = plans.filter (Plan.canLaunch isDirectory) := by
  have launched : (fun plan => (launch isDirectory plan).toOption) =
      Option.guard (Plan.canLaunch isDirectory) := by
    funext plan
    rw [launch_eq, Option.guard]
    cases plan.canLaunch isDirectory <;> rfl
  rw [launchAll, launched, List.filterMap_eq_filter]

/-- What is refused could as well not have been asked for. -/
theorem launchAll_refused {refusal : Refusal} (refused : launch isDirectory plan = .error refusal)
    (before behind : List Plan) :
    launchAll isDirectory (before ++ plan :: behind) = launchAll isDirectory (before ++ behind) := by
  have stopped : ¬plan.canLaunch isDirectory = true := by
    intro launches
    rw [launch_eq, if_pos launches] at refused
    cases refused
  rw [launchAll_eq_filter, launchAll_eq_filter, List.filter_append, List.filter_append,
    List.filter_cons_of_neg stopped]

/-- With any settings the first two pipelines are launched. -/
theorem launchAll_plans (isDirectory : String → Bool) (settings : Settings) :
    launchAll isDirectory (plans settings) =
      [Family.proposals, .blocks].map (planFor settings) ++
        if settings.isValidator = true ∧ settings.validatorAddress ≠ "" ∧
            isDirectory (settings.directoryOf .consensus) = true then
          [planFor settings .consensus] else [] := by
  have launches : (planFor settings .consensus).canLaunch isDirectory =
      isDirectory (settings.directoryOf .consensus) := rfl
  rw [launchAll_eq_filter, plans, Settings.families, List.map_append, List.filter_append]
  refine congrArg₂ (· ++ ·) rfl ?_
  by_cases asked : settings.isValidator = true ∧ settings.validatorAddress ≠ ""
  · have isListed : (settings.isValidator && !settings.validatorAddress.isEmpty) = true := by
      simpa using asked
    rw [if_pos isListed, List.map_singleton, List.filter_cons, launches, List.filter_nil]
    simp only [asked.1, asked.2, ne_eq, not_false_eq_true, true_and]
  · have isLeftOut : ¬(settings.isValidator && !settings.validatorAddress.isEmpty) = true := by
      simpa using asked
    rw [if_neg isLeftOut, if_neg fun follows => asked ⟨follows.1, follows.2.1⟩]
    rfl

/-- What the variables say about the plan for a family: where its logs are, whether they have to be
there, and how long it waits. -/
def planOf (lookup : String → Option String) : Family → Plan
  | .proposals =>
    ⟨"proposals", Settings.join (Settings.dataDirectory lookup) "replica_cmds", false,
      ⟨10000, 1000⟩⟩
  | .blocks =>
    ⟨"blocks", Settings.join (Settings.dataDirectory lookup) "block_times", false, ⟨5000, 1000⟩⟩
  | .consensus =>
    ⟨"consensus", Settings.consensusDirectory lookup (Settings.addressIn lookup), true,
      ⟨10000, 1000⟩⟩

/-- The plan that follows from the settings is what the variables say. -/
theorem planFor_eq_planOf {lookup : String → Option String} {settings : Settings}
    (accepted : Settings.ofLookup lookup = .ok settings) (family : Family) :
    planFor settings family = planOf lookup family := by
  obtain ⟨_, home, address, polling⟩ := Settings.fields_of_ofLookup accepted
  have waits : settings.pollingOf family = Settings.default.pollingOf family := congrFun polling family
  cases family <;> rw [planFor, waits] <;>
    simp only [Settings.directoryOf, home, address] <;> rfl

end Supervision

namespace Startup

open Settings Supervision

/-- Where the settings are read, what can go wrong is a setting. -/
theorem exists_of_settings_eq_error {lookup : String → Option String} {fault : Fault}
    (refused : settings lookup = .error fault) : ∃ setting, fault = .settings setting := by
  unfold settings at refused
  split at refused
  · next setting _ => exact ⟨setting, (Except.error.inj refused).symm⟩
  · cases refused

theorem pipelines_eq_ok (settings : Settings) (isDirectory : String → Bool) :
    pipelines settings isDirectory = .ok (launchAll isDirectory (plans settings)) := by
  unfold pipelines
  rw [launchAll_plans, List.map_cons, List.cons_append]

/-- There is always a pipeline. -/
theorem start_ne_noPipeline (lookup : String → Option String)
    (obstacle : SocketAddress → Option ListenFault) (isDirectory : String → Bool) :
    start lookup obstacle isDirectory ≠ .error .noPipeline := by
  intro stopped
  unfold start at stopped
  split at stopped
  · next fault refused =>
    obtain ⟨setting, rfl⟩ := exists_of_settings_eq_error refused
    cases stopped
  · next settings _ =>
    split at stopped
    · cases stopped
    · rw [pipelines_eq_ok] at stopped
      cases stopped

/-- There are settings unless the variable for validators holds no truth value, which is told first,
or the variable for the address to listen on holds no address. With settings the pipelines of the
proposals and of the blocks are launched, and behind them that of the consensus if and only if the
node is said to be a validator, its address is not empty and the directory of this address exists.
Each of them is launched with the name of its family and with the directory that the variables say.
A pipeline that is refused changes nothing about the others, and whatever the variables, the address
and the directories, the exporter does not give up for want of a pipeline. -/
theorem launches_families (lookup : String → Option String) (isDirectory : String → Bool) :
    (∀ fault, ofLookup lookup = .error fault ↔
      (∃ text, HoldsNoTruthValue lookup text ∧ fault = .notBoolean "IS_VALIDATOR" text) ∨
        (¬∃ text, HoldsNoTruthValue lookup text) ∧
          ∃ text, HoldsNoAddress lookup text ∧ fault = .notAddress "METRICS_LISTEN_ADDR" text) ∧
    ((∃ settings, ofLookup lookup = .ok settings) ↔
      (¬∃ text, HoldsNoTruthValue lookup text) ∧ ¬∃ text, HoldsNoAddress lookup text) ∧
    (∀ settings, ofLookup lookup = .ok settings →
      (FollowsConsensus lookup isDirectory →
        launchAll isDirectory (plans settings) =
          [Family.proposals, .blocks, .consensus].map (planFor settings)) ∧
      (¬FollowsConsensus lookup isDirectory →
        launchAll isDirectory (plans settings) =
          [Family.proposals, .blocks].map (planFor settings)) ∧
      ∀ family, planFor settings family = planOf lookup family) ∧
    (∀ before plan behind refusal, launch isDirectory plan = .error refusal →
      launchAll isDirectory (before ++ plan :: behind) = launchAll isDirectory (before ++ behind)) ∧
    ∀ obstacle, start lookup obstacle isDirectory ≠ .error .noPipeline := by
  refine ⟨fun fault => ?_, ?_,
    fun settings accepted => ⟨fun follows => ?_, fun follows => ?_, planFor_eq_planOf accepted⟩,
    fun before _ behind _ refused => launchAll_refused refused before behind,
    fun obstacle => start_ne_noPipeline lookup obstacle isDirectory⟩
  · rw [ofLookup_eq_error_iff, exists_readIsValidator_eq_ok_iff, readIsValidator_eq_error_iff,
      readListenAddress_eq_error_iff_lookup]
  · rw [exists_ofLookup_eq_ok_iff, exists_readIsValidator_eq_ok_iff,
      exists_readListenAddress_eq_ok_iff]
  · rw [launchAll_plans, if_pos ((followsConsensus_iff accepted).mp follows)]
    rfl
  · rw [launchAll_plans, if_neg (mt (followsConsensus_iff accepted).mpr follows), List.append_nil]

/-- A validator without the directory of its address is followed like any other node. -/
example :
    let environment := [("IS_VALIDATOR", " YES\n"), ("VALIDATOR_ADDRESS", "0xabc")]
    (start (fun name => environment.lookup name) (fun _ => none) fun _ => false).toOption.map
      (fun started => started.2.map Plan.name) = some ["proposals", "blocks"] := by
  decide +kernel

end Startup

end NodeTelemetry
