/-
This file holds the settings of the exporter and how they follow from the variables of its
environment. Whatever is not set keeps its default.
-/

import NodeTelemetry.Family
import NodeTelemetry.Net.SocketAddress
import NodeTelemetry.Text.Blank
import NodeTelemetry.Text.Quoted

namespace NodeTelemetry

/-- How long a family waits, in milliseconds: for another file to follow, and for the file at hand
to grow. -/
structure Polling where
  rotation : Nat
  idle : Nat
deriving DecidableEq

/-- The settings. Durations are in milliseconds. -/
structure Settings where
  nodeHome : String
  isValidator : Bool
  validatorAddress : String
  listenAddress : Net.SocketAddress
  directoryUrl : String
  directoryTimeout : Nat
  refreshInterval : Nat
  restartDelay : Nat
  proposalsPolling : Polling
  blocksPolling : Polling
  consensusPolling : Polling

namespace Settings

/-! ### Reading the environment -/

/-- The variables that are looked up. -/
def variableNames : List String :=
  ["IS_VALIDATOR", "METRICS_LISTEN_ADDR", "NODE_HOME", "HOME", "VALIDATOR_ADDRESS",
    "VALIDATOR_API_URL"]

/-- Why there are no settings: a variable has a value it must not have. -/
inductive Fault
  | notBoolean (name value : String)
  | notAddress (name value : String)
deriving DecidableEq

def Fault.message : Fault → String
  | .notBoolean name value => name ++ ": expected a boolean, got " ++ Text.quoted value
  | .notAddress name value => name ++ ": invalid socket address " ++ Text.quoted value

def defaultListenAddress : Net.SocketAddress :=
  .v4 ⟨0, 0, 0, 0⟩ 8086

def default : Settings :=
  { nodeHome := "."
    isValidator := false
    validatorAddress := ""
    listenAddress := defaultListenAddress
    directoryUrl := "https://api.hyperliquid-testnet.xyz/info"
    directoryTimeout := 10000
    refreshInterval := 600000
    restartDelay := 5000
    proposalsPolling := ⟨10000, 1000⟩
    blocksPolling := ⟨5000, 1000⟩
    consensusPolling := ⟨10000, 1000⟩ }

def trueWords : List String :=
  ["1", "true", "yes", "on"]

def falseWords : List String :=
  ["", "0", "false", "no", "off"]

/-- The truth value that a text stands for, with blanks around it and in either case. -/
def boolean? (text : String) : Option Bool :=
  let word := Text.lowerAscii (Text.trim text)
  if trueWords.contains word then some true
  else if falseWords.contains word then some false
  else none

/-- Whether the node validates blocks. -/
def readIsValidator (lookup : String → Option String) : Except Fault Bool :=
  match lookup "IS_VALIDATOR" with
  | none => .ok default.isValidator
  | some text =>
    match boolean? text with
    | some value => .ok value
    | none => .error (.notBoolean "IS_VALIDATOR" text)

/-- The address to listen on. -/
def readListenAddress (lookup : String → Option String) : Except Fault Net.SocketAddress :=
  match lookup "METRICS_LISTEN_ADDR" with
  | none => .ok default.listenAddress
  | some text =>
    match Net.SocketAddress.ofText? (Text.trim text) with
    | some address => .ok address
    | none => .error (.notAddress "METRICS_LISTEN_ADDR" text)

/-- The settings that follow from the variables of an environment. -/
def ofLookup (lookup : String → Option String) : Except Fault Settings :=
  match readIsValidator lookup with
  | .error fault => .error fault
  | .ok isValidator =>
    match readListenAddress lookup with
    | .error fault => .error fault
    | .ok listenAddress =>
      .ok { default with
        nodeHome := ((lookup "NODE_HOME").or (lookup "HOME")).getD default.nodeHome
        isValidator := isValidator
        validatorAddress :=
          ((lookup "VALIDATOR_ADDRESS").map Text.trim).getD default.validatorAddress
        listenAddress := listenAddress
        directoryUrl := (lookup "VALIDATOR_API_URL").getD default.directoryUrl }

/-! ### Directories -/

/-- A path below another one. -/
def join (parent child : String) : String :=
  if parent.isEmpty || parent.endsWith "/" then parent ++ child else parent ++ "/" ++ child

/-- The directory with the logs of a family. -/
def directoryOf (settings : Settings) (family : Family) : String :=
  let data := join (join settings.nodeHome "hl") "data"
  match family with
  | .proposals => join data "replica_cmds"
  | .blocks => join data "block_times"
  | .consensus => join data ("consensus" ++ settings.validatorAddress)

/-! ### Families -/

def pollingOf (settings : Settings) : Family → Polling
  | .proposals => settings.proposalsPolling
  | .blocks => settings.blocksPolling
  | .consensus => settings.consensusPolling

/-- The same settings but for how long a family waits. -/
def setPolling (settings : Settings) (family : Family) (polling : Polling) : Settings :=
  match family with
  | .proposals => { settings with proposalsPolling := polling }
  | .blocks => { settings with blocksPolling := polling }
  | .consensus => { settings with consensusPolling := polling }

/-- The families to follow: that of the consensus only on a validator whose address is known. -/
def families (settings : Settings) : List Family :=
  [.proposals, .blocks] ++
    if settings.isValidator && !settings.validatorAddress.isEmpty then [.consensus] else []

/-- Whether a family is not followed without its directory. -/
def isRequired : Family → Bool
  | .proposals | .blocks => false
  | .consensus => true

end Settings

end NodeTelemetry
