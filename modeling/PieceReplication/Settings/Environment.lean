import PieceReplication.Encoding.Radix
import PieceReplication.Log.Event
import PieceReplication.Settings.Config
import PieceReplication.Text.Integer

/-!
# Settings from the environment

Six variables override six settings, each on its own. A variable counts if its value is text and
reads as an integer of the setting's type that the setting admits; the value is then reported and
used. Any other text is reported and ignored, and a value that is not text counts as unset.
-/

namespace PieceReplication

/-- A variable that overrides a setting. -/
inductive Variable where
  | loopWait
  | retrieveParallel
  | dealParallel
  | retrieveTryMax
  | scanStart
  | inventoryCapacity
  deriving DecidableEq

namespace Variable

/-- Every variable, in the order in which they are looked at. -/
def all : List Variable :=
  [loopWait, retrieveParallel, dealParallel, retrieveTryMax, scanStart, inventoryCapacity]

/-- The name of a variable. -/
def name : Variable → String
  | loopWait => "FOREST_REPLICATOR_LOOP_WAITING_SECS"
  | retrieveParallel => "FOREST_REPLICATOR_RETRIEVE_PARALLEL"
  | dealParallel => "FOREST_REPLICATOR_DEAL_PARALLEL"
  | retrieveTryMax => "FOREST_REPLICATOR_RETRIEVE_TRY_MAX"
  | scanStart => "FOREST_REPLICATOR_SCAN_START"
  | inventoryCapacity => "FOREST_REPLICATOR_INVENTORY_CAPACITY"

end Variable

/-- The values of the variables, as bytes; `none` for an unset one. -/
abbrev Environment := Variable → Option Bytes

namespace Config

/-- The configuration in which a variable's text gives the setting, and the value as it is
reported; nothing if the text is unreadable or the setting does not admit the value. -/
def override? (config : Config) : Variable → String → Option (Config × String)
  | .loopWait, text => do
    let n ← Integer.uint64? text
    guard (0 < n)
    return ({ config with loopWait := ofSeconds n }, toString n.toNat)
  | .retrieveParallel, text => do
    let n ← Integer.uint64? text
    guard (0 < n)
    return ({ config with retrieveParallel := n }, toString n.toNat)
  | .dealParallel, text => do
    let n ← Integer.uint64? text
    guard (0 < n)
    return ({ config with dealParallel := n }, toString n.toNat)
  | .retrieveTryMax, text => do
    let n ← Integer.uint64? text
    return ({ config with retrieveTryMax := n }, toString n.toNat)
  | .scanStart, text => do
    let n ← Integer.int64? text
    guard (0 ≤ n)
    return ({ config with scanStart := n }, toString n.toInt)
  | .inventoryCapacity, text => do
    let n ← Integer.uint64? text
    let capacity ← capacity? n
    return ({ config with inventoryCapacity := capacity }, toString n.toNat)

/-- The configuration after one variable was looked at, and what is reported about it. -/
def applyVariable (environment : Environment) (config : Config) (v : Variable) :
    Config × List LogEvent :=
  match (environment v).bind Bytes.text? with
  | none => (config, [])
  | some text =>
    match config.override? v text with
    | some (config, value) => (config, [.settingUsed v.name value])
    | none => (config, [.settingInvalid v.name text])

/-- The configuration after the given variables were looked at in turn, and what is reported. -/
def applyVariables (environment : Environment) : Config → List Variable → Config × List LogEvent
  | config, [] => (config, [])
  | config, v :: rest =>
    let (config, events) := applyVariable environment config v
    let (config, more) := applyVariables environment config rest
    (config, events ++ more)

/-- The configuration with the overrides of an environment, and what is reported. -/
def withEnvironment (config : Config) (environment : Environment) : Config × List LogEvent :=
  applyVariables environment config Variable.all

end Config

end PieceReplication
