import PieceReplication.Settings.Config
import PieceReplication.Text.JsonValue

/-!
# Configuration documents

A configuration is written as a JSON object with one field for each setting. Reading gives a
missing field its default, ignores fields it does not know, and refuses a value of another type or
out of range. It also takes an array, which gives values to the first settings in order, and
refuses an array with more values than there are settings and every document of another kind. The
pause between ticks is written in whole seconds, the nearest one, halves up; all other settings are
written exactly.
-/

namespace PieceReplication.Config

/-- The pause in whole seconds, the nearest one, halves up. -/
def waitSeconds (config : Config) : Nat :=
  (config.loopWait + 500) / 1000

/-- The document of a configuration. -/
def toJson (config : Config) : JsonValue :=
  .object [
    ("loop_waiting", .integer config.waitSeconds),
    ("retrieve_parallel_num", .integer config.retrieveParallel.toNat),
    ("deal_parallel_num", .integer config.dealParallel.toNat),
    ("retrieve_try_count_max", .integer config.retrieveTryMax.toNat),
    ("scan_start", .integer config.scanStart.toInt),
    ("inventory_capacity", .integer config.inventoryCapacity.val.toNat),
    ("pause_while_syncing", .bool config.pauseWhileSyncing)]

/-- The setting that a field gives: the default if the field is missing, nothing if its value is
refused. -/
def setting? {α : Type} (fields : List (String × JsonValue)) (name : String) (standard : α)
    (read : JsonValue → Option α) : Option α :=
  match JsonValue.field? fields name with
  | none => some standard
  | some value => read value

/-- The names of the fields, in order. -/
def fieldNames : List String :=
  ["loop_waiting", "retrieve_parallel_num", "deal_parallel_num", "retrieve_try_count_max",
   "scan_start", "inventory_capacity", "pause_while_syncing"]

/-- Reads the fields of a document. -/
def ofFields? (fields : List (String × JsonValue)) : Option Config := do
  let loopWait ← setting? fields "loop_waiting" standard.loopWait
    fun value => value.uint64?.map ofSeconds
  let retrieveParallel ← setting? fields "retrieve_parallel_num" standard.retrieveParallel
    JsonValue.uint64?
  let dealParallel ← setting? fields "deal_parallel_num" standard.dealParallel JsonValue.uint64?
  let retrieveTryMax ← setting? fields "retrieve_try_count_max" standard.retrieveTryMax
    JsonValue.uint64?
  let scanStart ← setting? fields "scan_start" standard.scanStart JsonValue.int64?
  let inventoryCapacity ← setting? fields "inventory_capacity" standard.inventoryCapacity
    fun value => value.uint64?.bind capacity?
  let pauseWhileSyncing ← setting? fields "pause_while_syncing" standard.pauseWhileSyncing
    JsonValue.bool?
  return { loopWait, retrieveParallel, dealParallel, retrieveTryMax, scanStart,
           inventoryCapacity, pauseWhileSyncing }

/-- Reads a document. -/
def ofJson? : JsonValue → Option Config
  | .object fields => ofFields? fields
  | .array values =>
    if values.length ≤ fieldNames.length then ofFields? (fieldNames.zip values) else none
  | _ => none

end PieceReplication.Config
