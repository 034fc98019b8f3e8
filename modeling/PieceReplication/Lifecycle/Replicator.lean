import PieceReplication.Lifecycle.Driver

/-!
# The replicator

A replicator is idle or has a driver. While it is idle it keeps the worker's state for the next
driver; a driver takes the state over and gives it back when it is collected after a stop. A driver
that broke off has lost its state, and the next one begins afresh.

A stop request is a flag of the driver and stays set. Collecting removes a driver that has ended.
The figures shown by `stats` are those published last.
-/

namespace PieceReplication

/-- Why a start or a stop failed. -/
inductive LifecycleError where
  /-- A driver is registered already. -/
  | alreadyStarted
  /-- No driver is registered. -/
  | notStarted
  /-- The caller gave up before the driver ended. -/
  | cancelled
  /-- The driver broke off. -/
  | driver
  deriving DecidableEq

/-- The text of a lifecycle error; a broken driver has none of its own. -/
def LifecycleError.message : LifecycleError → Option String
  | alreadyStarted => some "replicator already started"
  | notStarted => some "replicator is not running"
  | cancelled => some "cancelled while waiting for the replicator to stop"
  | driver => none

/-- A registered driver. -/
structure Running where
  /-- Whether a stop was requested. -/
  isStopping : Bool
  driver : Driver

/-- A replicator. -/
structure Replicator where
  setup : Setup
  /-- The state for the next driver, while there is none. -/
  idle : Option Worker
  running : Option Running
  /-- The figures published last. -/
  stats : Stats

namespace Replicator

/-- A replicator that was never started. -/
def new (setup : Setup) : Replicator where
  setup
  idle := some (.fresh setup.config)
  running := none
  stats := (Worker.fresh setup.config).stats

/-- Whether a driver is registered. -/
def isRunning (replicator : Replicator) : Bool :=
  replicator.running.isSome

/-- Registers a driver that owns the kept state, or a fresh one. -/
def start (replicator : Replicator) : Except LifecycleError Replicator :=
  match replicator.running with
  | some _ => .error .alreadyStarted
  | none =>
    let worker := replicator.idle.getD (.fresh replicator.setup.config)
    .ok { replicator with
      idle := none
      running := some ⟨false, .active (Turn.first replicator.setup worker)⟩ }

/-- Requests the driver to stop, which wakes it if it sleeps. -/
def requestStop (replicator : Replicator) : Except LifecycleError Replicator :=
  match replicator.running with
  | none => .error .notStarted
  | some running => .ok { replicator with running := some { running with isStopping := true } }

/-- Removes a driver that has ended or broken off; `none` if it has not. -/
def collect? (replicator : Replicator) : Option (Except LifecycleError Unit × Replicator) :=
  match replicator.running with
  | some ⟨_, .finished worker⟩ =>
    some (.ok (), { replicator with idle := some worker, running := none })
  | some ⟨_, .broken⟩ => some (.error .driver, { replicator with idle := none, running := none })
  | _ => none

/-- The replicator with its driver at another place. -/
def setDriver (replicator : Replicator) (driver : Driver) : Replicator :=
  { replicator with running := replicator.running.map fun running => { running with driver } }

/-- Lets some milliseconds of the driver's sleep pass. -/
def doze (replicator : Replicator) (milliseconds : Nat) : Replicator :=
  match replicator.running with
  | some ⟨_, .asleep worker left⟩ =>
    replicator.setDriver (.asleep worker (left - milliseconds))
  | _ => replicator

/-- Ends the driver's sleep: its next turn lies ahead. -/
def wake (replicator : Replicator) : Replicator :=
  match replicator.running with
  | some ⟨_, .asleep worker _⟩ =>
    replicator.setDriver (.active (Turn.run replicator.setup worker))
  | _ => replicator

end Replicator

end PieceReplication
