import PieceReplication.Schedule.Dealing
import PieceReplication.Schedule.Indexing
import PieceReplication.Schedule.Retrieval

/-!
# Ticks

A tick runs the index, retrieval and deal phases in this order. A phase that is given up is
reported and counted, and the next one runs all the same. The index phase is left out while the
node is syncing, if the configuration says so.
-/

namespace PieceReplication.Tick

/-- Runs a phase; if it is given up, that is reported and counted. -/
def runPhase (phase : Phase) (report : PhaseError → LogEvent) (activity : Activity Unit) :
    Task Unit := do
  match ← activity.run with
  | .ok () => return
  | .error error =>
    Task.log (report error)
    Task.count (.phaseErrors phase)

/-- Asks the node whether it is still catching up. -/
def isCatchingUp : Activity Bool := do
  let status ← Activity.request .syncing .syncState
  Activity.checked status.isCatchingUp

/-- Runs the index phase unless it has to pause. -/
def index (setup : Setup) : Task Unit := do
  if setup.config.pauseWhileSyncing then
    match ← isCatchingUp.run with
    | .ok true => Task.log .catchingUp
    | .ok false => runPhase .index .indexFailed (Indexing.run setup)
    | .error error =>
      Task.log (.syncFailed error)
      Task.count (.phaseErrors .index)
  else
    runPhase .index .indexFailed (Indexing.run setup)

/-- A whole tick. -/
def run (setup : Setup) : Task Unit := do
  index setup
  runPhase .retrieve .retrieveFailed (Retrieval.run setup)
  runPhase .deal .dealFailed (Dealing.run setup)

end PieceReplication.Tick
