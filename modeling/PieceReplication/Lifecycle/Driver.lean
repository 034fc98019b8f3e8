import PieceReplication.Schedule.Execution
import PieceReplication.Schedule.Tick

/-!
# The driver

The driver runs turns: it ticks, publishes its figures and goes to sleep, unless a stop is
requested, which it looks for before each tick and after it. A stop request wakes it, and it then
ends and hands its state back.
-/

namespace PieceReplication

/-- How a turn of the driver ends. -/
inductive TurnEnd where
  /-- The driver sleeps until the next turn. -/
  | asleep (worker : Worker)
  /-- The driver has ended. -/
  | finished (worker : Worker)

namespace Turn

/-- Reports the end of the driver. -/
def finish (worker : Worker) : Program TurnEnd := do
  Program.effect (.log (.stopped worker.cursor))
  return .finished worker

/-- One tick, and the publication of the figures after it. -/
def tick (setup : Setup) (worker : Worker) : Program Worker := do
  let ((), worker) ← (Tick.run setup).run worker
  Program.effect (.publish worker.stats)
  return worker

/-- A turn: a tick, unless a stop is requested. -/
def run (setup : Setup) (worker : Worker) : Program TurnEnd := do
  if ← Program.effect .stopRequested then
    finish worker
  else
    let worker ← tick setup worker
    if ← Program.effect .stopRequested then
      finish worker
    else
      return .asleep worker

/-- The first turn of a driver, which takes the state over. -/
def first (setup : Setup) (worker : Worker) : Program TurnEnd := do
  Program.effect (.become worker)
  Program.effect (.log (.started worker.cursor))
  run setup worker

end Turn

/-- Where a driver stands. -/
inductive Driver where
  /-- It has a program to go on with. -/
  | active (program : Program TurnEnd)
  /-- It waits for the answer to a call. -/
  | hanging (purpose : Purpose) (call : Call) (resume : Reply call → Program TurnEnd)
  /-- It sleeps for some more milliseconds. -/
  | asleep (worker : Worker) (left : Nat)
  /-- It has ended and holds its state for collection. -/
  | finished (worker : Worker)
  /-- It broke off, and its state is lost. -/
  | broken

/-- Where a driver stands after its program halted. At the end of a turn it sleeps for `pause`
milliseconds. -/
def Driver.ofHalt (pause : Nat) : Halt TurnEnd → Driver
  | .done (.asleep worker) => asleep worker pause
  | .done (.finished worker) => finished worker
  | .hanging purpose call resume => hanging purpose call resume
  | .broken => broken

end PieceReplication
