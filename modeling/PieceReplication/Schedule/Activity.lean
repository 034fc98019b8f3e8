import PieceReplication.Schedule.Program

/-!
# Activities

An activity is a program that works on the state of the worker and may be given up with a phase
error. Whatever was changed before an activity is given up stays changed.
-/

namespace PieceReplication

/-- A program that works on the worker's state and cannot be given up. -/
abbrev Task := StateT Worker Program

/-- A program that works on the worker's state and may be given up. -/
abbrev Activity := ExceptT PhaseError Task

namespace Task

/-- Performs a single effect. -/
def perform (e : Effect) : Task e.Answer :=
  fun worker => do
    let answer ← Program.effect e
    return (answer, worker)

/-- Reports an event. -/
def log (event : LogEvent) : Task Unit :=
  perform (.log event)

/-- Counts one more. -/
def count (counter : Counter) : Task Unit :=
  perform (.count counter)

/-- Changes the worker's state. -/
def update (f : Worker → Worker) : Task Unit :=
  fun worker => do
    Program.effect (.become (f worker))
    return ((), f worker)

/-- The result of a sum, or a break-off if it does not fit. -/
def checked {α : Type} : Except Overflow α → Task α
  | .ok result => pure result
  | .error cause => do
    let impossible ← perform (.overflow cause)
    nomatch impossible

end Task

namespace Activity

/-- Performs a task, which cannot be given up. -/
def ofTask {α : Type} (task : Task α) : Activity α :=
  ExceptT.lift task

/-- Reports an event. -/
def log (event : LogEvent) : Activity Unit :=
  ofTask (Task.log event)

/-- Counts one more. -/
def count (counter : Counter) : Activity Unit :=
  ofTask (Task.count counter)

/-- Changes the worker's state. -/
def update (f : Worker → Worker) : Activity Unit :=
  ofTask (Task.update f)

/-- The result of a sum, or a break-off if it does not fit. -/
def checked {α : Type} (sum : Except Overflow α) : Activity α :=
  ofTask (Task.checked sum)

/-- Looks whether a stop is requested. -/
def stopRequested : Activity Bool :=
  ofTask (Task.perform .stopRequested)

/-- Begins a part of a phase. -/
def enter (part : Part) : Activity Unit :=
  ofTask (Task.perform (.enter part))

/-- Chooses one of `n` candidates. -/
def choose (n : Nat) (pos : 0 < n) : Activity (Fin n) :=
  ofTask (Task.perform (.choose n pos))

/-- Calls the node and takes the reply, failure or not. -/
def attempt (purpose : Purpose) (call : Call) : Activity (Reply call) :=
  ofTask (Task.perform (.call purpose call))

/-- Calls the node and gives up, with the error of a failed chain read, if the call fails. -/
def chainRead (purpose : Purpose) (call : Call) : Activity call.Answer := do
  match ← attempt purpose call with
  | .ok answer => return answer
  | .error failure => throw (.chainQuery failure)

/-- Calls the node and gives up, with the error of a failed call, if the call fails. -/
def request (purpose : Purpose) (call : Call) : Activity call.Answer := do
  match ← attempt purpose call with
  | .ok answer => return answer
  | .error failure => throw (.transport failure)

/-- Looks a key of the inventory up, which counts as a use of it. -/
def findPiece (key : Cid) : Activity (Option Piece) := do
  let worker ← get
  update fun w => { w with pieces := w.pieces.touch key }
  return worker.pieces.find? key

/-- Removes a piece from the inventory. -/
def dropPiece (key : Cid) : Activity Unit :=
  update fun w => { w with pieces := w.pieces.erase key }

/-- Stops waiting for the retrieval of a piece. -/
def dropRetrieval (key : Cid) : Activity Unit :=
  update fun w => { w with retrievals := w.retrievals.erase key }

/-- Stops following the deal of a piece. -/
def dropDeal (key : Cid) : Activity Unit :=
  update fun w => { w with deals := w.deals.erase key }

end Activity

end PieceReplication
