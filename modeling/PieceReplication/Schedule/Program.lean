import PieceReplication.Log.Event
import PieceReplication.Schedule.Worker

/-!
# Programs of the driver

What the driver does is a `Program`: a tree of effects in which each effect continues by its
answer. Nothing in a program fixes the answers of the node, the provider that is chosen, or the
moment at which a stop is requested; whoever runs the program supplies them, so a statement about
all runs of a program is a statement about the tree.

Every call carries its purpose, the part of the tick it is made in and the piece it is made for.
The beginning of a part and every change of the worker's state are effects too, so that a run shows
which part it is in and each state that the worker passes through.
-/

namespace PieceReplication

/-- What a call of the node is made for. -/
inductive Purpose where
  /-- To decide whether to index. -/
  | syncing
  /-- To index the chain. -/
  | indexing
  /-- To see whether the pending retrieval of a piece has arrived. -/
  | retrievalSweep (piece : Cid)
  /-- To retrieve a piece under its deal at an index. -/
  | retrievalScan (piece : Cid) (record : Nat)
  /-- To follow the deal that was started for a piece. -/
  | dealSweep (piece : Cid)
  /-- To start a deal for a piece. -/
  | dealScan (piece : Cid)
  deriving DecidableEq

/-- The parts that the phases of a tick fall into. -/
inductive Part where
  | indexing
  | retrievalSweep
  | retrievalScan
  | dealSweep
  | dealScan
  deriving DecidableEq

/-- The phases of a tick. -/
inductive Phase where
  | index
  | retrieve
  | deal
  deriving DecidableEq

/-- What is counted. -/
inductive Counter where
  | dealsStarted
  | retrievalQueryFailures
  | phaseErrors (phase : Phase)
  deriving DecidableEq

/-- A single effect of a program. -/
inductive Effect where
  /-- Call the node. -/
  | call (purpose : Purpose) (call : Call)
  /-- Choose one of `n` candidates. -/
  | choose (n : Nat) (pos : 0 < n)
  /-- Look whether a stop is requested. -/
  | stopRequested
  /-- Begin a part of a phase. -/
  | enter (part : Part)
  /-- Report an event. -/
  | log (event : LogEvent)
  /-- Count one more. -/
  | count (counter : Counter)
  /-- Take the worker to a new state. -/
  | become (worker : Worker)
  /-- Publish figures. -/
  | publish (stats : Stats)
  /-- Break off because an arithmetic result does not fit. -/
  | overflow (cause : Overflow)

/-- The type of the answer to an effect. Breaking off has no answer. -/
abbrev Effect.Answer : Effect → Type
  | call _ c => Reply c
  | choose n _ => Fin n
  | stopRequested => Bool
  | enter _ => Unit
  | log _ => Unit
  | count _ => Unit
  | become _ => Unit
  | publish _ => Unit
  | overflow _ => Empty

/-- A tree of effects that ends with a result. -/
inductive Program (α : Type) : Type where
  | done (result : α)
  | perform (effect : Effect) (resume : effect.Answer → Program α)

namespace Program

variable {α β : Type}

/-- Goes on after a program with the program that its result gives. -/
def bind : Program α → (α → Program β) → Program β
  | done result, next => next result
  | perform effect resume, next => perform effect fun answer => (resume answer).bind next

/-- The program of a single effect. -/
def effect (e : Effect) : Program e.Answer :=
  perform e done

instance : Monad Program where
  pure := done
  bind := bind

end Program

end PieceReplication
