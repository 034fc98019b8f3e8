import PieceReplication.Lifecycle.Replicator
import PieceReplication.Schedule.Trace

/-!
# Sessions

A session runs a replicator in its surroundings under a clock that moves only when it is told to.
After each command the driver goes on until it sleeps, hangs, has ended or has broken off. A stop
waits for the driver, which takes no time unless the driver hangs; then the stop returns when its
context is cancelled, if that is within an hour, and is given up after an hour otherwise.
-/

namespace PieceReplication

/-- When the caller of a stop gives up. -/
inductive StopContext where
  | never
  | cancelled
  /-- After some seconds. -/
  | after (seconds : Nat)
  deriving DecidableEq

/-- How a command ends. -/
inductive Outcome where
  | ok
  | failed (error : LifecycleError)
  /-- The command did not return within an hour. -/
  | hang
  deriving DecidableEq

/-- The outcome of a command that returned. -/
def Outcome.ofExcept : Except LifecycleError Unit → Outcome
  | .ok () => ok
  | .error error => failed error

/-- The number of seconds after which a waiting stop is given up. -/
def patience : Nat :=
  3600

/-- A replicator in its surroundings. -/
structure Session (σ : Type) where
  replicator : Replicator
  /-- The state of the surroundings. -/
  state : σ
  /-- What happened since the last observation, the latest first. -/
  trace : List Occurrence

namespace Session

variable {σ : Type}

/-- A session with a replicator that was never started. -/
def new (setup : Setup) (state : σ) : Session σ :=
  ⟨.new setup, state, []⟩

/-- Lets the driver go on if it has a program to go on with. -/
def proceed (surroundings : Surroundings σ) (session : Session σ) : Session σ :=
  match session.replicator.running with
  | some ⟨isStopping, .active program⟩ =>
    let progress := program.execute surroundings isStopping session.state []
    let pause := session.replicator.setup.config.loopWait
    { replicator :=
        { session.replicator with
          running := some ⟨isStopping, .ofHalt pause progress.halt⟩
          stats := (Trace.lastStats? progress.trace.reverse).getD session.replicator.stats }
      state := progress.state
      trace := progress.trace ++ session.trace }
  | _ => session

/-- Starts the replicator. -/
def start (surroundings : Surroundings σ) (session : Session σ) : Outcome × Session σ :=
  match session.replicator.start with
  | .error error => (.failed error, session)
  | .ok replicator => (.ok, { session with replicator }.proceed surroundings)

/-- The milliseconds that the driver will still sleep, if it sleeps. -/
def sleepLeft? (session : Session σ) : Option Nat :=
  match session.replicator.running with
  | some ⟨_, .asleep _ left⟩ => some left
  | _ => none

/-- Ends the driver's sleep and lets it go on. -/
def wake (surroundings : Surroundings σ) (session : Session σ) : Session σ :=
  { session with replicator := session.replicator.wake }.proceed surroundings

/-- Lets some milliseconds pass. The driver takes its turns as its sleeps end; a sleep lasts one
millisecond at least. -/
def advance (surroundings : Surroundings σ) (milliseconds : Nat) (session : Session σ) :
    Session σ :=
  match session.sleepLeft? with
  | none => session
  | some left =>
    if _ : max left 1 ≤ milliseconds then
      (session.wake surroundings).advance surroundings (milliseconds - max left 1)
    else { session with replicator := session.replicator.doze milliseconds }
termination_by milliseconds
decreasing_by omega

/-- How a stop ends whose driver hangs. -/
def outcomeOfHang : StopContext → Outcome
  | .cancelled => .failed .cancelled
  | .after seconds => if seconds < patience then .failed .cancelled else .hang
  | .never => .hang

/-- Stops the replicator. A driver that has ended already is collected even if the context is
cancelled; one that has not is then left to end by itself. -/
def stop (surroundings : Surroundings σ) (context : StopContext) (session : Session σ) :
    Outcome × Session σ :=
  match session.replicator.requestStop with
  | .error error => (.failed error, session)
  | .ok replicator =>
    match replicator.collect? with
    | some (result, replicator) => (.ofExcept result, { session with replicator })
    | none =>
      let session := { session with replicator }.wake surroundings
      if context = .cancelled then (.failed .cancelled, session)
      else
        match session.replicator.collect? with
        | some (result, replicator) => (.ofExcept result, { session with replicator })
        | none => (outcomeOfHang context, session)

/-- Releases the call that the driver hangs in. -/
def release (surroundings : Surroundings σ) (session : Session σ) : Session σ :=
  match session.replicator.running with
  | some ⟨isStopping, .hanging purpose call resume⟩ =>
    let (reply, state) := surroundings.release session.state call
    { replicator :=
        { session.replicator with running := some ⟨isStopping, .active (resume reply)⟩ }
      state
      trace := .answered purpose call reply :: session.trace : Session σ }.proceed surroundings
  | _ => session

/-- Changes the state of the surroundings. -/
def alter (f : σ → σ) (session : Session σ) : Session σ :=
  { session with state := f session.state }

/-- What happened since the last observation, in order, and the session with nothing left to
observe. -/
def observe (session : Session σ) : List Occurrence × Session σ :=
  (session.trace.reverse, { session with trace := [] })

end Session

end PieceReplication
