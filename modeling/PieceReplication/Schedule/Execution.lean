import PieceReplication.Schedule.Program

/-!
# Execution

A program runs against its surroundings: a node that answers calls, lets them hang or breaks the
caller off, and a way to choose among candidates. The surroundings have a state of their own, of
any type, so they can answer in any way at all. What happens in a run is kept as a list of
occurrences, the latest first.
-/

namespace PieceReplication

/-- How the node meets a call. -/
inductive Response (call : Call) where
  /-- It replies at once. -/
  | reply (reply : Reply call)
  /-- It does not reply before it is released. -/
  | hang
  /-- It breaks the caller off. -/
  | panic (message : String)

/-- What a program runs against; `σ` is the type of its state. -/
structure Surroundings (σ : Type) where
  /-- Meets a call. -/
  call : σ → (call : Call) → Response call × σ
  /-- Replies to a call that was left hanging. -/
  release : σ → (call : Call) → Reply call × σ
  /-- Chooses one of `n` candidates. -/
  choose : σ → (n : Nat) → 0 < n → Fin n × σ

/-- Something that happens in a run. -/
inductive Occurrence where
  /-- A call was made. -/
  | called (purpose : Purpose) (call : Call)
  /-- A call was answered. -/
  | answered (purpose : Purpose) (call : Call) (reply : Reply call)
  /-- One of `n` candidates was chosen. -/
  | chose (n : Nat) (choice : Fin n)
  /-- The driver looked for a stop request. -/
  | looked (isStopping : Bool)
  /-- A part of a phase began. -/
  | entered (part : Part)
  | logged (event : LogEvent)
  | counted (counter : Counter)
  /-- The worker's state changed to this one. -/
  | became (worker : Worker)
  | published (stats : Stats)
  /-- The program was broken off. -/
  | brokeOff

/-- Where a run of a program halts. -/
inductive Halt (α : Type) where
  /-- The program has ended. -/
  | done (result : α)
  /-- It waits for the answer to a call. -/
  | hanging (purpose : Purpose) (call : Call) (resume : Reply call → Program α)
  /-- It was broken off. -/
  | broken

/-- What a run of a program leads to. -/
structure Progress (σ α : Type) where
  halt : Halt α
  /-- The state of the surroundings. -/
  state : σ
  /-- The occurrences, the latest first. -/
  trace : List Occurrence

namespace Program

variable {σ α : Type}

/-- Runs a program until it halts, on top of a trace. `isStopping` is the answer whenever the
program looks for a stop request. -/
def execute (surroundings : Surroundings σ) (isStopping : Bool) :
    Program α → σ → List Occurrence → Progress σ α
  | .done result, state, trace => ⟨.done result, state, trace⟩
  | .perform (.call purpose call) resume, state, trace =>
    let trace := .called purpose call :: trace
    match surroundings.call state call with
    | (.reply reply, state) =>
      execute surroundings isStopping (resume reply) state
        (.answered purpose call reply :: trace)
    | (.hang, state) => ⟨.hanging purpose call resume, state, trace⟩
    | (.panic _, state) => ⟨.broken, state, .brokeOff :: trace⟩
  | .perform (.choose n pos) resume, state, trace =>
    let (choice, state) := surroundings.choose state n pos
    execute surroundings isStopping (resume choice) state (.chose n choice :: trace)
  | .perform .stopRequested resume, state, trace =>
    execute surroundings isStopping (resume isStopping) state (.looked isStopping :: trace)
  | .perform (.enter part) resume, state, trace =>
    execute surroundings isStopping (resume ()) state (.entered part :: trace)
  | .perform (.log event) resume, state, trace =>
    execute surroundings isStopping (resume ()) state (.logged event :: trace)
  | .perform (.count counter) resume, state, trace =>
    execute surroundings isStopping (resume ()) state (.counted counter :: trace)
  | .perform (.become worker) resume, state, trace =>
    execute surroundings isStopping (resume ()) state (.became worker :: trace)
  | .perform (.publish stats) resume, state, trace =>
    execute surroundings isStopping (resume ()) state (.published stats :: trace)
  | .perform (.overflow _) _, state, trace => ⟨.broken, state, .brokeOff :: trace⟩

end Program

end PieceReplication
