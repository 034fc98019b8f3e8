import PieceReplication.Proofs.Run.Execution

/-!
# Outcomes of programs

If the reply to each call is a function of the call, then a program that leaves no choice to its
surroundings has a single outcome (`Program.outcome`), whatever else its surroundings are: every
run of it ends with that result (`Program.halt_of_outcome`).  Outcomes are computed from the
inside out: that of a sequence is the outcome of what follows, at the outcome of what comes first.

So two nodes can be compared without their runs.  An activity against one node agrees with an
activity against another one (`Activity.Agree`) if from each state of the worker both have the same
outcome.  The rules below, one for each way to build an activity, carry that agreement through an
activity, however different the runs are in between.
-/

namespace PieceReplication

variable {σ α β : Type} {node node' : (call : Call) → Reply call} {isStopping : Bool}

/-- The result of a program if the replies of the node are a function of the call and each look for
a stop request is answered alike; none if the program breaks off or has something to choose. -/
def Program.outcome (node : (call : Call) → Reply call) (isStopping : Bool) :
    Program α → Option α
  | .done result => some result
  | .perform (.call _ call) resume => (resume (node call)).outcome node isStopping
  | .perform (.choose _ _) _ => none
  | .perform .stopRequested resume => (resume isStopping).outcome node isStopping
  | .perform (.enter _) resume => (resume ()).outcome node isStopping
  | .perform (.log _) resume => (resume ()).outcome node isStopping
  | .perform (.count _) resume => (resume ()).outcome node isStopping
  | .perform (.become _) resume => (resume ()).outcome node isStopping
  | .perform (.publish _) resume => (resume ()).outcome node isStopping
  | .perform (.overflow _) _ => none

namespace Program

/-- The outcome of a program that goes on with another one. -/
lemma outcome_bind (program : Program α) (next : α → Program β) :
    (program >>= next).outcome node isStopping =
      (program.outcome node isStopping).bind fun result =>
        (next result).outcome node isStopping := by
  change (program.bind next).outcome node isStopping = _
  induction program with
  | done result => rfl
  | perform effect resume ih =>
    cases effect with
    | call purpose call => exact ih (node call)
    | stopRequested => exact ih isStopping
    | choose n pos => rfl
    | overflow cause => rfl
    | enter part => exact ih ()
    | log event => exact ih ()
    | count counter => exact ih ()
    | become worker => exact ih ()
    | publish stats => exact ih ()

/-- In surroundings whose replies are a function of the call, a program ends with its outcome. -/
lemma halt_of_outcome {surroundings : Surroundings σ} (hreplies : surroundings.Replies)
    (hnode : surroundings.AnswersBy node) {program : Program α} {result : α}
    (houtcome : program.outcome node isStopping = some result) (state : σ) (h : History) :
    (program.execute surroundings isStopping state h).halt = .done result := by
  induction program generalizing state h with
  | done value =>
    cases houtcome
    rfl
  | perform effect resume ih =>
    cases effect with
    | call purpose call =>
      obtain ⟨reply, state', hreply⟩ := hreplies state call
      obtain rfl := hnode state call reply state' hreply
      rw [execute, hreply]
      exact ih _ houtcome state' _
    | choose n pos => cases houtcome
    | overflow cause => cases houtcome
    | stopRequested => exact ih isStopping houtcome _ _
    | enter part => exact ih () houtcome _ _
    | log event => exact ih () houtcome _ _
    | count counter => exact ih () houtcome _ _
    | become worker => exact ih () houtcome _ _
    | publish stats => exact ih () houtcome _ _

end Program

/-! ## Programs with an outcome -/

/-- The contract of a program that neither leaves a choice to its surroundings nor breaks off,
whatever they supply. -/
def determined : Contract where
  rely _ _ := True
  guarantee _ occurrence :=
    match occurrence with
    | .chose _ _ => False
    | .brokeOff => False
    | _ => True

/-- A program that neither chooses nor breaks off has an outcome. -/
lemma Program.Meets.exists_outcome {program : Program α} {post : α → History → Prop} {h : History}
    (hmeets : program.Meets determined h post) (node : (call : Call) → Reply call)
    (isStopping : Bool) : ∃ result, program.outcome node isStopping = some result := by
  induction program generalizing h with
  | done value => exact ⟨value, rfl⟩
  | perform effect resume ih =>
    cases effect with
    | call purpose call => exact ih _ (hmeets.2 (node call) trivial)
    | choose n pos => exact absurd (hmeets ⟨0, pos⟩ trivial).1 id
    | overflow cause => exact absurd hmeets id
    | stopRequested => exact ih _ (hmeets isStopping trivial).2
    | enter part => exact ih () hmeets.2
    | log event => exact ih () hmeets.2
    | count counter => exact ih () hmeets.2
    | become worker => exact ih () hmeets.2
    | publish stats => exact ih () hmeets.2

/-! ## Agreement between two nodes -/

/-- Whether two replies to a call are the same failure or answers in a relation. -/
inductive Reply.Related {call : Call} (R : call.Answer → call.Answer → Prop) :
    Reply call → Reply call → Prop where
  | failed (failure : Failure) : Related R (.error failure) (.error failure)
  | answered {answer answer' : call.Answer} (h : R answer answer') :
    Related R (.ok answer) (.ok answer')

namespace Activity

/-- The outcome of an activity from a state of the worker on, with the state it leaves behind. -/
def outcome (node : (call : Call) → Reply call) (isStopping : Bool) (activity : Activity α)
    (w : Worker) : Option (Except PhaseError α × Worker) :=
  Program.outcome node isStopping (activity.run.run w)

/-- What is left of an outcome if the activity goes on: one that was given up stays so. -/
def continuation (node : (call : Call) → Reply call) (isStopping : Bool) (next : α → Activity β) :
    Except PhaseError α × Worker → Option (Except PhaseError β × Worker)
  | (.ok value, w) => (next value).outcome node isStopping w
  | (.error error, w) => some (.error error, w)

/-- The outcome of a sequence. -/
lemma outcome_bind (activity : Activity α) (next : α → Activity β) (w : Worker) :
    (activity >>= next).outcome node isStopping w =
      (activity.outcome node isStopping w).bind (continuation node isStopping next) := by
  refine (Program.outcome_bind (activity.run.run w) _).trans (congrArg _ ?_)
  funext result
  obtain ⟨value | value, w'⟩ := result <;> rfl

/-- The outcome of a chain read. -/
lemma outcome_chainRead (purpose : Purpose) (call : Call) (w : Worker) :
    (chainRead purpose call).outcome node isStopping w =
      some ((node call).mapError .chainQuery, w) := by
  have hattempt : (attempt purpose call).outcome node isStopping w =
      some (.ok (node call), w) := rfl
  rw [chainRead, outcome_bind, hattempt, Option.bind_some, continuation]
  cases node call <;> rfl

/-- Whether an activity has the same outcomes against one node as another activity has against
another node. -/
def Agree (node node' : (call : Call) → Reply call) (isStopping : Bool)
    (activity activity' : Activity α) : Prop :=
  ∀ w, activity'.outcome node' isStopping w = activity.outcome node isStopping w

namespace Agree

variable {activity activity' : Activity α}

/-- Sequences agree whose parts do. -/
lemma bind {next next' : α → Activity β} (hfirst : Agree node node' isStopping activity activity')
    (hnext : ∀ value, Agree node node' isStopping (next value) (next' value)) :
    Agree node node' isStopping (activity >>= next) (activity' >>= next') := by
  intro w
  rw [outcome_bind, outcome_bind, hfirst w]
  refine congrArg _ (funext fun result => ?_)
  obtain ⟨value | value, w'⟩ := result
  · rfl
  · exact hnext value w'

/-- An activity that only returns a value, after it did nothing to the worker, can be left out. -/
lemma of_outcome_eq {value : α} {next : α → Activity β} {other : Activity β}
    (houtcome : ∀ w, activity'.outcome node' isStopping w = some (.ok value, w))
    (hnext : Agree node node' isStopping other (next value)) :
    Agree node node' isStopping other (activity' >>= next) := by
  intro w
  rw [outcome_bind, houtcome w]
  exact hnext w

lemma pure (value : α) : Agree node node' isStopping (Pure.pure value) (Pure.pure value) :=
  fun _ => rfl

lemma get : Agree node node' isStopping MonadState.get (MonadState.get : Activity Worker) :=
  fun _ => rfl

lemma log (event : LogEvent) :
    Agree node node' isStopping (Activity.log event) (Activity.log event) :=
  fun _ => rfl

lemma update (f : Worker → Worker) :
    Agree node node' isStopping (Activity.update f) (Activity.update f) :=
  fun _ => rfl

lemma enter (part : Part) :
    Agree node node' isStopping (Activity.enter part) (Activity.enter part) :=
  fun _ => rfl

lemma checked (sum : Except Overflow α) :
    Agree node node' isStopping (Activity.checked sum) (Activity.checked sum) := by
  intro w
  cases sum <;> rfl

/-- Looks for a stop request are answered alike. -/
lemma stopRequested :
    Agree node node' isStopping Activity.stopRequested Activity.stopRequested :=
  fun _ => rfl

/-- Chain reads that both nodes reply to alike agree. -/
lemma chainRead {purpose : Purpose} {call : Call} (hreply : node' call = node call) :
    Agree node node' isStopping (Activity.chainRead purpose call)
      (Activity.chainRead purpose call) := by
  intro w
  rw [outcome_chainRead, outcome_chainRead, hreply]

/-- What follows chain reads agrees if both nodes fail the reads alike, or give answers for which
it agrees. -/
lemma chainRead_bind {purpose : Purpose} {call : Call} {R : call.Answer → call.Answer → Prop}
    (hreply : Reply.Related R (node call) (node' call)) {next next' : call.Answer → Activity β}
    (hnext : ∀ answer answer', node call = .ok answer → R answer answer' →
      Agree node node' isStopping (next answer) (next' answer')) :
    Agree node node' isStopping (Activity.chainRead purpose call >>= next)
      (Activity.chainRead purpose call >>= next') := by
  intro w
  rw [outcome_bind, outcome_bind, outcome_chainRead, outcome_chainRead]
  generalize hnode : node call = reply at hreply ⊢
  generalize node' call = reply' at hreply ⊢
  cases hreply with
  | failed failure => rfl
  | answered h => exact hnext _ _ hnode h w

/-- Walks over a list agree whose visits do. -/
lemma forM {visit : β → Activity Unit}
    (hvisit : ∀ element, Agree node node' isStopping (visit element) (visit element))
    (elements : List β) : Agree node node' isStopping (elements.forM visit)
      (elements.forM visit) := by
  induction elements with
  | nil => exact pure ()
  | cons element rest ih => exact (hvisit element).bind fun _ => ih

end Agree

end Activity

end PieceReplication
