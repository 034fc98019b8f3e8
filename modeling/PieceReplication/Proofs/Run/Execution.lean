import PieceReplication.Proofs.Run.Contract

/-!
# Runs of programs that meet a contract

A contract says which supplies can be relied on, and so along which branches a program may run to
its end (`Program.Ends`).  There each reply, each choice and each look for a stop request may be
another one that can be relied on.  Such a run of a program that meets the contract ends with the
postcondition.

If the surroundings supply what a contract relies on, then what the program does in them is such a
run, if it ends.  If moreover the surroundings reply to each call at once and the contract excludes
that the program breaks off, it does end.
-/

namespace PieceReplication

variable {σ α : Type}

/-- Whether the surroundings, together with the answer whenever the program looks for a stop
request, supply what a contract relies on. -/
structure Surroundings.Supplies (surroundings : Surroundings σ) (isStopping : Bool)
    (c : Contract) : Prop where
  replies : ∀ h state purpose call reply state',
    surroundings.call state call = (.reply reply, state') →
      c.rely (.called purpose call :: h) (.answered purpose call reply)
  choices : ∀ h state n pos, c.rely h (.chose n (surroundings.choose state n pos).1)
  looks : ∀ h, c.rely h (.looked isStopping)

/-- Whether the surroundings reply to each call at once. -/
def Surroundings.Replies (surroundings : Surroundings σ) : Prop :=
  ∀ state call, ∃ reply state', surroundings.call state call = (.reply reply, state')

/-- Whether the replies of the surroundings are a function of the call. -/
def Surroundings.AnswersBy (surroundings : Surroundings σ) (node : (call : Call) → Reply call) :
    Prop :=
  ∀ state call reply state', surroundings.call state call = (.reply reply, state') →
    reply = node call

/-- Whether the replies of the surroundings are a function of the call, except that any reply may be
a failure instead. -/
def Surroundings.AnswersOrFailsBy (surroundings : Surroundings σ)
    (node : (call : Call) → call.Answer) : Prop :=
  ∀ state call reply state', surroundings.call state call = (.reply reply, state') →
    reply = .ok (node call) ∨ ∃ failure, reply = .error failure

/-- Surroundings that answer each call, by a function of the call, and choose the first of the
candidates. -/
def Surroundings.answering (node : (call : Call) → call.Answer) : Surroundings Unit where
  call _ call := (.reply (.ok (node call)), ())
  release _ call := (.ok (node call), ())
  choose _ _ pos := (⟨0, pos⟩, ())

/-- Surroundings that answer as many calls as their state says, by a function of the call, and fail
the calls after these. -/
def Surroundings.failing (node : (call : Call) → call.Answer) : Surroundings Nat where
  call
    | 0, _ => (.reply (.error ⟨[]⟩), 0)
    | left + 1, call => (.reply (.ok (node call)), left)
  release left call := (.ok (node call), left)
  choose left _ pos := (⟨0, pos⟩, left)

/-- Surroundings that answer each call reply to it. -/
lemma Surroundings.replies_answering (node : (call : Call) → call.Answer) :
    (answering node).Replies :=
  fun _ call => ⟨.ok (node call), (), rfl⟩

/-- The replies of surroundings that answer by a function of the call are such a function. -/
lemma Surroundings.answersBy_answering (node : (call : Call) → call.Answer) :
    (answering node).AnswersBy fun call => .ok (node call) := by
  rintro state call reply state' hreply
  cases hreply
  rfl

/-- The replies of surroundings that fail after some calls are a function of the call or
failures. -/
lemma Surroundings.answersOrFailsBy_failing (node : (call : Call) → call.Answer) :
    (failing node).AnswersOrFailsBy node := by
  rintro (_ | left) call reply state' hreply
  · cases hreply
    exact .inr ⟨_, rfl⟩
  · cases hreply
    exact .inl rfl

variable {c : Contract} {surroundings : Surroundings σ} {isStopping : Bool}

/-- What a program does does not depend on what happened before. -/
lemma Program.trace_execute_append (program : Program α) (surroundings : Surroundings σ)
    (isStopping : Bool) (state : σ) (h base : History) :
    (program.execute surroundings isStopping state (h ++ base)).trace =
      (program.execute surroundings isStopping state h).trace ++ base := by
  induction program generalizing state h with
  | done value => rfl
  | perform effect resume ih =>
    cases effect with
    | call purpose call =>
      rw [execute, execute]
      split
      · next reply state' hreply => exact ih reply state' (_ :: _ :: h)
      · rfl
      · rfl
    | choose n pos => exact ih _ _ (_ :: h)
    | stopRequested => exact ih isStopping _ (_ :: h)
    | overflow cause => rfl
    | enter part => exact ih () _ (_ :: h)
    | log event => exact ih () _ (_ :: h)
    | count counter => exact ih () _ (_ :: h)
    | become worker => exact ih () _ (_ :: h)
    | publish stats => exact ih () _ (_ :: h)

/-- What happened before a program is still there after it. -/
lemma Program.mem_trace_execute {program : Program α} {state : σ} {h : History}
    {occurrence : Occurrence} (hmem : occurrence ∈ h) :
    occurrence ∈ (program.execute surroundings isStopping state h).trace := by
  have happend := program.trace_execute_append surroundings isStopping state [] h
  rw [List.nil_append] at happend
  rw [happend]
  exact List.mem_append_right _ hmem

/-- A program that begins with a call makes it, however the node meets it. -/
lemma Program.called_mem_trace_execute {purpose : Purpose} {call : Call}
    {resume : Reply call → Program α} {state : σ} {h : History} :
    .called purpose call ∈
      ((perform (.call purpose call) resume).execute surroundings isStopping state h).trace := by
  rw [execute]
  split
  · exact mem_trace_execute (List.mem_cons_of_mem _ List.mem_cons_self)
  · exact List.mem_cons_self
  · exact List.mem_cons_of_mem _ List.mem_cons_self

/-- Whether a program, on top of a history, can end with a result and a history while everything
that it is supplied with can be relied on. -/
def Program.Ends (c : Contract) : Program α → History → α → History → Prop
  | .done value, h, result, h' => value = result ∧ h = h'
  | .perform (.call purpose call) resume, h, result, h' =>
    ∃ reply, c.rely (.called purpose call :: h) (.answered purpose call reply) ∧
      (resume reply).Ends c (.answered purpose call reply :: .called purpose call :: h) result h'
  | .perform (.choose n _) resume, h, result, h' =>
    ∃ choice, c.rely h (.chose n choice) ∧
      (resume choice).Ends c (.chose n choice :: h) result h'
  | .perform .stopRequested resume, h, result, h' =>
    ∃ answer, c.rely h (.looked answer) ∧ (resume answer).Ends c (.looked answer :: h) result h'
  | .perform (.enter part) resume, h, result, h' =>
    (resume ()).Ends c (.entered part :: h) result h'
  | .perform (.log event) resume, h, result, h' =>
    (resume ()).Ends c (.logged event :: h) result h'
  | .perform (.count counter) resume, h, result, h' =>
    (resume ()).Ends c (.counted counter :: h) result h'
  | .perform (.become worker) resume, h, result, h' =>
    (resume ()).Ends c (.became worker :: h) result h'
  | .perform (.publish stats) resume, h, result, h' =>
    (resume ()).Ends c (.published stats :: h) result h'
  | .perform (.overflow _) _, _, _, _ => False

/-- A program that meets a contract ends with its postcondition. -/
lemma Program.Meets.post_of_ends {program : Program α} {post : α → History → Prop} {h h' : History}
    {result : α} (hmeets : program.Meets c h post) (hends : program.Ends c h result h') :
    post result h' := by
  induction program generalizing h with
  | done value =>
    obtain ⟨rfl, rfl⟩ := hends
    exact hmeets
  | perform effect resume ih =>
    cases effect with
    | call purpose call =>
      obtain ⟨reply, hreply, hends⟩ := hends
      exact ih reply (hmeets.2 reply hreply) hends
    | choose n pos =>
      obtain ⟨choice, hchoice, hends⟩ := hends
      exact ih choice (hmeets choice hchoice).2 hends
    | stopRequested =>
      obtain ⟨answer, hanswer, hends⟩ := hends
      exact ih answer (hmeets answer hanswer).2 hends
    | overflow cause => cases hends
    | enter part => exact ih () hmeets.2 hends
    | log event => exact ih () hmeets.2 hends
    | count counter => exact ih () hmeets.2 hends
    | become worker => exact ih () hmeets.2 hends
    | publish stats => exact ih () hmeets.2 hends

/-- What a program does in surroundings that supply what the contract relies on is one of its runs,
if it ends. -/
lemma Program.ends_of_execute {program : Program α} {h : History}
    (hsupplies : surroundings.Supplies isStopping c) {state : σ} {result : α}
    (hdone : (program.execute surroundings isStopping state h).halt = .done result) :
    program.Ends c h result (program.execute surroundings isStopping state h).trace := by
  induction program generalizing state h with
  | done value =>
    cases hdone
    exact ⟨rfl, rfl⟩
  | perform effect resume ih =>
    cases effect with
    | call purpose call =>
      rw [execute] at hdone ⊢
      split
      · next reply state' hreply =>
        rw [hreply] at hdone
        exact ⟨reply, hsupplies.replies h state purpose call reply state' hreply, ih reply hdone⟩
      · next state' hhang =>
        rw [hhang] at hdone
        cases hdone
      · next message state' hpanic =>
        rw [hpanic] at hdone
        cases hdone
    | choose n pos => exact ⟨_, hsupplies.choices h state n pos, ih _ hdone⟩
    | stopRequested => exact ⟨isStopping, hsupplies.looks h, ih isStopping hdone⟩
    | overflow cause => cases hdone
    | enter part => exact ih () hdone
    | log event => exact ih () hdone
    | count counter => exact ih () hdone
    | become worker => exact ih () hdone
    | publish stats => exact ih () hdone

/-- A program that meets a contract ends with its postcondition, if it ends. -/
lemma Program.Meets.post_of_execute {program : Program α} {post : α → History → Prop} {h : History}
    (hmeets : program.Meets c h post) (hsupplies : surroundings.Supplies isStopping c) {state : σ}
    {result : α} (hdone : (program.execute surroundings isStopping state h).halt = .done result) :
    post result (program.execute surroundings isStopping state h).trace :=
  hmeets.post_of_ends (Program.ends_of_execute hsupplies hdone)

/-- A program that never breaks off ends if each call is replied to. -/
lemma Program.Meets.exists_done {program : Program α} {post : α → History → Prop} {h : History}
    (hmeets : program.Meets c h post) (hsupplies : surroundings.Supplies isStopping c)
    (hreplies : surroundings.Replies) (hunbroken : ∀ h, ¬ c.guarantee h .brokeOff) (state : σ) :
    ∃ result, (program.execute surroundings isStopping state h).halt = .done result := by
  induction program generalizing state h with
  | done value => exact ⟨value, rfl⟩
  | perform effect resume ih =>
    cases effect with
    | call purpose call =>
      obtain ⟨reply, state', hreply⟩ := hreplies state call
      rw [execute, hreply]
      exact ih reply (hmeets.2 reply (hsupplies.replies h state purpose call reply state' hreply))
        state'
    | choose n pos => exact ih _ (hmeets _ (hsupplies.choices h state n pos)).2 _
    | stopRequested => exact ih _ (hmeets _ (hsupplies.looks h)).2 _
    | overflow cause => exact absurd hmeets (hunbroken h)
    | enter part => exact ih () hmeets.2 _
    | log event => exact ih () hmeets.2 _
    | count counter => exact ih () hmeets.2 _
    | become worker => exact ih () hmeets.2 _
    | publish stats => exact ih () hmeets.2 _

end PieceReplication
