import PieceReplication.Proofs.Inventory.Uncounted
import PieceReplication.Proofs.Run.Contract

/-!
# Programs that go abreast

Two programs go abreast if they have the same effects, supplied with the same, but for what is not
seen of a run: reports, the count of failed queries, and the counts that a state of the worker keeps
of them.  What is supplied may differ where one of them has a query answered with a failure and the
other one with a success (`Reply.Level`).  If one of the programs breaks off, nothing is asked of
the other.

Reports and counts of failed queries are taken out of a program first (`Program.muted`), so that the
trees of what is left can be compared node by node (`Program.Level`).  `Program.Abreast` and
`Activity.Abreast` are built up from there with one rule for each way to build an activity.
-/

namespace PieceReplication

variable {α β γ δ : Type}

/-! ## Replies -/

/-- A reply without the difference between a query that fails and one that is answered with a
success. -/
def Reply.swallowed : (call : Call) → Reply call → Reply call
  | .query _ _, .error _ => .error ⟨[]⟩
  | .query _ _, .ok response => if response.status = .success then .error ⟨[]⟩ else .ok response
  | _, reply => reply

/-- Whether two replies to a call are the same, or each is a failed query or one that is answered
with a success. -/
def Reply.Level {call : Call} (reply reply' : Reply call) : Prop :=
  swallowed call reply = swallowed call reply'

/-- Whether a call asks a provider. -/
def Call.isQuery : Call → Bool
  | .query _ _ => true
  | _ => false

/-- Level replies to a call that asks no provider are the same. -/
lemma Reply.Level.eq {call : Call} {reply reply' : Reply call} (hlevel : Level reply reply')
    (hcall : call.isQuery = false) : reply = reply' := by
  cases call with
  | query root provider => cases hcall
  | _ => exact hlevel

/-- Level replies to a query that did not fail, and were not answered with a success, are the
same. -/
lemma Reply.Level.exists_of_ne {root : Cid} {provider : Address}
    {reply reply' : Reply (.query root provider)} (hlevel : Level reply reply')
    (hne : swallowed (.query root provider) reply ≠ .error ⟨[]⟩) :
    ∃ response, reply = .ok response ∧ reply' = .ok response ∧ response.status ≠ .success := by
  rcases reply with failure | response
  · exact absurd rfl hne
  · have hstatus : response.status ≠ .success := fun h => hne (if_pos h)
    have hkept : swallowed (.query root provider) reply' = .ok response :=
      hlevel.symm.trans (if_neg hstatus)
    refine ⟨response, rfl, ?_, hstatus⟩
    rcases reply' with failure' | response'
    · cases hkept
    · by_cases hstatus' : response'.status = .success
      · cases (if_pos hstatus').symm.trans hkept
      · exact (if_neg hstatus').symm.trans hkept

/-! ## Programs -/

namespace Program

/-- The program without its reports and its counts of failed queries. -/
def muted : Program α → Program α
  | .done result => .done result
  | .perform (.log _) resume => (resume ()).muted
  | .perform (.count .retrievalQueryFailures) resume => (resume ()).muted
  | .perform effect resume => .perform effect fun answer => (resume answer).muted

/-- A sequence of programs without reports and counts of failed queries. -/
lemma muted_bind (program : Program α) (next : α → Program β) :
    (program.bind next).muted = program.muted.bind fun result => (next result).muted := by
  induction program with
  | done result => rfl
  | perform effect resume ih =>
    have hkept : (fun answer => ((resume answer).bind next).muted) =
        fun answer => (resume answer).muted.bind fun result => (next result).muted := funext ih
    cases effect with
    | log event => exact ih ()
    | count counter =>
      cases counter with
      | retrievalQueryFailures => exact ih ()
      | _ => exact congrArg (perform _) hkept
    | _ => exact congrArg (perform _) hkept

/-- Whether two programs have the same effects on level states, if they are supplied with level
replies and otherwise with the same, and end with results in a relation.  Nothing is asked of them
once one of them breaks off. -/
inductive Level (post : α → β → Prop) : Program α → Program β → Prop
  | done {result result'} (h : post result result') : Level post (.done result) (.done result')
  | breakLeft {cause resume program} : Level post (.perform (.overflow cause) resume) program
  | breakRight {cause resume program} : Level post program (.perform (.overflow cause) resume)
  | call {purpose call resume resume'}
    (h : ∀ reply reply', Reply.Level reply reply' → Level post (resume reply) (resume' reply')) :
    Level post (.perform (.call purpose call) resume) (.perform (.call purpose call) resume')
  | choose {n pos resume resume'} (h : ∀ choice, Level post (resume choice) (resume' choice)) :
    Level post (.perform (.choose n pos) resume) (.perform (.choose n pos) resume')
  | look {resume resume'} (h : ∀ answer, Level post (resume answer) (resume' answer)) :
    Level post (.perform .stopRequested resume) (.perform .stopRequested resume')
  | enter {part resume resume'} (h : Level post (resume ()) (resume' ())) :
    Level post (.perform (.enter part) resume) (.perform (.enter part) resume')
  | count {counter resume resume'} (h : Level post (resume ()) (resume' ())) :
    Level post (.perform (.count counter) resume) (.perform (.count counter) resume')
  | become {w w' resume resume'} (hlevel : w.Level w') (h : Level post (resume ()) (resume' ())) :
    Level post (.perform (.become w) resume) (.perform (.become w') resume')
  | publish {stats resume resume'} (h : Level post (resume ()) (resume' ())) :
    Level post (.perform (.publish stats) resume) (.perform (.publish stats) resume')

/-- Sequences of programs are level whose parts are. -/
lemma Level.bind {post : α → β → Prop} {post' : γ → δ → Prop} {program : Program α}
    {program' : Program β} {next : α → Program γ} {next' : β → Program δ}
    (hfirst : Level post program program')
    (hnext : ∀ result result', post result result' → Level post' (next result) (next' result')) :
    Level post' (program.bind next) (program'.bind next') := by
  induction hfirst with
  | done h => exact hnext _ _ h
  | breakLeft => exact .breakLeft
  | breakRight => exact .breakRight
  | call h ih => exact .call ih
  | choose h ih => exact .choose ih
  | look h ih => exact .look ih
  | enter h ih => exact .enter ih
  | count h ih => exact .count ih
  | become hlevel h ih => exact .become hlevel ih
  | publish h ih => exact .publish ih

/-- Whether two programs go abreast, and end with results in a relation. -/
def Abreast (post : α → β → Prop) (program : Program α) (program' : Program β) : Prop :=
  Level post program.muted program'.muted

/-- Sequences of programs go abreast whose parts do. -/
lemma Abreast.bind {post : α → β → Prop} {post' : γ → δ → Prop} {program : Program α}
    {program' : Program β} {next : α → Program γ} {next' : β → Program δ}
    (hfirst : Abreast post program program')
    (hnext : ∀ result result', post result result' → Abreast post' (next result) (next' result')) :
    Abreast post' (program >>= next) (program' >>= next') := by
  change Level post' (program.bind next).muted (program'.bind next').muted
  rw [muted_bind, muted_bind]
  exact Level.bind hfirst hnext

end Program

/-! ## Activities -/

namespace Activity

/-- What becomes of two activities that go abreast: both end, or both are given up. -/
def Meet (post : α → β → Worker → Worker → Prop) :
    Except PhaseError α × Worker → Except PhaseError β × Worker → Prop
  | (.ok value, w), (.ok value', w') => post value value' w w'
  | (.error _, w), (.error _, w') => w.Level w'
  | _, _ => False

/-- Whether two activities, each from a state of the worker, go abreast and end with values and
states in a relation. -/
def Abreast (activity : Activity α) (activity' : Activity β) (w w' : Worker)
    (post : α → β → Worker → Worker → Prop) : Prop :=
  Program.Abreast (Meet post) (activity.run.run w) (activity'.run.run w')

variable {w w' : Worker}

namespace Abreast

/-- Sequences of activities go abreast whose parts do. -/
lemma bind {activity : Activity α} {activity' : Activity β} {next : α → Activity γ}
    {next' : β → Activity δ} {post : α → β → Worker → Worker → Prop}
    {post' : γ → δ → Worker → Worker → Prop} (hfirst : Abreast activity activity' w w' post)
    (hnext : ∀ value value' v v', post value value' v v' →
      Abreast (next value) (next' value') v v' post') :
    Abreast (activity >>= next) (activity' >>= next') w w' post' := by
  refine Program.Abreast.bind hfirst ?_
  rintro ⟨error | value, v⟩ ⟨error' | value', v'⟩ hmeet
  · exact .done hmeet
  · exact hmeet.elim
  · exact hmeet.elim
  · exact hnext value value' v v' hmeet

/-- The rule of reading the state. -/
lemma get {post : Worker → Worker → Worker → Worker → Prop} (h : post w w' w w') :
    Abreast MonadState.get MonadState.get w w' post :=
  .done h

/-- The rule of changes of the state. -/
lemma update {f f' : Worker → Worker} {post : Unit → Unit → Worker → Worker → Prop}
    (hlevel : (f w).Level (f' w')) (h : post () () (f w) (f' w')) :
    Abreast (Activity.update f) (Activity.update f') w w' post :=
  .become hlevel (.done h)

/-- The rule of calls. -/
lemma attempt {purpose : Purpose} {call : Call}
    {post : Reply call → Reply call → Worker → Worker → Prop}
    (h : ∀ reply reply', Reply.Level reply reply' → post reply reply' w w') :
    Abreast (Activity.attempt purpose call) (Activity.attempt purpose call) w w' post :=
  .call fun reply reply' hreply => .done (h reply reply' hreply)

variable {purpose : Purpose} {call : Call}
  {post : call.Answer → call.Answer → Worker → Worker → Prop}

/-- The rule of calls whose failure ends the activity. -/
lemma request (hlevel : w.Level w') (hcall : call.isQuery = false)
    (h : ∀ answer, post answer answer w w') :
    Abreast (Activity.request purpose call) (Activity.request purpose call) w w' post := by
  have hattempt : Abreast (Activity.attempt purpose call) (Activity.attempt purpose call) w w'
      fun reply reply' v v' => reply = reply' ∧ v = w ∧ v' = w' :=
    attempt fun _ _ hreply => ⟨hreply.eq hcall, rfl, rfl⟩
  refine hattempt.bind ?_
  rintro (failure | answer) _ _ _ ⟨rfl, rfl, rfl⟩
  · exact .done hlevel
  · exact .done (h answer)

/-- The rule of chain reads, whose failure ends the activity. -/
lemma chainRead (hlevel : w.Level w') (hcall : call.isQuery = false)
    (h : ∀ answer, post answer answer w w') :
    Abreast (Activity.chainRead purpose call) (Activity.chainRead purpose call) w w' post := by
  have hattempt : Abreast (Activity.attempt purpose call) (Activity.attempt purpose call) w w'
      fun reply reply' v v' => reply = reply' ∧ v = w ∧ v' = w' :=
    attempt fun _ _ hreply => ⟨hreply.eq hcall, rfl, rfl⟩
  refine hattempt.bind ?_
  rintro (failure | answer) _ _ _ ⟨rfl, rfl, rfl⟩
  · exact .done hlevel
  · exact .done (h answer)

/-- The rule of choices among as many candidates. -/
lemma choose {n n' : Nat} {pos : 0 < n} {pos' : 0 < n'} (heq : n = n')
    {post : Fin n → Fin n' → Worker → Worker → Prop}
    (h : ∀ choice choice', choice.val = choice'.val → post choice choice' w w') :
    Abreast (Activity.choose n pos) (Activity.choose n' pos') w w' post := by
  subst heq
  exact Program.Level.choose fun choice => .done (h choice choice rfl)

end Abreast

/-- Whether two activities go abreast from level states on, and end in level states with values in a
relation. -/
def Even (R : α → β → Prop) (activity : Activity α) (activity' : Activity β) : Prop :=
  ∀ w w', w.Level w' →
    Abreast activity activity' w w' fun value value' v v' => R value value' ∧ v.Level v'

namespace Even

variable {R : α → β → Prop}

lemma bind {activity : Activity α} {activity' : Activity β} {next : α → Activity γ}
    {next' : β → Activity δ} {S : γ → δ → Prop} (hfirst : Even R activity activity')
    (hnext : ∀ value value', R value value' → Even S (next value) (next' value')) :
    Even S (activity >>= next) (activity' >>= next') :=
  fun w w' hlevel => (hfirst w w' hlevel).bind fun value value' v v' h =>
    hnext value value' h.1 v v' h.2

lemma pure {value : α} {value' : β} (h : R value value') :
    Even R (Pure.pure value) (Pure.pure value') :=
  fun _ _ hlevel => .done ⟨h, hlevel⟩

lemma throw (error error' : PhaseError) :
    Even R (throw error : Activity α) (throw error' : Activity β) :=
  fun _ _ hlevel => .done hlevel

lemma get : Even Worker.Level MonadState.get MonadState.get :=
  fun _ _ hlevel => .get ⟨hlevel, hlevel⟩

lemma log (event event' : LogEvent) : Even Eq (Activity.log event) (Activity.log event') :=
  fun _ _ hlevel => .done ⟨rfl, hlevel⟩

lemma count (counter : Counter) : Even Eq (Activity.count counter) (Activity.count counter) := by
  intro w w' hlevel
  cases counter with
  | retrievalQueryFailures => exact .done ⟨rfl, hlevel⟩
  | _ => exact .count (.done ⟨rfl, hlevel⟩)

lemma enter (part : Part) : Even Eq (Activity.enter part) (Activity.enter part) :=
  fun _ _ hlevel => .enter (.done ⟨rfl, hlevel⟩)

lemma stopRequested : Even Eq Activity.stopRequested Activity.stopRequested :=
  fun _ _ hlevel => .look fun _ => .done ⟨rfl, hlevel⟩

lemma update {f f' : Worker → Worker} (hf : ∀ w w', w.Level w' → (f w).Level (f' w')) :
    Even Eq (Activity.update f) (Activity.update f') :=
  fun w w' hlevel => .update (hf w w' hlevel) ⟨rfl, hf w w' hlevel⟩

/-- The rule of changes of the state that the counts of failed queries have nothing to do with. -/
lemma updateUncounted {f : Worker → Worker} (hf : ∀ w, (f w).uncounted = f w.uncounted) :
    Even Eq (Activity.update f) (Activity.update f) := by
  refine update fun w w' hlevel => ?_
  rw [Worker.Level, hf, hf, hlevel]

lemma checked (sum : Except Overflow α) :
    Even Eq (Activity.checked sum) (Activity.checked sum) := by
  intro w w' hlevel
  cases sum with
  | ok value => exact .done ⟨rfl, hlevel⟩
  | error cause => exact .breakLeft

lemma attempt (purpose : Purpose) {call : Call} (hcall : call.isQuery = false) :
    Even Eq (Activity.attempt purpose call) (Activity.attempt purpose call) :=
  fun _ _ hlevel => .attempt fun _ _ hreply => ⟨hreply.eq hcall, hlevel⟩

lemma request (purpose : Purpose) {call : Call} (hcall : call.isQuery = false) :
    Even Eq (Activity.request purpose call) (Activity.request purpose call) :=
  fun _ _ hlevel => .request hlevel hcall fun _ => ⟨rfl, hlevel⟩

lemma chainRead (purpose : Purpose) {call : Call} (hcall : call.isQuery = false) :
    Even Eq (Activity.chainRead purpose call) (Activity.chainRead purpose call) :=
  fun _ _ hlevel => .chainRead hlevel hcall fun _ => ⟨rfl, hlevel⟩

/-- The rule of walks over a list. -/
lemma forM {visit visit' : β → Activity Unit}
    (hvisit : ∀ element, Even Eq (visit element) (visit' element)) (elements : List β) :
    Even Eq (elements.forM visit) (elements.forM visit') := by
  induction elements with
  | nil => exact .pure rfl
  | cons element rest ih => exact (hvisit element).bind fun _ _ _ => ih

/-- The rule of look-ups in the inventory. -/
lemma findPiece (key : Cid) :
    Even (fun piece? piece?' => piece?.map Piece.uncounted = piece?'.map Piece.uncounted)
      (Activity.findPiece key) (Activity.findPiece key) :=
  get.bind fun _ _ hv => (update fun _ _ hlevel => hlevel.touch key).bind fun _ _ _ =>
    .pure (hv.find?_eq key)

lemma dropPiece (key : Cid) : Even Eq (Activity.dropPiece key) (Activity.dropPiece key) :=
  update fun _ _ hlevel => hlevel.erase key

lemma dropRetrieval (key : Cid) :
    Even Eq (Activity.dropRetrieval key) (Activity.dropRetrieval key) :=
  updateUncounted fun _ => rfl

lemma dropDeal (key : Cid) : Even Eq (Activity.dropDeal key) (Activity.dropDeal key) :=
  updateUncounted fun _ => rfl

end Even

end Activity

end PieceReplication
