import Mathlib.Tactic.Common
import PieceReplication.Proofs.Run.History
import PieceReplication.Schedule.Activity

/-!
# Contracts of programs

A contract relies on what the surroundings supply (the replies of the node, the choices, the looks
for a stop request) and guarantees something of everything the program does by itself.  A program
meets a contract from a history on, with a postcondition (`Program.Meets`), if along each of its
branches whose supplies can be relied on every occurrence is as guaranteed, and the postcondition
holds wherever the branch ends.

`Task.Meets` and `Activity.Meets` are the same for programs on the state of the worker, the latter
with a second postcondition for the case that the activity is given up.  The rules below, one for
each step an activity can take, turn such a statement about a program into one about histories.
-/

namespace PieceReplication

/-- What is relied on, and what is guaranteed, of an occurrence after a history. -/
structure Contract where
  rely : History → Occurrence → Prop
  guarantee : History → Occurrence → Prop

/-- Whether a program meets a contract from a history on, with a postcondition. -/
def Program.Meets (c : Contract) {α : Type} : Program α → History → (α → History → Prop) → Prop
  | .done result, h, post => post result h
  | .perform (.call purpose call) resume, h, post =>
    c.guarantee h (.called purpose call) ∧
      ∀ reply, c.rely (.called purpose call :: h) (.answered purpose call reply) →
        (resume reply).Meets c (.answered purpose call reply :: .called purpose call :: h) post
  | .perform (.choose n _) resume, h, post =>
    ∀ choice, c.rely h (.chose n choice) →
      c.guarantee h (.chose n choice) ∧ (resume choice).Meets c (.chose n choice :: h) post
  | .perform .stopRequested resume, h, post =>
    ∀ answer, c.rely h (.looked answer) →
      c.guarantee h (.looked answer) ∧ (resume answer).Meets c (.looked answer :: h) post
  | .perform (.enter part) resume, h, post =>
    c.guarantee h (.entered part) ∧ (resume ()).Meets c (.entered part :: h) post
  | .perform (.log event) resume, h, post =>
    c.guarantee h (.logged event) ∧ (resume ()).Meets c (.logged event :: h) post
  | .perform (.count counter) resume, h, post =>
    c.guarantee h (.counted counter) ∧ (resume ()).Meets c (.counted counter :: h) post
  | .perform (.become worker) resume, h, post =>
    c.guarantee h (.became worker) ∧ (resume ()).Meets c (.became worker :: h) post
  | .perform (.publish stats) resume, h, post =>
    c.guarantee h (.published stats) ∧ (resume ()).Meets c (.published stats :: h) post
  | .perform (.overflow _) _, h, _ => c.guarantee h .brokeOff

namespace Program

variable {c : Contract} {α β : Type} {h : History}

/-- A program that goes on with another one meets a contract if the first one does, with the
contract of the second one as its postcondition. -/
lemma meets_bind (program : Program α) (next : α → Program β) (post : β → History → Prop) :
    (program >>= next).Meets c h post ↔
      program.Meets c h fun result h' => (next result).Meets c h' post := by
  change (program.bind next).Meets c h post ↔ _
  induction program generalizing h with
  | done result => rfl
  | perform effect resume ih =>
    cases effect with
    | call purpose call => exact and_congr_right fun _ => forall₂_congr fun reply _ => ih reply
    | choose n pos => exact forall₂_congr fun choice _ => and_congr_right fun _ => ih choice
    | stopRequested => exact forall₂_congr fun answer _ => and_congr_right fun _ => ih answer
    | overflow cause => exact Iff.rfl
    | enter part => exact and_congr_right fun _ => ih ()
    | log event => exact and_congr_right fun _ => ih ()
    | count counter => exact and_congr_right fun _ => ih ()
    | become worker => exact and_congr_right fun _ => ih ()
    | publish stats => exact and_congr_right fun _ => ih ()

/-- A postcondition can be weakened. -/
lemma Meets.mono {program : Program α} {post post' : α → History → Prop}
    (hmeets : program.Meets c h post) (himp : ∀ result h', post result h' → post' result h') :
    program.Meets c h post' := by
  induction program generalizing h with
  | done result => exact himp result h hmeets
  | perform effect resume ih =>
    cases effect with
    | call purpose call =>
      exact ⟨hmeets.1, fun reply hreply => ih reply (hmeets.2 reply hreply)⟩
    | choose n pos =>
      exact fun choice hchoice =>
        ⟨(hmeets choice hchoice).1, ih choice (hmeets choice hchoice).2⟩
    | stopRequested =>
      exact fun answer hanswer =>
        ⟨(hmeets answer hanswer).1, ih answer (hmeets answer hanswer).2⟩
    | overflow cause => exact hmeets
    | enter part => exact ⟨hmeets.1, ih () hmeets.2⟩
    | log event => exact ⟨hmeets.1, ih () hmeets.2⟩
    | count counter => exact ⟨hmeets.1, ih () hmeets.2⟩
    | become worker => exact ⟨hmeets.1, ih () hmeets.2⟩
    | publish stats => exact ⟨hmeets.1, ih () hmeets.2⟩

/-- A program without effects meets each contract with its result. -/
@[simp] lemma meets_pure {result : α} {post : α → History → Prop} :
    (pure result : Program α).Meets c h post ↔ post result h := Iff.rfl

/-- The rule of a look for a stop request. -/
@[simp] lemma meets_effect_stopRequested {post : Bool → History → Prop} :
    (Program.effect .stopRequested).Meets c h post ↔
      ∀ answer, c.rely h (.looked answer) →
        c.guarantee h (.looked answer) ∧ post answer (.looked answer :: h) := Iff.rfl

end Program

namespace Task

/-- Whether a task meets a contract from a state of the worker and a history on. -/
def Meets (c : Contract) {α : Type} (task : Task α) (w : Worker) (h : History)
    (post : α → Worker → History → Prop) : Prop :=
  (task.run w).Meets c h fun result h' => post result.1 result.2 h'

variable {c : Contract} {α β : Type} {w : Worker} {h : History}

/-- The rule of sequences. -/
@[simp] lemma meets_bind (task : Task α) (next : α → Task β)
    (post : β → Worker → History → Prop) :
    Meets c (task >>= next) w h post ↔
      Meets c task w h fun result w' h' => Meets c (next result) w' h' post :=
  Program.meets_bind (task.run w) (fun result => (next result.1).run result.2) _

/-- The rule of results. -/
@[simp] lemma meets_pure {result : α} {post : α → Worker → History → Prop} :
    Meets c (pure result : Task α) w h post ↔ post result w h := Iff.rfl

/-- The rule of results that are passed on through a function. -/
@[simp] lemma meets_map (f : α → β) (task : Task α) (post : β → Worker → History → Prop) :
    Meets c (f <$> task) w h post ↔ Meets c task w h fun result => post (f result) :=
  Program.meets_bind (task.run w) (fun result => pure (f result.1, result.2)) _

/-- The rule of reports. -/
@[simp] lemma meets_log {event : LogEvent} {post : Unit → Worker → History → Prop} :
    Meets c (log event) w h post ↔
      c.guarantee h (.logged event) ∧ post () w (.logged event :: h) := Iff.rfl

/-- The rule of counts. -/
@[simp] lemma meets_count {counter : Counter} {post : Unit → Worker → History → Prop} :
    Meets c (count counter) w h post ↔
      c.guarantee h (.counted counter) ∧ post () w (.counted counter :: h) := Iff.rfl

/-- A postcondition of a task can be weakened. -/
lemma Meets.mono {task : Task α} {post post' : α → Worker → History → Prop}
    (hmeets : Meets c task w h post)
    (himp : ∀ result w' h', post result w' h' → post' result w' h') :
    Meets c task w h post' :=
  Program.Meets.mono hmeets fun result h' => himp result.1 result.2 h'

end Task

namespace Activity

/-- Whether an activity meets a contract from a state of the worker and a history on, with a
postcondition for its end and one for the case that it is given up. -/
def Meets (c : Contract) {α : Type} (activity : Activity α) (w : Worker) (h : History)
    (post : α → Worker → History → Prop) (given : PhaseError → Worker → History → Prop) : Prop :=
  Task.Meets c activity.run w h fun result w' h' =>
    match result with
    | .ok value => post value w' h'
    | .error error => given error w' h'

variable {c : Contract} {α β : Type} {w : Worker} {h : History}
  {given given' : PhaseError → Worker → History → Prop}

/-- A task as an activity is never given up. -/
lemma meets_ofTask {task : Task α} {post : α → Worker → History → Prop} :
    Meets c (ofTask task) w h post given ↔ Task.Meets c task w h post :=
  Task.meets_map Except.ok task _

/-- The rule of sequences: an activity that is given up leaves out what follows. -/
@[simp] lemma meets_bind (activity : Activity α) (next : α → Activity β)
    (post : β → Worker → History → Prop) :
    Meets c (activity >>= next) w h post given ↔
      Meets c activity w h (fun value w' h' => Meets c (next value) w' h' post given) given := by
  unfold Meets
  change Task.Meets c (activity.run >>= fun result => ExceptT.bindCont next result) w h _ ↔ _
  rw [Task.meets_bind]
  refine Iff.of_eq (congrArg (Task.Meets c activity.run w h) ?_)
  funext result w' h'
  cases result <;> rfl

/-- Postconditions of an activity can be weakened. -/
lemma Meets.mono {activity : Activity α} {post post' : α → Worker → History → Prop}
    (hmeets : Meets c activity w h post given)
    (himp : ∀ value w' h', post value w' h' → post' value w' h')
    (hgiven : ∀ error w' h', given error w' h' → given' error w' h') :
    Meets c activity w h post' given' := by
  refine Task.Meets.mono hmeets fun result w' h' => ?_
  cases result with
  | ok value => exact himp value w' h'
  | error error => exact hgiven error w' h'

/-- The rule of results. -/
@[simp] lemma meets_pure {value : α} {post : α → Worker → History → Prop} :
    Meets c (pure value : Activity α) w h post given ↔ post value w h := Iff.rfl

/-- The rule of giving up. -/
@[simp] lemma meets_throw {error : PhaseError} {post : α → Worker → History → Prop} :
    Meets c (throw error : Activity α) w h post given ↔ given error w h := Iff.rfl

/-- The rule of reading the state. -/
@[simp] lemma meets_get {post : Worker → Worker → History → Prop} :
    Meets c (get : Activity Worker) w h post given ↔ post w w h := Iff.rfl

/-- The rule of a change of the state. -/
@[simp] lemma meets_update {f : Worker → Worker} {post : Unit → Worker → History → Prop} :
    Meets c (update f) w h post given ↔
      c.guarantee h (.became (f w)) ∧ post () (f w) (.became (f w) :: h) := Iff.rfl

/-- The rule of reports. -/
@[simp] lemma meets_log {event : LogEvent} {post : Unit → Worker → History → Prop} :
    Meets c (log event) w h post given ↔
      c.guarantee h (.logged event) ∧ post () w (.logged event :: h) := Iff.rfl

/-- The rule of counts. -/
@[simp] lemma meets_count {counter : Counter} {post : Unit → Worker → History → Prop} :
    Meets c (count counter) w h post given ↔
      c.guarantee h (.counted counter) ∧ post () w (.counted counter :: h) := Iff.rfl

/-- The rule of the beginning of a part. -/
@[simp] lemma meets_enter {part : Part} {post : Unit → Worker → History → Prop} :
    Meets c (enter part) w h post given ↔
      c.guarantee h (.entered part) ∧ post () w (.entered part :: h) := Iff.rfl

/-- The rule of looks for a stop request. -/
@[simp] lemma meets_stopRequested {post : Bool → Worker → History → Prop} :
    Meets c stopRequested w h post given ↔
      ∀ answer, c.rely h (.looked answer) →
        c.guarantee h (.looked answer) ∧ post answer w (.looked answer :: h) := Iff.rfl

/-- The rule of choices. -/
@[simp] lemma meets_choose {n : Nat} {pos : 0 < n} {post : Fin n → Worker → History → Prop} :
    Meets c (choose n pos) w h post given ↔
      ∀ choice, c.rely h (.chose n choice) →
        c.guarantee h (.chose n choice) ∧ post choice w (.chose n choice :: h) := Iff.rfl

/-- The rule of sums. -/
@[simp] lemma meets_checked {sum : Except Overflow α} {post : α → Worker → History → Prop} :
    Meets c (checked sum) w h post given ↔
      (∀ value, sum = .ok value → post value w h) ∧
        ∀ cause, sum = .error cause → c.guarantee h .brokeOff := by
  rw [checked, meets_ofTask]
  cases sum with
  | ok result => simp [Task.checked]
  | error cause =>
    constructor
    · intro hbroke
      refine ⟨?_, fun _ _ => hbroke⟩
      rintro value ⟨⟩
    · exact fun h => h.2 cause rfl

/-- The rule of calls. -/
@[simp] lemma meets_attempt {purpose : Purpose} {call : Call}
    {post : Reply call → Worker → History → Prop} :
    Meets c (attempt purpose call) w h post given ↔
      c.guarantee h (.called purpose call) ∧
        ∀ reply, c.rely (.called purpose call :: h) (.answered purpose call reply) →
          post reply w (.answered purpose call reply :: .called purpose call :: h) := Iff.rfl

/-- The rule of calls whose failure ends the activity. -/
@[simp] lemma meets_request {purpose : Purpose} {call : Call}
    {post : call.Answer → Worker → History → Prop} :
    Meets c (request purpose call) w h post given ↔
      c.guarantee h (.called purpose call) ∧
        (∀ answer, c.rely (.called purpose call :: h) (.answered purpose call (.ok answer)) →
          post answer w (.answered purpose call (.ok answer) :: .called purpose call :: h)) ∧
        ∀ failure, c.rely (.called purpose call :: h) (.answered purpose call (.error failure)) →
          given (.transport failure) w
            (.answered purpose call (.error failure) :: .called purpose call :: h) := by
  rw [request, meets_bind, meets_attempt]
  refine and_congr_right fun _ => ⟨fun hreply => ⟨?_, ?_⟩, fun hreply reply => ?_⟩
  · exact fun answer => hreply (.ok answer)
  · exact fun failure => hreply (.error failure)
  · cases reply with
    | ok answer => exact hreply.1 answer
    | error failure => exact hreply.2 failure

/-- The rule of chain reads, whose failure ends the activity. -/
@[simp] lemma meets_chainRead {purpose : Purpose} {call : Call}
    {post : call.Answer → Worker → History → Prop} :
    Meets c (chainRead purpose call) w h post given ↔
      c.guarantee h (.called purpose call) ∧
        (∀ answer, c.rely (.called purpose call :: h) (.answered purpose call (.ok answer)) →
          post answer w (.answered purpose call (.ok answer) :: .called purpose call :: h)) ∧
        ∀ failure, c.rely (.called purpose call :: h) (.answered purpose call (.error failure)) →
          given (.chainQuery failure) w
            (.answered purpose call (.error failure) :: .called purpose call :: h) := by
  rw [chainRead, meets_bind, meets_attempt]
  refine and_congr_right fun _ => ⟨fun hreply => ⟨?_, ?_⟩, fun hreply reply => ?_⟩
  · exact fun answer => hreply (.ok answer)
  · exact fun failure => hreply (.error failure)
  · cases reply with
    | ok answer => exact hreply.1 answer
    | error failure => exact hreply.2 failure

/-- The rule of walks over a list: an invariant of what is left of the list is kept by each visit
of an element. -/
lemma meets_forM {visit : β → Activity Unit} (inv : List β → Worker → History → Prop)
    (hvisit : ∀ element rest w h, inv (element :: rest) w h →
      Meets c (visit element) w h (fun _ => inv rest) given)
    {elements : List β} (hinv : inv elements w h) :
    Meets c (elements.forM visit) w h (fun _ => inv []) given := by
  induction elements generalizing w h with
  | nil => exact hinv
  | cons element rest ih =>
    change Meets c (visit element >>= fun _ => rest.forM visit) w h _ _
    rw [meets_bind]
    exact (hvisit element rest w h hinv).mono (fun _ _ _ => ih) fun _ _ _ => id

end Activity

end PieceReplication
