import PieceReplication.Proofs.Lifecycle.Pace
import PieceReplication.Proofs.Phases.Frames

/-!
# The isolation of the phases

A tick runs three phases one after another, and whatever happens in one of them the next one runs.
This is said by a contract (`isolation`) that each turn of the driver meets from any state of the
worker.  It says what each part of a tick follows (`Follows`), which calls a phase makes
(`MayCall`), what it leaves alone (`Phase.Leaves`), and what is counted: a reply that calls for a
count (`dueOf?`) is counted before anything else is done, and nothing is counted otherwise
(`History.uncounted?`).

A phase fails by a reply (`faultOf?`) and makes no call after that (`History.failed`), so it fails
once in a tick at most.

That a phase meets the contract is shown by its structure, with one rule for each way to build an
activity (`Activity.Isolated`).
-/

namespace PieceReplication

open History BoundedMap

/-! ## Phases and their failures -/

/-- The place of a phase in a tick. -/
def Phase.rank : Phase → Nat
  | index => 0
  | retrieve => 1
  | deal => 2

/-- The phase that calls are made in for a purpose.  The question whether the node is catching up
belongs to the index phase. -/
def Purpose.phase (purpose : Purpose) : Phase :=
  (purpose.part?.map Part.phase).getD .index

/-- The calls that are made for a purpose. -/
def Purpose.asks (purpose : Purpose) (call : Call) : Bool :=
  match purpose.part?, call with
  | none, .syncState => true
  | none, _ => false
  | some .indexing, .chainHead => true
  | some .indexing, .clientDeals => true
  | some .indexing, .tipsetAt _ => true
  | some part, call => part.calls call

/-- The phase that fails by a reply.  The index phase fails by any call that does, the retrieval
phase by one that asks for a payload here, and the deal phase by any but the start of a deal, and by
a miner that is not initialized. -/
@[simp] def faultOf? (purpose : Purpose) (call : Call) (reply : Reply call) : Option Phase :=
  match purpose.phase, call, reply with
  | .index, _, .error _ => some .index
  | .retrieve, .hasLocal _, .error _ => some .retrieve
  | .deal, .startDeal _, _ => none
  | .deal, .minerInfo _, .ok info => if info.isInitialized then none else some .deal
  | .deal, _, .error _ => some .deal
  | _, _, _ => none

/-- Whether a phase fails at an occurrence. -/
def Occurrence.fails (phase : Phase) : Occurrence → Bool
  | .answered purpose call reply => faultOf? purpose call reply == some phase
  | _ => false

/-- What has to be counted after a reply. -/
@[simp] def dueOf? (purpose : Purpose) (call : Call) (reply : Reply call) : Option Counter :=
  match call, reply with
  | .startDeal _, .ok _ => some .dealsStarted
  | .query _ _, .error _ => some .retrievalQueryFailures
  | call, reply => (faultOf? purpose call reply).map .phaseErrors

/-- What is left to count, if nothing came after the reply but reports. -/
@[simp] def History.uncounted? : History → Option Counter
  | [] => none
  | occurrence :: earlier =>
    match occurrence with
    | .answered purpose call reply => dueOf? purpose call reply
    | .logged _ => uncounted? earlier
    | _ => none

/-- Whether a phase has failed in the present tick. -/
@[simp] def History.failed (phase : Phase) : History → Bool
  | [] => false
  | occurrence :: earlier =>
    !occurrence.ends && (occurrence.fails phase || failed phase earlier)

/-- The phase of the tick that the driver is in; none between ticks. -/
def History.phase? (h : History) : Option Phase :=
  (part? h).map Part.phase

section Isolation

variable (setup : Setup)

/-! ## The contract -/

/-- The index phase is left out: it has to pause while the node is syncing, and the node is, or does
not say. -/
structure Pauses (h : History) : Prop where
  pause : setup.config.pauseWhileSyncing = true
  part : part? h = none
  synced : ∃ reply : Reply .syncState, lastReply? h = some ⟨.syncing, .syncState, reply⟩ ∧
    ∀ status, reply = .ok status → status.isCatchingUp = .ok true

/-- What a part of a tick follows. -/
inductive Follows (h : History) : Part → Prop where
  | indexing (hpart : part? h = none)
    (hsynced : setup.config.pauseWhileSyncing = true → ∃ status,
      lastReply? h = some ⟨.syncing, .syncState, .ok status⟩ ∧ status.isCatchingUp = .ok false) :
    Follows h .indexing
  | retrievalSweep (hindexed : phase? h = some .index ∨ Pauses setup h) : Follows h .retrievalSweep
  | retrievalScan (hphase : phase? h = some .retrieve) : Follows h .retrievalScan
  | dealSweep (hphase : phase? h = some .retrieve) : Follows h .dealSweep
  | dealScan (hphase : phase? h = some .deal) : Follows h .dealScan

/-- When a call is made: in the phase that it belongs to, unless that has failed.  The question
whether the node is catching up is the first call of a tick. -/
structure MayCall (h : History) (purpose : Purpose) (call : Call) : Prop where
  asks : purpose.asks call = true
  phase : phase? h = purpose.part?.map Part.phase
  unfailed : failed purpose.phase h = false
  syncing : purpose = .syncing → setup.config.pauseWhileSyncing = true ∧ tick? h = none

/-- A result does not fit, for which the driver breaks off. -/
inductive Overflows (h : History) : Prop where
  /-- The distance to the end of a sync does not fit. -/
  | gap {status cause} (hreply : lastReply? h = some ⟨.syncing, .syncState, .ok status⟩)
    (hgap : status.isCatchingUp = .error cause)
  /-- The count of failed queries to a provider does not fit. -/
  | tries {key index record failure cause}
    (hreply : lastReply? h = some ⟨.retrievalScan key index,
      .query record.root record.provider, .error failure⟩)
    (hrecord : (worker setup.config h).record? key index = some record)
    (htries : Retrieval.nextTry record.tries = .error cause)

/-- Whether the phases are isolated, at an occurrence and the history before it. -/
def Isolated (h : History) : Occurrence → Prop
  | .called purpose call => uncounted? h = none ∧ MayCall setup h purpose call
  | .answered purpose call _ => h.head? = some (.called purpose call)
  | .chose _ _ => uncounted? h = none
  | .looked _ => uncounted? h = none
  | .entered part => uncounted? h = none ∧ Follows setup h part
  | .logged _ => True
  | .counted counter => uncounted? h = some counter
  | .became w => uncounted? h = none ∧ (phase? h = none → tick? h = none) ∧
    ∀ phase, phase? h = some phase → phase.Leaves (fun _ => True) (worker setup.config h) w
  | .published stats => uncounted? h = none ∧ phase? h = some .deal ∧
    stats = (worker setup.config h).stats
  | .brokeOff => uncounted? h = none ∧
    ((∃ purpose call, h.head? = some (.called purpose call)) ∨ Overflows setup h)

/-- The contract that the phases are isolated, whatever the surroundings supply. -/
def isolation : Contract where
  rely _ _ := True
  guarantee := Isolated setup

/-- The history shows the state of the worker and what is left to count, and the phases from a place
on have not failed. -/
structure Clear (n : Nat) (due? : Option Counter) (w : Worker) (h : History) : Prop where
  worker_eq : worker setup.config h = w
  uncounted : uncounted? h = due?
  unfailed : ∀ phase, n ≤ phase.rank → failed phase h = false

/-- In a phase, or past it in the same tick. -/
structure Within (phase : Phase) (n : Nat) (due? : Option Counter) (w : Worker) (h : History) :
    Prop extends Clear setup n due? w h where
  phase_eq : phase? h = some phase

/-- In a phase that has not failed, with nothing left to count. -/
abbrev Runs (phase : Phase) : Worker → History → Prop :=
  Within setup phase phase.rank none

/-- In a phase that has just failed, which is left to count. -/
abbrev Fails (phase : Phase) : Worker → History → Prop :=
  Within setup phase (phase.rank + 1) (some (.phaseErrors phase))

/-- Past a phase, before the next one. -/
abbrev Past (phase : Phase) : Worker → History → Prop :=
  Within setup phase (phase.rank + 1) none

/-- Before a part that begins a phase. -/
structure Opens (part : Part) (w : Worker) (h : History) : Prop extends
    Clear setup part.phase.rank none w h where
  follows : Follows setup h part

/-- Between two ticks. -/
structure Apart (w : Worker) (h : History) : Prop extends Clear setup 0 none w h where
  part : part? h = none
  tick : tick? h = none

/-- Whether the work of an activity is isolated in a phase. -/
def Activity.Isolated {α : Type} (phase : Phase) (activity : Activity α) : Prop :=
  ∀ w h, Runs setup phase w h → activity.Meets (isolation setup) w h
    (fun _ => Runs setup phase) fun _ => Fails setup phase

end Isolation

variable {setup : Setup} {w w' : Worker} {h : History} {n : Nat} {due? : Option Counter}
  {phase : Phase} {part : Part} {key : Cid}

/-! ## Steps -/

/-- A reply by which no phase fails leaves the phases as they are. -/
lemma failed_answered {purpose : Purpose} {call : Call} {reply : Reply call} {later : Phase}
    (hfault : faultOf? purpose call reply ≠ some later) :
    failed later (.answered purpose call reply :: .called purpose call :: h) = failed later h := by
  have hfails : (faultOf? purpose call reply == some later) = false := beq_eq_false_iff_ne.2 hfault
  change ((faultOf? purpose call reply == some later) || failed later h) = failed later h
  rw [hfails, Bool.false_or]

/-- After a reply the phases have not failed that had not before, but for the one that fails by
it. -/
lemma Clear.answered (hs : Clear setup n none w h) {purpose : Purpose} {call : Call}
    {reply : Reply call} {n' : Nat} (hle : n ≤ n') (hdue : dueOf? purpose call reply = due?)
    (hfault : ∀ later, n' ≤ later.rank → faultOf? purpose call reply ≠ some later) :
    Clear setup n' due? w (.answered purpose call reply :: .called purpose call :: h) where
  worker_eq := hs.worker_eq
  uncounted := hdue
  unfailed later hlater := by
    rw [failed_answered (hfault later hlater)]
    exact hs.unfailed later (Nat.le_trans hle hlater)

/-- A reply after which nothing is to be counted is none by which a phase fails. -/
lemma faultOf?_of_dueOf? {purpose : Purpose} {call : Call} {reply : Reply call}
    (hdue : dueOf? purpose call reply = none) : faultOf? purpose call reply = none := by
  unfold dueOf? at hdue
  split at hdue
  · cases hdue
  · cases hdue
  · exact Option.map_eq_none_iff.1 hdue

/-- A reply after which the failure of a phase is to be counted is one by which the phase fails. -/
lemma faultOf?_of_dueOf?_phaseErrors {purpose : Purpose} {call : Call} {reply : Reply call}
    (hdue : dueOf? purpose call reply = some (.phaseErrors phase)) :
    faultOf? purpose call reply = some phase := by
  unfold dueOf? at hdue
  split at hdue
  · cases hdue
  · cases hdue
  · obtain ⟨failed, hfault, hphase⟩ := Option.map_eq_some_iff.1 hdue
    obtain rfl := Counter.phaseErrors.inj hphase
    exact hfault

/-- A reply is one to a call that was made in its phase, before that failed. -/
lemma Isolated.exists_mayCall {purpose : Purpose} {call : Call} {reply : Reply call}
    (hisolated : Along (Isolated setup) (.answered purpose call reply :: h)) :
    ∃ earlier, h = .called purpose call :: earlier ∧ MayCall setup earlier purpose call := by
  obtain ⟨hcalled, hbefore⟩ := hisolated
  obtain ⟨earlier, rfl⟩ := List.head?_eq_some_iff.1 hcalled
  exact ⟨earlier, rfl, hbefore.1.2⟩

namespace Within

/-- In a phase calls are made that belong to it. -/
lemma called (hs : Runs setup phase w h) {purpose : Purpose} {call : Call}
    (hasks : purpose.asks call = true) (hpart : purpose.part?.map Part.phase = some phase) :
    Isolated setup h (.called purpose call) := by
  refine ⟨hs.uncounted, hasks, hs.phase_eq.trans hpart.symm, ?_, ?_⟩
  · rw [Purpose.phase, hpart]
    exact hs.unfailed phase (Nat.le_refl _)
  · rintro rfl
    cases hpart

/-- A reply after which nothing is to be counted leaves the phase going. -/
lemma answered (hs : Runs setup phase w h) (purpose : Purpose) (call : Call) (reply : Reply call)
    (hdue : dueOf? purpose call reply = none) :
    Runs setup phase w (.answered purpose call reply :: .called purpose call :: h) := by
  refine ⟨hs.toClear.answered (Nat.le_refl _) hdue fun later _ => ?_, hs.phase_eq⟩
  rw [faultOf?_of_dueOf? hdue]
  rintro ⟨⟩

/-- A reply by which the phase fails leaves that to be counted. -/
lemma faulted (hs : Runs setup phase w h) {purpose : Purpose} {call : Call} {reply : Reply call}
    (hdue : dueOf? purpose call reply = some (.phaseErrors phase)) :
    Fails setup phase w (.answered purpose call reply :: .called purpose call :: h) := by
  refine ⟨hs.toClear.answered (Nat.le_succ _) hdue fun later hlater hsame => ?_, hs.phase_eq⟩
  obtain rfl := Option.some.inj ((faultOf?_of_dueOf?_phaseErrors hdue).symm.trans hsame)
  exact Nat.not_succ_le_self _ hlater

/-- A report leaves what is to be counted. -/
lemma logged (hs : Within setup phase n due? w h) (event : LogEvent) :
    Within setup phase n due? w (.logged event :: h) :=
  ⟨⟨hs.worker_eq, hs.uncounted, hs.unfailed⟩, hs.phase_eq⟩

/-- A look for a stop request leaves the phase going. -/
lemma looked (hs : Runs setup phase w h) (isStopping : Bool) :
    Isolated setup h (.looked isStopping) ∧ Runs setup phase w (.looked isStopping :: h) :=
  ⟨hs.uncounted, ⟨hs.worker_eq, rfl, hs.unfailed⟩, hs.phase_eq⟩

/-- A choice leaves the phase going. -/
lemma chose (hs : Runs setup phase w h) {n : Nat} (choice : Fin n) :
    Isolated setup h (.chose n choice) ∧ Runs setup phase w (.chose n choice :: h) :=
  ⟨hs.uncounted, ⟨hs.worker_eq, rfl, hs.unfailed⟩, hs.phase_eq⟩

/-- What is to be counted is counted. -/
lemma counted {counter : Counter} (hs : Within setup phase n (some counter) w h) :
    Isolated setup h (.counted counter) ∧ Within setup phase n none w (.counted counter :: h) :=
  ⟨hs.uncounted, ⟨hs.worker_eq, rfl, hs.unfailed⟩, hs.phase_eq⟩

/-- A change that a phase may make leaves it going. -/
lemma became (hs : Runs setup phase w h) (hleaves : phase.Leaves (fun _ => True) w w') :
    Isolated setup h (.became w') ∧ Runs setup phase w' (.became w' :: h) := by
  refine ⟨⟨hs.uncounted, fun hnone => ?_, fun other hother => ?_⟩, ⟨rfl, rfl, hs.unfailed⟩,
    hs.phase_eq⟩
  · rw [hs.phase_eq] at hnone
    cases hnone
  · obtain rfl := Option.some.inj (hs.phase_eq.symm.trans hother)
    rw [hs.worker_eq]
    exact hleaves

/-- A part begins within its phase. -/
lemma entered (hs : Runs setup part.phase w h) (hfollows : Follows setup h part) :
    Isolated setup h (.entered part) ∧ Runs setup part.phase w (.entered part :: h) :=
  ⟨⟨hs.uncounted, hfollows⟩, ⟨hs.worker_eq, rfl, hs.unfailed⟩, rfl⟩

/-- A phase that has come to its end is past. -/
lemma past (hs : Runs setup phase w h) : Past setup phase w h :=
  ⟨⟨hs.worker_eq, hs.uncounted, fun later hlater => hs.unfailed later (Nat.le_of_succ_le hlater)⟩,
    hs.phase_eq⟩

end Within

/-- A part that begins a phase begins. -/
lemma Opens.entered (hs : Opens setup part w h) :
    Isolated setup h (.entered part) ∧ Runs setup part.phase w (.entered part :: h) :=
  ⟨⟨hs.uncounted, hs.follows⟩, ⟨hs.worker_eq, rfl, hs.unfailed⟩, rfl⟩

/-! ## Rules -/

namespace Activity.Isolated

variable {α β : Type}

lemma pure (value : α) : Isolated setup phase (Pure.pure value) := fun _ _ hs => hs

lemma get : Isolated setup phase (MonadState.get : Activity Worker) := fun _ _ hs => hs

lemma bind {activity : Activity α} {next : α → Activity β}
    (hfirst : activity.Isolated setup phase)
    (hnext : ∀ value, (next value).Isolated setup phase) :
    (activity >>= next).Isolated setup phase := by
  intro w h hs
  refine (Activity.meets_bind _ _ _).2 ?_
  exact (hfirst w h hs).mono (fun value w' h' hs' => hnext value w' h' hs') fun _ _ _ => id

lemma log (event : LogEvent) : Isolated setup phase (Activity.log event) := fun _ _ hs =>
  Activity.meets_log.2 ⟨trivial, hs.logged event⟩

/-- A change that leaves alone what the phase does. -/
lemma update {f : Worker → Worker} (hleaves : ∀ w, phase.Leaves (fun _ => True) w (f w)) :
    Isolated setup phase (Activity.update f) := fun w _ hs =>
  Activity.meets_update.2 (hs.became (hleaves w))

/-- A part other than the first one of a phase begins. -/
lemma enter (hfollows : ∀ h, phase? h = some part.phase → Follows setup h part) :
    Isolated setup part.phase (Activity.enter part) := fun _ h hs =>
  Activity.meets_enter.2 (hs.entered (hfollows h hs.phase_eq))

/-- A call that belongs to the phase, whose failure is one of the phase. -/
lemma request {purpose : Purpose} {call : Call} (hasks : purpose.asks call = true)
    (hpart : purpose.part?.map Part.phase = some phase)
    (hanswer : ∀ answer, dueOf? purpose call (.ok answer) = none)
    (hdue : ∀ failure, dueOf? purpose call (.error failure) = some (.phaseErrors phase)) :
    Isolated setup phase (Activity.request purpose call) := by
  intro w h hs
  refine Activity.meets_request.2 ⟨hs.called hasks hpart, fun answer _ => ?_, fun failure _ => ?_⟩
  · exact hs.answered _ _ _ (hanswer answer)
  · exact hs.faulted (hdue failure)

lemma forM {visit : β → Activity Unit} (hvisit : ∀ element, (visit element).Isolated setup phase)
    (elements : List β) : (elements.forM visit).Isolated setup phase := by
  induction elements with
  | nil => exact pure ()
  | cons element rest ih => exact (hvisit element).bind fun _ => ih

end Activity.Isolated

end PieceReplication
