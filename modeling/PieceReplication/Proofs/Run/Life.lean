import PieceReplication.Lifecycle.Replicator
import PieceReplication.Proofs.Run.Contract

/-!
# Lives of a replicator

A life is a run of a replicator with everything open that its surroundings decide: when it is
started, stopped and collected, how long the driver sleeps, what the node replies, and at which call
it breaks the driver off.  A call that was made need not be answered before something else
happens, so a stop may be requested between any two calls.  `Life setup events replicator` says
that the replicator can come to stand there after the events, the latest first; `trace` keeps of
the events what the driver did.

The main result is `Life.along`: if each turn of the driver meets a contract, with a statement about
the worker and the history as its pre- and postcondition, then the contract's guarantee holds along
the trace of every life whose surroundings can be relied on.
-/

namespace PieceReplication

/-- An event in the life of a replicator. -/
inductive Event where
  /-- The driver did something, or had something supplied. -/
  | happened (occurrence : Occurrence)
  /-- A driver was registered. -/
  | started
  | stopRequested
  /-- A driver that had ended or broken off was removed. -/
  | collected (result : Except LifecycleError Unit)
  /-- The driver's sleep ended. -/
  | woke

/-- What happened in the driver. -/
def Event.occurrence? : Event → Option Occurrence
  | happened occurrence => some occurrence
  | _ => none

/-- What the driver did in the course of some events. -/
def trace (events : List Event) : History :=
  events.filterMap Event.occurrence?

/-- The removal of a driver leaves the trace. -/
lemma trace_collected {result : Except LifecycleError Unit} {events : List Event} :
    trace (.collected result :: events) = trace events := rfl

/-- A single step of a driver. -/
inductive Driver.Step (isStopping : Bool) : Driver → Occurrence → Driver → Prop where
  | call {purpose call resume} :
    Step isStopping (.active (.perform (.call purpose call) resume)) (.called purpose call)
      (.hanging purpose call resume)
  | answer {purpose call resume} (reply : Reply call) :
    Step isStopping (.hanging purpose call resume) (.answered purpose call reply)
      (.active (resume reply))
  | panic {purpose call resume} :
    Step isStopping (.hanging purpose call resume) .brokeOff .broken
  | choose {n pos resume} (choice : Fin n) :
    Step isStopping (.active (.perform (.choose n pos) resume)) (.chose n choice)
      (.active (resume choice))
  | look {resume} :
    Step isStopping (.active (.perform .stopRequested resume)) (.looked isStopping)
      (.active (resume isStopping))
  | enter {part resume} :
    Step isStopping (.active (.perform (.enter part) resume)) (.entered part)
      (.active (resume ()))
  | log {event resume} :
    Step isStopping (.active (.perform (.log event) resume)) (.logged event)
      (.active (resume ()))
  | count {counter resume} :
    Step isStopping (.active (.perform (.count counter) resume)) (.counted counter)
      (.active (resume ()))
  | become {worker resume} :
    Step isStopping (.active (.perform (.become worker) resume)) (.became worker)
      (.active (resume ()))
  | publish {stats resume} :
    Step isStopping (.active (.perform (.publish stats) resume)) (.published stats)
      (.active (resume ()))
  | overflow {cause resume} :
    Step isStopping (.active (.perform (.overflow cause) resume)) .brokeOff .broken

/-- The replicator after its driver did something: it shows the figures published last. -/
def Replicator.after (replicator : Replicator) (occurrence : Occurrence) (driver : Driver) :
    Replicator :=
  match occurrence with
  | .published stats => { replicator.setDriver driver with stats }
  | _ => replicator.setDriver driver

/-- Where a replicator can come to stand, and the events that led there, the latest first. -/
inductive Life (setup : Setup) : List Event → Replicator → Prop where
  | new : Life setup [] (.new setup)
  | start {events replicator replicator'} (life : Life setup events replicator)
    (h : replicator.start = .ok replicator') : Life setup (.started :: events) replicator'
  | requestStop {events replicator replicator'} (life : Life setup events replicator)
    (h : replicator.requestStop = .ok replicator') :
    Life setup (.stopRequested :: events) replicator'
  | collect {events replicator result replicator'} (life : Life setup events replicator)
    (h : replicator.collect? = some (result, replicator')) :
    Life setup (.collected result :: events) replicator'
  | doze {events replicator} (life : Life setup events replicator) (milliseconds : Nat) :
    Life setup events (replicator.doze milliseconds)
  | wake {events replicator} (life : Life setup events replicator) {isStopping worker left}
    (h : replicator.running = some ⟨isStopping, .asleep worker left⟩) :
    Life setup (.woke :: events) replicator.wake
  | step {events replicator} (life : Life setup events replicator) {isStopping driver}
    (h : replicator.running = some ⟨isStopping, driver⟩) {occurrence driver'}
    (hstep : Driver.Step isStopping driver occurrence driver') :
    Life setup (.happened occurrence :: events) (replicator.after occurrence driver')
  | settle {events replicator} (life : Life setup events replicator) {isStopping turnEnd}
    (h : replicator.running = some ⟨isStopping, .active (.done turnEnd)⟩) (pause : Nat) :
    Life setup events (replicator.setDriver (.ofHalt pause (.done turnEnd)))

/-- Whether a replicator has a driver that is neither waiting, asleep, at its end nor broken off. -/
def Replicator.IsActive (replicator : Replicator) : Prop :=
  ∃ isStopping program, replicator.running = some ⟨isStopping, .active program⟩

/-- The state of the worker at the end of a turn. -/
def TurnEnd.worker : TurnEnd → Worker
  | asleep worker => worker
  | finished worker => worker

/-! ## Contracts of the driver -/

/-- A contract that each turn of the driver meets, with the statement `inv` about the worker and the
history at its beginning and at its end. -/
structure Contract.Upheld (c : Contract) (setup : Setup) (inv : Worker → History → Prop) :
    Prop where
  fresh : inv (.fresh setup.config) []
  broken : ∀ h, inv (.fresh setup.config) (.brokeOff :: h)
  first : ∀ w h, inv w h → (Turn.first setup w).Meets c h fun turnEnd => inv turnEnd.worker
  turn : ∀ w h, inv w h → (Turn.run setup w).Meets c h fun turnEnd => inv turnEnd.worker
  answered : ∀ h purpose call reply,
    c.guarantee (.called purpose call :: h) (.answered purpose call reply)
  panic : ∀ h purpose call, c.guarantee (.called purpose call :: h) .brokeOff

/-- Whether a driver keeps to a contract from a history on, with `inv` at the end of its turns. -/
def Driver.Keeps (c : Contract) (inv : Worker → History → Prop) : Driver → History → Prop
  | active program, h => program.Meets c h fun turnEnd => inv turnEnd.worker
  | hanging purpose call resume, h =>
    (∃ h', h = .called purpose call :: h') ∧
      ∀ reply, c.rely h (.answered purpose call reply) →
        (resume reply).Meets c (.answered purpose call reply :: h) fun turnEnd =>
          inv turnEnd.worker
  | asleep worker _, h => inv worker h
  | finished worker, h => inv worker h
  | broken, h => ∃ h', h = .brokeOff :: h'

/-- Whether the driver of a replicator, or else the state that is kept for the next one, keeps to a
contract. -/
def Replicator.Keeps (c : Contract) (inv : Worker → History → Prop) (replicator : Replicator)
    (h : History) : Prop :=
  match replicator.running with
  | some running => running.driver.Keeps c inv h
  | none => inv (replicator.idle.getD (.fresh replicator.setup.config)) h

namespace Life

variable {c : Contract} {setup : Setup} {inv : Worker → History → Prop} {isStopping : Bool}
  {driver driver' : Driver} {occurrence : Occurrence} {h : History} {events : List Event}
  {replicator : Replicator}

/-- A step of a driver that keeps to a contract is as guaranteed, and it keeps to the contract
afterwards. -/
lemma guarantee_and_keeps_of_step
    (answered : ∀ h purpose call reply,
      c.guarantee (.called purpose call :: h) (.answered purpose call reply))
    (panic : ∀ h purpose call, c.guarantee (.called purpose call :: h) .brokeOff)
    (hkeeps : driver.Keeps c inv h)
    (hstep : Driver.Step isStopping driver occurrence driver') (hrely : c.rely h occurrence) :
    c.guarantee h occurrence ∧ driver'.Keeps c inv (occurrence :: h) := by
  cases hstep with
  | call => exact ⟨hkeeps.1, ⟨h, rfl⟩, hkeeps.2⟩
  | answer reply =>
    obtain ⟨⟨h', rfl⟩, hresume⟩ := hkeeps
    exact ⟨answered h' _ _ reply, hresume reply hrely⟩
  | panic =>
    obtain ⟨⟨h', rfl⟩, -⟩ := hkeeps
    exact ⟨panic h' _ _, _, rfl⟩
  | choose choice => exact hkeeps choice hrely
  | look => exact hkeeps isStopping hrely
  | enter => exact hkeeps
  | log => exact hkeeps
  | count => exact hkeeps
  | become => exact hkeeps
  | publish => exact hkeeps
  | overflow => exact ⟨hkeeps, h, rfl⟩

/-- What the driver does keeps the setup. -/
@[simp] lemma setup_after : (replicator.after occurrence driver).setup = replicator.setup := by
  unfold Replicator.after
  split <;> rfl

/-- The driver after it did something. -/
lemma running_after (hrunning : replicator.running = some ⟨isStopping, driver⟩) :
    (replicator.after occurrence driver').running = some ⟨isStopping, driver'⟩ := by
  unfold Replicator.after
  split <;> simp [Replicator.setDriver, hrunning]

/-- The setup of a replicator never changes. -/
lemma setup_eq (life : Life setup events replicator) : replicator.setup = setup := by
  induction life with
  | new => rfl
  | start life h ih =>
    unfold Replicator.start at h
    split at h
    · cases h
    · cases h
      exact ih
  | requestStop life h ih =>
    unfold Replicator.requestStop at h
    split at h
    · cases h
    · cases h
      exact ih
  | collect life h ih =>
    unfold Replicator.collect? at h
    split at h
    · cases h
      exact ih
    · cases h
      exact ih
    · cases h
  | doze life milliseconds ih =>
    unfold Replicator.doze
    split <;> exact ih
  | wake life h ih =>
    unfold Replicator.wake
    split <;> exact ih
  | step life h hstep ih => rw [setup_after, ih]
  | settle life h pause ih => exact ih

/-- Along the trace of a life whose surroundings can be relied on, a contract that is upheld in each
turn is kept. -/
lemma along_and_keeps (upheld : c.Upheld setup inv) (life : Life setup events replicator)
    (relied : History.Along c.rely (trace events)) :
    History.Along c.guarantee (trace events) ∧ replicator.Keeps c inv (trace events) := by
  induction life with
  | new => exact ⟨trivial, upheld.fresh⟩
  | start life h ih =>
    obtain ⟨halong, hkeeps⟩ := ih relied
    refine ⟨halong, ?_⟩
    unfold Replicator.Keeps at hkeeps
    unfold Replicator.start at h
    split at h
    · cases h
    · next hnone =>
      cases h
      rw [hnone, life.setup_eq] at hkeeps
      have hsetup := life.setup_eq
      exact hsetup ▸ upheld.first _ _ hkeeps
  | requestStop life h ih =>
    obtain ⟨halong, hkeeps⟩ := ih relied
    refine ⟨halong, ?_⟩
    unfold Replicator.Keeps at hkeeps
    unfold Replicator.requestStop at h
    split at h
    · cases h
    · next running hrunning =>
      cases h
      rw [hrunning] at hkeeps
      exact hkeeps
  | collect life h ih =>
    obtain ⟨halong, hkeeps⟩ := ih relied
    refine ⟨halong, ?_⟩
    unfold Replicator.Keeps at hkeeps
    unfold Replicator.collect? at h
    split at h
    · next isStopping worker hrunning =>
      cases h
      rw [hrunning] at hkeeps
      exact hkeeps
    · next isStopping hrunning =>
      cases h
      rw [hrunning] at hkeeps
      obtain ⟨h', hh'⟩ := hkeeps
      rw [trace_collected, hh', Replicator.Keeps, life.setup_eq]
      exact upheld.broken h'
    · cases h
  | doze life milliseconds ih =>
    obtain ⟨halong, hkeeps⟩ := ih relied
    refine ⟨halong, ?_⟩
    unfold Replicator.doze
    split
    · next isStopping worker left hrunning =>
      unfold Replicator.Keeps Replicator.setDriver at *
      rw [hrunning] at hkeeps ⊢
      exact hkeeps
    · exact hkeeps
  | wake life h ih =>
    obtain ⟨halong, hkeeps⟩ := ih relied
    refine ⟨halong, ?_⟩
    unfold Replicator.Keeps Replicator.wake Replicator.setDriver at *
    rw [h] at hkeeps ⊢
    rw [life.setup_eq]
    exact upheld.turn _ _ hkeeps
  | step life h hstep ih =>
    obtain ⟨halong, hkeeps⟩ := ih relied.2
    unfold Replicator.Keeps at hkeeps
    rw [h] at hkeeps
    obtain ⟨hguarantee, hkeeps⟩ :=
      guarantee_and_keeps_of_step upheld.answered upheld.panic hkeeps hstep relied.1
    refine ⟨⟨hguarantee, halong⟩, ?_⟩
    unfold Replicator.Keeps
    rw [running_after h]
    exact hkeeps
  | settle life h pause ih =>
    obtain ⟨halong, hkeeps⟩ := ih relied
    refine ⟨halong, ?_⟩
    unfold Replicator.Keeps Replicator.setDriver at *
    rw [h] at hkeeps ⊢
    cases ‹TurnEnd› <;> exact hkeeps

/-- **The rule of lives.**  Along the trace of a life whose surroundings can be relied on, the
guarantee of a contract holds that is upheld in each turn of the driver. -/
theorem along (upheld : c.Upheld setup inv) (life : Life setup events replicator)
    (relied : History.Along c.rely (trace events)) : History.Along c.guarantee (trace events) :=
  (along_and_keeps upheld life relied).1

end Life

end PieceReplication
