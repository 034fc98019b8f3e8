import PieceReplication.Proofs.Lifecycle.Course
import PieceReplication.Proofs.Run.Session

/-!
# The lifecycle is safe

If the worker were lost between two drivers, or if two drivers had it, deals would be made twice.
It is shown here for every course of a runtime that this cannot happen, however the calls of starts
and stops, their contexts and the moves of the drivers interleave: with drivers that hang, that have
ended and are not collected, or that broke off, and with stops that gave up before.

That a stop which gave up can be made good by a later one rests on `Driver.drains`: a driver that is
requested to stop is bound to end, if its calls are answered at all.
-/

namespace PieceReplication

/-! ## Drivers that are requested to stop -/

/-- Whether a driver that is requested to stop is bound to end: it has ended or can move, and
however it moves, it is bound to end. -/
inductive Driver.Drains (setup : Setup) : Driver → Prop where
  | ended {driver} (hended : driver.hasEnded) : Drains setup driver
  | moves {driver} (hcan : ∃ move driver', driver.Move setup true move driver')
    (hnext : ∀ move driver', driver.Move setup true move driver' → Drains setup driver') :
    Drains setup driver

namespace Driver

variable {setup : Setup}

/-- A driver that has a program to go on with can move, unless the program is done. -/
lemma exists_step (isStopping : Bool) (effect : Effect) (resume : effect.Answer → Program TurnEnd) :
    ∃ occurrence driver',
      Step isStopping (.active (.perform effect resume)) occurrence driver' := by
  cases effect with
  | call purpose call => exact ⟨_, _, .call⟩
  | choose n pos => exact ⟨_, _, .choose ⟨0, pos⟩⟩
  | stopRequested => exact ⟨_, _, .look⟩
  | enter part => exact ⟨_, _, .enter⟩
  | log event => exact ⟨_, _, .log⟩
  | count counter => exact ⟨_, _, .count⟩
  | become worker => exact ⟨_, _, .become⟩
  | publish stats => exact ⟨_, _, .publish⟩
  | overflow cause => exact ⟨_, _, .overflow⟩

/-- A driver that has a program to go on with goes on with what comes after its first effect, hangs
in a call before that, or breaks off. -/
lemma step_cases {isStopping : Bool} {effect : Effect} {resume : effect.Answer → Program TurnEnd}
    {occurrence : Occurrence} {driver : Driver}
    (hstep : Step isStopping (.active (.perform effect resume)) occurrence driver) :
    (∃ answer, driver = .active (resume answer)) ∨ driver = .broken ∨
      ∃ purpose call next, driver = .hanging purpose call next ∧
        ∀ reply, ∃ answer, next reply = resume answer := by
  cases hstep with
  | call => exact .inr (.inr ⟨_, _, _, rfl, fun reply => ⟨reply, rfl⟩⟩)
  | overflow => exact .inr (.inl rfl)
  | _ => exact .inl ⟨_, rfl⟩

/-- A driver that hangs in a call is bound to end, if it is with each reply. -/
lemma drains_of_hanging {purpose : Purpose} {call : Call} {resume : Reply call → Program TurnEnd}
    (hresume : ∀ reply, Drains setup (.active (resume reply))) :
    Drains setup (.hanging purpose call resume) := by
  refine .moves ⟨_, _, .act (.answer (.error ⟨[]⟩))⟩ fun move driver' hmove => ?_
  cases hmove with
  | act hstep =>
    cases hstep with
    | answer reply => exact hresume reply
    | panic => exact .ended rfl

/-- A driver that goes on with a program is bound to end, if it is wherever the program ends. -/
lemma drains_of_program (program : Program TurnEnd)
    (hend : ∀ turnEnd, Drains setup (.active (.done turnEnd))) :
    Drains setup (.active program) := by
  induction program with
  | done turnEnd => exact hend turnEnd
  | perform effect resume ih =>
    obtain ⟨occurrence, driver, hcan⟩ := exists_step true effect resume
    refine .moves ⟨_, _, .act hcan⟩ fun move driver' hmove => ?_
    cases hmove with
    | act hstep =>
      obtain ⟨answer, rfl⟩ | rfl | ⟨purpose, call, next, rfl, hnext⟩ := step_cases hstep
      · exact ih answer
      · exact .ended rfl
      · refine drains_of_hanging fun reply => ?_
        obtain ⟨answer, heq⟩ := hnext reply
        rw [heq]
        exact ih answer

/-- A driver at the end of its last turn is bound to end. -/
lemma drains_of_finished (worker : Worker) :
    Drains setup (.active (.done (.finished worker))) := by
  refine .moves ⟨_, _, .rest 0⟩ fun move driver' hmove => ?_
  cases hmove with
  | act hstep => cases hstep
  | rest pause => exact .ended rfl

/-- A driver that sleeps is bound to end: it wakes up, sees the request and ends. -/
lemma drains_of_asleep (worker : Worker) (left : Nat) : Drains setup (.asleep worker left) := by
  refine .moves ⟨_, _, .wake⟩ fun move driver' hmove => ?_
  cases hmove with
  | act hstep => cases hstep
  | wake =>
    refine .moves ⟨_, _, .act .look⟩ fun move driver' hmove => ?_
    cases hmove with
    | act hstep =>
      cases hstep
      refine .moves ⟨_, _, .act .log⟩ fun move driver' hmove => ?_
      cases hmove with
      | act hstep =>
        cases hstep
        exact drains_of_finished worker

/-- A driver at the end of a turn is bound to end. -/
lemma drains_of_done (turnEnd : TurnEnd) : Drains setup (.active (.done turnEnd)) := by
  cases turnEnd with
  | finished worker => exact drains_of_finished worker
  | asleep worker =>
    refine .moves ⟨_, _, .rest 0⟩ fun move driver' hmove => ?_
    cases hmove with
    | act hstep => cases hstep
    | rest pause => exact drains_of_asleep worker pause

/-- **A driver that is requested to stop is bound to end**, wherever it stands. -/
theorem drains (setup : Setup) (driver : Driver) : driver.Drains setup := by
  cases driver with
  | active program => exact drains_of_program program drains_of_done
  | hanging purpose call resume =>
    exact drains_of_hanging fun reply => drains_of_program _ drains_of_done
  | asleep worker left => exact drains_of_asleep worker left
  | finished worker => exact .ended rfl
  | broken => exact .ended rfl

end Driver

namespace Runtime

variable {setup : Setup} {runtime runtime' : Runtime} {action : Action} {actions : List Action}

/-! ## Stops that give up -/

/-- Whether a later stop can collect the driver: whatever its context, it can be called, the driver
can go on to its end, and the stop can return with that. -/
def CanCollect (runtime : Runtime) : Prop :=
  ∀ isCancelled, ∃ (moves : List (Option Occurrence)) (result : _) (last : Runtime),
    Course runtime (.stopped result :: moves.map .ofMove ++ [.stopCalled isCancelled]) last ∧
      (result = .ok () ∨ result = .error .driver)

/-- A stop that waits for a driver which has ended returns with that. -/
lemma exists_return_of_hasEnded {isStopping isCancelled : Bool} {driver : Driver}
    (hended : driver.hasEnded) (hrunning : runtime.replicator.running = some ⟨isStopping, driver⟩)
    (hwaiting : runtime.waiting = some isCancelled) :
    ∃ result last, runtime.returnStop? = some (result, last) ∧
      (result = .ok () ∨ result = .error .driver) := by
  obtain ⟨result, replicator, hcollect⟩ := collect?_of_hasEnded hrunning hended
  obtain ⟨_, _, -, -, -, hcollected⟩ := exists_of_collect? hcollect
  have hreturn : runtime.returnStop? =
      some (result, ⟨replicator, runtime.replicator.running.toList ++ runtime.released, none⟩) := by
    simp only [returnStop?, hwaiting, hcollect]
  exact ⟨result, _, hreturn, hcollected.imp And.left And.left⟩

/-- A stop that waits for a driver which is bound to end can return with that. -/
lemma exists_return_of_drains {driver : Driver} (hdrains : driver.Drains setup)
    {isCancelled : Bool} (hsetup : runtime.replicator.setup = setup)
    (hrunning : runtime.replicator.running = some ⟨true, driver⟩)
    (hwaiting : runtime.waiting = some isCancelled) :
    ∃ (moves : List (Option Occurrence)) (result : _) (last : Runtime),
      Course runtime (.stopped result :: moves.map .ofMove) last ∧
        (result = .ok () ∨ result = .error .driver) := by
  induction hdrains generalizing runtime with
  | ended hended =>
    obtain ⟨result, last, hreturn, hresult⟩ := exists_return_of_hasEnded hended hrunning hwaiting
    exact ⟨[], result, last, .step .nil (.returnStop hreturn), hresult⟩
  | moves hcan hnext ih =>
    obtain ⟨move, driver', hmove⟩ := hcan
    have hstep := Step.move hrunning (hsetup ▸ hmove)
    have hmoved : (runtime.replicator.moved move driver').running = some ⟨true, driver'⟩ :=
      Replicator.running_moved hrunning move
    obtain ⟨hsame, -⟩ := runtime.replicator.setup_idle_moved move driver'
    obtain ⟨moves, result, last, course, hresult⟩ := @ih move driver' hmove
      { runtime with replicator := runtime.replicator.moved move driver' } (hsame.trans hsetup)
      hmoved hwaiting
    refine ⟨moves ++ [move], result, last, ?_, hresult⟩
    rw [List.map_append]
    exact (Course.nil.step hstep).append course

/-- A later stop can collect a driver that is registered. -/
lemma canCollect_of_running {isStopping : Bool} {driver : Driver}
    (hsetup : runtime.replicator.setup = setup)
    (hrunning : runtime.replicator.running = some ⟨isStopping, driver⟩)
    (hfree : runtime.waiting = none) : runtime.CanCollect := by
  intro isCancelled
  obtain ⟨hnone, -⟩ | ⟨isStopping', driver', hrunning', hcall⟩ :=
    runtime.callStop_cases isCancelled
  · rw [hrunning] at hnone
    cases hnone
  · generalize hcalled : ({ runtime with
      replicator := { runtime.replicator with running := some ⟨true, driver'⟩ }
      waiting := some isCancelled } : Runtime) = called at hcall
    have hreturn : called.replicator.setup = setup ∧
        called.replicator.running = some ⟨true, driver'⟩ ∧ called.waiting = some isCancelled := by
      rw [← hcalled]
      exact ⟨hsetup, rfl, rfl⟩
    obtain ⟨hsetup', hregistered, hwaiting⟩ := hreturn
    obtain ⟨moves, result, last, course, hresult⟩ :=
      exists_return_of_drains (driver'.drains setup) hsetup' hregistered hwaiting
    exact ⟨moves, result, last, (Course.nil.step (.callStop hfree isCancelled hcall)).append course,
      hresult⟩

/-! ## Runtimes without a driver -/

/-- While no driver is registered, nothing but a successful start changes that, no driver is
released, and nothing happens in one. -/
lemma Sound.step_of_running_eq_none (hsound : runtime.Sound setup)
    (hnone : runtime.replicator.running = none) (h : Step runtime action runtime')
    (hstart : action ≠ .started (.ok ())) :
    runtime'.replicator.running = none ∧ runtime'.released = runtime.released ∧
      action.occurrence? = none := by
  have hfree : runtime.waiting = none := by
    cases hwaiting : runtime.waiting with
    | none => rfl
    | some isCancelled =>
      obtain ⟨driver, hrunning⟩ := hsound.stopping isCancelled hwaiting
      rw [hnone] at hrunning
      cases hrunning
  cases h with
  | start _ =>
    obtain ⟨running, hrunning, -⟩ | ⟨-, hstarted⟩ := runtime.start_cases
    · rw [hnone] at hrunning
      cases hrunning
    · rw [hstarted] at hstart
      exact absurd rfl hstart
  | callStop _ isCancelled hcall =>
    obtain ⟨-, hcalled⟩ | ⟨isStopping, driver, hrunning, -⟩ := runtime.callStop_cases isCancelled
    · rw [hcalled] at hcall
      cases hcall
    · rw [hnone] at hrunning
      cases hrunning
  | refuseStop _ isCancelled hcall => exact ⟨hnone, rfl, rfl⟩
  | cancel hwaiting =>
    rw [hfree] at hwaiting
    cases hwaiting
  | returnStop hreturn =>
    rw [returnStop?, hfree] at hreturn
    cases hreturn
  | dropStop hwaiting =>
    rw [hfree] at hwaiting
    cases hwaiting
  | doze milliseconds =>
    obtain ⟨-, -, hrunning⟩ := runtime.replicator.doze_eq milliseconds
    rw [hnone] at hrunning
    exact ⟨Option.map_eq_none_iff.1 hrunning, rfl, rfl⟩
  | move hrunning hmove =>
    rw [hnone] at hrunning
    cases hrunning
  | moveReleased hreleased hmove =>
    have hmem := hreleased ▸ List.mem_append_right _ List.mem_cons_self
    exact absurd hmove (Driver.not_move_of_hasEnded (hsound.ended _ hmem))

/-- While no driver is registered, nothing happens until the next successful start. -/
lemma Course.of_running_eq_none {first last : Runtime} (course : Course first actions last)
    (hsound : first.Sound setup) (hnone : first.replicator.running = none)
    (hstart : ∀ action ∈ actions, action ≠ .started (.ok ())) :
    last.Sound setup ∧ last.replicator.running = none ∧ last.released = first.released ∧
      history actions = [] := by
  induction course with
  | nil => exact ⟨hsound, hnone, rfl, rfl⟩
  | step course h ih =>
    obtain ⟨hfirst, hrest⟩ := List.forall_mem_cons.1 hstart
    obtain ⟨hsound', hnone', hreleased, hhistory⟩ := ih hrest
    obtain ⟨hlast, hsame, hnothing⟩ := hsound'.step_of_running_eq_none hnone' h hfirst
    refine ⟨hsound'.step h, hlast, hsame.trans hreleased, ?_⟩
    rw [history, List.filterMap_cons_none hnothing]
    exact hhistory

/-! ## Safety -/

/-- What holds when a stop gives up and leaves the runtime as `later`: its context is cancelled, and
the driver has not ended.  The driver stays registered with the request to stop; it is bound to end,
and a later stop can collect it. -/
structure GivesUp (setup : Setup) (runtime later : Runtime) : Prop where
  cancelled : runtime.waiting = some true
  pending : ∃ driver, runtime.replicator.running = some ⟨true, driver⟩ ∧ ¬ driver.hasEnded ∧
    driver.Drains setup
  kept : later.replicator = runtime.replicator
  canCollect : later.CanCollect

/-- What holds when a stop returns with the end of a driver and leaves the runtime as `later`: the
driver handed its state back, or it broke off.  No driver is registered, and until the next
successful start nothing happens.  The next driver takes over the state that was handed back, and a
fresh one if the last driver broke off. -/
structure HandsOver (setup : Setup) (runtime : Runtime) (result : Except LifecycleError Unit)
    (later : Runtime) (driver : Driver) : Prop where
  ended : runtime.replicator.running = some ⟨true, driver⟩ ∧
    (result = .ok () ∧ (∃ worker, driver = .finished worker) ∨
      result = .error .driver ∧ driver = .broken)
  silent : ∀ actions last, Course later actions last →
    (∀ action ∈ actions, action ≠ .started (.ok ())) →
      last.replicator.running = none ∧ history actions = []
  takesOver : ∀ actions last next, Course later actions last →
    (∀ action ∈ actions, action ≠ .started (.ok ())) → Step last (.started (.ok ())) next →
      next.replicator.running = some ⟨false,
        .active (Turn.first setup ((handedBack? driver).getD (.fresh setup.config)))⟩

/-- Whether a runtime is safe: how many drivers are alive and where the state of the worker is, and
how each call that can be made there, or can return, does so. -/
structure Safe (setup : Setup) (runtime : Runtime) : Prop where
  /-- One driver is alive at most. -/
  alive : runtime.drivers.countP (fun driver => !driver.hasEnded) ≤ 1
  idle_or_running : runtime.replicator.idle = none ∨ runtime.replicator.running = none
  /-- A start fails just if a driver is registered, and then changes nothing. -/
  started : ∀ result later, Step runtime (.started result) later →
    (result = .error .alreadyStarted ↔ runtime.replicator.running.isSome) ∧
      (result = .ok () ∨ result = .error .alreadyStarted ∧ later = runtime)
  /-- A stop that is called and waits has requested the driver to stop. -/
  called : ∀ isCancelled later, Step runtime (.stopCalled isCancelled) later →
    ∃ isStopping driver, runtime.replicator.running = some ⟨isStopping, driver⟩ ∧
      later.replicator.running = some ⟨true, driver⟩
  /-- A stop is refused just if no driver is registered. -/
  refused : ∀ result later, Step runtime (.stopped result) later →
    (result = .error .notStarted ↔ runtime.replicator.running = none)
  givesUp : ∀ later, Step runtime (.stopped (.error .cancelled)) later → GivesUp setup runtime later
  handsOver : ∀ result later, Step runtime (.stopped result) later →
    result = .ok () ∨ result = .error .driver →
      ∃ driver, HandsOver setup runtime result later driver

/-- A step at which a start returns is the call of one. -/
lemma Step.eq_start {result : Except LifecycleError Unit}
    (h : Step runtime (.started result) runtime') : runtime.start = (result, runtime') := by
  generalize haction : Action.started result = action at h
  cases h with
  | start _ =>
    obtain rfl := Action.started.inj haction
    rfl
  | @move _ _ move => cases move <;> cases haction
  | @moveReleased _ _ _ _ move => cases move <;> cases haction
  | _ => cases haction

/-- A step at which a stop is called and waits is a call that was not refused. -/
lemma Step.eq_callStop {isCancelled : Bool} (h : Step runtime (.stopCalled isCancelled) runtime') :
    runtime.callStop isCancelled = .ok runtime' := by
  generalize haction : Action.stopCalled isCancelled = action at h
  cases h with
  | callStop _ _ hcall =>
    obtain rfl := Action.stopCalled.inj haction
    exact hcall
  | @move _ _ move => cases move <;> cases haction
  | @moveReleased _ _ _ _ move => cases move <;> cases haction
  | _ => cases haction

/-- A step at which a stop returns is a call that was refused or the return of the stop that
waits. -/
lemma Step.refused_or_returned {result : Except LifecycleError Unit}
    (h : Step runtime (.stopped result) runtime') :
    (∃ isCancelled error, runtime.waiting = none ∧ runtime.callStop isCancelled = .error error ∧
        result = .error error) ∨ runtime.returnStop? = some (result, runtime') := by
  generalize haction : Action.stopped result = action at h
  cases h with
  | refuseStop hfree isCancelled hcall =>
    exact .inl ⟨isCancelled, _, hfree, hcall, Action.stopped.inj haction⟩
  | returnStop hreturn =>
    obtain rfl := Action.stopped.inj haction
    exact .inr hreturn
  | @move _ _ move => cases move <;> cases haction
  | @moveReleased _ _ _ _ move => cases move <;> cases haction
  | _ => cases haction

/-- How a start returns from a sound runtime. -/
lemma Sound.started (hsound : runtime.Sound setup) {result : Except LifecycleError Unit}
    {later : Runtime} (h : Step runtime (.started result) later) :
    (∃ running, runtime.replicator.running = some running ∧ result = .error .alreadyStarted ∧
        later = runtime) ∨
      runtime.replicator.running = none ∧ result = .ok () ∧
        later.replicator.running = some ⟨false,
          .active (Turn.first setup (nextWorker setup runtime.released))⟩ := by
  have hstart := h.eq_start
  obtain ⟨running, hrunning, hstarted⟩ | ⟨hnone, hstarted⟩ := runtime.start_cases
  · obtain ⟨rfl, rfl⟩ := Prod.mk.inj (hstarted.symm.trans hstart)
    exact .inl ⟨running, hrunning, rfl, rfl⟩
  · obtain ⟨rfl, rfl⟩ := Prod.mk.inj (hstarted.symm.trans hstart)
    rw [hsound.setup_eq, hsound.kept hnone]
    exact .inr ⟨hnone, rfl, rfl⟩

/-- How a stop returns from a sound runtime: it is refused, or it gives up, or it returns with the
end of the driver, which is then released. -/
lemma Sound.stopped (hsound : runtime.Sound setup) {result : Except LifecycleError Unit}
    {later : Runtime} (h : Step runtime (.stopped result) later) :
    runtime.replicator.running = none ∧ result = .error .notStarted ∨
      ∃ driver, runtime.replicator.running = some ⟨true, driver⟩ ∧
        (result = .error .cancelled ∧ runtime.waiting = some true ∧ ¬ driver.hasEnded ∧
            later = { runtime with waiting := none } ∨
          (result = .ok () ∧ (∃ worker, driver = .finished worker) ∨
              result = .error .driver ∧ driver = .broken) ∧
            later.replicator.running = none ∧
            later.released = ⟨true, driver⟩ :: runtime.released) := by
  obtain ⟨isCancelled, error, hfree, hcall, rfl⟩ | hreturn := h.refused_or_returned
  · obtain ⟨hnone, hcalled⟩ | ⟨_, _, -, hcalled⟩ := runtime.callStop_cases isCancelled
    · obtain rfl := Except.error.inj (hcalled.symm.trans hcall)
      exact .inl ⟨hnone, rfl⟩
    · rw [hcalled] at hcall
      cases hcall
  · obtain ⟨isCancelled, replicator, hwaiting, hcollect, rfl⟩ | ⟨hwaiting, hcollect, rfl, rfl⟩ :=
      returnStop?_cases hreturn
    · obtain ⟨driver, hrunning⟩ := hsound.stopping isCancelled hwaiting
      obtain ⟨isStopping, driver', hrunning', -, rfl, hended⟩ := exists_of_collect? hcollect
      obtain ⟨rfl, rfl⟩ := Running.mk.inj (Option.some.inj (hrunning.symm.trans hrunning'))
      refine .inr ⟨driver, hrunning, .inr ⟨hended, rfl, ?_⟩⟩
      rw [hrunning]
      rfl
    · obtain ⟨driver, hrunning⟩ := hsound.stopping true hwaiting
      refine .inr ⟨driver, hrunning, .inl ⟨rfl, hwaiting, fun hended => ?_, rfl⟩⟩
      obtain ⟨result, replicator, hcollected⟩ := collect?_of_hasEnded hrunning hended
      rw [hcollect] at hcollected
      cases hcollected

/-- Once a driver was collected, nothing happens until the next successful start, and the driver
that is started then takes its state over. -/
lemma Sound.handsOver (hsound : runtime.Sound setup) {result : Except LifecycleError Unit}
    {later : Runtime} {driver : Driver} (h : Step runtime (.stopped result) later)
    (hrunning : runtime.replicator.running = some ⟨true, driver⟩)
    (hended : result = .ok () ∧ (∃ worker, driver = .finished worker) ∨
      result = .error .driver ∧ driver = .broken)
    (hnone : later.replicator.running = none)
    (hreleased : later.released = ⟨true, driver⟩ :: runtime.released) :
    HandsOver setup runtime result later driver where
  ended := ⟨hrunning, hended⟩
  silent actions last course hstart := by
    obtain ⟨-, hlast, -, hhistory⟩ := course.of_running_eq_none (hsound.step h) hnone hstart
    exact ⟨hlast, hhistory⟩
  takesOver actions last next course hstart hnext := by
    obtain ⟨hlast, -, hsame, -⟩ := course.of_running_eq_none (hsound.step h) hnone hstart
    obtain ⟨_, _, ⟨⟩, -⟩ | ⟨-, -, hstarted⟩ := hlast.started hnext
    rw [hstarted, hsame, hreleased]
    rfl

/-- A sound runtime is safe. -/
lemma Sound.safe (hsound : runtime.Sound setup) : runtime.Safe setup where
  alive := by
    have hreleased :
        (runtime.released.map Running.driver).countP (fun driver => !driver.hasEnded) = 0 := by
      rw [List.countP_eq_zero]
      intro driver hmem
      obtain ⟨running, hrunning, rfl⟩ := List.mem_map.1 hmem
      simp [hsound.ended running hrunning]
    rw [drivers, List.map_append, List.countP_append, hreleased]
    refine Nat.le_trans (List.countP_le_length) ?_
    cases runtime.replicator.running <;> simp
  idle_or_running := hsound.idle_or_running
  started result later h := by
    obtain ⟨running, hrunning, rfl, rfl⟩ | ⟨hnone, rfl, -⟩ := hsound.started h
    · exact ⟨by simp [hrunning], .inr ⟨rfl, rfl⟩⟩
    · exact ⟨by simp [hnone], .inl rfl⟩
  called isCancelled later h := by
    have hcall := h.eq_callStop
    obtain ⟨-, hcalled⟩ | ⟨isStopping, driver, hrunning, hcalled⟩ :=
      runtime.callStop_cases isCancelled
    · rw [hcalled] at hcall
      cases hcall
    · obtain rfl := Except.ok.inj (hcalled.symm.trans hcall)
      exact ⟨isStopping, driver, hrunning, rfl⟩
  refused result later h := by
    obtain ⟨hnone, rfl⟩ | ⟨driver, hrunning, hreturned⟩ := hsound.stopped h
    · simp [hnone]
    · obtain ⟨rfl, -⟩ | ⟨⟨rfl, -⟩ | ⟨rfl, -⟩, -⟩ := hreturned <;> simp [hrunning]
  givesUp later h := by
    obtain ⟨-, ⟨⟩⟩ | ⟨driver, hrunning, hreturned⟩ := hsound.stopped h
    obtain ⟨-, hcancelled, hpending, rfl⟩ | ⟨⟨⟨⟩, -⟩ | ⟨⟨⟩, -⟩, -⟩ := hreturned
    exact ⟨hcancelled, ⟨driver, hrunning, hpending, driver.drains setup⟩, rfl,
      canCollect_of_running hsound.setup_eq hrunning rfl⟩
  handsOver result later h hresult := by
    obtain ⟨-, rfl⟩ | ⟨driver, hrunning, hreturned⟩ := hsound.stopped h
    · rcases hresult with h | h <;> cases h
    · obtain ⟨rfl, -⟩ | ⟨hended, hnone, hreleased⟩ := hreturned
      · rcases hresult with h | h <;> cases h
      · exact ⟨driver, hsound.handsOver h hrunning hended hnone hreleased⟩

/-- **The lifecycle is safe.**  In each course of a runtime, however its parties interleave, every
runtime is safe. -/
theorem lifecycle_safe (course : Course (new setup) actions runtime) : runtime.Safe setup :=
  course.sound.safe

/-- A stop whose context is cancelled gives up on a driver that has not ended. -/
lemma returnStop?_of_cancelled {isStopping : Bool} {driver : Driver}
    (hwaiting : runtime.waiting = some true)
    (hrunning : runtime.replicator.running = some ⟨isStopping, driver⟩)
    (hpending : ¬ driver.hasEnded) :
    runtime.returnStop? = some (.error .cancelled, { runtime with waiting := none }) := by
  have hcollect : runtime.replicator.collect? = none := by
    cases hcollected : runtime.replicator.collect? with
    | none => rfl
    | some collected =>
      obtain ⟨isStopping', driver', hrunning', hended, -⟩ := exists_of_collect? hcollected
      obtain ⟨rfl, rfl⟩ := Running.mk.inj (Option.some.inj (hrunning.symm.trans hrunning'))
      exact absurd hended hpending
  simp [returnStop?, hwaiting, hcollect]

/-- A stop can be called whose context is cancelled, and it then gives up, while a driver is
registered that has not ended. -/
lemma exists_givesUp {replicator : Replicator} {released : List Running} {running : Running}
    (hrunning : replicator.running = some running) (hpending : ¬ running.driver.hasEnded) :
    ∃ waiting later, Step ⟨replicator, released, none⟩ (.stopCalled true) waiting ∧
      Step waiting (.stopped (.error .cancelled)) later := by
  obtain ⟨hnone, -⟩ | ⟨isStopping, driver, hdriver, hcall⟩ :=
    callStop_cases true ⟨replicator, released, none⟩
  · rw [hrunning] at hnone
    cases hnone
  · obtain rfl := Option.some.inj (hrunning.symm.trans hdriver)
    exact ⟨_, _, .callStop rfl true hcall, .returnStop (returnStop?_of_cancelled rfl rfl hpending)⟩

end Runtime

/-! ### A node that does not reply -/

namespace Sample

/-- A node that lets each call hang. -/
def silentNode : Surroundings Unit where
  call _ _ := (.hang, ())
  release _ call := (.ok (answer [] call), ())
  choose _ _ pos := (⟨0, pos⟩, ())

/-- A session in which a stop has given up on a driver that hangs in its first call. -/
def silentSession : Session Unit :=
  [.start, .stop .cancelled].foldl (Session.perform silentNode) (.new setup ())

/-- The silent session shows a life. -/
lemma showsLife_silentSession : silentSession.ShowsLife setup :=
  Session.showsLife_of_commands silentNode setup () _

end Sample

/-- The lifecycle is safe in a course in which a stop gives up on a driver that hangs, after another
one did: a third stop can collect the driver. -/
theorem Runtime.lifecycle_safe_silent :
    ∃ actions runtime later, Course (new Sample.setup) actions runtime ∧
      Step runtime (.stopped (.error .cancelled)) later ∧ later.CanCollect ∧
      runtime.Safe Sample.setup := by
  obtain ⟨events, life, -⟩ := Sample.showsLife_silentSession
  obtain ⟨actions, released, course, -⟩ := exists_course life
  have hpending : Sample.silentSession.replicator.running.map (·.driver.hasEnded) = some false := by
    decide +kernel
  obtain ⟨running, hrunning, hdriver⟩ := Option.map_eq_some_iff.1 hpending
  obtain ⟨runtime, later, hcalled, hgaveUp⟩ := exists_givesUp hrunning (Bool.eq_false_iff.1 hdriver)
  have hsafe : runtime.Safe Sample.setup := lifecycle_safe (course.step hcalled)
  exact ⟨_, runtime, later, course.step hcalled, hgaveUp, (hsafe.givesUp later hgaveUp).canCollect,
    hsafe⟩

end PieceReplication
