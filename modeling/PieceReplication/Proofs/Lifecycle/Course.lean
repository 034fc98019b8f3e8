import PieceReplication.Proofs.Run.Life

/-!
# Courses of a runtime

Whoever uses a replicator starts and stops it, one call at a time, while its driver goes on by
itself and the context of a stop may be cancelled.  A runtime is a replicator together with what
takes part in this: the stop that waits for the driver, and the drivers that were spawned and are no
longer registered, for which it has to be shown that they do nothing more.

The steps of a runtime are those of its parties, in any order.  A waiting stop returns with the end
of the driver if the driver has ended, and otherwise it gives up if its context is cancelled; it may
also be dropped by its caller.  While a stop waits no other call gets its turn.

The replicators of the courses of a runtime are those of the lives (`exists_course_iff_life`), so
what is shown for lives holds along courses, and sessions show courses.
-/

namespace PieceReplication

/-- Whether a driver has ended or broken off. -/
def Driver.hasEnded : Driver → Bool
  | finished _ => true
  | broken => true
  | _ => false

/-- A move that a driver makes by itself: it does something, its sleep ends, or it comes to the end
of a turn. -/
inductive Driver.Move (setup : Setup) (isStopping : Bool) :
    Driver → Option Occurrence → Driver → Prop where
  | act {driver occurrence driver'} (hstep : Driver.Step isStopping driver occurrence driver') :
    Move setup isStopping driver (some occurrence) driver'
  | wake {worker left} :
    Move setup isStopping (.asleep worker left) none (.active (Turn.run setup worker))
  | rest {turnEnd} (pause : Nat) :
    Move setup isStopping (.active (.done turnEnd)) none (.ofHalt pause (.done turnEnd))

/-- The replicator after its driver moved. -/
def Replicator.moved (replicator : Replicator) (move : Option Occurrence) (driver : Driver) :
    Replicator :=
  match move with
  | some occurrence => replicator.after occurrence driver
  | none => replicator.setDriver driver

/-- What can be seen of a step of a runtime. -/
inductive Action where
  /-- A start returned. -/
  | started (result : Except LifecycleError Unit)
  /-- A stop was called, with a context that was cancelled before or not, and waits. -/
  | stopCalled (isCancelled : Bool)
  /-- A stop returned. -/
  | stopped (result : Except LifecycleError Unit)
  /-- The context of the waiting stop was cancelled. -/
  | contextCancelled
  /-- The waiting stop was dropped by its caller. -/
  | stopDropped
  /-- A driver did something. -/
  | happened (occurrence : Occurrence)
  /-- A driver slept, woke up or ended a turn. -/
  | passed

/-- What can be seen of the move of a driver. -/
def Action.ofMove : Option Occurrence → Action
  | some occurrence => happened occurrence
  | none => passed

/-- What the driver did at an action. -/
def Action.occurrence? : Action → Option Occurrence
  | happened occurrence => some occurrence
  | _ => none

/-- A replicator with the calls and the drivers around it. -/
structure Runtime where
  replicator : Replicator
  /-- The drivers that were spawned and are no longer registered, the latest first. -/
  released : List Running
  /-- Whether the context of the stop that waits is cancelled; `none` if no stop waits. -/
  waiting : Option Bool

namespace Runtime

/-- A runtime whose replicator was never started. -/
def new (setup : Setup) : Runtime :=
  ⟨.new setup, [], none⟩

/-- All drivers that were spawned. -/
def drivers (runtime : Runtime) : List Driver :=
  (runtime.replicator.running.toList ++ runtime.released).map Running.driver

/-- Calls a start, which returns at once. -/
def start (runtime : Runtime) : Except LifecycleError Unit × Runtime :=
  match runtime.replicator.start with
  | .error error => (.error error, runtime)
  | .ok replicator => (.ok (), { runtime with replicator })

/-- Calls a stop, which waits unless it fails. -/
def callStop (isCancelled : Bool) (runtime : Runtime) : Except LifecycleError Runtime :=
  match runtime.replicator.requestStop with
  | .error error => .error error
  | .ok replicator => .ok { runtime with replicator, waiting := some isCancelled }

/-- Lets the waiting stop return, if it can: with the end of the driver, or else because its context
is cancelled. -/
def returnStop? (runtime : Runtime) : Option (Except LifecycleError Unit × Runtime) :=
  match runtime.waiting with
  | none => none
  | some isCancelled =>
    match runtime.replicator.collect? with
    | some (result, replicator) =>
      some (result, ⟨replicator, runtime.replicator.running.toList ++ runtime.released, none⟩)
    | none =>
      if isCancelled then some (.error .cancelled, { runtime with waiting := none }) else none

/-- A single step of a runtime. -/
inductive Step : Runtime → Action → Runtime → Prop where
  | start {runtime} (hfree : runtime.waiting = none) :
    Step runtime (.started runtime.start.1) runtime.start.2
  | callStop {runtime} (hfree : runtime.waiting = none) (isCancelled : Bool) {runtime'}
    (h : runtime.callStop isCancelled = .ok runtime') :
    Step runtime (.stopCalled isCancelled) runtime'
  | refuseStop {runtime} (hfree : runtime.waiting = none) (isCancelled : Bool) {error}
    (h : runtime.callStop isCancelled = .error error) :
    Step runtime (.stopped (.error error)) runtime
  | cancel {runtime} (h : runtime.waiting = some false) :
    Step runtime .contextCancelled { runtime with waiting := some true }
  | returnStop {runtime result runtime'} (h : runtime.returnStop? = some (result, runtime')) :
    Step runtime (.stopped result) runtime'
  | dropStop {runtime isCancelled} (h : runtime.waiting = some isCancelled) :
    Step runtime .stopDropped { runtime with waiting := none }
  | doze {runtime} (milliseconds : Nat) :
    Step runtime .passed { runtime with replicator := runtime.replicator.doze milliseconds }
  | move {runtime isStopping driver move driver'}
    (h : runtime.replicator.running = some ⟨isStopping, driver⟩)
    (hmove : driver.Move runtime.replicator.setup isStopping move driver') :
    Step runtime (.ofMove move)
      { runtime with replicator := runtime.replicator.moved move driver' }
  | moveReleased {runtime before isStopping driver later move driver'}
    (h : runtime.released = before ++ ⟨isStopping, driver⟩ :: later)
    (hmove : driver.Move runtime.replicator.setup isStopping move driver') :
    Step runtime (.ofMove move)
      { runtime with released := before ++ ⟨isStopping, driver'⟩ :: later }

/-- From where to where a runtime can come, and the actions that lead there, the latest first. -/
inductive Course (first : Runtime) : List Action → Runtime → Prop where
  | nil : Course first [] first
  | step {actions runtime action runtime'} (course : Course first actions runtime)
    (h : Step runtime action runtime') : Course first (action :: actions) runtime'

/-- Courses one after another. -/
lemma Course.append {first middle last : Runtime} {actions actions' : List Action}
    (course : Course first actions middle) (course' : Course middle actions' last) :
    Course first (actions' ++ actions) last := by
  induction course' with
  | nil => exact course
  | step course' h ih => exact ih.step h

end Runtime

/-- A driver that has ended does nothing more. -/
lemma Driver.not_move_of_hasEnded {setup : Setup} {isStopping : Bool} {driver driver' : Driver}
    {move : Option Occurrence} (hended : driver.hasEnded) :
    ¬ driver.Move setup isStopping move driver' := by
  rintro (⟨hstep⟩ | _ | _)
  · cases hstep <;> cases hended
  · cases hended
  · cases hended

/-- The driver after it moved. -/
lemma Replicator.running_moved {replicator : Replicator} {isStopping : Bool}
    {driver driver' : Driver}
    (hrunning : replicator.running = some ⟨isStopping, driver⟩) (move : Option Occurrence) :
    (replicator.moved move driver').running = some ⟨isStopping, driver'⟩ := by
  cases move with
  | some occurrence => exact Life.running_after hrunning
  | none => simp [moved, setDriver, hrunning]

/-- A move of the driver changes neither the setup nor the state that is kept. -/
lemma Replicator.setup_idle_moved (replicator : Replicator) (move : Option Occurrence)
    (driver : Driver) :
    (replicator.moved move driver).setup = replicator.setup ∧
      (replicator.moved move driver).idle = replicator.idle := by
  cases move with
  | some occurrence => cases occurrence <;> exact ⟨rfl, rfl⟩
  | none => exact ⟨rfl, rfl⟩

/-- The replicator after the driver's sleep ended. -/
lemma Replicator.wake_of_asleep {replicator : Replicator} {isStopping : Bool} {worker : Worker}
    {left : Nat} (hrunning : replicator.running = some ⟨isStopping, .asleep worker left⟩) :
    replicator.wake = replicator.setDriver (.active (Turn.run replicator.setup worker)) := by
  rw [wake, hrunning]

/-- A driver that can be collected can still be collected once it is requested to stop. -/
lemma Replicator.collect?_of_requestStop {replicator collected : Replicator}
    {result : Except LifecycleError Unit} (h : replicator.collect? = some (result, collected)) :
    ∃ requested, replicator.requestStop = .ok requested ∧
      requested.collect? = some (result, collected) := by
  unfold collect? at h
  unfold requestStop
  split at h
  · next isStopping worker hrunning =>
    rw [hrunning]
    exact ⟨_, rfl, h⟩
  · next isStopping hrunning =>
    rw [hrunning]
    exact ⟨_, rfl, h⟩
  · cases h

/-- The passing of time changes neither the setup nor the state that is kept, nor whether a driver
is registered, nor whether a stop is requested. -/
lemma Replicator.doze_eq (replicator : Replicator) (milliseconds : Nat) :
    (replicator.doze milliseconds).setup = replicator.setup ∧
      (replicator.doze milliseconds).idle = replicator.idle ∧
      (replicator.doze milliseconds).running.map Running.isStopping =
        replicator.running.map Running.isStopping := by
  unfold doze
  split
  · next isStopping worker left hrunning => simp [setDriver, hrunning]
  · exact ⟨rfl, rfl, rfl⟩

namespace Runtime

variable {setup : Setup} {runtime runtime' : Runtime} {action : Action}

/-! ## What every step keeps -/

/-- The state that a driver hands back when it is collected, if it has not broken off. -/
def handedBack? : Driver → Option Worker
  | .finished worker => some worker
  | _ => none

/-- The state for the next driver: the one that the driver collected last handed back, and a fresh
one if it broke off or there was none. -/
def nextWorker (setup : Setup) (released : List Running) : Worker :=
  (released.head?.bind fun running => handedBack? running.driver).getD (.fresh setup.config)

/-- How a runtime is sound: where the state of the worker is kept, and what has become of the
drivers that were released. -/
structure Sound (setup : Setup) (runtime : Runtime) : Prop where
  setup_eq : runtime.replicator.setup = setup
  idle_or_running : runtime.replicator.idle = none ∨ runtime.replicator.running = none
  /-- While no driver is registered, the state for the next one is kept. -/
  kept : runtime.replicator.running = none →
    runtime.replicator.idle.getD (.fresh setup.config) = nextWorker setup runtime.released
  /-- The released drivers have ended. -/
  ended : ∀ running ∈ runtime.released, running.driver.hasEnded
  /-- A stop waits for a driver that is requested to stop. -/
  stopping : ∀ isCancelled, runtime.waiting = some isCancelled →
    ∃ driver, runtime.replicator.running = some ⟨true, driver⟩

/-- A new runtime is sound. -/
lemma sound_new (setup : Setup) : (new setup).Sound setup where
  setup_eq := rfl
  idle_or_running := .inr rfl
  kept _ := rfl
  ended _ hmem := absurd hmem List.not_mem_nil
  stopping := by rintro isCancelled ⟨⟩

/-- The driver that is collected has ended, and hands its state back. -/
lemma exists_of_collect? {replicator replicator' : Replicator} {result : Except LifecycleError Unit}
    (h : replicator.collect? = some (result, replicator')) :
    ∃ isStopping driver, replicator.running = some ⟨isStopping, driver⟩ ∧ driver.hasEnded ∧
      replicator' = { replicator with idle := handedBack? driver, running := none } ∧
      (result = .ok () ∧ (∃ worker, driver = .finished worker) ∨
        result = .error .driver ∧ driver = .broken) := by
  unfold Replicator.collect? at h
  split at h
  · next isStopping worker hrunning =>
    cases h
    exact ⟨isStopping, _, hrunning, rfl, rfl, .inl ⟨rfl, worker, rfl⟩⟩
  · next isStopping hrunning =>
    cases h
    exact ⟨isStopping, _, hrunning, rfl, rfl, .inr ⟨rfl, rfl⟩⟩
  · cases h

/-- A driver that has ended can be collected. -/
lemma collect?_of_hasEnded {replicator : Replicator} {isStopping : Bool} {driver : Driver}
    (hrunning : replicator.running = some ⟨isStopping, driver⟩) (hended : driver.hasEnded) :
    ∃ result replicator', replicator.collect? = some (result, replicator') := by
  cases driver with
  | finished worker =>
    unfold Replicator.collect?
    rw [hrunning]
    exact ⟨_, _, rfl⟩
  | broken =>
    unfold Replicator.collect?
    rw [hrunning]
    exact ⟨_, _, rfl⟩
  | _ => cases hended

/-- How a start returns. -/
lemma start_cases (runtime : Runtime) :
    (∃ running, runtime.replicator.running = some running ∧
        runtime.start = (.error .alreadyStarted, runtime)) ∨
      runtime.replicator.running = none ∧
        runtime.start = (.ok (), { runtime with replicator := { runtime.replicator with
          idle := none
          running := some ⟨false, .active (Turn.first runtime.replicator.setup
            (runtime.replicator.idle.getD (.fresh runtime.replicator.setup.config)))⟩ } }) := by
  cases hrunning : runtime.replicator.running with
  | some running =>
    refine .inl ⟨running, rfl, ?_⟩
    rw [start, Replicator.start, hrunning]
  | none =>
    refine .inr ⟨rfl, ?_⟩
    rw [start, Replicator.start, hrunning]

/-- How the call of a stop goes. -/
lemma callStop_cases (isCancelled : Bool) (runtime : Runtime) :
    runtime.replicator.running = none ∧ runtime.callStop isCancelled = .error .notStarted ∨
      ∃ isStopping driver, runtime.replicator.running = some ⟨isStopping, driver⟩ ∧
        runtime.callStop isCancelled = .ok { runtime with
          replicator := { runtime.replicator with running := some ⟨true, driver⟩ }
          waiting := some isCancelled } := by
  cases hrunning : runtime.replicator.running with
  | none =>
    refine .inl ⟨rfl, ?_⟩
    rw [callStop, Replicator.requestStop, hrunning]
  | some running =>
    refine .inr ⟨running.isStopping, running.driver, rfl, ?_⟩
    rw [callStop, Replicator.requestStop, hrunning]

/-- How a waiting stop returns. -/
lemma returnStop?_cases {result : Except LifecycleError Unit}
    (h : runtime.returnStop? = some (result, runtime')) :
    (∃ isCancelled replicator, runtime.waiting = some isCancelled ∧
        runtime.replicator.collect? = some (result, replicator) ∧
        runtime' = ⟨replicator, runtime.replicator.running.toList ++ runtime.released, none⟩) ∨
      runtime.waiting = some true ∧ runtime.replicator.collect? = none ∧
        result = .error .cancelled ∧ runtime' = { runtime with waiting := none } := by
  unfold returnStop? at h
  split at h
  · cases h
  · next isCancelled hwaiting =>
    split at h
    · next collected replicator hcollect =>
      cases h
      exact .inl ⟨isCancelled, replicator, hwaiting, hcollect, rfl⟩
    · next hcollect =>
      split at h
      · next hcancelled =>
        cases h
        exact .inr ⟨hcancelled ▸ hwaiting, hcollect, rfl, rfl⟩
      · cases h

/-- A runtime stays sound if its driver changes in itself only. -/
lemma Sound.of_replicator (hsound : runtime.Sound setup) {replicator : Replicator}
    (hsetup : replicator.setup = runtime.replicator.setup)
    (hidle : replicator.idle = runtime.replicator.idle)
    (hrunning : replicator.running.map Running.isStopping =
      runtime.replicator.running.map Running.isStopping) :
    Sound setup { runtime with replicator } := by
  have hnone : replicator.running = none ↔ runtime.replicator.running = none := by
    rw [← Option.map_eq_none_iff (f := Running.isStopping), hrunning, Option.map_eq_none_iff]
  refine ⟨hsetup.trans hsound.setup_eq, ?_, ?_, hsound.ended, ?_⟩
  · rw [hidle, hnone]
    exact hsound.idle_or_running
  · rw [hidle, hnone]
    exact hsound.kept
  · intro isCancelled hwaiting
    obtain ⟨driver, hdriver⟩ := hsound.stopping isCancelled hwaiting
    rw [hdriver] at hrunning
    obtain ⟨⟨isStopping, driver'⟩, hsome, hstopping⟩ := Option.map_eq_some_iff.1 hrunning
    obtain rfl : isStopping = true := hstopping
    exact ⟨driver', hsome⟩

/-- **What every step keeps.** -/
lemma Sound.step (hsound : runtime.Sound setup) (h : Step runtime action runtime') :
    runtime'.Sound setup := by
  have ⟨hsetup, hslot, hkept, hended, hstopping⟩ := hsound
  cases h with
  | start hfree =>
    obtain ⟨running, hrunning, hstart⟩ | ⟨hnone, hstart⟩ := runtime.start_cases
    · rw [hstart]
      exact ⟨hsetup, hslot, hkept, hended, hstopping⟩
    · rw [hstart]
      refine ⟨hsetup, .inl rfl, nofun, hended, ?_⟩
      intro isCancelled hwaiting
      rw [hfree] at hwaiting
      cases hwaiting
  | callStop hfree isCancelled hcall =>
    obtain ⟨-, hcalled⟩ | ⟨isStopping, driver, hrunning, hcalled⟩ :=
      runtime.callStop_cases isCancelled
    · rw [hcalled] at hcall
      cases hcall
    · rw [hcalled] at hcall
      obtain rfl := Except.ok.inj hcall
      have hidle : runtime.replicator.idle = none := by
        rcases hslot with hidle | hnone
        · exact hidle
        · rw [hrunning] at hnone
          cases hnone
      exact ⟨hsetup, .inl hidle, nofun, hended, fun _ _ => ⟨driver, rfl⟩⟩
  | refuseStop hfree isCancelled hcall => exact ⟨hsetup, hslot, hkept, hended, hstopping⟩
  | cancel hwaiting =>
    exact ⟨hsetup, hslot, hkept, hended, fun _ _ => hstopping false hwaiting⟩
  | returnStop hreturn =>
    obtain ⟨isCancelled, replicator, hwaiting, hcollect, rfl⟩ | ⟨hwaiting, -, -, rfl⟩ :=
      returnStop?_cases hreturn
    · obtain ⟨isStopping, driver, hrunning, hdriver, rfl, -⟩ := exists_of_collect? hcollect
      rw [hrunning]
      refine ⟨hsetup, .inr rfl, fun _ => rfl, ?_, nofun⟩
      intro running hmem
      rcases List.mem_cons.1 hmem with rfl | hmem
      · exact hdriver
      · exact hended running hmem
    · exact ⟨hsetup, hslot, hkept, hended, nofun⟩
  | dropStop hwaiting => exact ⟨hsetup, hslot, hkept, hended, nofun⟩
  | doze milliseconds =>
    obtain ⟨hsame, hidle, hrunning⟩ := runtime.replicator.doze_eq milliseconds
    exact hsound.of_replicator hsame hidle hrunning
  | @move isStopping driver move driver' hrunning hmove =>
    obtain ⟨hsame, hidle⟩ := runtime.replicator.setup_idle_moved move driver'
    refine hsound.of_replicator hsame hidle ?_
    rw [Replicator.running_moved hrunning, hrunning]
    rfl
  | moveReleased hreleased hmove =>
    have hmem := hreleased ▸ List.mem_append_right _ List.mem_cons_self
    exact absurd hmove (Driver.not_move_of_hasEnded (hended _ hmem))

/-- In a course from a new runtime all runtimes are sound. -/
lemma Course.sound {actions : List Action} (course : Course (new setup) actions runtime) :
    runtime.Sound setup := by
  induction course with
  | nil => exact sound_new setup
  | step course h ih => exact ih.step h

/-! ## Courses and lives -/

/-- What the drivers did in the course of some actions. -/
def history (actions : List Action) : History :=
  actions.filterMap Action.occurrence?

/-- The replicator of a course has a life in which the driver did the same. -/
lemma Course.exists_life {actions : List Action} (course : Course (new setup) actions runtime) :
    ∃ events, Life setup events runtime.replicator ∧ trace events = history actions := by
  induction course with
  | nil => exact ⟨[], .new, rfl⟩
  | @step actions runtime action runtime' course h ih =>
    obtain ⟨events, life, htrace⟩ := ih
    have hsound := course.sound
    cases h with
    | start hfree =>
      obtain ⟨running, hrunning, hstart⟩ | ⟨hnone, hstart⟩ := runtime.start_cases
      · rw [hstart]
        exact ⟨events, life, htrace⟩
      · rw [hstart]
        refine ⟨_, life.start ?_, htrace⟩
        rw [Replicator.start, hnone]
    | callStop hfree isCancelled hcall =>
      unfold callStop at hcall
      split at hcall
      · cases hcall
      · next hrequest =>
        obtain rfl := Except.ok.inj hcall
        exact ⟨_, life.requestStop hrequest, htrace⟩
    | refuseStop hfree isCancelled hcall => exact ⟨events, life, htrace⟩
    | cancel hwaiting => exact ⟨events, life, htrace⟩
    | returnStop hreturn =>
      obtain ⟨isCancelled, replicator, hwaiting, hcollect, rfl⟩ | ⟨hwaiting, -, -, rfl⟩ :=
        returnStop?_cases hreturn
      · exact ⟨_, life.collect hcollect, htrace⟩
      · exact ⟨events, life, htrace⟩
    | dropStop hwaiting => exact ⟨events, life, htrace⟩
    | doze milliseconds => exact ⟨events, life.doze milliseconds, htrace⟩
    | move hrunning hmove =>
      cases hmove with
      | @act _ occurrence _ hstep =>
        exact ⟨_, life.step hrunning hstep, congrArg (occurrence :: ·) htrace⟩
      | wake =>
        have hwoken := life.wake hrunning
        rw [Replicator.wake_of_asleep hrunning] at hwoken
        exact ⟨_, hwoken, htrace⟩
      | rest pause => exact ⟨events, life.settle hrunning pause, htrace⟩
    | moveReleased hreleased hmove =>
      have hmem := hreleased ▸ List.mem_append_right _ List.mem_cons_self
      exact absurd hmove (Driver.not_move_of_hasEnded (hsound.ended _ hmem))

/-- A replicator that has a life is that of a course in which the driver did the same, and no stop
waits. -/
lemma exists_course {events : List Event} {replicator : Replicator}
    (life : Life setup events replicator) :
    ∃ actions released, Course (new setup) actions ⟨replicator, released, none⟩ ∧
      history actions = trace events := by
  induction life with
  | new => exact ⟨[], [], .nil, rfl⟩
  | @start events replicator replicator' life h ih =>
    obtain ⟨actions, released, course, htrace⟩ := ih
    have hstart : start ⟨replicator, released, none⟩ = (.ok (), ⟨replicator', released, none⟩) := by
      rw [start, h]
    have hstep : Step ⟨replicator, released, none⟩ _ _ := .start rfl
    rw [hstart] at hstep
    exact ⟨_, released, course.step hstep, htrace⟩
  | @requestStop events replicator replicator' life h ih =>
    obtain ⟨actions, released, course, htrace⟩ := ih
    have hcall : callStop false ⟨replicator, released, none⟩ =
        .ok ⟨replicator', released, some false⟩ := by
      rw [callStop, h]
    have hcalled := course.step (.callStop rfl false hcall)
    exact ⟨_, released, hcalled.step (.dropStop rfl), htrace⟩
  | @collect events replicator result replicator' life h ih =>
    obtain ⟨actions, released, course, htrace⟩ := ih
    obtain ⟨requested, hrequest, hcollect⟩ := Replicator.collect?_of_requestStop h
    have hcall : callStop false ⟨replicator, released, none⟩ =
        .ok ⟨requested, released, some false⟩ := by
      rw [callStop, hrequest]
    have hreturn : returnStop? ⟨requested, released, some false⟩ =
        some (result, ⟨replicator', requested.running.toList ++ released, none⟩) := by
      simp only [returnStop?, hcollect]
    have hcalled := course.step (.callStop rfl false hcall)
    exact ⟨_, _, hcalled.step (.returnStop hreturn), htrace⟩
  | doze life milliseconds ih =>
    obtain ⟨actions, released, course, htrace⟩ := ih
    exact ⟨_, released, course.step (.doze milliseconds), htrace⟩
  | @wake events replicator life isStopping worker left h ih =>
    obtain ⟨actions, released, course, htrace⟩ := ih
    rw [Replicator.wake_of_asleep h]
    exact ⟨_, released, course.step (.move h .wake), htrace⟩
  | @step events replicator life isStopping driver h occurrence driver' hstep ih =>
    obtain ⟨actions, released, course, htrace⟩ := ih
    exact ⟨_, released, course.step (.move h (.act hstep)), congrArg (occurrence :: ·) htrace⟩
  | settle life h pause ih =>
    obtain ⟨actions, released, course, htrace⟩ := ih
    exact ⟨_, released, course.step (.move h (.rest pause)), htrace⟩

/-- **Courses and lives.**  A replicator can come to stand at the end of a course just if it can in
a life in which the driver did the same. -/
theorem exists_course_iff_life {h : History} {replicator : Replicator} :
    (∃ actions runtime, Course (new setup) actions runtime ∧ runtime.replicator = replicator ∧
        history actions = h) ↔
      ∃ events, Life setup events replicator ∧ trace events = h := by
  constructor
  · rintro ⟨actions, runtime, course, rfl, rfl⟩
    exact course.exists_life
  · rintro ⟨events, life, rfl⟩
    obtain ⟨actions, released, course, htrace⟩ := exists_course life
    exact ⟨actions, _, course, rfl, htrace⟩

end Runtime

end PieceReplication
