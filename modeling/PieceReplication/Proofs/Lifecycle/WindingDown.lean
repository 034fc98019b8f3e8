import PieceReplication.Proofs.Conduct.Tick
import PieceReplication.Proofs.Lifecycle.Pace
import PieceReplication.Proofs.Lifecycle.Safety

/-!
# Winding down

Once a stop is requested, every look of the driver for a stop request finds it, until the driver is
collected and another one is started.  A driver that keeps its pace begins a tick, or requests the
tipset of an epoch, only right after a look that found none.

Scheduling is cooperative: the driver has one thread with those who call it, and a request comes
where the driver gives way (`Runtime.GivesWay`), that is while it waits for the answer to a call,
when it has just got one, in its sleep, before it has done anything, and at its end.  From a look to
the step that the look clears, a call or a part, it does not give way.  So what the driver still
does after a request finishes the tick in progress, and if there is none it makes no call at all
(`Runtime.WindsDown`).

Courses let a request come at any moment, also while the driver is at work, as if it was made from
another thread.  Between a look that found none and the step that this look clears, it would come
too late for that one step, and all after it would finish the tick.
-/

namespace PieceReplication

open History

variable {setup : Setup} {h since : History} {occurrence : Occurrence}

/-! ## After the request -/

/-- A call is made in the part that its purpose belongs to, and what it reads of an epoch, it reads
of the one underway. -/
lemma Conduct.called {purpose : Purpose} {call : Call}
    (hconduct : Conduct setup h (.called purpose call)) :
    part? h = purpose.part? ∧
      (Indexing.readsEpoch call = true → ∃ epoch, underway? h = some epoch) := by
  have hasks : Asks setup h purpose call := hconduct.2
  refine ⟨hasks.part?_eq, fun hreads => ?_⟩
  cases hasks with
  | parentMessages _ hunderway => exact ⟨_, hunderway⟩
  | preCommit _ hunderway => exact ⟨_, hunderway⟩
  | provenSector _ hunderway => exact ⟨_, hunderway⟩
  | marketDeal _ hunderway => exact ⟨_, hunderway⟩
  | _ => cases hreads

namespace Runtime

variable {runtime runtime' : Runtime} {action : Action} {actions later earlier : List Action}

/-- Whether the registered driver, if there is one, is requested to stop. -/
def IsStopping (runtime : Runtime) : Prop :=
  ∀ running, runtime.replicator.running = some running → running.isStopping = true

/-- A stop that is called requests the driver to stop. -/
lemma isStopping_of_callStop {isCancelled : Bool}
    (hcall : runtime.callStop isCancelled = .ok runtime') : runtime'.IsStopping := by
  obtain ⟨-, hcalled⟩ | ⟨_, driver, -, hcalled⟩ := runtime.callStop_cases isCancelled
  · rw [hcalled] at hcall
    cases hcall
  · obtain rfl := Except.ok.inj (hcalled.symm.trans hcall)
    rintro running ⟨⟩
    rfl

/-- A request that was made stays until another driver is started, and each look finds it. -/
lemma IsStopping.step (hstopping : runtime.IsStopping) (hsound : runtime.Sound setup)
    (h : Step runtime action runtime') (hstart : action ≠ .started (.ok ())) :
    runtime'.IsStopping ∧ action ≠ .happened (.looked false) := by
  cases h with
  | start hfree =>
    obtain ⟨running, hrunning, hstarted⟩ | ⟨hnone, hstarted⟩ := runtime.start_cases
    · rw [hstarted]
      exact ⟨hstopping, nofun⟩
    · rw [hstarted] at hstart
      exact absurd rfl hstart
  | callStop hfree isCancelled hcall => exact ⟨isStopping_of_callStop hcall, nofun⟩
  | refuseStop hfree isCancelled hcall => exact ⟨hstopping, nofun⟩
  | cancel hwaiting => exact ⟨hstopping, nofun⟩
  | returnStop hreturn =>
    obtain ⟨_, replicator, -, hcollect, rfl⟩ | ⟨-, -, -, rfl⟩ := returnStop?_cases hreturn
    · obtain ⟨_, _, -, -, rfl, -⟩ := exists_of_collect? hcollect
      refine ⟨?_, nofun⟩
      rintro running ⟨⟩
    · exact ⟨hstopping, nofun⟩
  | dropStop hwaiting => exact ⟨hstopping, nofun⟩
  | doze milliseconds =>
    refine ⟨fun running hrunning => ?_, nofun⟩
    have hmap := (runtime.replicator.doze_eq milliseconds).2.2
    rw [hrunning] at hmap
    obtain ⟨before, hbefore, heq⟩ := Option.map_eq_some_iff.1 hmap.symm
    exact heq.symm.trans (hstopping before hbefore)
  | @move isStopping driver move driver' hrunning hmove =>
    have htrue : isStopping = true := hstopping _ hrunning
    constructor
    · intro running hmoved
      rw [Replicator.running_moved hrunning] at hmoved
      cases hmoved
      exact htrue
    · cases hmove with
      | act hstep =>
        rintro ⟨⟩
        cases hstep
        cases htrue
      | wake => exact nofun
      | rest pause => exact nofun
  | moveReleased hreleased hmove =>
    have hmem := hreleased ▸ List.mem_append_right _ List.mem_cons_self
    exact absurd hmove (Driver.not_move_of_hasEnded (hsound.ended _ hmem))

/-- After a stop request, each look finds it until another driver is started. -/
lemma Course.isStopping {isCancelled : Bool}
    (course : Course (new setup) (later ++ .stopCalled isCancelled :: earlier) runtime)
    (hstart : .started (.ok ()) ∉ later) :
    runtime.IsStopping ∧ .looked false ∉ history later := by
  induction later generalizing runtime with
  | nil =>
    cases course with
    | step course h => exact ⟨isStopping_of_callStop h.eq_callStop, List.not_mem_nil⟩
  | cons action rest ih =>
    cases course with
    | @step _ before _ _ course h =>
      obtain ⟨hstopping, hlooks⟩ := ih course fun hmem => hstart (List.mem_cons_of_mem _ hmem)
      have hne : action ≠ .started (.ok ()) := by
        rintro rfl
        exact hstart List.mem_cons_self
      obtain ⟨hstopping', hlook⟩ := hstopping.step course.sound h hne
      refine ⟨hstopping', fun hmem => ?_⟩
      obtain ⟨other, hother, hoccurrence⟩ := List.mem_filterMap.1 hmem
      rcases List.mem_cons.1 hother with rfl | hother
      · cases other <;> cases hoccurrence
        exact hlook rfl
      · exact hlooks (List.mem_filterMap.2 ⟨other, hother, hoccurrence⟩)

/-- The replicator of a course keeps its pace, and its turns come to their ends with a look or a
report. -/
lemma Course.keeps_and_closes (course : Course (new setup) actions runtime) :
    runtime.replicator.Keeps (pace setup) (Between setup) (history actions) ∧
      runtime.replicator.Closes (history actions) := by
  obtain ⟨events, life, htrace⟩ := course.exists_life
  have hkeeps :=
    (life.along_and_keeps (pace_upheld setup) (along_of_forall fun _ _ _ _ => trivial)).2
  rw [← htrace]
  exact ⟨hkeeps, life.closes⟩

/-- A driver that sleeps has just finished a tick and looked for a stop request. -/
lemma Course.exists_of_asleep (course : Course (new setup) actions runtime) {isStopping : Bool}
    {worker : Worker} {left : Nat}
    (hasleep : runtime.replicator.running = some ⟨isStopping, .asleep worker left⟩) :
    ∃ stats before, history actions = .looked false :: .published stats :: before := by
  have hcloses := course.keeps_and_closes.2
  rw [Replicator.Closes, hasleep] at hcloses
  exact hcloses

/-- A moment of a course at which the driver gives way, so that those who call the replicator get
their turn: whenever it has to wait, before it runs, and once it has ended. -/
inductive GivesWay (actions : List Action) (runtime : Runtime) : Prop where
  /-- The driver waits for the answer to a call. -/
  | waiting {isStopping purpose call resume}
    (hrunning : runtime.replicator.running = some ⟨isStopping, .hanging purpose call resume⟩)
  /-- The driver has just got the answer to a call. -/
  | answered {purpose call reply}
    (hhead : (history actions).head? = some (.answered purpose call reply))
  /-- The driver sleeps. -/
  | sleeping {isStopping worker left}
    (hrunning : runtime.replicator.running = some ⟨isStopping, .asleep worker left⟩)
  /-- The driver has done nothing since it was started. -/
  | starting {since begun} (hactions : actions = since ++ .started (.ok ()) :: begun)
    (hsince : history since = [])
  /-- The driver has ended or broken off. -/
  | ended {isStopping driver} (hrunning : runtime.replicator.running = some ⟨isStopping, driver⟩)
    (hended : driver.hasEnded)

/-- The registered driver gives way, or will do so after some moves of its own. -/
inductive WillGiveWay : List Action → Runtime → Prop where
  | now {actions : List Action} {runtime : Runtime} (hgives : GivesWay actions runtime) :
    WillGiveWay actions runtime
  | move {actions : List Action} {runtime : Runtime} {isStopping driver move driver'}
    (hrunning : runtime.replicator.running = some ⟨isStopping, driver⟩)
    (hmove : driver.Move runtime.replicator.setup isStopping move driver')
    (hlater : WillGiveWay (.ofMove move :: actions)
      { runtime with replicator := runtime.replicator.moved move driver' }) :
    WillGiveWay actions runtime

/-- A driver that is at work goes on until it gives way. -/
lemma willGiveWay_of_active {isStopping : Bool} {program : Program TurnEnd}
    (hrunning : runtime.replicator.running = some ⟨isStopping, .active program⟩) :
    WillGiveWay actions runtime := by
  induction program generalizing runtime actions with
  | done turnEnd =>
    refine .move hrunning (.rest 0) (.now ?_)
    cases turnEnd with
    | asleep worker => exact .sleeping (Replicator.running_moved hrunning none)
    | finished worker => exact .ended (Replicator.running_moved hrunning none) rfl
  | perform effect resume ih =>
    have hmoved {occurrence : Occurrence} {driver' : Driver} :
        (runtime.replicator.moved (some occurrence) driver').running =
          some ⟨isStopping, driver'⟩ := Replicator.running_moved hrunning (some occurrence)
    have hgo {occurrence result}
        (hstep : Driver.Step isStopping (.active (.perform effect resume)) occurrence
          (.active (resume result))) : WillGiveWay actions runtime :=
      .move hrunning (.act hstep) (ih result hmoved)
    cases effect with
    | call purpose call => exact .move hrunning (.act .call) (.now (.waiting hmoved))
    | overflow cause => exact .move hrunning (.act .overflow) (.now (.ended hmoved rfl))
    | choose n pos => exact hgo (.choose ⟨0, pos⟩)
    | stopRequested => exact hgo .look
    | enter part => exact hgo .enter
    | log event => exact hgo .log
    | count counter => exact hgo .count
    | become worker => exact hgo .become
    | publish stats => exact hgo .publish

/-- **A request gets its turn.**  From each moment at which a driver is registered, the driver comes
by moves of its own to one at which it gives way. -/
theorem willGiveWay {running : Running} (hrunning : runtime.replicator.running = some running) :
    WillGiveWay actions runtime := by
  obtain ⟨isStopping, driver⟩ := running
  cases driver with
  | active program => exact willGiveWay_of_active hrunning
  | hanging purpose call resume => exact .now (.waiting hrunning)
  | asleep worker left => exact .now (.sleeping hrunning)
  | finished worker => exact .now (.ended hrunning rfl)
  | broken => exact .now (.ended hrunning rfl)

/-! ## Requests -/

end Runtime

end PieceReplication
