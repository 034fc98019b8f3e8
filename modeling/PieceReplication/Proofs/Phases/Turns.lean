import PieceReplication.Proofs.Phases.Work

/-!
# The isolation of the phases in the turns of the driver

A tick goes from phase to phase.  The retrieval phase opens after the index phase, or after the
answer for which that was left out; the deal phase opens after the retrieval phase.  A phase that is
given up is counted before the next one opens.  So each turn meets the contract of isolation,
whatever state of the worker the driver takes over.
-/

namespace PieceReplication

open History

variable {setup : Setup} {w : Worker} {h : History} {n : Nat} {phase : Phase}

/-! ## The tick -/

namespace Tick

/-- A phase that is given up is reported and counted. -/
lemma isolates_given (hs : Within setup phase n (some (.phaseErrors phase)) w h)
    (event : LogEvent) :
    Task.Meets (isolation setup) (do Task.log event; Task.count (.phaseErrors phase)) w h
      fun _ => Within setup phase n none := by
  simp only [Task.meets_bind, Task.meets_log, Task.meets_count]
  exact ⟨trivial, (hs.logged event).counted⟩

/-- A phase is isolated together with the report if it is given up. -/
lemma isolates_runPhase {activity : Activity Unit}
    (hmeets : activity.Meets (isolation setup) w h (fun _ => Runs setup phase)
      fun _ => Fails setup phase) (report : PhaseError → LogEvent) :
    Task.Meets (isolation setup) (runPhase phase report activity) w h
      fun _ => Past setup phase := by
  rw [runPhase, Task.meets_bind]
  refine Task.Meets.mono hmeets fun result w' h' hs => ?_
  cases result with
  | ok value => exact Task.meets_pure.2 (Within.past hs)
  | error error => exact isolates_given hs _

/-- The retrieval sweep follows the index phase. -/
lemma opens_retrievalSweep (hs : Past setup .index w h) : Opens setup .retrievalSweep w h :=
  ⟨hs.toClear, .retrievalSweep (.inl hs.phase_eq)⟩

/-- The node has just said whether it is catching up. -/
structure Synced (setup : Setup) (isCatchingUp : Bool) (w : Worker) (h : History) : Prop extends
    Clear setup 0 none w h where
  part : part? h = none
  status : ∃ status, lastReply? h = some ⟨.syncing, .syncState, .ok status⟩ ∧
    status.isCatchingUp = .ok isCatchingUp

/-- The node has just failed to say whether it is catching up. -/
structure Unsynced (setup : Setup) (w : Worker) (h : History) : Prop extends
    Clear setup 1 (some (.phaseErrors .index)) w h where
  part : part? h = none
  failure : ∃ failure, lastReply? h = some ⟨.syncing, .syncState, .error failure⟩

/-- The question whether the node is catching up is isolated. -/
lemma isolates_isCatchingUp (hs : Apart setup w h)
    (hpause : setup.config.pauseWhileSyncing = true) :
    Activity.Meets (isolation setup) isCatchingUp w h (Synced setup) fun _ => Unsynced setup := by
  have hphase : phase? h = none := by rw [phase?, hs.part, Option.map_none]
  have hcalled : Isolated setup h (.called .syncing .syncState) :=
    ⟨hs.uncounted, rfl, hphase, hs.unfailed _ (Nat.zero_le _), fun _ => ⟨hpause, hs.tick⟩⟩
  simp only [isCatchingUp, Activity.meets_bind]
  refine Activity.meets_request.2 ⟨hcalled, fun status _ => ?_, fun failure _ => ?_⟩
  · have hanswered : Clear setup 0 none w
        (.answered .syncing .syncState (.ok status) :: .called .syncing .syncState :: h) :=
      hs.toClear.answered (Nat.le_refl 0) rfl (by rintro later - ⟨⟩)
    refine Activity.meets_checked.2 ⟨fun isCatchingUp hstatus => ?_, fun cause hgap => ?_⟩
    · exact ⟨hanswered, hs.part, status, rfl, hstatus⟩
    · exact ⟨rfl, .inr (.gap rfl hgap)⟩
  · have hfailed : Clear setup 1 (some (.phaseErrors .index)) w
        (.answered .syncing .syncState (.error failure) :: .called .syncing .syncState :: h) := by
      refine hs.toClear.answered (Nat.zero_le 1) rfl ?_
      rintro later hlater ⟨⟩
      exact Nat.not_succ_le_zero 0 hlater
    exact ⟨hfailed, hs.part, failure, rfl⟩

/-- The index phase is isolated, whether it has to pause or not. -/
lemma isolates_index (hs : Apart setup w h) :
    Task.Meets (isolation setup) (index setup) w h fun _ => Opens setup .retrievalSweep := by
  have hindexes : ∀ w h, Opens setup .indexing w h →
      Task.Meets (isolation setup) (runPhase .index .indexFailed (Indexing.run setup)) w h
        fun _ => Opens setup .retrievalSweep := fun w h hopens =>
    (isolates_runPhase (Indexing.isolates_run hopens) _).mono fun _ _ _ => opens_retrievalSweep
  rw [index]
  split
  · next hpause =>
    rw [Task.meets_bind]
    refine Task.Meets.mono (isolates_isCatchingUp hs hpause) fun result w' h' hsynced => ?_
    cases result with
    | ok isCatchingUp =>
      obtain ⟨hclear, hpart, status, hreply, hstatus⟩ : Synced setup isCatchingUp w' h' := hsynced
      cases isCatchingUp with
      | true =>
        have hpauses : Pauses setup (.logged .catchingUp :: h') := by
          refine ⟨hpause, hpart, .ok status, hreply, ?_⟩
          rintro _ ⟨⟩
          exact hstatus
        have hpast : ∀ phase, 1 ≤ phase.rank → failed phase h' = false :=
          fun phase _ => hclear.unfailed phase (Nat.zero_le _)
        exact Task.meets_log.2 ⟨trivial, ⟨hclear.worker_eq, hclear.uncounted, hpast⟩,
          .retrievalSweep (.inr hpauses)⟩
      | false =>
        exact hindexes w' h' ⟨hclear, .indexing hpart fun _ => ⟨status, hreply, hstatus⟩⟩
    | error error =>
      obtain ⟨hclear, hpart, failure, hreply⟩ : Unsynced setup w' h' := hsynced
      have hpauses : Pauses setup
          (.counted (.phaseErrors .index) :: .logged (.syncFailed error) :: h') := by
        refine ⟨hpause, hpart, .error failure, hreply, ?_⟩
        rintro status ⟨⟩
      simp only [Task.meets_bind, Task.meets_log, Task.meets_count]
      exact ⟨trivial, hclear.uncounted, ⟨hclear.worker_eq, rfl, hclear.unfailed⟩,
        .retrievalSweep (.inr hpauses)⟩
  · next hpause =>
    refine hindexes w h ⟨hs.toClear, .indexing hs.part fun hpauses => absurd hpauses ?_⟩
    exact hpause

/-- A tick is isolated, and comes to its end in the deal phase. -/
lemma isolates_run (hs : Apart setup w h) :
    Task.Meets (isolation setup) (run setup) w h fun _ => Past setup .deal := by
  simp only [run, Task.meets_bind]
  refine (isolates_index hs).mono fun _ w₁ h₁ hopens => ?_
  refine (isolates_runPhase (Retrieval.isolates_run hopens) _).mono fun _ w₂ h₂ hpast => ?_
  have hopens' : Opens setup .dealSweep w₂ h₂ := ⟨hpast.toClear, .dealSweep hpast.phase_eq⟩
  exact isolates_runPhase (Dealing.isolates_run hopens') _

end Tick

/-! ## The turn -/

namespace Apart

/-- A report leaves the driver between two ticks. -/
lemma logged (hs : Apart setup w h) (event : LogEvent) : Apart setup w (.logged event :: h) where
  worker_eq := hs.worker_eq
  uncounted := hs.uncounted
  unfailed := hs.unfailed
  part := hs.part
  tick := by simp [hs.tick]

/-- A look for a stop request leaves the driver between two ticks. -/
lemma looked (hs : Apart setup w h) (isStopping : Bool) :
    Apart setup w (.looked isStopping :: h) where
  worker_eq := hs.worker_eq
  uncounted := rfl
  unfailed := hs.unfailed
  part := hs.part
  tick := by simp [hs.tick]

/-- Between two ticks a driver may take any worker over. -/
lemma tookOver (hs : Apart setup w h) (w' : Worker) :
    Isolated setup h (.became w') ∧ Apart setup w' (.became w' :: h) := by
  have hphase : phase? h = none := by rw [phase?, hs.part, Option.map_none]
  refine ⟨⟨hs.uncounted, fun _ => hs.tick, fun phase hsome => ?_⟩, ⟨rfl, rfl, hs.unfailed⟩,
    hs.part, ?_⟩
  · rw [hphase] at hsome
    cases hsome
  · simp [hs.tick]

end Apart

namespace Turn

/-- How a turn comes to its end: after a tick, or at once since a stop was requested before. -/
def Concludes (w : Worker) (h h' : History) : Prop :=
  (∃ stats, .published stats ∈ h') ∨ h' = .logged (.stopped w.cursor) :: .looked true :: h

/-- A turn is isolated. -/
lemma isolates_run (hs : Apart setup w h) :
    (run setup w).Meets (isolation setup) h fun turnEnd h' =>
      Apart setup turnEnd.worker h' ∧ Concludes w h h' := by
  rw [run, Program.meets_bind, Program.meets_effect_stopRequested]
  refine fun isStopping _ => ⟨hs.uncounted, ?_⟩
  replace hs := hs.looked isStopping
  cases isStopping with
  | true => exact ⟨trivial, hs.logged _, .inr rfl⟩
  | false =>
    simp only [Bool.false_eq_true, ↓reduceIte, tick, Program.meets_bind]
    refine Program.Meets.mono (Tick.isolates_run hs) ?_
    rintro ⟨⟨⟩, w'⟩ h' hpast
    have hticked : Past setup .deal w' h' := hpast
    have hpublished : Apart setup w' (.published w'.stats :: h') :=
      ⟨⟨hticked.worker_eq, rfl, fun _ _ => rfl⟩, rfl, rfl⟩
    refine ⟨⟨hticked.uncounted, hticked.phase_eq, by rw [hticked.worker_eq]⟩,
      fun isStopping _ => ⟨rfl, ?_⟩⟩
    cases isStopping with
    | true => exact ⟨trivial, (hpublished.looked true).logged _, .inl ⟨w'.stats, by simp⟩⟩
    | false => exact ⟨hpublished.looked false, .inl ⟨w'.stats, by simp⟩⟩

/-- The first turn of a driver is isolated, whatever worker it takes over. -/
lemma isolates_first {w₀ : Worker} (hs : Apart setup w₀ h) (w : Worker) :
    (first setup w).Meets (isolation setup) h fun turnEnd h' =>
      Apart setup turnEnd.worker h' ∧
        Concludes w (.logged (.started w.cursor) :: .became w :: h) h' := by
  obtain ⟨htook, hs⟩ := hs.tookOver w
  simp only [first, Program.meets_bind]
  exact ⟨htook, trivial, isolates_run (hs.logged _)⟩

end Turn

/-- Before its first turn the driver is between two ticks. -/
lemma apart_nil (setup : Setup) : Apart setup (.fresh setup.config) [] :=
  ⟨⟨rfl, rfl, fun _ _ => rfl⟩, rfl, rfl⟩

/-- The phases are isolated in each turn. -/
lemma isolation_upheld (setup : Setup) : (isolation setup).Upheld setup (Apart setup) where
  fresh := apart_nil setup
  broken _ := ⟨⟨rfl, rfl, fun _ _ => rfl⟩, rfl, rfl⟩
  first w _ hs := (Turn.isolates_first hs w).mono fun _ _ => And.left
  turn _ _ hs := (Turn.isolates_run hs).mono fun _ _ => And.left
  answered _ _ _ _ := rfl
  panic _ _ _ := ⟨rfl, .inl ⟨_, _, rfl⟩⟩

/-- **The isolation of the phases.**  In each life of a replicator, whatever its surroundings
supply, the phases of each tick are isolated. -/
theorem Life.isolated {events : List Event} {replicator : Replicator}
    (life : Life setup events replicator) : Along (Isolated setup) (trace events) :=
  life.along (isolation_upheld setup) (along_of_forall fun _ _ _ _ => trivial)

end PieceReplication
