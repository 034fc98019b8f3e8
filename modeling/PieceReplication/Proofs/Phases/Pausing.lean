import PieceReplication.Proofs.Lifecycle.Interruption
import PieceReplication.Proofs.Node.Gaps
import PieceReplication.Proofs.Phases.Order
import PieceReplication.Proofs.Run.Replies

/-!
# When the index phase pauses

If the configuration says so, a tick first asks the node for its syncs, and the index phase is left
out while the node is catching up.  What the tick does after the reply (`Tick.afterReply`) is one of
three things: it breaks off, since the gap of a sync does not fit; it runs the index phase, which
reads the head of the chain first; or it goes on with the other two phases, which do nothing that
belongs to the scan of the chain (`unindexed`).  With epochs that are not negative no gap fails to
fit, so the index phase runs exactly if the node replies and no sync leads upwards.

The main result (`SyncStatus.gaps_decide`) puts this together with what the gaps decide.
-/

namespace PieceReplication

open History

variable {σ α : Type} {setup : Setup} {w : Worker} {h : History} {reply : Reply .syncState}
  {status : SyncStatus}

/-! ## Without the index phase -/

/-- Whether a call is one of those that scan the chain: for the head, for the deals of the node, for
a tipset or for what is read of an epoch. -/
def Call.isOfScan : Call → Bool
  | .chainHead => true
  | .clientDeals => true
  | .tipsetAt _ => true
  | call => Indexing.readsEpoch call

/-- Whether something belongs to the scan of the chain: the begin of the index phase, or a call of
the scan. -/
def Occurrence.isOfScan : Occurrence → Bool
  | .entered .indexing => true
  | .called _ call => call.isOfScan
  | _ => false

/-- The contract that nothing of the scan happens, whatever the surroundings supply. -/
def unindexed : Contract where
  rely _ _ := True
  guarantee _ occurrence := occurrence.isOfScan = false

/-- The work of each other part makes no call of the scan. -/
lemma Part.isOfScan_eq_false {part : Part} (hpart : part ≠ .indexing) {call : Call}
    (hcall : part.calls call = true) : call.isOfScan = false := by
  cases part with
  | indexing => exact absurd rfl hpart
  | _ => cases call <;> first | rfl | cases hcall

/-- The work of each other part does nothing of the scan. -/
lemma Part.keeps_unindexed {part : Part} (hpart : part ≠ .indexing) :
    part.Keeps unindexed fun _ => True where
  step h occurrence _ hallows := by
    refine ⟨?_, trivial⟩
    cases occurrence with
    | called purpose call => exact isOfScan_eq_false hpart hallows
    | entered part => exact hallows.elim
    | _ => rfl
  broke _ _ := rfl

/-- The retrieval phase does nothing of the scan. -/
lemma Retrieval.unindexed_run (hworker : worker setup.config h = w) :
    (run setup).Meets unindexed w h (fun _ => Shows setup fun _ => True)
      fun _ => Shows setup fun _ => True :=
  Activity.meets_sweep_scan confined_sweepKey confined_isFull (fun w => confined_scan w.pieces.keys)
    (Part.keeps_unindexed (by decide)) (Part.keeps_unindexed (by decide)) hworker ⟨rfl, trivial⟩
    (fun _ _ => ⟨rfl, trivial⟩) fun _ _ => trivial

/-- The deal phase does nothing of the scan. -/
lemma Dealing.unindexed_run (hworker : worker setup.config h = w) :
    (run setup).Meets unindexed w h (fun _ => Shows setup fun _ => True)
      fun _ => Shows setup fun _ => True :=
  Activity.meets_sweep_scan confined_sweepKey confined_isFull
    (fun w => confined_scan false w.pieces.keys)
    (Part.keeps_unindexed (by decide)) (Part.keeps_unindexed (by decide)) hworker ⟨rfl, trivial⟩
    (fun _ _ => ⟨rfl, trivial⟩) fun _ _ => trivial

namespace Tick

/-- A phase that does nothing of the scan does nothing of it with the report if it is given up. -/
lemma unindexed_runPhase {activity : Activity Unit}
    (hmeets : activity.Meets unindexed w h (fun _ => Shows setup fun _ => True)
      fun _ => Shows setup fun _ => True) (phase : Phase) (report : PhaseError → LogEvent) :
    Task.Meets unindexed (runPhase phase report activity) w h
      fun _ => Shows setup fun _ => True := by
  rw [runPhase, Task.meets_bind]
  refine Task.Meets.mono hmeets fun result w' h' hs => ?_
  cases result with
  | ok value => exact hs
  | error error =>
    simp only [Task.meets_bind, Task.meets_log, Task.meets_count]
    have hshown : Shows setup (fun _ => True) w' h' := hs
    exact ⟨rfl, rfl, hshown.worker_eq, trivial⟩

/-- What comes after the index phase does nothing of the scan. -/
lemma unindexed_replicate (hworker : worker setup.config h = w) :
    Task.Meets unindexed (replicate setup) w h fun _ => Shows setup fun _ => True := by
  rw [replicate, Task.meets_bind]
  refine (unindexed_runPhase (Retrieval.unindexed_run hworker) _ _).mono fun _ w' h' hs => ?_
  exact unindexed_runPhase (Dealing.unindexed_run hs.worker_eq) _ _

/-! ## After the reply -/

/-- The index phase of a tick that is told whether the node is catching up, or that there is no
telling. -/
def indexTold (setup : Setup) : Except PhaseError Bool → Task Unit
  | .ok true => Task.log .catchingUp
  | .ok false => runPhase .index .indexFailed (Indexing.run setup)
  | .error error => do
    Task.log (.syncFailed error)
    Task.count (.phaseErrors .index)

/-- What a tick does after the reply of the node about its syncs. -/
def afterReply (setup : Setup) : Reply .syncState → Task Unit
  | .ok status => do
    let isCatchingUp ← Task.checked status.isCatchingUp
    indexTold setup (.ok isCatchingUp)
    replicate setup
  | .error failure => do
    indexTold setup (.error (.transport failure))
    replicate setup

/-- A tick that may pause asks the node for its syncs first. -/
lemma run_eq_perform (hpause : setup.config.pauseWhileSyncing = true) (w : Worker) :
    (run setup).run w =
      .perform (.call .syncing .syncState) fun reply => (afterReply setup reply).run w := by
  have hindex : index setup = isCatchingUp.run >>= indexTold setup := by
    rw [index, if_pos hpause]
    rfl
  have hsum : ∀ sum : Except Overflow Bool,
      ((Activity.checked sum).run >>= indexTold setup >>= fun _ => replicate setup).run w =
        (Task.checked sum >>= fun isCatchingUp => indexTold setup (.ok isCatchingUp) >>=
          fun _ => replicate setup).run w := by
    intro sum
    cases sum with
    | ok isCatchingUp => rfl
    | error cause =>
      exact congrArg (Program.perform _) (funext fun impossible => impossible.elim)
  change (index setup >>= fun _ => replicate setup).run w = _
  rw [hindex]
  refine congrArg (Program.perform _) (funext fun reply => ?_)
  cases reply with
  | error failure => rfl
  | ok status => exact hsum status.isCatchingUp

/-- After a reply that does not show the node up to date nothing of the scan happens. -/
lemma unindexed_afterReply (hlags : ∀ status, reply = .ok status → status.isCatchingUp ≠ .ok false)
    (hworker : worker setup.config h = w) :
    Task.Meets unindexed (afterReply setup reply) w h fun _ => Shows setup fun _ => True := by
  cases reply with
  | error failure =>
    simp only [afterReply, indexTold, Task.meets_bind, Task.meets_log, Task.meets_count]
    exact ⟨rfl, rfl, unindexed_replicate hworker⟩
  | ok status =>
    replace hlags := hlags status rfl
    rw [afterReply]
    generalize status.isCatchingUp = search at hlags ⊢
    cases search with
    | error cause =>
      have hbroke : Occurrence.brokeOff.isOfScan = false := rfl
      exact hbroke
    | ok isCatchingUp =>
      cases isCatchingUp with
      | true =>
        change Task.Meets unindexed (do Task.log .catchingUp; replicate setup) w h _
        simp only [Task.meets_bind, Task.meets_log]
        exact ⟨rfl, unindexed_replicate hworker⟩
      | false => exact absurd rfl hlags

/-- After a reply that shows the node up to date the index phase begins, and reads the head. -/
lemma exists_perform_enter (setup : Setup) (w : Worker)
    (hstatus : status.isCatchingUp = .ok false) :
    ∃ resume, (afterReply setup (.ok status)).run w =
      .perform (.enter .indexing) fun _ => .perform (.call .indexing .chainHead) resume := by
  rw [afterReply, hstatus]
  exact ⟨_, rfl⟩

/-- After a reply with a gap that is met and does not fit the driver breaks off. -/
lemma exists_perform_overflow {cause : Overflow} (setup : Setup) (w : Worker)
    (hstatus : status.isCatchingUp = .error cause) :
    ∃ resume, (afterReply setup (.ok status)).run w = .perform (.overflow cause) resume := by
  rw [afterReply, hstatus]
  exact ⟨_, rfl⟩

variable {surroundings : Surroundings σ} {isStopping : Bool} {state : σ}

/-- Unless the reply shows the node up to date, nothing of the scan happens after it. -/
lemma isOfScan_eq_false_of_mem
    (hlags : ∀ status, reply = .ok status → status.isCatchingUp ≠ .ok false)
    {occurrence : Occurrence} (hmem : occurrence ∈
      (((afterReply setup reply).run w).execute surroundings isStopping state []).trace) :
    occurrence.isOfScan = false := by
  have hmeets : Task.Meets unindexed (afterReply setup reply) w [.became w]
      fun _ => Shows setup fun _ => True := unindexed_afterReply hlags rfl
  have halong : Along (fun _ occurrence => occurrence.isOfScan = false)
      (((afterReply setup reply).run w).execute surroundings isStopping state
        ([] ++ [.became w])).trace := by
    refine Program.Meets.along_execute hmeets (fun _ _ => trivial) (fun _ _ _ => id) ?_
      (fun _ => rfl) state ⟨rfl, trivial⟩
    rintro _ _ _ _ -
    rfl
  rw [Program.trace_execute_append] at halong
  obtain ⟨-, hnone⟩ := halong.exists_of_mem (List.mem_append_left _ hmem)
  exact hnone

/-- If the reply shows the node up to date, the index phase begins after it and the head is read. -/
lemma entered_and_called_mem (hstatus : status.isCatchingUp = .ok false) :
    let trace :=
      (((afterReply setup (.ok status)).run w).execute surroundings isStopping state []).trace
    .entered .indexing ∈ trace ∧ .called .indexing .chainHead ∈ trace := by
  obtain ⟨resume, hresume⟩ := exists_perform_enter setup w hstatus
  rw [hresume, Program.execute]
  exact ⟨Program.mem_trace_execute List.mem_cons_self, Program.called_mem_trace_execute⟩

end Tick

/-- **What the gaps decide.**  The question whether the node is catching up breaks off exactly if
the gap of some sync does not fit and none before it is positive, and otherwise its answer is
whether some gap is positive.  With epochs that are not negative there is an answer, the same in
each order of the syncs, and a tick that may pause runs the index phase exactly if the node replies
to the question for its syncs and no sync leads upwards: it begins the phase and reads the head of
the chain, and if it does not, it makes no call that scans the chain.  Where the question breaks
off, the driver does. -/
theorem SyncStatus.gaps_decide :
    (∀ status : SyncStatus,
      ((∃ cause, status.isCatchingUp = .error cause) ↔
        ∃ earlier sync later, status.syncs = earlier ++ sync :: later ∧ ¬ sync.Fits ∧
          ∀ other ∈ earlier, ¬ 0 < other.distance) ∧
      ∀ answer, status.isCatchingUp = .ok answer →
        (answer = true ↔ ∃ sync ∈ status.syncs, 0 < sync.distance)) ∧
    (∀ status : SyncStatus, status.IsNonnegative →
      ∃ answer, status.isCatchingUp = .ok answer ∧
        ∀ syncs, syncs.Perm status.syncs → isCatchingUp ⟨syncs⟩ = .ok answer) ∧
    ∀ (setup : Setup) (w : Worker), setup.config.pauseWhileSyncing = true →
      ∃ resume, (Tick.run setup).run w = .perform (.call .syncing .syncState) resume ∧
        ∀ (reply : Reply .syncState) {σ : Type} (surroundings : Surroundings σ)
          (isStopping : Bool) (state : σ),
          (∀ status cause, reply = .ok status → status.isCatchingUp = .error cause →
            (resume reply).execute surroundings isStopping state [] =
              ⟨.broken, state, [.brokeOff]⟩) ∧
          ((∀ status, reply = .ok status → status.IsNonnegative) →
            let trace := ((resume reply).execute surroundings isStopping state []).trace
            let isUpToDate := ∃ status, reply = .ok status ∧ ∀ sync ∈ status.syncs, ¬ sync.IsAhead
            (.entered .indexing ∈ trace ↔ isUpToDate) ∧
            ((∃ purpose, .called purpose .chainHead ∈ trace) ↔ isUpToDate) ∧
            (¬ isUpToDate → ∀ occurrence ∈ trace, occurrence.isOfScan = false)) := by
  refine ⟨fun status => ⟨ActiveSync.isSomeAhead_eq_error_iff, fun answer =>
    ActiveSync.isSomeAhead_eq_ok⟩, fun status hnonneg => ?_, fun setup w hpause => ?_⟩
  · have hfits : ∀ sync ∈ status.syncs, sync.Fits := fun sync hmem => (hnonneg sync hmem).fits
    obtain ⟨answer, hanswer⟩ := ActiveSync.exists_isSomeAhead hfits
    refine ⟨answer, hanswer, fun syncs hperm => ?_⟩
    exact (ActiveSync.isSomeAhead_eq_of_perm hfits hperm).trans hanswer
  · refine ⟨_, Tick.run_eq_perform hpause w, fun reply σ surroundings isStopping state => ⟨?_, ?_⟩⟩
    · rintro status cause rfl hstatus
      obtain ⟨resume, hresume⟩ := Tick.exists_perform_overflow setup w hstatus
      rw [hresume, Program.execute]
    · intro hnonneg trace isUpToDate
      have hcaughtUp : ∀ status, reply = .ok status →
          (status.isCatchingUp = .ok false ↔ ∀ sync ∈ status.syncs, ¬ sync.IsAhead) := by
        intro status hreply
        rw [isCatchingUp_eq_false_iff]
        exact forall₂_congr fun sync hmem => and_iff_right (hnonneg status hreply sync hmem).fits
      have hruns : isUpToDate →
          .entered .indexing ∈ trace ∧ .called .indexing .chainHead ∈ trace := by
        rintro ⟨status, rfl, hnone⟩
        exact Tick.entered_and_called_mem ((hcaughtUp status rfl).2 hnone)
      have hpauses : ¬ isUpToDate → ∀ occurrence ∈ trace, occurrence.isOfScan = false := by
        intro hnot occurrence hmem
        refine Tick.isOfScan_eq_false_of_mem (fun status hreply hstatus => ?_) hmem
        exact hnot ⟨status, hreply, (hcaughtUp status hreply).1 hstatus⟩
      have hscans : ∀ occurrence ∈ trace, occurrence.isOfScan = true → isUpToDate := by
        intro occurrence hmem hscan
        by_contra hnot
        rw [hpauses hnot occurrence hmem] at hscan
        cases hscan
      refine ⟨⟨fun hmem => hscans _ hmem rfl, fun hdue => (hruns hdue).1⟩, ⟨?_, ?_⟩, hpauses⟩
      · rintro ⟨purpose, hmem⟩
        exact hscans _ hmem rfl
      · exact fun hdue => ⟨.indexing, (hruns hdue).2⟩

namespace Sample

/-- A tipset of an epoch. -/
def tipset (epoch : Epoch) : Tipset :=
  ⟨⟨"block"⟩, [], epoch, ⟨[]⟩⟩

/-- A sync that has come to its end. -/
def doneSync : ActiveSync :=
  ⟨some (tipset 30), some (tipset 30)⟩

/-- A sync with epochs left, whose base is missing. -/
def aheadSync : ActiveSync :=
  ⟨none, some (tipset 7)⟩

/-- A sync across all epochs. -/
def distantSync : ActiveSync :=
  ⟨some (tipset Int64.minValue), some (tipset Int64.maxValue)⟩

end Sample

/-- What the gaps decide if one of three does not fit, and in a tick if the only sync leads across
all epochs, has some epochs left or has come to its end. -/
theorem SyncStatus.gaps_decide_distant :
    (∃ cause, isCatchingUp ⟨[Sample.doneSync, Sample.distantSync, Sample.aheadSync]⟩ =
      .error cause) ∧
    (isCatchingUp ⟨[Sample.doneSync, Sample.aheadSync, Sample.distantSync]⟩ = .ok true ∧
      ∃ sync ∈ [Sample.doneSync, Sample.aheadSync, Sample.distantSync], 0 < sync.distance) ∧
    (IsNonnegative ⟨[Sample.doneSync, Sample.aheadSync]⟩ ∧
      isCatchingUp ⟨[Sample.aheadSync, Sample.doneSync]⟩ =
        isCatchingUp ⟨[Sample.doneSync, Sample.aheadSync]⟩) ∧
    Sample.pausingSetup.config.pauseWhileSyncing = true ∧
    ∃ resume, (Tick.run Sample.pausingSetup).run Sample.crowdedWorker =
        .perform (.call .syncing .syncState) resume ∧
      let after sync := (resume (.ok ⟨[sync]⟩)).execute
        (.answering (Sample.crowdedAnswer true)) false () []
      after Sample.distantSync = ⟨.broken, (), [.brokeOff]⟩ ∧
      (.entered .indexing ∈ (after Sample.doneSync).trace ∧
        ∃ purpose, .called purpose .chainHead ∈ (after Sample.doneSync).trace) ∧
      ∀ occurrence ∈ (after Sample.aheadSync).trace, occurrence.isOfScan = false := by
  obtain ⟨hsearch, horder, htick⟩ := gaps_decide
  have hdone : Sample.doneSync.IsNonnegative :=
    ⟨by rintro _ ⟨⟩; decide, by rintro _ ⟨⟩; decide⟩
  have hahead : Sample.aheadSync.IsNonnegative := ⟨by rintro _ ⟨⟩, by rintro _ ⟨⟩; decide⟩
  have hboth : IsNonnegative ⟨[Sample.doneSync, Sample.aheadSync]⟩ :=
    List.forall_mem_cons.2 ⟨hdone, List.forall_mem_singleton.2 hahead⟩
  refine ⟨(hsearch _).1.2 ?_, ?_, ⟨hboth, ?_⟩, rfl, ?_⟩
  · exact ⟨[Sample.doneSync], Sample.distantSync, [Sample.aheadSync], rfl,
      fun hfits => absurd hfits.2 (by decide), List.forall_mem_singleton.2 (by decide)⟩
  · have hanswer : isCatchingUp ⟨[Sample.doneSync, Sample.aheadSync, Sample.distantSync]⟩ =
        .ok true := rfl
    exact ⟨hanswer, ((hsearch _).2 true hanswer).1 rfl⟩
  · obtain ⟨answer, hanswer, hperm⟩ := horder _ hboth
    rw [hperm _ (List.Perm.swap _ _ _), hanswer]
  · obtain ⟨resume, hrun, hafter⟩ := htick Sample.pausingSetup Sample.crowdedWorker rfl
    have htold : ∀ sync : ActiveSync, sync.IsNonnegative →
        ∀ status, Except.ok ⟨[sync]⟩ = (.ok status : Reply .syncState) → status.IsNonnegative := by
      rintro sync hnonneg status ⟨⟩
      exact List.forall_mem_singleton.2 hnonneg
    obtain ⟨hentered, hcalled, -⟩ := (hafter (.ok ⟨[Sample.doneSync]⟩) (.answering
      (Sample.crowdedAnswer true)) false ()).2 (htold _ hdone)
    obtain ⟨-, -, hpauses⟩ := (hafter (.ok ⟨[Sample.aheadSync]⟩) (.answering
      (Sample.crowdedAnswer true)) false ()).2 (htold _ hahead)
    have hreached : ¬ Sample.doneSync.IsAhead := by
      rintro ⟨target, ⟨⟩, hlt⟩
      exact absurd hlt (by decide)
    refine ⟨resume, hrun, (hafter _ _ false ()).1 _ .subtract rfl rfl, ?_, hpauses ?_⟩
    · have hdue : ∀ sync ∈ [Sample.doneSync], ¬ sync.IsAhead :=
        List.forall_mem_singleton.2 hreached
      exact ⟨hentered.2 ⟨_, rfl, hdue⟩, hcalled.2 ⟨_, rfl, hdue⟩⟩
    · rintro ⟨status, ⟨⟩, hnone⟩
      exact hnone Sample.aheadSync List.mem_cons_self ⟨_, rfl, by decide⟩

end PieceReplication
