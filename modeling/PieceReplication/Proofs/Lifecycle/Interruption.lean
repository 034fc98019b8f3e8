import PieceReplication.Proofs.Indexing.Cursor
import PieceReplication.Proofs.Lifecycle.Pace

/-!
# Ticks that are interrupted

A tick looks for a stop request before each epoch of its index phase and nowhere else.  If it finds
one, the index phase ends there, and the retrieval and the deal phase run as in any other tick.  So
a tick in which a stop request is found falls into three: a run of the index phase confined to its
first epochs (`Tick.indexOnly`), the look, and a run of the other two phases
(`Tick.exists_cut`).

What is interrupted is told apart from what is not by its structure: `Task.Quiet` says that a task
finds no stop request, and `Task.CutTo` that a task which finds one comes to the same end as a
confined one.
-/

namespace PieceReplication

open Activity

variable {α β : Type} {setup : Setup}

/-! ## Confined phases -/

/-- The index phase, confined to its first epochs. -/
def Indexing.runOnly (setup : Setup) (count : Nat) : Activity Unit := do
  enter .indexing
  let head ← chainRead .indexing .chainHead
  let clientDeals ← chainRead .indexing .clientDeals
  let worker ← get
  indexEpochs setup clientDeals (min count (worker.cursor.stepsTo head.epoch))

namespace Tick

/-- Runs an activity as the index phase, unless the phase has to pause. -/
def indexBy (setup : Setup) (activity : Activity Unit) : Task Unit := do
  if setup.config.pauseWhileSyncing then
    match ← isCatchingUp.run with
    | .ok true => Task.log .catchingUp
    | .ok false => runPhase .index .indexFailed activity
    | .error error =>
      Task.log (.syncFailed error)
      Task.count (.phaseErrors .index)
  else
    runPhase .index .indexFailed activity

/-- Runs the index phase, confined to its first epochs, unless it has to pause. -/
def indexOnly (setup : Setup) (count : Nat) : Task Unit :=
  indexBy setup (Indexing.runOnly setup count)

/-- What comes after the index phase: the retrieval and the deal phase. -/
def replicate (setup : Setup) : Task Unit := do
  runPhase .retrieve .retrieveFailed (Retrieval.run setup)
  runPhase .deal .dealFailed (Dealing.run setup)

/-- A tick is the index phase and what comes after it. -/
lemma run_eq (setup : Setup) :
    run setup = indexBy setup (Indexing.run setup) >>= fun _ => replicate setup := rfl

end Tick

/-! ## Quiet tasks -/

/-- Whether a task finds no stop request, whatever it is supplied with. -/
def Task.Quiet (task : Task α) : Prop :=
  ∀ w h result w' h', task.Ends unrestricted w h result w' h' → .looked true ∉ h →
    .looked true ∉ h'

/-- Whether an activity finds no stop request, whatever it is supplied with. -/
def Activity.Quiet (activity : Activity α) : Prop :=
  Task.Quiet activity.run

namespace Task.Quiet

lemma pure (value : α) : Quiet (Pure.pure value : Task α) := by
  rintro w h _ _ _ ⟨⟨⟩, rfl⟩
  exact id

lemma bind {task : Task α} {next : α → Task β} (hfirst : task.Quiet)
    (hnext : ∀ value, (next value).Quiet) : (task >>= next).Quiet := by
  intro w h result w' h' hends hlooked
  obtain ⟨value, w₁, h₁, hfirst', hnext'⟩ := (Task.ends_bind task next).1 hends
  exact hnext value w₁ h₁ result w' h' hnext' (hfirst w h value w₁ h₁ hfirst' hlooked)

lemma log (event : LogEvent) : Quiet (Task.log event) := by
  rintro w h _ _ _ ⟨⟨⟩, rfl⟩ hlooked
  simpa using hlooked

lemma count (counter : Counter) : Quiet (Task.count counter) := by
  rintro w h _ _ _ ⟨⟨⟩, rfl⟩ hlooked
  simpa using hlooked

end Task.Quiet

namespace Activity.Quiet

lemma bind {activity : Activity α} {next : α → Activity β} (hfirst : activity.Quiet)
    (hnext : ∀ value, (next value).Quiet) : (activity >>= next).Quiet := by
  refine Task.Quiet.bind hfirst fun result => ?_
  cases result with
  | ok value => exact hnext value
  | error error => exact .pure _

lemma enter (part : Part) : Quiet (Activity.enter part) := by
  rintro w h _ _ _ ⟨⟨⟩, rfl⟩ hlooked
  simpa using hlooked

lemma get : Quiet (MonadState.get : Activity Worker) := by
  rintro w h _ _ _ ⟨⟨⟩, rfl⟩
  exact id

lemma chainRead (purpose : Purpose) (call : Call) : Quiet (Activity.chainRead purpose call) := by
  refine Activity.Quiet.bind ?_ ?_
  · rintro w h _ _ _ ⟨reply, -, ⟨⟩, rfl⟩ hlooked
    simpa using hlooked
  · intro reply
    cases reply <;> exact Task.Quiet.pure _

lemma request (purpose : Purpose) (call : Call) : Quiet (Activity.request purpose call) := by
  refine Activity.Quiet.bind ?_ ?_
  · rintro w h _ _ _ ⟨reply, -, ⟨⟩, rfl⟩ hlooked
    simpa using hlooked
  · intro reply
    cases reply <;> exact Task.Quiet.pure _

lemma checked (sum : Except Overflow α) : Quiet (Activity.checked sum) := by
  cases sum with
  | ok value => exact Task.Quiet.pure _
  | error cause => exact fun _ _ _ _ _ hends => hends.elim

/-- What is confined to the work of a part finds no stop request. -/
lemma of_confined {part : Part} {activity : Activity α}
    (hconfined : activity.Confined setup part) : activity.Quiet := by
  intro w h result w' h' hends hlooked
  -- the run on top of a history that shows the state in which it begins
  obtain ⟨walked, rfl, hwalk⟩ : ∃ walked, h' = walked ++ h ∧
      Activity.Ends unrestricted activity w [] result w' walked :=
    Program.Ends.exists_walk (fun _ _ _ => trivial) hends
  have hshown : Activity.Ends (confined part) activity w [.became w] result w'
      (walked ++ [.became w]) :=
    Program.Ends.append (fun _ _ _ => trivial) hwalk
  have hkeeps : part.Keeps (confined part) fun h => .looked true ∉ h := by
    refine ⟨fun h occurrence hnot hallowed => ⟨fun _ => hallowed, ?_⟩, fun _ _ => absurd rfl⟩
    intro hmem
    rcases List.mem_cons.1 hmem with rfl | hmem
    · exact hallowed
    · exact hnot hmem
  have hmeets := Program.Meets.of_confined (hconfined [.became w]) hkeeps (by simp)
  have hnot := (hmeets.post_of_ends hshown).2
  intro hmem
  rcases List.mem_append.1 hmem with hmem | hmem
  · exact hnot (List.mem_append_left _ hmem)
  · exact hlooked hmem

end Activity.Quiet

/-- A phase that sweeps some keys and then scans, unless that left too many, finds no stop
request. -/
lemma Activity.quiet_sweep_scan {sweep scan : Part} {keys : Worker → List Cid}
    {visit : Cid → Activity Unit} {isFull : Activity Bool} {walk : Worker → Activity Unit}
    (hvisit : ∀ key, (visit key).Confined setup sweep) (hfull : isFull.Confined setup sweep)
    (hwalk : ∀ w, (walk w).Confined setup scan) :
    Quiet (do
      enter sweep
      (keys (← get)).forM visit
      unless ← isFull do
        enter scan
        walk (← get)) := by
  refine (Quiet.enter sweep).bind fun _ => Quiet.get.bind fun w => ?_
  refine (Quiet.of_confined (Confined.forM hvisit (keys w))).bind fun _ => ?_
  refine (Quiet.of_confined hfull).bind fun isFull => ?_
  cases isFull with
  | true => exact Task.Quiet.pure _
  | false => exact (Quiet.enter scan).bind fun _ => Quiet.get.bind fun w => .of_confined (hwalk w)

namespace Tick

/-- A phase that finds no stop request does so together with the report if it is given up. -/
lemma quiet_runPhase {activity : Activity Unit} (hquiet : activity.Quiet) (phase : Phase)
    (report : PhaseError → LogEvent) : Task.Quiet (runPhase phase report activity) := by
  refine Task.Quiet.bind hquiet fun result => ?_
  cases result with
  | ok value => exact .pure _
  | error error => exact (Task.Quiet.log _).bind fun _ => .count _

/-- The retrieval and the deal phase look for no stop request. -/
lemma quiet_replicate : Task.Quiet (replicate setup) := by
  refine (quiet_runPhase ?_ _ _).bind fun _ => quiet_runPhase ?_ _ _
  · exact quiet_sweep_scan Retrieval.confined_sweepKey Retrieval.confined_isFull
      fun w => Retrieval.confined_scan w.pieces.keys
  · exact quiet_sweep_scan Dealing.confined_sweepKey Dealing.confined_isFull
      fun w => Dealing.confined_scan false w.pieces.keys

/-- The question whether the node is catching up finds no stop request. -/
lemma quiet_isCatchingUp : Activity.Quiet isCatchingUp :=
  (Quiet.request _ _).bind fun _ => .checked _

end Tick

/-! ## Interrupted tasks -/

/-- Whether a run of a task, if it finds a stop request, is up to the look one of a confined task,
and ends there with a result. -/
def Task.CutTo (full : Task α) (value : α) (short : Nat → Task α) : Prop :=
  ∀ w h result w' h', full.Ends unrestricted w h result w' h' → .looked true ∉ h →
    .looked true ∉ h' ∨ ∃ count walked, h' = .looked true :: walked ∧ .looked true ∉ walked ∧
      result = value ∧ (short count).Ends unrestricted w h value w' walked

/-- Whether a run of an activity, if it finds a stop request, is up to the look one of a confined
activity. -/
def Activity.CutTo (full : Activity Unit) (short : Nat → Activity Unit) : Prop :=
  Task.CutTo full.run (.ok ()) fun count => (short count).run

/-- A quiet task is not interrupted. -/
lemma Task.CutTo.of_quiet {full : Task α} {value : α} {short : Nat → Task α}
    (hquiet : full.Quiet) : CutTo full value short :=
  fun w h result w' h' hends hlooked => .inl (hquiet w h result w' h' hends hlooked)

/-- A task that begins with a quiet one is interrupted in what follows. -/
lemma Task.CutTo.bind {first : Task α} {next : α → Task β} {value : β}
    {short : α → Nat → Task β} (hfirst : first.Quiet)
    (hnext : ∀ result, CutTo (next result) value (short result)) :
    CutTo (first >>= next) value fun count => first >>= fun result => short result count := by
  intro w h result w' h' hends hlooked
  obtain ⟨result₁, w₁, h₁, hends₁, hends₂⟩ := (Task.ends_bind first next).1 hends
  have hlooked₁ := hfirst w h result₁ w₁ h₁ hends₁ hlooked
  obtain hnot | ⟨count, walked, hwalked, hnot, hvalue, hshort⟩ :=
    hnext result₁ w₁ h₁ result w' h' hends₂ hlooked₁
  · exact .inl hnot
  · exact .inr ⟨count, walked, hwalked, hnot, hvalue,
      (Task.ends_bind _ _).2 ⟨result₁, w₁, h₁, hends₁, hshort⟩⟩

/-- An activity that begins with a quiet one is interrupted in what follows. -/
lemma Activity.CutTo.bind {first : Activity α} {next : α → Activity Unit}
    {short : α → Nat → Activity Unit} (hfirst : first.Quiet)
    (hnext : ∀ value, CutTo (next value) (short value)) :
    CutTo (first >>= next) fun count => first >>= fun value => short value count := by
  have hcut : ∀ result, Task.CutTo (ExceptT.bindCont next result) (.ok ()) fun count =>
      ExceptT.bindCont (fun value => short value count) result := by
    intro result
    cases result with
    | ok value => exact hnext value
    | error error => exact .of_quiet (.pure _)
  exact Task.CutTo.bind hfirst hcut

namespace Indexing

variable {clientDeals : List ClientDeal}

/-- The indexing of the epoch at the cursor, and the move of the cursor. -/
def indexNext (setup : Setup) (clientDeals : List ClientDeal) : Activity Unit := do
  let height := (← get).cursor
  let tipset ← chainRead .indexing (.tipsetAt height)
  if tipset.epoch = height then
    indexTipset setup clientDeals height tipset
  advance

/-- A look for a stop request, one epoch, and the rest of the walk. -/
lemma indexEpochs_succ (count : Nat) :
    indexEpochs setup clientDeals (count + 1) = (do
      if ← stopRequested then
        return
      indexNext setup clientDeals
      indexEpochs setup clientDeals count) := by
  rw [indexEpochs, indexNext]
  refine congrArg (stopRequested >>= ·) (funext fun isStopping => ?_)
  cases isStopping with
  | true => rfl
  | false =>
    simp only [Bool.false_eq_true, ↓reduceIte, bind_assoc]
    refine congrArg (MonadState.get >>= ·) (funext fun w => ?_)
    refine congrArg (chainRead _ _ >>= ·) (funext fun tipset => ?_)
    split <;> simp [bind_assoc]

/-- The indexing of an epoch finds no stop request. -/
lemma quiet_indexNext : (indexNext setup clientDeals).Quiet := by
  refine Quiet.get.bind fun w => (Quiet.chainRead _ _).bind fun tipset => ?_
  have hconfined : advance.Confined setup .indexing := confined_advance
  have hadvance := Quiet.of_confined hconfined
  split
  · exact (Quiet.of_confined (confined_indexTipset clientDeals _ tipset)).bind fun _ => hadvance
  · exact hadvance

/-- The walk over the epochs, if it finds a stop request, ends after some whole epochs. -/
lemma cutTo_indexEpochs (count : Nat) :
    CutTo (indexEpochs setup clientDeals count) fun bound =>
      indexEpochs setup clientDeals (min bound count) := by
  induction count with
  | zero => exact .of_quiet (.pure _)
  | succ count ih =>
    intro w h result w' h' hends hlooked
    rw [indexEpochs_succ] at hends
    obtain ⟨isStopping, _, _, ⟨_, -, ⟨⟩, rfl⟩, hends⟩ | ⟨_, ⟨_, -, ⟨⟩, -⟩, -⟩ :=
      (ends_bind _ _).1 hends
    cases isStopping with
    | true =>
      obtain ⟨⟨⟩, rfl⟩ := hends
      refine .inr ⟨0, h, rfl, hlooked, rfl, ?_⟩
      change Task.Ends unrestricted
        (indexEpochs setup clientDeals (min 0 (count + 1))).run w h _ w h
      rw [Nat.zero_min]
      exact ⟨rfl, rfl⟩
    | false =>
      have hnext : (indexNext setup clientDeals).Quiet := quiet_indexNext
      have hrest := CutTo.bind hnext fun _ => ih
      obtain hnot | ⟨bound, walked, hwalked, hnot, hvalue, hshort⟩ :=
        hrest w _ result w' h' hends (by simpa using hlooked)
      · exact .inl hnot
      · refine .inr ⟨bound + 1, walked, hwalked, hnot, hvalue, ?_⟩
        change Task.Ends unrestricted
          (indexEpochs setup clientDeals (min (bound + 1) (count + 1))).run w h _ w' walked
        rw [Nat.add_min_add_right, indexEpochs_succ]
        refine (ends_bind _ _).2 (.inl ⟨false, w, .looked false :: h, ?_, hshort⟩)
        exact ⟨false, trivial, rfl, rfl⟩

/-- The index phase, if it finds a stop request, ends after some whole epochs. -/
lemma cutTo_run : CutTo (run setup) (runOnly setup) := by
  refine CutTo.bind (.enter .indexing) fun _ => CutTo.bind (.chainRead _ _) fun head => ?_
  refine CutTo.bind (.chainRead _ _) fun clientDeals => CutTo.bind .get fun worker => ?_
  exact cutTo_indexEpochs _

end Indexing

namespace Tick

/-- A phase that is interrupted is not given up, and nothing is reported. -/
lemma cutTo_runPhase {full : Activity Unit} {short : Nat → Activity Unit} (hcut : full.CutTo short)
    (phase : Phase) (report : PhaseError → LogEvent) :
    Task.CutTo (runPhase phase report full) ()
      fun count => runPhase phase report (short count) := by
  intro w h result w' h' hends hlooked
  obtain ⟨value, w₁, h₁, hfirst, hnext⟩ := (Task.ends_bind _ _).1 hends
  obtain hnot | ⟨count, walked, rfl, hnot, rfl, hshort⟩ := hcut w h value w₁ h₁ hfirst hlooked
  · have hquiet : Task.Quiet (runPhase phase report (ExceptT.mk (pure value))) :=
      quiet_runPhase (.pure value) phase report
    exact .inl (hquiet w₁ h₁ result w' h' hnext hnot)
  · obtain ⟨⟨⟩, rfl⟩ := hnext
    exact .inr ⟨count, walked, rfl, hnot, rfl,
      (Task.ends_bind _ _).2 ⟨.ok (), w', walked, hshort, rfl, rfl⟩⟩

/-- The index phase of a tick, if it finds a stop request, ends after some whole epochs. -/
lemma cutTo_index :
    Task.CutTo (indexBy setup (Indexing.run setup)) () (indexOnly setup) := by
  have hrun : CutTo (Indexing.run setup) (Indexing.runOnly setup) := Indexing.cutTo_run
  have hphase := cutTo_runPhase hrun .index .indexFailed
  unfold indexOnly indexBy
  split
  · refine Task.CutTo.bind quiet_isCatchingUp fun isCatchingUp => ?_
    rcases isCatchingUp with error | isCatchingUp
    · exact .of_quiet ((Task.Quiet.log _).bind fun _ => .count _)
    · cases isCatchingUp with
      | true => exact .of_quiet (.log _)
      | false => exact hphase
  · exact hphase

/-- A run in which no stop request is found is one in which none is requested. -/
lemma ends_unstopped {task : Task α} {w w' : Worker} {h h' : History} {result : α}
    (hends : task.Ends unrestricted w h result w' h') (hlooked : .looked true ∉ h') :
    task.Ends Indexing.unstopped w h result w' h' := by
  refine Program.Ends.of_along hends
    (History.along_of_forall fun later occurrence earlier heq => ?_)
  cases occurrence with
  | looked isStopping =>
    cases isStopping with
    | true => exact absurd (by simp [heq]) hlooked
    | false => rfl
  | _ => trivial

/-- In a run in which no stop is requested none is found. -/
lemma not_mem_of_unstopped {task : Task α} {w w' : Worker} {h' : History} {result : α}
    (hends : task.Ends Indexing.unstopped w [] result w' h') : .looked true ∉ h' := by
  have halong : History.Along (fun _ occurrence => occurrence ≠ .looked true) h' := by
    refine Program.Ends.along hends ?_ trivial
    rintro h _ hsupplied rfl
    cases hsupplied rfl
  intro hmem
  obtain ⟨earlier, hne⟩ := halong.exists_of_mem hmem
  exact hne rfl

/-- **Interrupted ticks.**  A tick in which a stop request is found falls into the index phase,
confined to its first epochs, the look, and all of the other two phases. -/
theorem exists_cut {w w' : Worker} {course : History}
    (hends : Task.Ends unrestricted (run setup) w [] () w' course)
    (hlooked : .looked true ∈ course) :
    ∃ count boundary walked rest, course = rest ++ .looked true :: walked ∧
      Task.Ends Indexing.unstopped (indexOnly setup count) w [] () boundary walked ∧
      Task.Ends Indexing.unstopped (replicate setup) boundary [] () w' rest := by
  rw [run_eq] at hends
  obtain ⟨_, boundary, h₁, hindexed, hreplicated⟩ := (Task.ends_bind _ _).1 hends
  obtain hnot | ⟨count, walked, rfl, hnot, -, hshort⟩ :=
    cutTo_index w [] () boundary h₁ hindexed List.not_mem_nil
  · exact absurd hlooked (quiet_replicate boundary h₁ () w' course hreplicated hnot)
  · -- the two phases do not depend on what was before them
    obtain ⟨rest, rfl, hrest⟩ : ∃ rest, course = rest ++ .looked true :: walked ∧
        Task.Ends unrestricted (replicate setup) boundary [] () w' rest :=
      Program.Ends.exists_walk (fun _ _ _ => trivial) hreplicated
    have hquiet := quiet_replicate boundary [] () w' rest hrest List.not_mem_nil
    exact ⟨count, boundary, walked, rest, rfl, ends_unstopped hshort hnot,
      ends_unstopped hrest hquiet⟩

end Tick

end PieceReplication
