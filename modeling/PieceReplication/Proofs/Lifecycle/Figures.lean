import PieceReplication.Proofs.Admission.Caps
import PieceReplication.Proofs.Indexing.Cursor
import PieceReplication.Proofs.Lifecycle.Ticks

/-!
# The figures that a replicator shows

A replicator shows the figures that were published last, and those of a new worker before any were.
`History.shown` is the list of all figures that it has shown in the course of a history.  Here it is
proved that these are the figures of the worker as it was at the end of each tick that has ended
(`FiguresKept`), whatever happens in between: a tick in progress, a call without an answer, a stop
that is given up, or a driver that breaks off.

As long as no driver breaks off, each worker goes on with what the one before it left
(`FiguresSound`).  Then the cursors that are shown never decrease, the sizes keep to their bounds,
and an idle replicator shows the figures of the worker that it keeps.
-/

namespace PieceReplication

open History

variable {setup : Setup} {h : History} {occurrence : Occurrence} {events : List Event}
  {replicator : Replicator}

/-- The figures shown in the course of a history, the latest first: those of a new worker, and then
the published ones. -/
@[simp] def History.shown (config : Config) : History → List Stats
  | [] => [(Worker.fresh config).stats]
  | occurrence :: earlier =>
    match occurrence with
    | .published stats => stats :: shown config earlier
    | _ => shown config earlier

/-! ## What is shown -/

/-- A replicator after its driver did something shows what the history shows, if it did before. -/
lemma head?_shown_after {driver : Driver}
    (hshown : (shown setup.config h).head? = some replicator.stats) :
    (shown setup.config (occurrence :: h)).head? =
      some (replicator.after occurrence driver).stats := by
  cases occurrence with
  | published stats => rfl
  | _ => exact hshown

/-- A replicator shows the latest of the figures that the history of its driver shows. -/
lemma Life.head?_shown (life : Life setup events replicator) :
    (shown setup.config (trace events)).head? = some replicator.stats := by
  induction life with
  | new => rfl
  | start life hstart ih =>
    unfold Replicator.start at hstart
    split at hstart
    · cases hstart
    · cases hstart
      exact ih
  | requestStop life hrequest ih =>
    unfold Replicator.requestStop at hrequest
    split at hrequest
    · cases hrequest
    · cases hrequest
      exact ih
  | collect life hcollect ih =>
    unfold Replicator.collect? at hcollect
    split at hcollect
    · cases hcollect
      exact ih
    · cases hcollect
      exact ih
    · cases hcollect
  | doze life milliseconds ih =>
    unfold Replicator.doze
    split <;> exact ih
  | wake life hrunning ih =>
    unfold Replicator.wake
    split <;> exact ih
  | step life hrunning hstep ih => exact head?_shown_after ih
  | settle life hrunning pause ih => exact ih

/-! ## The ticks that are shown -/

/-- Where a tick that has ended stands in a history: its figures were published right at its end,
and what happened in it is a run of the tick. -/
def TickRun.EndsIn (setup : Setup) (h : History) (tick : TickRun) : Prop :=
  ∃ later base, h = later ++ .published tick.after.stats :: (tick.course ++ base) ∧
    worker setup.config base = tick.before ∧
    worker setup.config (tick.course ++ base) = tick.after ∧
    Task.Ends unrestricted (Tick.run setup) tick.before [] () tick.after tick.course

/-- A tick that has ended stays where it stands. -/
lemma TickRun.EndsIn.cons {tick : TickRun} (hends : tick.EndsIn setup h) :
    tick.EndsIn setup (occurrence :: h) := by
  obtain ⟨later, base, rfl, hbefore, hafter, hrun⟩ := hends
  exact ⟨occurrence :: later, base, rfl, hbefore, hafter, hrun⟩

/-- A publication shows the figures at the end of a tick. -/
lemma exists_tick_of_published {stats : Stats} (hpaced : Paced setup h (.published stats))
    (hconduct : Conduct setup h (.published stats)) :
    ∃ tick : TickRun, ticks setup.config (.published stats :: h) = tick :: ticks setup.config h ∧
      tick.after.stats = stats ∧ tick.EndsIn setup (.published stats :: h) := by
  obtain ⟨walked, base, rfl, htick, hends⟩ := hpaced.published stats rfl
  obtain ⟨-, rfl⟩ := hconduct
  refine ⟨⟨worker setup.config base, walked, worker setup.config (walked ++ base)⟩, ?_, rfl, [],
    base, rfl, rfl, rfl, hends⟩
  rw [ticks, htick, Option.map_some, List.drop_left]
  rfl

/-- The figures that are shown are those at the ends of the ticks. -/
lemma shown_eq_map_ticks (hpaced : Along (Paced setup) h) (hconduct : Along (Conduct setup) h) :
    shown setup.config h = (ticks setup.config h).map (·.after.stats) ++
      [(Worker.fresh setup.config).stats] := by
  induction h with
  | nil => rfl
  | cons occurrence earlier ih =>
    have hearlier := ih hpaced.2 hconduct.2
    cases occurrence with
    | published stats =>
      obtain ⟨tick, hticks, hstats, -⟩ := exists_tick_of_published hpaced.1 hconduct.1
      rw [hticks, List.map_cons, hstats, shown, hearlier]
      rfl
    | _ => exact hearlier

/-- The ticks of a history have ended in it. -/
lemma endsIn_of_mem_ticks (hpaced : Along (Paced setup) h) (hconduct : Along (Conduct setup) h) :
    ∀ tick ∈ ticks setup.config h, tick.EndsIn setup h := by
  induction h with
  | nil => exact fun _ hmem => absurd hmem List.not_mem_nil
  | cons occurrence earlier ih =>
    have hearlier : ∀ tick ∈ ticks setup.config earlier,
        tick.EndsIn setup (occurrence :: earlier) :=
      fun tick hmem => (ih hpaced.2 hconduct.2 tick hmem).cons
    cases occurrence with
    | published stats =>
      obtain ⟨tick, hticks, -, hends⟩ := exists_tick_of_published hpaced.1 hconduct.1
      rw [hticks]
      intro other hmem
      rcases List.mem_cons.1 hmem with rfl | hmem
      · exact hends
      · exact hearlier other hmem
    | _ => exact hearlier

/-- How the figures that a replicator shows hang together with the ticks of its life. -/
structure FiguresKept (setup : Setup) (events : List Event) (replicator : Replicator) : Prop where
  /-- Each tick that has ended ran from the state in which it began to the one at its end, and was
  published there. -/
  ended : ∀ tick ∈ ticks setup.config (trace events), tick.EndsIn setup (trace events)
  /-- Nothing was ever shown but the figures of a new worker and those at the ends of the ticks. -/
  shown : shown setup.config (trace events) =
    (ticks setup.config (trace events)).map (·.after.stats) ++ [(Worker.fresh setup.config).stats]
  /-- The figures that are shown now are those at the end of the latest tick, whichever driver ran
  it, and those of a new worker before the first one. -/
  latest : replicator.stats = (lastWorker setup.config (ticks setup.config (trace events))).stats

/-- In each life the figures that are shown are those at the ends of the ticks. -/
lemma Life.figuresKept (life : Life setup events replicator) :
    FiguresKept setup events replicator := by
  have hshown := shown_eq_map_ticks life.paced life.conduct
  refine ⟨endsIn_of_mem_ticks life.paced life.conduct, hshown, ?_⟩
  have hhead := life.head?_shown
  rw [hshown] at hhead
  unfold lastWorker
  cases hticks : ticks setup.config (trace events) with
  | nil =>
    rw [hticks] at hhead
    exact (Option.some.inj hhead).symm
  | cons tick earlier =>
    rw [hticks] at hhead
    exact (Option.some.inj hhead).symm

/-! ## Without a break-off -/

/-- Unless the driver breaks off, the cursor never moves back. -/
lemma cursor_le_cons (hconduct : Conduct setup h occurrence) (hne : occurrence ≠ .brokeOff) :
    cursor setup h ≤ cursor setup (occurrence :: h) := by
  have hsame : cursor setup h ≤ cursor setup h := Int64.le_refl _
  cases occurrence with
  | became w =>
    obtain hchanges | ⟨piece, proposal, -, -, rfl⟩ := hconduct.changes_or_starts
    · change cursor setup h ≤ w.cursor
      rcases hchanges.cursor_eq_or_advances with hcursor | ⟨hcursor, -, head, -, hlt⟩
      · rw [hcursor]
        exact hsame
      · rw [hcursor, Int64.le_iff_toInt_le, Epoch.toInt_add_one hlt]
        omega
    · exact hsame
  | brokeOff => exact absurd rfl hne
  | _ => exact hsame

/-- As long as no driver breaks off, the cursors that were shown do not exceed the present one. -/
lemma cursor_le_of_mem_shown (hconduct : Along (Conduct setup) h) (hunbroken : .brokeOff ∉ h) :
    ∀ stats ∈ shown setup.config h, stats.cursor ≤ cursor setup h := by
  induction h with
  | nil =>
    intro stats hmem
    obtain rfl := List.mem_singleton.1 hmem
    exact Int64.le_refl _
  | cons occurrence earlier ih =>
    have hne : occurrence ≠ .brokeOff := by
      rintro rfl
      exact hunbroken List.mem_cons_self
    have hle := cursor_le_cons hconduct.1 hne
    have hearlier : ∀ stats ∈ shown setup.config earlier,
        stats.cursor ≤ cursor setup (occurrence :: earlier) := by
      intro stats hmem
      have hbefore := ih hconduct.2 fun hbroke => hunbroken (List.mem_cons_of_mem _ hbroke)
      exact Int64.le_trans (hbefore stats hmem) hle
    cases occurrence with
    | published latest =>
      intro stats hmem
      rcases List.mem_cons.1 hmem with rfl | hmem
      · obtain ⟨-, rfl⟩ := hconduct.1
        exact Int64.le_refl _
      · exact hearlier stats hmem
    | _ => exact hearlier

/-- As long as no driver breaks off, the cursors that are shown never decrease. -/
lemma pairwise_cursor_shown (hconduct : Along (Conduct setup) h) (hunbroken : .brokeOff ∉ h) :
    (shown setup.config h).Pairwise fun later earlier => earlier.cursor ≤ later.cursor := by
  induction h with
  | nil => exact List.pairwise_singleton _ _
  | cons occurrence earlier ih =>
    have hbefore : .brokeOff ∉ earlier := fun hbroke => hunbroken (List.mem_cons_of_mem _ hbroke)
    cases occurrence with
    | published stats =>
      obtain ⟨⟨-, rfl⟩, hconduct⟩ := hconduct
      exact List.pairwise_cons.2
        ⟨cursor_le_of_mem_shown hconduct hbefore, ih hconduct hbefore⟩
    | _ => exact ih hconduct.2 hbefore

/-- The bounds on the sizes among the figures. -/
structure Stats.Within (setup : Setup) (stats : Stats) : Prop where
  pieces : stats.pieces ≤ setup.capacity
  retrievals : stats.retrievals ≤ setup.capacity
  retrievals_cap : stats.retrievals ≤ setup.config.retrieveParallel.toNat + 1
  deals : stats.deals ≤ setup.capacity
  deals_cap : stats.deals ≤ setup.config.dealParallel.toNat + 1

/-- After a history of proper conduct the worker keeps to the bounds on its sizes. -/
lemma within_of_along (hconduct : Along (Conduct setup) h) :
    (worker setup.config h).stats.Within setup := by
  obtain ⟨hpieces, hretrievals, hdeals⟩ := bounded_of_along hconduct
  refine ⟨hpieces ▸ BoundedMap.size_le _, hretrievals ▸ BoundedMap.size_le _, ?_,
    hdeals ▸ BoundedMap.size_le _, ?_⟩
  · exact BoundedMap.size_eq_length_keys.trans_le ((sound_retrieving setup).length_le hconduct)
  · exact BoundedMap.size_eq_length_keys.trans_le ((sound_dealing setup).length_le hconduct)

/-- The sizes that are shown keep to their bounds. -/
lemma within_of_mem_shown (hconduct : Along (Conduct setup) h) :
    ∀ stats ∈ shown setup.config h, stats.Within setup := by
  induction h with
  | nil =>
    intro stats hmem
    obtain rfl := List.mem_singleton.1 hmem
    exact within_of_along (h := []) trivial
  | cons occurrence earlier ih =>
    cases occurrence with
    | published latest =>
      intro stats hmem
      rcases List.mem_cons.1 hmem with rfl | hmem
      · obtain ⟨⟨-, rfl⟩, hconduct⟩ := hconduct
        exact within_of_along hconduct
      · exact ih hconduct.2 stats hmem
    | _ => exact ih hconduct.2

/-- As long as no driver breaks off, a replicator without a driver keeps a worker. -/
lemma Life.exists_idle (life : Life setup events replicator) (hunbroken : .brokeOff ∉ trace events)
    (hidle : replicator.running = none) : ∃ w, replicator.idle = some w := by
  induction life with
  | new => exact ⟨_, rfl⟩
  | start life hstart ih =>
    unfold Replicator.start at hstart
    split at hstart
    · cases hstart
    · cases hstart
      cases hidle
  | requestStop life hrequest ih =>
    unfold Replicator.requestStop at hrequest
    split at hrequest
    · cases hrequest
    · cases hrequest
      cases hidle
  | collect life hcollect ih =>
    unfold Replicator.collect? at hcollect
    split at hcollect
    · cases hcollect
      exact ⟨_, rfl⟩
    · next isStopping hrunning =>
      -- the driver of which nothing is left has broken off
      have hcloses := life.closes
      rw [Replicator.Closes, hrunning] at hcloses
      exact absurd (List.mem_of_mem_head? hcloses) hunbroken
    · cases hcollect
  | doze life milliseconds ih =>
    unfold Replicator.doze Replicator.setDriver at *
    split at hidle
    · next hrunning =>
      rw [hrunning] at hidle
      cases hidle
    · exact ih hunbroken hidle
  | wake life hrunning ih =>
    unfold Replicator.wake Replicator.setDriver at hidle
    rw [hrunning] at hidle
    cases hidle
  | step life hrunning hstep ih =>
    rw [running_after hrunning] at hidle
    cases hidle
  | settle life hrunning pause ih =>
    unfold Replicator.setDriver at hidle
    rw [hrunning] at hidle
    cases hidle

/-- A stop that returns removes the driver. -/
lemma Life.running_of_collected {result : Except LifecycleError Unit} {earlier : List Event}
    (life : Life setup (.collected result :: earlier) replicator) : replicator.running = none := by
  generalize hevents : Event.collected result :: earlier = events at life
  induction life with
  | collect life hcollect =>
    unfold Replicator.collect? at hcollect
    split at hcollect
    · cases hcollect
      rfl
    · cases hcollect
      rfl
    · cases hcollect
  | doze life milliseconds ih =>
    have hnone := ih hevents
    unfold Replicator.doze
    split
    · next hrunning =>
      rw [hrunning] at hnone
      cases hnone
    · exact hnone
  | settle life hrunning pause ih =>
    rw [ih hevents] at hrunning
    cases hrunning
  | _ => cases hevents

/-- What the figures that a replicator shows keep to as long as no driver breaks off. -/
structure FiguresSound (setup : Setup) (events : List Event) (replicator : Replicator) :
    Prop where
  /-- The cursors that are shown never decrease. -/
  cursors : (shown setup.config (trace events)).Pairwise fun later earlier =>
    earlier.cursor ≤ later.cursor
  /-- The sizes that are shown keep to the capacity and to the caps. -/
  sizes : ∀ stats ∈ shown setup.config (trace events), stats.Within setup
  /-- A replicator without a driver shows the figures of the worker that it keeps. -/
  idle : replicator.running = none → ∃ w, replicator.idle = some w ∧ replicator.stats = w.stats
  /-- It has no driver after each stop that succeeds. -/
  stopped : ∀ earlier, events = .collected (.ok ()) :: earlier → replicator.running = none

/-- **The figures are a snapshot of the worker at the end of a tick.**  In each life of a
replicator, at each moment, the figures that it shows are those of the worker at the end of the
latest tick that has ended, or of a new worker if there is none.  As long as no driver breaks off
the cursors that are shown never decrease, the sizes keep to their bounds, and after a stop that
succeeds the figures are those of the worker that is kept. -/
theorem Life.figures_consistent (life : Life setup events replicator) :
    FiguresKept setup events replicator ∧
      (.brokeOff ∉ trace events → FiguresSound setup events replicator) := by
  refine ⟨life.figuresKept, fun hunbroken => ?_⟩
  refine ⟨pairwise_cursor_shown life.conduct hunbroken, within_of_mem_shown life.conduct, ?_, ?_⟩
  · intro hidle
    obtain ⟨w, hw⟩ := life.exists_idle hunbroken hidle
    refine ⟨w, hw, ?_⟩
    have hkept := life.kept_eq_lastWorker hunbroken hidle
    rw [hw, Option.getD_some] at hkept
    rw [hkept]
    exact life.figuresKept.latest
  · rintro earlier rfl
    exact life.running_of_collected

/-- A session of the sample node that is stopped after its second tick. -/
def Sample.stoppedSession : Session (List ClientDeal) :=
  [.start, .advance 10000, .stop .never].foldl (Session.perform node) (.new Sample.setup [])

/-- The session that is stopped shows a life. -/
lemma Sample.showsLife_stoppedSession : stoppedSession.ShowsLife Sample.setup :=
  Session.showsLife_of_commands node Sample.setup [] _

/-- The figures are consistent in a life with two ticks, after which a stop succeeds. -/
theorem Life.figures_consistent_stopped :
    ∃ events, Life Sample.setup events Sample.stoppedSession.replicator ∧
      .brokeOff ∉ trace events ∧
      (ticks Sample.setup.config (trace events)).length = 2 ∧
      Sample.stoppedSession.replicator.isRunning = false ∧
      Sample.stoppedSession.replicator.stats = ⟨11, 1, 0, 1⟩ ∧
      FiguresKept Sample.setup events Sample.stoppedSession.replicator ∧
      FiguresSound Sample.setup events Sample.stoppedSession.replicator := by
  obtain ⟨events, life, htrace⟩ := Sample.showsLife_stoppedSession
  have hunbroken : .brokeOff ∉ trace events := by
    rw [htrace]
    exact brokeOff_notMem_of_all (by decide +kernel)
  obtain ⟨hkept, hsound⟩ := life.figures_consistent
  refine ⟨events, life, hunbroken, ?_, ?_, ?_, hkept, hsound hunbroken⟩
  · rw [htrace]
    decide +kernel
  · decide +kernel
  · decide +kernel

end PieceReplication
