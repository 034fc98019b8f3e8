import PieceReplication.Proofs.Lifecycle.Pace

/-!
# The ticks of a life

The ticks whose figures were published are read off a history (`History.ticks`): each with the state
of the worker in which it began, what happened in it and the state at its end.  In a life in which
no driver breaks off they make up a chain (`Life.linked`): each tick is a run of the tick from the
state at the end of the one before it, and the first one from a fresh state.  Whatever happens
between two ticks, with however many drivers, leaves no trace in the chain.
-/

namespace PieceReplication

open History

/-- A tick that has ended: the state of the worker in which it began, what happened in it, and the
state of the worker at its end. -/
structure TickRun where
  before : Worker
  course : History
  after : Worker

/-- The ticks of a history that have ended, the latest first. -/
@[simp] def History.ticks (config : Config) : History → List TickRun
  | [] => []
  | occurrence :: earlier =>
    match occurrence with
    | .published _ =>
      ((tick? earlier).map fun walked =>
        ⟨worker config (earlier.drop walked.length), walked, worker config earlier⟩).toList ++
          ticks config earlier
    | _ => ticks config earlier

/-- The state of the worker at the end of the latest tick; a fresh one before the first tick. -/
def lastWorker (config : Config) (ticks : List TickRun) : Worker :=
  (ticks.head?.map TickRun.after).getD (.fresh config)

/-- Whether each tick is a run of the tick that begins in the state at the end of the tick before
it. -/
def Chained (setup : Setup) : List TickRun → Prop
  | [] => True
  | tick :: earlier =>
    (Task.Ends unrestricted (Tick.run setup) tick.before [] () tick.after tick.course ∧
      tick.before = lastWorker setup.config earlier) ∧ Chained setup earlier

variable {setup : Setup} {config : Config} {h base walked : History} {occurrence : Occurrence}

/-- A tick in progress began where none was, and no tick has ended since. -/
lemma exists_of_tick? (htick : tick? h = some walked) :
    ∃ base, h = walked ++ base ∧ tick? base = none ∧ ticks config h = ticks config base := by
  induction h generalizing walked with
  | nil => cases htick
  | cons occurrence earlier ih =>
    -- an occurrence that goes on with the tick, if one was in progress
    have hgoes : ∀ {walked}, (tick? earlier).map (occurrence :: ·) = some walked →
        ticks config (occurrence :: earlier) = ticks config earlier →
        ∃ base, occurrence :: earlier = walked ++ base ∧ tick? base = none ∧
          ticks config (occurrence :: earlier) = ticks config base := by
      intro walked hmap hticks
      obtain ⟨walked', hwalked', rfl⟩ := Option.map_eq_some_iff.1 hmap
      obtain ⟨base, hbase, hnone, hsame⟩ := ih hwalked'
      exact ⟨base, congrArg (occurrence :: ·) hbase, hnone, hticks.trans hsame⟩
    -- an occurrence that begins a tick, if none was in progress
    have hbegins : tick? (occurrence :: earlier) = some (occurrence :: (tick? earlier).getD []) →
        ticks config (occurrence :: earlier) = ticks config earlier →
        ∃ base, occurrence :: earlier = walked ++ base ∧ tick? base = none ∧
          ticks config (occurrence :: earlier) = ticks config base := by
      intro hbegun hticks
      obtain rfl := Option.some.inj (htick.symm.trans hbegun)
      cases hearlier : tick? earlier with
      | none => exact ⟨earlier, rfl, hearlier, hticks⟩
      | some walked' =>
        refine hgoes ?_ hticks
        rw [hearlier]
        rfl
    cases occurrence with
    | called purpose call => exact hbegins rfl rfl
    | entered part => exact hbegins rfl rfl
    | published stats => cases htick
    | brokeOff => cases htick
    | _ => exact hgoes htick rfl

/-- What the driver did since a history in which no tick was in progress makes up the tick in
progress, if there is one. -/
lemma eq_of_tick? (htick : tick? (walked ++ base) = some walked) :
    tick? base = none ∧ ticks config (walked ++ base) = ticks config base := by
  obtain ⟨base', hbase, hnone, hsame⟩ := exists_of_tick? htick
  obtain rfl := List.append_cancel_left hbase
  exact ⟨hnone, hsame⟩

/-- How the ticks of a history hang together, with the one in progress. -/
structure Linked (setup : Setup) (h : History) : Prop where
  chained : Chained setup (ticks setup.config h)
  between : tick? h = none → worker setup.config h = lastWorker setup.config (ticks setup.config h)
  within : ∀ walked base, h = walked ++ base → tick? h = some walked →
    worker setup.config base = lastWorker setup.config (ticks setup.config h)

/-- A call or the beginning of a part keeps the ticks linked. -/
lemma Linked.begun (hlinked : Linked setup h) (hbegins : occurrence.begins = true) :
    Linked setup (occurrence :: h) := by
  have hticks : ticks setup.config (occurrence :: h) = ticks setup.config h := by
    cases occurrence with
    | called purpose call => rfl
    | entered part => rfl
    | _ => cases hbegins
  have htick : tick? (occurrence :: h) = some (occurrence :: (tick? h).getD []) := by
    cases occurrence with
    | called purpose call => rfl
    | entered part => rfl
    | _ => cases hbegins
  refine ⟨hticks ▸ hlinked.chained, ?_, ?_⟩
  · intro hnone
    rw [htick] at hnone
    cases hnone
  · intro walked base hbase hwalked
    rw [htick] at hwalked
    obtain rfl := Option.some.inj hwalked
    rw [hticks]
    cases hearlier : tick? h with
    | none =>
      rw [hearlier] at hbase
      obtain rfl : h = base := (List.cons.inj hbase).2
      exact hlinked.between hearlier
    | some walked' =>
      rw [hearlier] at hbase
      exact hlinked.within walked' base (List.cons.inj hbase).2 hearlier

/-- What neither begins nor ends a tick, and leaves the worker between two ticks as it is, keeps the
ticks linked. -/
lemma Linked.quiet (hlinked : Linked setup h) (hbegins : occurrence.begins = false)
    (hends : occurrence.ends = false)
    (hworker : tick? h = none → worker setup.config (occurrence :: h) = worker setup.config h) :
    Linked setup (occurrence :: h) := by
  have hticks : ticks setup.config (occurrence :: h) = ticks setup.config h := by
    cases occurrence with
    | published stats => cases hends
    | _ => rfl
  have htick : tick? (occurrence :: h) = (tick? h).map (occurrence :: ·) := by
    cases occurrence with
    | called purpose call => cases hbegins
    | entered part => cases hbegins
    | published stats => cases hends
    | brokeOff => cases hends
    | _ => rfl
  refine ⟨hticks ▸ hlinked.chained, ?_, ?_⟩
  · intro hnone
    rw [htick, Option.map_eq_none_iff] at hnone
    rw [hworker hnone, hticks]
    exact hlinked.between hnone
  · intro walked base hbase hwalked
    rw [htick] at hwalked
    obtain ⟨walked', hwalked', rfl⟩ := Option.map_eq_some_iff.1 hwalked
    rw [hticks]
    exact hlinked.within walked' base (List.cons.inj hbase).2 hwalked'

/-- The publication of the figures of a tick adds it to the chain. -/
lemma Linked.published (hlinked : Linked setup h) {stats : Stats}
    (hpaced : Paced setup h (.published stats)) : Linked setup (.published stats :: h) := by
  obtain ⟨walked, base, rfl, htick, hends⟩ := hpaced.published stats rfl
  have hticks : ticks setup.config (.published stats :: (walked ++ base)) =
      ⟨worker setup.config base, walked, worker setup.config (walked ++ base)⟩ ::
        ticks setup.config (walked ++ base) := by
    rw [ticks, htick, Option.map_some, List.drop_left]
    rfl
  refine ⟨?_, ?_, nofun⟩
  · rw [hticks]
    exact ⟨⟨hends, hlinked.within walked base rfl htick⟩, hlinked.chained⟩
  · intro _
    rw [hticks]
    rfl

/-- At the pace of the driver, and as long as no driver breaks off, the ticks are linked. -/
lemma linked_of_along (hpaced : Along (Paced setup) h) (hunbroken : .brokeOff ∉ h) :
    Linked setup h := by
  induction h with
  | nil => exact ⟨trivial, fun _ => rfl, nofun⟩
  | cons occurrence earlier ih =>
    have hlinked : Linked setup earlier :=
      ih hpaced.2 fun hmem => hunbroken (List.mem_cons_of_mem _ hmem)
    cases occurrence with
    | called purpose call => exact hlinked.begun rfl
    | entered part => exact hlinked.begun rfl
    | published stats => exact hlinked.published hpaced.1
    | brokeOff => exact absurd List.mem_cons_self hunbroken
    | became w => exact hlinked.quiet rfl rfl (hpaced.1.tookOver w rfl)
    | _ => exact hlinked.quiet rfl rfl fun _ => rfl

/-- In each life in which no driver breaks off the ticks are linked. -/
lemma Life.linked {events : List Event} {replicator : Replicator}
    (life : Life setup events replicator) (hunbroken : .brokeOff ∉ trace events) :
    Linked setup (trace events) :=
  linked_of_along life.paced hunbroken

/-- In each life in which no driver breaks off, while no driver is registered, the state that is
kept for the next one is that at the end of the latest tick. -/
lemma Life.kept_eq_lastWorker {events : List Event} {replicator : Replicator}
    (life : Life setup events replicator) (hunbroken : .brokeOff ∉ trace events)
    (hidle : replicator.running = none) :
    replicator.idle.getD (.fresh setup.config) =
      lastWorker setup.config (ticks setup.config (trace events)) := by
  have hkeeps :=
    (life.along_and_keeps (pace_upheld setup) (along_of_forall fun _ _ _ _ => trivial)).2
  rw [Replicator.Keeps, hidle, life.setup_eq] at hkeeps
  exact hkeeps.worker_eq.symm.trans ((life.linked hunbroken).between hkeeps.tick?_eq)

end PieceReplication
