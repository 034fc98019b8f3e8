import PieceReplication.Proofs.Lifecycle.Interruption
import PieceReplication.Proofs.Lifecycle.Ticks
import PieceReplication.Proofs.Run.Session

/-!
# Restarts leave no trace in the work

What the driver works is the chain of its ticks, and a stop between two ticks followed by a start
only hands the state at the end of the one over to the beginning of the other.  So a life in which
stops are requested between ticks only (`Calm`) has the ticks of a life in which no stop is
requested at all (`exists_life_of_chained`), and two such lives whose ticks are met alike by the
node (`Script`) have the same ticks, as far as the shorter one goes (`suffix_of_met`).

A stop that is requested in a tick cuts its index phase (`TickRun.CutAt`).  Up to the cut the tick
is the same as without the stop, and what comes after the index phase is done all the same.
-/

namespace PieceReplication

open History

variable {setup : Setup} {events : List Event} {replicator : Replicator} {h : History}

/-! ## Calm lives -/

/-- Whether stops are requested between two ticks only: no tick is in progress, and none is cleared
to begin. -/
def Calm : List Event → Prop
  | [] => True
  | event :: earlier =>
    (event = .stopRequested → tick? (trace earlier) = none ∧ ¬ IsCleared (trace earlier)) ∧
      Calm earlier

/-- A stop that is requested while the driver sleeps leaves a life calm. -/
lemma Life.calm_of_asleep (life : Life setup events replicator) (hcalm : Calm events)
    {isStopping : Bool} {worker : Worker} {left : Nat}
    (hasleep : replicator.running = some ⟨isStopping, .asleep worker left⟩) :
    Calm (.stopRequested :: events) := by
  obtain ⟨stats, earlier, heq⟩ := life.exists_of_asleep hasleep
  refine ⟨fun _ => ?_, hcalm⟩
  rw [heq]
  refine ⟨rfl, ?_⟩
  rintro ⟨earlier', heq', hhead⟩
  exact hhead stats ((List.cons.inj heq').2 ▸ rfl)

/-- In a calm life, while a stop is requested, no tick is in progress, and none is cleared to
begin. -/
lemma Life.between_of_stopping (life : Life setup events replicator) (hcalm : Calm events)
    {driver : Driver} (hrunning : replicator.running = some ⟨true, driver⟩) :
    tick? (trace events) = none ∧ ¬ IsCleared (trace events) := by
  induction life generalizing driver with
  | new => cases hrunning
  | start life hstart ih =>
    unfold Replicator.start at hstart
    split at hstart
    · cases hstart
    · cases hstart
      cases hrunning
  | requestStop life hrequest ih => exact hcalm.1 rfl
  | collect life hcollect ih =>
    unfold Replicator.collect? at hcollect
    split at hcollect
    · cases hcollect
      cases hrunning
    · cases hcollect
      cases hrunning
    · cases hcollect
  | doze life milliseconds ih =>
    unfold Replicator.doze at hrunning
    split at hrunning
    · next isStopping worker left hasleep =>
      rw [Replicator.setDriver, hasleep] at hrunning
      obtain ⟨rfl, -⟩ := Running.mk.inj (Option.some.inj hrunning)
      exact ih hcalm hasleep
    · exact ih hcalm hrunning
  | wake life hasleep ih =>
    rw [Replicator.wake, hasleep] at hrunning
    simp only [Replicator.setDriver, hasleep, Option.map_some] at hrunning
    obtain ⟨rfl, -⟩ := Running.mk.inj (Option.some.inj hrunning)
    exact ih hcalm.2 hasleep
  | @step events replicator life isStopping before hbefore occurrence after hstep ih =>
    rw [Life.running_after hbefore] at hrunning
    obtain ⟨rfl, rfl⟩ := Running.mk.inj (Option.some.inj hrunning)
    obtain ⟨hnone, hnot⟩ := ih hcalm.2 hbefore
    have hpaced : Paced setup (trace events) occurrence := (life.step hbefore hstep).paced.1
    have hbegins : occurrence.begins = true → False :=
      fun hbegins => hnot (hpaced.begun hbegins hnone)
    constructor
    · change tick? (occurrence :: trace events) = none
      cases occurrence with
      | called purpose call => exact (hbegins rfl).elim
      | entered part => exact (hbegins rfl).elim
      | published stats => rfl
      | brokeOff => rfl
      | _ => simp [hnone]
    · rintro ⟨earlier, heq, -⟩
      obtain rfl : occurrence = .looked false := (List.cons.inj heq).1
      cases hstep
  | settle life hdone pause ih =>
    rw [Replicator.setDriver, hdone] at hrunning
    obtain ⟨rfl, -⟩ := Running.mk.inj (Option.some.inj hrunning)
    exact ih hcalm hdone

/-- In a calm life, no stop request is found while a tick is in progress. -/
lemma Life.along_calm (life : Life setup events replicator) (hcalm : Calm events) :
    Along (fun h occurrence => occurrence = .looked true → tick? h = none) (trace events) := by
  induction life with
  | new => trivial
  | doze life milliseconds ih => exact ih hcalm
  | settle life hdone pause ih => exact ih hcalm
  | step life hrunning hstep ih =>
    refine ⟨?_, ih hcalm.2⟩
    rintro rfl
    cases hstep
    exact (life.between_of_stopping hcalm.2 hrunning).1
  | start life hstart ih => exact ih hcalm.2
  | requestStop life hrequest ih => exact ih hcalm.2
  | collect life hcollect ih => exact ih hcalm.2
  | wake life hasleep ih => exact ih hcalm.2

/-- If no stop request is found while a tick is in progress, none is found in that tick. -/
lemma not_mem_of_tick? {walked : History}
    (halong : Along (fun h occurrence => occurrence = .looked true → tick? h = none) h)
    (htick : tick? h = some walked) : .looked true ∉ walked := by
  induction h generalizing walked with
  | nil => cases htick
  | cons occurrence earlier ih =>
    have hrest : .looked true ∉ (tick? earlier).getD [] := by
      cases hearlier : tick? earlier with
      | none => exact List.not_mem_nil
      | some walked' => exact ih halong.2 hearlier
    have hne : ∀ {walked}, (tick? earlier).map (occurrence :: ·) = some walked →
        .looked true ∉ walked := by
      intro walked hmap
      obtain ⟨walked', hwalked', rfl⟩ := Option.map_eq_some_iff.1 hmap
      intro hmem
      rcases List.mem_cons.1 hmem with heq | hmem
      · rw [halong.1 heq.symm] at hwalked'
        cases hwalked'
      · exact ih halong.2 hwalked' hmem
    cases occurrence with
    | called purpose call =>
      obtain rfl := Option.some.inj htick
      simpa using hrest
    | entered part =>
      obtain rfl := Option.some.inj htick
      simpa using hrest
    | published stats => cases htick
    | brokeOff => cases htick
    | _ => exact hne htick

/-- If no stop request is found while a tick is in progress, none is found in any tick. -/
lemma not_mem_course_of_along {config : Config}
    (halong : Along (fun h occurrence => occurrence = .looked true → tick? h = none) h) :
    ∀ tick ∈ ticks config h, .looked true ∉ tick.course := by
  induction h with
  | nil => exact fun _ hmem => absurd hmem List.not_mem_nil
  | cons occurrence earlier ih =>
    cases occurrence with
    | published stats =>
      intro tick hmem
      rcases List.mem_append.1 hmem with hmem | hmem
      · obtain ⟨walked, hwalked, rfl⟩ := Option.map_eq_some_iff.1 (Option.mem_toList.1 hmem)
        exact not_mem_of_tick? halong.2 hwalked
      · exact ih halong.2 tick hmem
    | _ => exact ih halong.2

/-! ## Lives without stops -/

/-- Whether a life can go on after some events without a stop, up to the end of a turn. -/
def CanFinish (setup : Setup) (events : List Event) (turnEnd : TurnEnd) (h : History) : Prop :=
  ∃ new replicator, Life setup (new.map .happened ++ events) replicator ∧
    replicator.running = some ⟨false, .active (.done turnEnd)⟩ ∧ h = new ++ trace events ∧
      .brokeOff ∉ new

/-- What can go on after an occurrence can go on with it. -/
lemma CanFinish.of_happened {occurrence : Occurrence} {turnEnd : TurnEnd}
    (hcan : CanFinish setup (.happened occurrence :: events) turnEnd h)
    (hne : occurrence ≠ .brokeOff) : CanFinish setup events turnEnd h := by
  obtain ⟨new, replicator, life, hdone, rfl, hnot⟩ := hcan
  refine ⟨new ++ [occurrence], replicator, ?_, hdone, ?_, by simp [hnot, hne.symm]⟩
  · simpa using life
  · simp [trace, Event.occurrence?]

/-- A run of the driver's program in which no stop is requested is a part of a life. -/
lemma Life.canFinish {program : Program TurnEnd} {turnEnd : TurnEnd} {h' : History}
    (life : Life setup events replicator)
    (hrunning : replicator.running = some ⟨false, .active program⟩)
    (hends : program.Ends Indexing.unstopped (trace events) turnEnd h') :
    CanFinish setup events turnEnd h' := by
  induction program generalizing events replicator with
  | done value =>
    obtain ⟨rfl, rfl⟩ := hends
    exact ⟨[], replicator, life, hrunning, rfl, List.not_mem_nil⟩
  | perform effect resume ih =>
    -- a step that leads to the rest of the program by an answer
    have hnext : ∀ {occurrence : Occurrence} (answer : effect.Answer),
        Driver.Step false (.active (.perform effect resume)) occurrence (.active (resume answer)) →
        (resume answer).Ends Indexing.unstopped (occurrence :: trace events) turnEnd h' →
        occurrence ≠ .brokeOff → CanFinish setup events turnEnd h' :=
      fun answer hstep hends hne =>
        .of_happened (ih answer (life.step hrunning hstep) (running_after hrunning) hends) hne
    cases effect with
    | call purpose call =>
      obtain ⟨reply, -, hends⟩ := hends
      have hcalled := life.step hrunning .call
      have hhanging : (replicator.after (.called purpose call)
          (.hanging purpose call resume)).running =
          some ⟨false, .hanging purpose call resume⟩ := running_after hrunning
      have hanswered := hcalled.step hhanging (.answer reply)
      have hcan := ih reply hanswered (running_after hhanging) hends
      exact (hcan.of_happened nofun).of_happened nofun
    | choose n pos =>
      obtain ⟨choice, -, hends⟩ := hends
      exact hnext choice (.choose choice) hends nofun
    | stopRequested =>
      obtain ⟨answer, rfl, hends⟩ := hends
      exact hnext false .look hends nofun
    | overflow cause => cases hends
    | enter part => exact hnext () .enter hends nofun
    | log event => exact hnext () .log hends nofun
    | count counter => exact hnext () .count hends nofun
    | become worker => exact hnext () .become hends nofun
    | publish stats => exact hnext () .publish hends nofun

/-- A turn in which no stop is requested, made up of a tick. -/
lemma Turn.ends_run {tick : TickRun}
    (hends : Task.Ends Indexing.unstopped (Tick.run setup) tick.before [] () tick.after
      tick.course) :
    (Turn.run setup tick.before).Ends Indexing.unstopped h (.asleep tick.after)
      (.looked false :: .published tick.after.stats :: (tick.course ++ .looked false :: h)) := by
  refine (Program.ends_bind _ _).2 ⟨false, .looked false :: h, ⟨false, rfl, rfl, rfl⟩, ?_⟩
  refine (Program.ends_bind _ _).2 ⟨tick.after, .published tick.after.stats ::
    (tick.course ++ .looked false :: h), ?_, false, rfl, rfl, rfl⟩
  refine (Program.ends_bind _ _).2 ⟨((), tick.after), tick.course ++ .looked false :: h, ?_,
    rfl, rfl⟩
  exact Program.Ends.append (fun _ _ => id) hends

/-- A tick that is worked between two looks is the latest one of the history. -/
lemma ticks_of_ends {tick : TickRun} {stats : Stats} (hbetween : Between setup tick.before h)
    (hends : Task.Ends Indexing.unstopped (Tick.run setup) tick.before [] () tick.after
      tick.course) :
    ticks setup.config
        (.looked false :: .published stats :: (tick.course ++ .looked false :: h)) =
      tick :: ticks setup.config h := by
  have hcleared : IsCleared (.looked false :: h) := ⟨h, rfl, hbetween.head_ne⟩
  have hnone : tick? (.looked false :: h) = none := by simp [hbetween.tick?_eq]
  have hworker : worker setup.config (.looked false :: h) = tick.before := hbetween.worker_eq
  have hrun : Task.Ends (pace setup) (Tick.run setup) tick.before (.looked false :: h) ()
      tick.after (tick.course ++ .looked false :: h) :=
    Program.Ends.append (fun _ _ _ => trivial) hends
  obtain ⟨hafter, walked, hwalked, htick, -⟩ :=
    Program.Meets.post_of_ends (Tick.paces_run hworker hnone hcleared) hrun
  obtain rfl := List.append_cancel_right hwalked
  have hsame : ticks setup.config (tick.course ++ .looked false :: h) = ticks setup.config h :=
    (eq_of_tick? htick).2
  change ((tick? (tick.course ++ .looked false :: h)).map _).toList ++
    ticks setup.config (tick.course ++ .looked false :: h) = _
  rw [htick, hsame, Option.map_some, List.drop_left, hworker, hafter]
  rfl

/-- A life in which no stop was requested and no driver broke off, with its ticks. -/
structure Undisturbed (setup : Setup) (ticks : List TickRun) (events : List Event)
    (replicator : Replicator) : Prop where
  life : Life setup events replicator
  unrequested : .stopRequested ∉ events
  unbroken : .brokeOff ∉ trace events
  ticks_eq : History.ticks setup.config (trace events) = ticks

/-- A life can go on from one tick to the next. -/
lemma Undisturbed.exists_tick {tick : TickRun} {earlier : List TickRun}
    (hundisturbed : Undisturbed setup earlier events replicator)
    (hrunning : replicator.running = some ⟨false, .active (Turn.run setup tick.before)⟩)
    (hbetween : Between setup tick.before (trace events))
    (hends : Task.Ends Indexing.unstopped (Tick.run setup) tick.before [] () tick.after
      tick.course) :
    ∃ events' replicator' left, Undisturbed setup (tick :: earlier) events' replicator' ∧
      replicator'.running = some ⟨false, .asleep tick.after left⟩ := by
  obtain ⟨new, replicator', life, hdone, htrace, hnot⟩ :=
    hundisturbed.life.canFinish hrunning (Turn.ends_run hends)
  refine ⟨_, _, 0, ⟨life.settle hdone 0, ?_, ?_, ?_⟩, ?_⟩
  · simpa using hundisturbed.unrequested
  · rw [trace_map_happened]
    simp [hnot, hundisturbed.unbroken]
  · rw [trace_map_happened, ← htrace, ticks_of_ends hbetween hends, hundisturbed.ticks_eq]
  · rw [Replicator.setDriver, hdone]
    rfl

/-- A life that has just begun can go on to its first tick. -/
lemma exists_first_turn (setup : Setup) :
    ∃ events replicator, Undisturbed setup [] events replicator ∧
      replicator.running = some ⟨false, .active (Turn.run setup (.fresh setup.config))⟩ ∧
      Between setup (.fresh setup.config) (trace events) := by
  have hstarted : Life setup [.started] _ := Life.new.start rfl
  have hbecame := hstarted.step rfl .become
  have hreported := hbecame.step (Life.running_after rfl) .log
  refine ⟨_, _, ⟨hreported, by simp, by simp [trace, Event.occurrence?], rfl⟩, ?_, ⟨rfl, rfl, ?_⟩⟩
  · exact Life.running_after (Life.running_after rfl)
  · rintro stats ⟨⟩

/-- **Stops are not needed.**  For each chain of ticks in which no stop request is found there is a
life with these ticks in which no stop is requested at all. -/
lemma exists_life_of_chained {ticks : List TickRun} (hchained : Chained setup ticks)
    (hlooked : ∀ tick ∈ ticks, .looked true ∉ tick.course) :
    ∃ events replicator, Undisturbed setup ticks events replicator ∧
      (ticks = [] ∨
        ∃ left, replicator.running =
          some ⟨false, .asleep (lastWorker setup.config ticks) left⟩) := by
  induction ticks with
  | nil => exact ⟨[], _, ⟨.new, by simp, List.not_mem_nil, rfl⟩, .inl rfl⟩
  | cons tick earlier ih =>
    obtain ⟨⟨hends, hbefore⟩, hearlier⟩ := hchained
    obtain ⟨hfirst, hrest⟩ := List.forall_mem_cons.1 hlooked
    have hunstopped := Tick.ends_unstopped hends hfirst
    obtain ⟨events, replicator, hundisturbed, hstands⟩ := ih hearlier hrest
    rcases hstands with rfl | ⟨left, hasleep⟩
    · obtain ⟨events, replicator, hundisturbed, hrunning, hbetween⟩ := exists_first_turn setup
      obtain ⟨events', replicator', left, hundisturbed', hasleep⟩ :=
        hundisturbed.exists_tick (hbefore ▸ hrunning) (hbefore ▸ hbetween) hunstopped
      exact ⟨events', replicator', hundisturbed', .inr ⟨left, hasleep⟩⟩
    · -- the driver wakes up in the state in which it went to sleep
      have hkeeps := (hundisturbed.life.along_and_keeps (pace_upheld setup)
        (along_of_forall fun _ _ _ _ => trivial)).2
      rw [Replicator.Keeps, hasleep, ← hbefore] at hkeeps
      have hwoken : Undisturbed setup earlier (.woke :: events) replicator.wake :=
        ⟨hundisturbed.life.wake hasleep, by simpa using hundisturbed.unrequested,
          hundisturbed.unbroken, hundisturbed.ticks_eq⟩
      have hrunning : replicator.wake.running =
          some ⟨false, .active (Turn.run setup tick.before)⟩ := by
        simp [Replicator.wake, hasleep, Replicator.setDriver, hundisturbed.life.setup_eq, hbefore]
      obtain ⟨events', replicator', left', hundisturbed', hasleep'⟩ :=
        hwoken.exists_tick hrunning hkeeps hunstopped
      exact ⟨events', replicator', hundisturbed', .inr ⟨left', hasleep'⟩⟩

/-! ## Two lives -/

/-- How the ticks of a life are met: the reply to each call and the choice among some candidates, by
the number of the tick and by what has happened in it. -/
structure Script where
  reply : Nat → History → (purpose : Purpose) → (call : Call) → Reply call
  choice : Nat → History → Nat → Nat

/-- Whether something that is supplied in a tick is as the script says. -/
def Script.Supplies (script : Script) (n : Nat) (h : History) : Occurrence → Prop
  | .answered purpose call reply => reply = script.reply n h purpose call
  | .chose m choice => choice.val = script.choice n h m
  | _ => True

/-- Whether each tick is met as the script says; the ticks are numbered from the first one on. -/
def Script.Met (script : Script) : List TickRun → Prop
  | [] => True
  | tick :: earlier => Along (script.Supplies earlier.length) tick.course ∧ script.Met earlier

/-- The contract that a tick is met as the script says, and no stop is requested in it. -/
def Script.contract (script : Script) (n : Nat) : Contract where
  rely h occurrence := script.Supplies n h occurrence ∧ Indexing.unstopped.rely h occurrence
  guarantee _ _ := True

/-- A script settles everything that is supplied in a tick. -/
lemma Script.settles (script : Script) (n : Nat) : (script.contract n).Settles where
  reply h purpose call reply reply' hreply hreply' := hreply.1.trans hreply'.1.symm
  choice h m choice choice' hchoice hchoice' := Fin.ext (hchoice.1.trans hchoice'.1.symm)
  look h answer answer' hanswer hanswer' := by
    have hfalse : answer = false := hanswer.2
    have hfalse' : answer' = false := hanswer'.2
    rw [hfalse, hfalse']

/-- In a tick that is met as a script says, and in which no stop request is found, everything that
is supplied is as its contract says. -/
lemma Script.along_contract {script : Script} {n : Nat} {course : History}
    (hmet : Along (script.Supplies n) course) (hlooked : .looked true ∉ course) :
    Along (script.contract n).rely course := by
  induction course with
  | nil => trivial
  | cons occurrence earlier ih =>
    have hearlier : .looked true ∉ earlier := fun hmem => hlooked (List.mem_cons_of_mem _ hmem)
    refine ⟨⟨hmet.1, ?_⟩, ih hmet.2 hearlier⟩
    cases occurrence with
    | looked isStopping =>
      cases isStopping with
      | true => exact absurd List.mem_cons_self hlooked
      | false => rfl
    | _ => trivial

/-- Chains of as many ticks, in which no stop request is found, are the same if they are met
alike. -/
lemma Chained.eq_of_met {script : Script} {ticks ticks' : List TickRun}
    (hchained : Chained setup ticks) (hchained' : Chained setup ticks')
    (hlooked : ∀ tick ∈ ticks, .looked true ∉ tick.course)
    (hlooked' : ∀ tick ∈ ticks', .looked true ∉ tick.course) (hmet : script.Met ticks)
    (hmet' : script.Met ticks') (hlength : ticks.length = ticks'.length) : ticks = ticks' := by
  induction ticks generalizing ticks' with
  | nil => exact (List.length_eq_zero_iff.1 hlength.symm).symm
  | cons tick earlier ih =>
    cases ticks' with
    | nil => cases hlength
    | cons tick' earlier' =>
      obtain ⟨⟨hends, hbefore⟩, hearlier⟩ := hchained
      obtain ⟨⟨hends', hbefore'⟩, hearlier'⟩ := hchained'
      obtain ⟨hfirst, hrest⟩ := List.forall_mem_cons.1 hlooked
      obtain ⟨hfirst', hrest'⟩ := List.forall_mem_cons.1 hlooked'
      obtain rfl : earlier = earlier' :=
        ih hearlier hearlier' hrest hrest' hmet.2 hmet'.2 (Nat.succ.inj hlength)
      obtain ⟨before, course, after⟩ := tick
      obtain ⟨before', course', after'⟩ := tick'
      obtain rfl : before = before' := hbefore.trans hbefore'.symm
      have hrun := Program.Ends.of_along hends (Script.along_contract hmet.1 hfirst)
      have hrun' := Program.Ends.of_along hends' (Script.along_contract hmet'.1 hfirst')
      obtain ⟨hresult, rfl⟩ := hrun.unique (script.settles _) hrun'
      obtain rfl : after = after' := (Prod.mk.inj hresult).2
      rfl

/-- What comes at the end of a chain is a chain. -/
lemma Chained.of_append {later earlier : List TickRun}
    (hchained : Chained setup (later ++ earlier)) :
    Chained setup earlier := by
  induction later with
  | nil => exact hchained
  | cons tick later ih => exact ih hchained.2

/-- What comes at the end of ticks that are met as a script says is met so. -/
lemma Script.Met.of_append {script : Script} {later earlier : List TickRun}
    (hmet : script.Met (later ++ earlier)) : script.Met earlier := by
  induction later with
  | nil => exact hmet
  | cons tick later ih => exact ih hmet.2

/-- **Two chains of ticks.**  Chains of ticks in which no stop request is found, and which are met
alike, are the same as far as the shorter one goes. -/
lemma Chained.suffix_of_met {script : Script} {ticks ticks' : List TickRun}
    (hchained : Chained setup ticks) (hchained' : Chained setup ticks')
    (hlooked : ∀ tick ∈ ticks, .looked true ∉ tick.course)
    (hlooked' : ∀ tick ∈ ticks', .looked true ∉ tick.course) (hmet : script.Met ticks)
    (hmet' : script.Met ticks') (hlength : ticks.length ≤ ticks'.length) : ticks <:+ ticks' := by
  -- the longer chain, cut to the length of the shorter one
  have hsplit := List.take_append_drop (ticks'.length - ticks.length) ticks'
  have hsuffix := List.drop_suffix (ticks'.length - ticks.length) ticks'
  rw [← hsplit] at hchained' hmet'
  have heq : ticks = ticks'.drop (ticks'.length - ticks.length) := by
    refine hchained.eq_of_met hchained'.of_append hlooked ?_ hmet hmet'.of_append ?_
    · exact fun tick hmem => hlooked' tick (hsuffix.subset hmem)
    · rw [List.length_drop]
      omega
  rw [heq]
  exact hsuffix

/-! ## Restarts -/

/-- Whether a tick is a run of the tick in which no stop is requested. -/
def TickRun.Whole (setup : Setup) (tick : TickRun) : Prop :=
  Task.Ends Indexing.unstopped (Tick.run setup) tick.before [] () tick.after tick.course

/-- Whether a stop request, found after some course, ended the index phase of a tick: what came
before is the index phase confined to its first epochs, and what came after is the retrieval and the
deal phase. -/
def TickRun.CutAt (setup : Setup) (tick : TickRun) (walked : History) : Prop :=
  ∃ count boundary rest, tick.course = rest ++ .looked true :: walked ∧
    Task.Ends Indexing.unstopped (Tick.indexOnly setup count) tick.before [] () boundary walked ∧
    Task.Ends Indexing.unstopped (Tick.replicate setup) boundary [] () tick.after rest

/-- A tick in which a stop request is found was cut there.  Another tick that begins in the same
state, is met alike and is not cut has the same course up to the cut. -/
lemma TickRun.exists_cutAt {tick : TickRun}
    (hends : Task.Ends unrestricted (Tick.run setup) tick.before [] () tick.after tick.course)
    (hlooked : .looked true ∈ tick.course) :
    ∃ walked, tick.CutAt setup walked ∧ ∀ (script : Script) (n : Nat) (whole : TickRun),
      whole.Whole setup → whole.before = tick.before →
        Along (script.Supplies n) tick.course → Along (script.Supplies n) whole.course →
          walked <:+ whole.course := by
  obtain ⟨count, boundary, walked, rest, heq, hindexed, hreplicated⟩ :=
    Tick.exists_cut hends hlooked
  refine ⟨walked, ⟨count, boundary, rest, heq, hindexed, hreplicated⟩, ?_⟩
  intro script n whole hwhole hbefore hmet hmet'
  -- both ticks are met as the script says, and up to the look no stop request is found
  rw [heq] at hmet hends
  have hwalked := Script.along_contract (hmet.of_append).2 (Tick.not_mem_of_unstopped hindexed)
  have hrun := Program.Ends.of_along hwhole
    (Script.along_contract hmet' (Tick.not_mem_of_unstopped hwhole))
  rw [hbefore] at hrun
  exact Program.Ends.suffix_of_looked (script.settles n) hwalked
    (Tick.not_mem_of_unstopped hindexed) (List.nil_suffix) hends hrun

/-- What restarts leave of a life: the chain of its ticks, of which those that are cut are cut at
the end of an epoch, and the state at the end of the latest tick for the next driver.  If stops are
requested between ticks only, no tick is cut, the ticks are those of a life without any stop, and
they are the same as in each such life whose ticks are met alike. -/
structure Seamless (setup : Setup) (events : List Event) (replicator : Replicator) : Prop where
  chained : Chained setup (ticks setup.config (trace events))
  whole : ∀ tick ∈ ticks setup.config (trace events), .looked true ∉ tick.course →
    tick.Whole setup
  cut : ∀ tick ∈ ticks setup.config (trace events), .looked true ∈ tick.course →
    ∃ walked, tick.CutAt setup walked ∧ ∀ (script : Script) (n : Nat) (whole : TickRun),
      whole.Whole setup → whole.before = tick.before →
        Along (script.Supplies n) tick.course → Along (script.Supplies n) whole.course →
          walked <:+ whole.course
  handsOver : ∀ replicator', replicator.start = .ok replicator' →
    replicator'.running = some ⟨false,
      .active (Turn.first setup (lastWorker setup.config (ticks setup.config (trace events))))⟩
  uncut : Calm events → ∀ tick ∈ ticks setup.config (trace events), .looked true ∉ tick.course
  unneeded : Calm events → ∃ events' replicator',
    Undisturbed setup (ticks setup.config (trace events)) events' replicator'
  same : Calm events → ∀ (script : Script) events' replicator', Life setup events' replicator' →
    .brokeOff ∉ trace events' → Calm events' →
    script.Met (ticks setup.config (trace events)) →
    script.Met (ticks setup.config (trace events')) →
    (ticks setup.config (trace events)).length ≤ (ticks setup.config (trace events')).length →
      ticks setup.config (trace events) <:+ ticks setup.config (trace events')

/-- Each tick of a chain is a run of the tick. -/
lemma Chained.ends_of_mem {ticks : List TickRun} (hchained : Chained setup ticks) {tick : TickRun}
    (hmem : tick ∈ ticks) :
    Task.Ends unrestricted (Tick.run setup) tick.before [] () tick.after tick.course := by
  induction ticks with
  | nil => cases hmem
  | cons latest earlier ih =>
    rcases List.mem_cons.1 hmem with rfl | hmem
    · exact hchained.1.1
    · exact ih hchained.2 hmem

/-- **Restarts leave no trace in the work.**  In each life in which no driver breaks off, however
often and whenever it is stopped and started, each tick begins in the state in which the one before
it ended, the next driver takes that state over, and a stop that is requested in a tick only ends
its index phase after some whole epochs.  Stops between two ticks change nothing. -/
theorem Life.seamless (life : Life setup events replicator) (hunbroken : .brokeOff ∉ trace events) :
    Seamless setup events replicator := by
  have hchained := (life.linked hunbroken).chained
  have huncut : ∀ {events replicator}, Life setup events replicator → Calm events →
      ∀ tick ∈ ticks setup.config (trace events), .looked true ∉ tick.course :=
    fun life hcalm => not_mem_course_of_along (life.along_calm hcalm)
  refine ⟨hchained, ?_, ?_, ?_, huncut life, ?_, ?_⟩
  · exact fun tick hmem hlooked => Tick.ends_unstopped (hchained.ends_of_mem hmem) hlooked
  · exact fun tick hmem hlooked => TickRun.exists_cutAt (hchained.ends_of_mem hmem) hlooked
  · intro replicator' hstart
    unfold Replicator.start at hstart
    split at hstart
    · cases hstart
    · next hidle =>
      cases hstart
      have hkept := life.kept_eq_lastWorker hunbroken hidle
      rw [life.setup_eq, hkept]
  · intro hcalm
    obtain ⟨events', replicator', hundisturbed, -⟩ :=
      exists_life_of_chained hchained (huncut life hcalm)
    exact ⟨events', replicator', hundisturbed⟩
  · intro hcalm script events' replicator' life' hunbroken' hcalm' hmet hmet' hlength
    have hchained' := (life'.linked hunbroken').chained
    exact hchained.suffix_of_met hchained' (huncut life hcalm) (huncut life' hcalm') hmet hmet'
      hlength

/-- A driver that sleeps can be stopped and started again: in a calm life this goes on to a calm
life, in which the next driver takes over the state with which the last one fell asleep. -/
lemma Life.exists_restarted (life : Life setup events replicator) (hcalm : Calm events)
    {worker : Worker} {left : Nat}
    (hasleep : replicator.running = some ⟨false, .asleep worker left⟩) :
    ∃ replicator', Life setup (.started :: .collected (.ok ()) ::
        .happened (.logged (.stopped worker.cursor)) :: .happened (.looked true) :: .woke ::
          .stopRequested :: events) replicator' ∧
      Calm (.stopRequested :: events) ∧
      replicator'.running = some ⟨false, .active (Turn.first setup worker)⟩ := by
  have hsetup := life.setup_eq
  obtain ⟨_, idle, running, stats⟩ := replicator
  obtain rfl : running = _ := hasleep
  obtain rfl := hsetup
  have hrequested := life.requestStop rfl
  have hwoken := hrequested.wake rfl
  have hlooked := hwoken.step rfl .look
  have hreported := hlooked.step rfl .log
  have hfinished := hreported.settle rfl 0
  have hcollected := hfinished.collect rfl
  exact ⟨_, hcollected.start rfl, life.calm_of_asleep hcalm rfl, rfl⟩

/-- What the driver does leaves a life calm. -/
lemma Calm.append_happened (hcalm : Calm events) (new : History) :
    Calm (new.map .happened ++ events) := by
  induction new with
  | nil => exact hcalm
  | cons occurrence earlier ih => exact ⟨by rintro ⟨⟩, ih⟩

/-- Whether a driver whose program has halted goes to sleep. -/
def Halt.isAsleep : Halt TurnEnd → Bool
  | .done (.asleep _) => true
  | _ => false

/-- A life goes on through a turn after which the driver sleeps, with the state that the history
shows. -/
lemma Life.exists_turn {σ : Type} {surroundings : Surroundings σ} {program : Program TurnEnd}
    {state : σ} {turn : Progress σ TurnEnd} (life : Life setup events replicator)
    (hrunning : replicator.running = some ⟨false, .active program⟩)
    (hturn : program.execute surroundings false state [] = turn)
    (hasleep : turn.halt.isAsleep = true) :
    ∃ replicator', Life setup (turn.trace.map .happened ++ events) replicator' ∧
      replicator'.running =
        some ⟨false, .asleep (worker setup.config (turn.trace ++ trace events)) 0⟩ := by
  have hextends := life.execute surroundings false program state [] hrunning
  rw [hturn] at hextends
  obtain ⟨halt, state', walked⟩ := turn
  obtain ⟨new, htrace, hafter⟩ := hextends
  obtain rfl : walked = new := htrace.trans (List.append_nil new)
  cases halt with
  | done turnEnd =>
    cases turnEnd with
    | asleep w =>
      have hrest := hafter.settle rfl 0
      have hkeeps := (hrest.along_and_keeps (pace_upheld setup)
        (along_of_forall fun _ _ _ _ => trivial)).2
      have hbetween : Between setup w (trace (walked.map .happened ++ events)) := hkeeps
      refine ⟨_, hrest, ?_⟩
      rw [← trace_map_happened, hbetween.worker_eq]
      rfl
    | finished w => cases hasleep
  | hanging purpose call resume => cases hasleep
  | broken => cases hasleep

/-- The events of a life that goes on, while the driver sleeps, to a stop, to its end and to another
driver, which takes the given turn first. -/
def restarted (cursor : Epoch) (turn : History) (earlier : List Event) : List Event :=
  turn.map .happened ++ .started :: .collected (.ok ()) ::
    .happened (.logged (.stopped cursor)) :: .happened (.looked true) :: .woke ::
      .stopRequested :: earlier

/-- What the drivers did in a life that goes on like this. -/
lemma trace_restarted (cursor : Epoch) (turn : History) (earlier : List Event) :
    trace (restarted cursor turn earlier) =
      turn ++ .logged (.stopped cursor) :: .looked true :: trace earlier :=
  trace_map_happened turn

/-- A driver that sleeps after its first turn can be stopped and collected, and another one started
that sleeps after its first turn.  The life is calm. -/
lemma exists_restarted_life {σ : Type} {surroundings : Surroundings σ} {state state' : σ}
    {first second : Progress σ TurnEnd}
    (hfirst : (Turn.first setup (.fresh setup.config)).execute surroundings false state [] = first)
    (hsecond : (Turn.first setup (worker setup.config first.trace)).execute surroundings false
      state' [] = second)
    (hasleep : first.halt.isAsleep = true) (hasleep' : second.halt.isAsleep = true) :
    ∃ cursor turn earlier replicator, Life setup (restarted cursor turn earlier) replicator ∧
      Calm (restarted cursor turn earlier) ∧ trace earlier = first.trace ∧
      trace (restarted cursor turn earlier) = second.trace ++
        .logged (.stopped (worker setup.config first.trace).cursor) :: .looked true ::
          first.trace := by
  have hstarted : Life setup [.started] _ := Life.new.start rfl
  have hbefore : Calm [.started] := ⟨by rintro ⟨⟩, trivial⟩
  have hcalm := hbefore.append_happened first.trace
  have htrace : trace (first.trace.map .happened ++ [.started]) = first.trace :=
    (trace_map_happened _).trans (List.append_nil _)
  obtain ⟨_, hslept, hrunning⟩ := hstarted.exists_turn rfl hfirst hasleep
  rw [← trace_map_happened, htrace] at hrunning
  obtain ⟨_, hrestarted, hrequested, hrunning'⟩ := hslept.exists_restarted hcalm hrunning
  obtain ⟨replicator, life, -⟩ := hrestarted.exists_turn hrunning' hsecond hasleep'
  refine ⟨_, second.trace, _, replicator, life, Calm.append_happened ?_ second.trace, htrace, ?_⟩
  · exact ⟨by rintro ⟨⟩, by rintro ⟨⟩, by rintro ⟨⟩, by rintro ⟨⟩, by rintro ⟨⟩, hrequested⟩
  · rw [trace_restarted, htrace]

namespace Sample

/-- The first turn of a driver that takes some state over, in the sample node. -/
def firstTurn (w : Worker) (deals : List ClientDeal) : Progress (List ClientDeal) TurnEnd :=
  (Turn.first Sample.setup w).execute node false deals []

/-- The first turn of the first driver. -/
def freshTurn : Progress (List ClientDeal) TurnEnd :=
  firstTurn (.fresh Sample.setup.config) []

/-- The state with which the first driver falls asleep. -/
def restingWorker : Worker :=
  worker Sample.setup.config freshTurn.trace

/-- The first turn of the driver that takes this state over. -/
def restedTurn : Progress (List ClientDeal) TurnEnd :=
  firstTurn restingWorker freshTurn.state

/-- What the two drivers did, the first of which was stopped while it slept. -/
def restartedTrace : History :=
  restedTurn.trace ++ .logged (.stopped restingWorker.cursor) :: .looked true :: freshTurn.trace

/-- There is a tick before the restart and one after it. -/
lemma length_ticks_restartedTrace :
    (ticks Sample.setup.config freshTurn.trace).length = 1 ∧
      (ticks Sample.setup.config restartedTrace).length = 2 := by
  constructor <;> decide +kernel

/-- No driver breaks off. -/
lemma unbroken_restartedTrace : .brokeOff ∉ restartedTrace :=
  brokeOff_notMem_of_all (by decide +kernel)

/-- The sample node while it lets each question for the head hang. -/
def hangingNode : Surroundings (List ClientDeal) where
  call
    | deals, .chainHead => (.hang, deals)
    | deals, call => node.call deals call
  release := node.release
  choose := node.choose

/-- A session in which a stop is requested while the driver waits for the head in its first tick,
and another driver is started after it. -/
def interruptedSession : Session (List ClientDeal) :=
  [.start, .stop .cancelled, .release, .stop .never, .start, .release].foldl
    (Session.perform hangingNode) (.new Sample.setup [])

/-- The interrupted session shows a life. -/
lemma showsLife_interruptedSession : interruptedSession.ShowsLife Sample.setup :=
  Session.showsLife_of_commands hangingNode Sample.setup [] _

/-- Whether a stop request was found. -/
def isFound : Occurrence → Bool
  | .looked true => true
  | _ => false

/-- A stop request is found in a history if and only if one of the occurrences is its find. -/
lemma any_isFound_iff : h.any isFound = true ↔ .looked true ∈ h := by
  rw [List.any_eq_true]
  constructor
  · rintro ⟨occurrence, hmem, hfound⟩
    unfold isFound at hfound
    split at hfound
    · exact hmem
    · cases hfound
  · exact fun hmem => ⟨_, hmem, rfl⟩

/-- The interrupted session has two ticks: a stop request is found in the first one, which leaves
the cursor where it was. -/
lemma ticks_interruptedSession :
    (ticks Sample.setup.config interruptedSession.trace).map
      (fun tick => (tick.course.any isFound, tick.after.cursor)) = [(false, 11), (true, 10)] := by
  decide +kernel

end Sample

/-- In one life of the sample node a driver that sleeps is stopped and collected and another one is
started: there is a tick before the restart and one after it.  In another one a stop is requested in
the first tick, which ends before its only epoch, and the next driver indexes that epoch. -/
theorem Life.seamless_sample :
    (∃ cursor turn earlier replicator,
      Life Sample.setup (restarted cursor turn earlier) replicator ∧
      .brokeOff ∉ trace (restarted cursor turn earlier) ∧ Calm (restarted cursor turn earlier) ∧
      (ticks Sample.setup.config (trace earlier)).length = 1 ∧
      (ticks Sample.setup.config (trace (restarted cursor turn earlier))).length = 2 ∧
      Seamless Sample.setup (restarted cursor turn earlier) replicator) ∧
    ∃ events replicator first second,
      Life Sample.setup events replicator ∧ .brokeOff ∉ trace events ∧
      ticks Sample.setup.config (trace events) = [second, first] ∧
      .looked true ∈ first.course ∧ first.after.cursor = 10 ∧
      .looked true ∉ second.course ∧ second.after.cursor = 11 ∧
      (∃ walked, first.CutAt Sample.setup walked) ∧ second.before = first.after ∧
      Seamless Sample.setup events replicator := by
  constructor
  · have hfirst : (Turn.first Sample.setup (.fresh Sample.setup.config)).execute Sample.node false
        [] [] = Sample.freshTurn := rfl
    have hsecond : (Turn.first Sample.setup Sample.restingWorker).execute Sample.node false
        Sample.freshTurn.state [] = Sample.restedTurn := rfl
    obtain ⟨cursor, turn, earlier, replicator, life, hcalm, hearlier, htrace⟩ :=
      exists_restarted_life hfirst hsecond (by decide +kernel) (by decide +kernel)
    replace htrace : trace (restarted cursor turn earlier) = Sample.restartedTrace := htrace
    have hunbroken : .brokeOff ∉ trace (restarted cursor turn earlier) :=
      htrace ▸ Sample.unbroken_restartedTrace
    obtain ⟨hone, htwo⟩ := Sample.length_ticks_restartedTrace
    exact ⟨cursor, turn, earlier, replicator, life, hunbroken, hcalm, hearlier ▸ hone,
      htrace ▸ htwo, life.seamless hunbroken⟩
  · obtain ⟨events, life, htrace⟩ := Sample.showsLife_interruptedSession
    have hunbroken : .brokeOff ∉ trace events :=
      htrace ▸ brokeOff_notMem_of_all (by decide +kernel)
    have hseamless := life.seamless hunbroken
    have hread := Sample.ticks_interruptedSession
    rw [← htrace] at hread
    obtain ⟨second, ticks', hticks, hsecond, hrest⟩ := List.map_eq_cons_iff.1 hread
    obtain ⟨first, nothing, rfl, hfirst, hnothing⟩ := List.map_eq_cons_iff.1 hrest
    obtain rfl := List.map_eq_nil_iff.1 hnothing
    obtain ⟨hfound, hstays⟩ := Prod.mk.inj hfirst
    obtain ⟨hfound', hmoves⟩ := Prod.mk.inj hsecond
    have hlooked : .looked true ∈ first.course := Sample.any_isFound_iff.1 hfound
    have hlooked' : .looked true ∉ second.course := by
      rw [← Sample.any_isFound_iff, hfound']
      exact Bool.false_ne_true
    have hcut := hseamless.cut first (hticks ▸ List.mem_cons_of_mem _ List.mem_cons_self) hlooked
    have hchained : Chained Sample.setup [second, first] := hticks ▸ hseamless.chained
    exact ⟨events, _, first, second, life, hunbroken, hticks, hlooked, hstays, hlooked',
      hmoves, hcut.imp fun _ => And.left, hchained.1.2, hseamless⟩

end PieceReplication
