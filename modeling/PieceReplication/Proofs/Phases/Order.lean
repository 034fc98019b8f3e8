import PieceReplication.Proofs.Lifecycle.Ticks
import PieceReplication.Proofs.Phases.Turns
import PieceReplication.Proofs.Run.Reach

/-!
# A tick runs its phases in order

A driver may take any worker over.  What it does in its first turn, and where it can come to stand
in it, is left to what it is supplied with and to when a stop is requested (`Driver.Reaches`).  The
phases are isolated in that turn, so what happened in it shows the following.

From one moment of a phase to another, however it goes on or comes to its end, the state changes
only as `Phase.Leaves` says (`leaves_of_along`).  A tick comes to its end only through all of its
phases, of which the index phase alone may have been left out (`RunsThrough`); while the node is
syncing it is left out, and then it changes nothing (`Paused`).  And if the node replies to each
call, the turn goes on to its end unless a sum does not fit (`Turn.goesOn`).

The main result puts these together (`Turn.phases_isolated`).
-/

namespace PieceReplication

open History

variable {setup : Setup} {w : Worker} {h base walked : History} {occurrence : Occurrence}
  {phase : Phase} {driver : Driver}

/-! ## What a phase leaves alone -/

/-- A step within a phase leaves alone what the phase does. -/
lemma Isolated.leaves (hisolated : Isolated setup h occurrence) (hphase : phase? h = some phase)
    (hlater : phase? (occurrence :: h) = some phase) :
    phase.Leaves (fun _ => True) (worker setup.config h)
      (worker setup.config (occurrence :: h)) := by
  cases occurrence with
  | became w => exact hisolated.2.2 phase hphase
  | brokeOff => cases hlater
  | _ => exact Phase.leaves_rfl phase _

/-- **The frame of a phase.**  From one moment of a phase to another it leaves alone what it does,
with the pieces that stay all the time. -/
lemma leaves_of_along (hisolated : Along (Isolated setup) (walked ++ base))
    (hphase : ∀ between, base <:+ between → between <:+ walked ++ base →
      phase? between = some phase) :
    phase.Leaves (fun key => Stays setup key base (walked ++ base)) (worker setup.config base)
      (worker setup.config (walked ++ base)) := by
  induction walked with
  | nil => exact Phase.leaves_rfl phase _
  | cons occurrence earlier ih =>
    rw [List.cons_append] at hisolated hphase ⊢
    have hsuffix : earlier ++ base <:+ occurrence :: (earlier ++ base) := List.suffix_cons _ _
    have hbase : base <:+ earlier ++ base := List.suffix_append _ _
    have hbefore := ih hisolated.2 fun between hfrom hto => hphase between hfrom (hto.trans hsuffix)
    have hstep := hisolated.1.leaves (hphase _ hbase hsuffix)
      (hphase _ (hbase.trans hsuffix) (List.suffix_refl _))
    refine (hbefore.trans hstep).mono ?_
    rintro key ⟨-, hstays⟩
    refine ⟨⟨hbase, fun between hfrom hto => ?_⟩, trivial, hstays _ hbase hsuffix⟩
    exact hstays between hfrom (hto.trans hsuffix)

/-! ## The order of the phases -/

/-- The part that a phase begins with. -/
def Phase.first : Phase → Part
  | index => .indexing
  | retrieve => .retrievalSweep
  | deal => .dealSweep

/-- A phase that is in progress has begun with its first part. -/
lemma exists_entered_of_phase? (hisolated : Along (Isolated setup) h)
    (hphase : phase? h = some phase) :
    ∃ earlier, .entered phase.first :: earlier <:+ h ∧ Follows setup earlier phase.first := by
  induction h with
  | nil => cases hphase
  | cons occurrence earlier ih =>
    have hlater : phase? earlier = some phase →
        ∃ before, .entered phase.first :: before <:+ occurrence :: earlier ∧
          Follows setup before phase.first := by
      intro hsame
      obtain ⟨before, hsuffix, hfollows⟩ := ih hisolated.2 hsame
      exact ⟨before, hsuffix.trans (List.suffix_cons _ _), hfollows⟩
    cases occurrence with
    | entered part =>
      obtain rfl := Option.some.inj hphase
      have hfollows : Follows setup earlier part := hisolated.1.2
      cases hfollows with
      | indexing hpart hsynced => exact ⟨earlier, List.suffix_refl _, .indexing hpart hsynced⟩
      | retrievalSweep hindexed => exact ⟨earlier, List.suffix_refl _, .retrievalSweep hindexed⟩
      | dealSweep hretrieved => exact ⟨earlier, List.suffix_refl _, .dealSweep hretrieved⟩
      | retrievalScan hsame => exact hlater hsame
      | dealScan hsame => exact hlater hsame
    | published | brokeOff => cases hphase
    | _ => exact hlater hphase

/-- All phases have begun, one after another, unless the index phase was left out. -/
def RunsThrough (setup : Setup) (h : History) : Prop :=
  ∃ retrieved indexed, .entered .dealSweep :: retrieved <:+ h ∧
    .entered .retrievalSweep :: indexed <:+ retrieved ∧
    (Pauses setup indexed ∨ ∃ before, .entered .indexing :: before <:+ indexed)

/-- In the deal phase all phases have begun. -/
lemma runsThrough_of_phase? (hisolated : Along (Isolated setup) h)
    (hphase : phase? h = some .deal) : RunsThrough setup h := by
  obtain ⟨retrieved, hdeal, hfollows⟩ := exists_entered_of_phase? hisolated hphase
  have hretrieved : phase? retrieved = some .retrieve := by
    cases hfollows with
    | dealSweep hretrieved => exact hretrieved
  have hisolated' := (hisolated.of_suffix hdeal).2
  obtain ⟨indexed, hretrieve, hfollows⟩ := exists_entered_of_phase? hisolated' hretrieved
  refine ⟨retrieved, indexed, hdeal, hretrieve, ?_⟩
  cases hfollows with
  | retrievalSweep hindexed =>
    rcases hindexed with hindexed | hpauses
    · have hisolated'' := (hisolated'.of_suffix hretrieve).2
      obtain ⟨before, hindex, -⟩ := exists_entered_of_phase? hisolated'' hindexed
      exact .inr ⟨before, hindex⟩
    · exact .inl hpauses

/-! ## Without the index phase -/

/-- The node fails to say how far it is, or some sync of it has epochs left. -/
def Lags (reply : Reply .syncState) : Prop :=
  ∀ status, reply = .ok status → ∃ sync ∈ status.syncs, ∃ gap, sync.heightGap = .ok gap ∧ 0 < gap

/-- With epochs left in some sync, the node is not found to be up to date. -/
lemma ActiveSync.isSomeAhead_ne {syncs : List ActiveSync} {sync : ActiveSync} {gap : Epoch}
    (hmem : sync ∈ syncs) (hgap : sync.heightGap = .ok gap) (hpos : 0 < gap) :
    isSomeAhead syncs ≠ .ok false := by
  induction syncs with
  | nil => cases hmem
  | cons first rest ih =>
    rw [isSomeAhead]
    rcases List.mem_cons.1 hmem with rfl | hmem
    · rw [hgap]
      change (if 0 < gap then Except.ok true else isSomeAhead rest) ≠ .ok false
      rw [if_pos hpos]
      rintro ⟨⟩
    · cases hfirst : first.heightGap with
      | error cause => rintro ⟨⟩
      | ok left =>
        change (if 0 < left then Except.ok true else isSomeAhead rest) ≠ .ok false
        split
        · rintro ⟨⟩
        · exact ih hmem

/-- By such a reply the index phase does not run. -/
lemma Lags.isCatchingUp_ne {reply : Reply .syncState} (hlags : Lags reply) {status : SyncStatus}
    (hreply : reply = .ok status) : status.isCatchingUp ≠ .ok false := by
  obtain ⟨sync, hmem, gap, hgap, hpos⟩ := hlags status hreply
  exact ActiveSync.isSomeAhead_ne hmem hgap hpos

/-- In the tick that began on top of a history the driver acts on a reply by which the index phase
has to pause. -/
structure Paused (setup : Setup) (base : History) (reply : Reply .syncState) (walked : History) :
    Prop where
  pause : setup.config.pauseWhileSyncing = true
  /-- The index phase does not run. -/
  phase_ne : phase? (walked ++ base) ≠ some .index
  /-- It makes no call but the one for the sync state. -/
  calls : ∀ purpose call, .called purpose call ∈ walked → purpose.phase = .index →
    call = .syncState
  /-- As long as no other phase has begun, nothing has changed. -/
  unchanged : phase? (walked ++ base) = none →
    worker setup.config (walked ++ base) = worker setup.config base
  replied : phase? (walked ++ base) = none →
    lastReply? (walked ++ base) = some ⟨.syncing, .syncState, reply⟩ ∨
      lastReply? (walked ++ base) = none

/-- A call that belongs to the index phase is made in that phase or asks for the sync state. -/
lemma MayCall.index_or_syncState {purpose : Purpose} {call : Call}
    (hcall : MayCall setup h purpose call) (hindex : purpose.phase = .index) :
    phase? h = some .index ∨ call = .syncState := by
  cases hpart : purpose.part? with
  | none =>
    have hasks := hcall.asks
    unfold Purpose.asks at hasks
    rw [hpart] at hasks
    cases call with
    | syncState => exact .inr rfl
    | _ => cases hasks
  | some part =>
    have hphase := hcall.phase
    rw [Purpose.phase, hpart] at hindex
    rw [hpart] at hphase
    exact .inl (hphase.trans (congrArg some hindex))

/-- The call for the sync state is the first one of its tick, in no part. -/
lemma MayCall.phase?_of_syncing {call : Call} (hcall : MayCall setup h .syncing call) :
    phase? h = none :=
  hcall.phase

/-- A call that is made in no phase is the first one of its tick. -/
lemma MayCall.tick?_of_phase? {purpose : Purpose} {call : Call}
    (hcall : MayCall setup h purpose call) (hphase : phase? h = none) : tick? h = none := by
  have hnone := hcall.phase.symm.trans hphase
  cases purpose with
  | syncing => exact (hcall.syncing rfl).2
  | _ => cases hnone

variable {reply : Reply .syncState}

/-- The reply by which the index phase has to pause. -/
lemma paused_of_answered (hcall : MayCall setup base .syncing .syncState) :
    Paused setup base reply [.answered .syncing .syncState reply, .called .syncing .syncState] where
  pause := (hcall.syncing rfl).1
  phase_ne := by
    change phase? base ≠ some .index
    rw [hcall.phase?_of_syncing]
    rintro ⟨⟩
  calls purpose call hmem _ := by
    simp only [List.mem_cons, reduceCtorEq, List.not_mem_nil, or_false, false_or] at hmem
    cases hmem
    rfl
  unchanged _ := rfl
  replied _ := .inl rfl

/-- A step of a tick in which the index phase has to pause: in no phase nothing changes. -/
lemma Paused.cons (hpaused : Paused setup base reply walked)
    (hphase : phase? (occurrence :: (walked ++ base)) ≠ some .index)
    (hcalls : ∀ purpose call, occurrence = .called purpose call → purpose.phase = .index →
      call = .syncState)
    (hnone : phase? (occurrence :: (walked ++ base)) = none →
      phase? (walked ++ base) = none ∧
      worker setup.config (occurrence :: (walked ++ base)) =
        worker setup.config (walked ++ base) ∧
      (lastReply? (occurrence :: (walked ++ base)) = lastReply? (walked ++ base) ∨
        lastReply? (occurrence :: (walked ++ base)) = none)) :
    Paused setup base reply (occurrence :: walked) where
  pause := hpaused.pause
  phase_ne := hphase
  calls purpose call hmem hindex := by
    rcases List.mem_cons.1 hmem with heq | hmem
    · exact hcalls purpose call heq.symm hindex
    · exact hpaused.calls purpose call hmem hindex
  unchanged hsame := by
    obtain ⟨hbefore, hworker, -⟩ := hnone hsame
    exact hworker.trans (hpaused.unchanged hbefore)
  replied hsame := by
    obtain ⟨hbefore, -, hreply | hreply⟩ := hnone hsame
    · exact hreply ▸ hpaused.replied hbefore
    · exact .inr hreply

/-- The index phase does not begin after a reply by which it has to pause. -/
lemma Paused.not_follows (hpaused : Paused setup base reply walked) (hlags : Lags reply) :
    ¬ Follows setup (walked ++ base) .indexing := by
  intro hfollows
  cases hfollows with
  | indexing hpart hsynced =>
    obtain ⟨status, hstatus, hcaughtUp⟩ := hsynced hpaused.pause
    have hphase : phase? (walked ++ base) = none := by rw [phase?, hpart, Option.map_none]
    rcases hpaused.replied hphase with hreply | hreply
    · cases hreply.symm.trans hstatus
      exact hlags.isCatchingUp_ne rfl hcaughtUp
    · cases hreply.symm.trans hstatus

/-- What happens next in a tick in which the index phase has to pause. -/
lemma Paused.step (hpaused : Paused setup base reply walked) (hlags : Lags reply)
    (htick : tick? (walked ++ base) = some walked)
    (hreply : .answered .syncing .syncState reply ∈ walked)
    (hisolated : Along (Isolated setup) (occurrence :: (walked ++ base)))
    (hends : occurrence.ends = false) : Paused setup base reply (occurrence :: walked) := by
  have hne : tick? (walked ++ base) ≠ none := by
    rw [htick]
    rintro ⟨⟩
  cases occurrence with
  | called purpose call =>
    obtain ⟨⟨-, hcall⟩, -⟩ := hisolated
    refine hpaused.cons hpaused.phase_ne ?_ fun hsame => ⟨hsame, rfl, .inr rfl⟩
    rintro _ _ ⟨⟩ hindex
    exact (hcall.index_or_syncState hindex).resolve_left hpaused.phase_ne
  | answered purpose call answer =>
    refine hpaused.cons hpaused.phase_ne (by rintro _ _ ⟨⟩) fun hsame => ?_
    -- a call in no phase is the first one of the tick, so there was no reply before
    obtain ⟨earlier, hearlier, hcall⟩ := Isolated.exists_mayCall hisolated
    have hphase : phase? (.called purpose call :: earlier) = none := hearlier ▸ hsame
    have hfirst : tick? (walked ++ base) = some [.called purpose call] := by
      rw [hearlier, tick?, hcall.tick?_of_phase? hphase]
      rfl
    obtain rfl := Option.some.inj (htick.symm.trans hfirst)
    cases List.mem_singleton.1 hreply
  | entered part =>
    refine hpaused.cons ?_ (by rintro _ _ ⟨⟩) (by rintro ⟨⟩)
    cases part with
    | indexing => exact absurd hisolated.1.2 (hpaused.not_follows hlags)
    | _ => rintro ⟨⟩
  | became w =>
    refine hpaused.cons hpaused.phase_ne (by rintro _ _ ⟨⟩) fun hsame => ?_
    exact absurd (hisolated.1.2.1 hsame) hne
  | logged event =>
    exact hpaused.cons hpaused.phase_ne (by rintro _ _ ⟨⟩) fun hsame => ⟨hsame, rfl, .inl rfl⟩
  | counted counter =>
    exact hpaused.cons hpaused.phase_ne (by rintro _ _ ⟨⟩) fun hsame => ⟨hsame, rfl, .inl rfl⟩
  | chose | looked =>
    exact hpaused.cons hpaused.phase_ne (by rintro _ _ ⟨⟩) fun hsame => ⟨hsame, rfl, .inr rfl⟩
  | published | brokeOff => cases hends

/-- **Without the index phase.**  In a tick in which the node replied that it is syncing, or failed
to reply, the index phase does nothing. -/
lemma paused_of_along (hisolated : Along (Isolated setup) h) (htick : tick? h = some walked)
    (hreply : .answered .syncing .syncState reply ∈ walked) (hlags : Lags reply) :
    ∃ base, h = walked ++ base ∧ Paused setup base reply walked := by
  induction h generalizing walked with
  | nil => cases htick
  | cons occurrence earlier ih =>
    have hends : occurrence.ends = false := by
      cases occurrence with
      | published | brokeOff => cases htick
      | _ => rfl
    cases hearlier : tick? earlier with
    | none =>
      -- a tick begins with no reply
      cases occurrence with
      | called | entered =>
        rw [tick?_of_begins hearlier rfl] at htick
        obtain rfl := Option.some.inj htick
        cases List.mem_singleton.1 hreply
      | published | brokeOff => cases htick
      | _ =>
        change (tick? earlier).map _ = _ at htick
        rw [hearlier] at htick
        cases htick
    | some walked' =>
      obtain rfl := Option.some.inj (htick.symm.trans (tick?_cons hearlier hends))
      rcases List.mem_cons.1 hreply with rfl | hreply'
      · obtain ⟨base, rfl, hcall⟩ := Isolated.exists_mayCall hisolated
        have hfirst : tick? (.called .syncing .syncState :: base) = some [_] :=
          tick?_of_begins (hcall.syncing rfl).2 rfl
        obtain rfl := Option.some.inj (hearlier.symm.trans hfirst)
        exact ⟨base, rfl, paused_of_answered hcall⟩
      · obtain ⟨base, rfl, hpaused⟩ := ih hisolated.2 hearlier hreply'
        exact ⟨base, rfl, hpaused.step hlags hearlier hreply' hisolated hends⟩

/-! ## The turn -/

/-- What comes of a program that a driver has got to, in surroundings that reply to each call: the
driver may well do so, and the program ends unless a sum does not fit. -/
def Driver.GoesOn (setup : Setup) (start : Driver) (h : History) (program : Program TurnEnd) :
    Prop :=
  ∀ {σ : Type} (surroundings : Surroundings σ) (isStopping : Bool) (state : σ),
    surroundings.Replies →
    start.Reaches (program.execute surroundings isStopping state h).trace
        (.atHalt (program.execute surroundings isStopping state h).halt) ∧
      ((∃ turnEnd, (program.execute surroundings isStopping state h).halt = .done turnEnd) ∨
        ∃ earlier, (program.execute surroundings isStopping state h).trace = .brokeOff :: earlier ∧
          Overflows setup earlier)

namespace Turn

/-- Whether the phases are isolated in the first turn of a driver that takes a worker over, up to
where it stands. -/
structure PhasesIsolated (setup : Setup) (w : Worker) (h : History) (driver : Driver) : Prop where
  /-- The phases follow one another, each makes its own calls only, and nothing changes outside of
  them. -/
  along : Along (Isolated setup) h
  /-- From one moment of a phase to another, wherever it comes to its end, it leaves alone what it
  does. -/
  frames : ∀ walked base phase, walked ++ base <:+ h →
    (∀ between, base <:+ between → between <:+ walked ++ base → phase? between = some phase) →
    phase.Leaves (fun key => Stays setup key base (walked ++ base)) (worker setup.config base)
      (worker setup.config (walked ++ base))
  /-- While the node is syncing, or does not say, the index phase does nothing. -/
  paused : ∀ later walked reply, later <:+ h → tick? later = some walked →
    .answered .syncing .syncState reply ∈ walked → Lags reply →
    ∃ base, later = walked ++ base ∧ Paused setup base reply walked
  /-- A tick comes to its end after all its phases. -/
  ended : ∀ stats earlier, .published stats :: earlier <:+ h → RunsThrough setup earlier
  /-- The turn comes to its end after a tick, unless a stop was requested before. -/
  concludes : ∀ turnEnd, driver = .active (.done turnEnd) →
    Concludes w [.logged (.started w.cursor), .became w] h
  goesOn : ∀ program, driver = .active program →
    (Driver.active (first setup w)).GoesOn setup h program

/-- At the end of the first turn of a driver that took a worker over. -/
def AtEnd (setup : Setup) (w w' : Worker) (h : History) : Prop :=
  Apart setup w' h ∧ Concludes w [.logged (.started w.cursor), .became w] h

/-- A driver in its first turn keeps to the contract of isolation. -/
lemma isolated_and_keeps (hreaches : (Driver.active (first setup w)).Reaches h driver) :
    Along (Isolated setup) h ∧ driver.Keeps (isolation setup) (AtEnd setup w) h := by
  have upheld := isolation_upheld setup
  have hkeeps : (Driver.active (first setup w)).Keeps (isolation setup) (AtEnd setup w) [] :=
    isolates_first (apart_nil setup) w
  exact hreaches.along_and_keeps upheld.answered upheld.panic hkeeps
    (along_of_forall fun _ _ _ _ => trivial)

/-- In surroundings that reply to each call the first turn goes on to its end, unless a sum does not
fit. -/
lemma goesOn {program : Program TurnEnd}
    (hreaches : (Driver.active (first setup w)).Reaches h (.active program)) :
    (Driver.active (first setup w)).GoesOn setup h program := by
  intro σ surroundings isStopping state hreplies
  refine ⟨hreaches.execute surroundings isStopping state, ?_⟩
  rcases hreaches.done_or_overflow hreplies isStopping state with hdone | hbroken
  · exact .inl hdone
  · obtain ⟨earlier, cause, resume, hearlier, htrace⟩ := hbroken
    obtain ⟨-, hcalled | hoverflows⟩ := (isolated_and_keeps hearlier).2
    · obtain ⟨purpose, call, hcalled⟩ := hcalled
      exact absurd hcalled (hearlier.head?_ne_called purpose call)
    · exact .inr ⟨earlier, htrace, hoverflows⟩

/-- **The phases of a tick are isolated.**  A driver may take any worker over, and its surroundings
may supply what they like: in its first turn the phases come in their order, each changes only what
belongs to it and makes only its own calls, the index phase does nothing while the node is syncing,
and the turn goes on to its end unless a sum does not fit. -/
theorem phases_isolated (setup : Setup) (w : Worker)
    (hreaches : (Driver.active (first setup w)).Reaches h driver) :
    PhasesIsolated setup w h driver := by
  obtain ⟨hisolated, hkeeps⟩ := isolated_and_keeps hreaches
  constructor
  · exact hisolated
  · intro walked base phase hsuffix hphase
    exact leaves_of_along (hisolated.of_suffix hsuffix) hphase
  · intro later walked reply hsuffix htick hreply hlags
    exact paused_of_along (hisolated.of_suffix hsuffix) htick hreply hlags
  · intro stats earlier hsuffix
    obtain ⟨⟨-, hphase, -⟩, hearlier⟩ := hisolated.of_suffix hsuffix
    exact runsThrough_of_phase? hearlier hphase
  · rintro turnEnd rfl
    exact hkeeps.2
  · rintro program rfl
    exact goesOn hreaches

end Turn

namespace Sample

/-- The setup of the crowded node, in which the index phase has to pause while the node is
syncing. -/
def pausingSetup : Setup :=
  { crowdedSetup with config := { crowdedSetup.config with pauseWhileSyncing := true } }

/-- The worker at the end of the crowded session. -/
def crowdedWorker : Worker :=
  worker crowdedSetup.config crowdedSession.trace

/-- A first turn in which the node fails each call. -/
def failingTurn : Progress Nat TurnEnd :=
  (Turn.first pausingSetup crowdedWorker).execute (.failing (crowdedAnswer true)) false 0 []

/-- The answers of the crowded node while it has a sync that leads across all epochs. -/
def distantAnswer : (call : Call) → call.Answer
  | .syncState =>
    ⟨[⟨some ⟨⟨"base"⟩, [], Int64.minValue, ⟨[]⟩⟩, some ⟨⟨"target"⟩, [], Int64.maxValue, ⟨[]⟩⟩⟩]⟩
  | call => crowdedAnswer true call

end Sample

/-- The phases are isolated in a turn in which the node fails each call: but for the index phase,
which is left out, each of them begins and is given up. -/
theorem Turn.phases_isolated_failing :
    marks Sample.failingTurn.trace = [7, 6, 4, 0] ∧
      PhasesIsolated Sample.pausingSetup Sample.crowdedWorker Sample.failingTurn.trace
        (.atHalt Sample.failingTurn.halt) := by
  refine ⟨by decide +kernel, phases_isolated _ _ ?_⟩
  exact Driver.Reaches.refl.execute (.failing (Sample.crowdedAnswer true)) false 0

/-- A turn may break off before the retrieval phase, although the node replies to each call: the
distance to the end of a sync may not fit. -/
theorem Turn.phases_cut_short :
    ¬ ∀ (setup : Setup) (w : Worker) {σ : Type} (surroundings : Surroundings σ) (state : σ),
      surroundings.Replies → ∀ part ∈ [Part.retrievalSweep, .dealSweep],
        .entered part ∈ ((first setup w).execute surroundings false state []).trace := by
  intro hruns
  have hentered := hruns Sample.pausingSetup Sample.crowdedWorker
    (.answering Sample.distantAnswer) () (Surroundings.replies_answering _) .retrievalSweep
    List.mem_cons_self
  have hmark : 4 ∈ marks ((first Sample.pausingSetup Sample.crowdedWorker).execute
      (.answering Sample.distantAnswer) false () []).trace :=
    List.mem_filterMap.2 ⟨_, hentered, rfl⟩
  revert hmark
  decide +kernel

end PieceReplication
