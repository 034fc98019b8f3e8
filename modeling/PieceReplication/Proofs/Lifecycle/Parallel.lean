import PieceReplication.Proofs.Lifecycle.Lockstep
import PieceReplication.Proofs.Retrieval.Failures
import PieceReplication.Proofs.Run.Session

/-!
# Parallel lives

Whether a query for a piece fails, or is answered with a success, and how often queries failed
before, makes no difference to what a replicator does.  Two lives in which the same is supplied,
apart from failed queries in the one that are answered with a success in the other, go in parallel
(`Life.parallel`): they make the same calls in the same order, and wherever both have got equally
far they have the same cursor, the same pieces in the same order, the same retrievals and the same
deals.

The driver of a life in which none breaks off is led by what is seen of the life's trace
(`Life.led`); the rest is said of drivers.
-/

namespace PieceReplication

open History

variable {setup : Setup} {supply : Supply} {h : History} {isStopping : Bool}
  {driver later : Driver} {occurrence : Occurrence} {events events' : List Event}
  {replicator replicator' : Replicator}

/-! ## Lives -/

/-- The program that a driver has, wakes to, or leaves to the next driver. -/
def Driver.stand : Driver → Driver
  | asleep w _ => active (.done (.asleep w))
  | finished w => active (.done (.finished w))
  | driver => driver

/-- A driver takes steps only while it is neither asleep nor at its end. -/
lemma Driver.Step.stand_eq (hstep : Step isStopping driver occurrence later) :
    driver.stand = driver ∧ later.stand = later := by
  cases hstep <;> exact ⟨rfl, rfl⟩

/-- A driver breaks off only by a break-off. -/
lemma Driver.Step.eq_brokeOff (hstep : Step isStopping driver occurrence .broken) :
    occurrence = .brokeOff := by
  cases hstep <;> rfl

/-- Where the driver of a replicator stands, or the next one that is started. -/
def Replicator.stand (replicator : Replicator) : Driver :=
  match replicator.running with
  | some running => running.driver.stand
  | none => .active (.done (.finished (replicator.idle.getD (.fresh replicator.setup.config))))

/-- Whether a driver is one that is led by what is seen, perhaps in its next turn already. -/
def Led (setup : Setup) (supply : Supply) (h : History) (driver : Driver) : Prop :=
  ∃ earlier, LedTo setup supply h earlier ∧
    (driver.muted = earlier ∨ driver.muted = earlier.resumed setup)

namespace Led

/-- A driver that is led stays so with each step but a break-off. -/
lemma step (hled : Led setup supply (seen h) driver)
    (hstep : Driver.Step isStopping driver occurrence later)
    (hprovides : supply.Provides (seen h) occurrence) (hunbroken : occurrence ≠ .brokeOff) :
    Led setup supply (seen (occurrence :: h)) later := by
  obtain ⟨earlier, ledTo, hmuted⟩ := hled
  cases hseen : occurrence.seen? with
  | none =>
    rw [seen, List.filterMap_cons_none hseen]
    rw [Driver.muted_eq_of_step hstep hseen] at hmuted
    exact ⟨earlier, ledTo, hmuted⟩
  | some sight =>
    have hstepMuted := hstep.muted hseen
    have hresumed : driver.muted = earlier.resumed setup := by
      rcases hmuted with heq | heq
      · rw [← heq, Driver.resumed_eq_of_step hstepMuted]
      · exact heq
    rw [hresumed] at hstepMuted
    rw [seen, List.filterMap_cons_some hseen]
    exact ⟨later.muted, ledTo.step hstepMuted hprovides hseen hunbroken, .inl rfl⟩

/-- A driver at the end of a turn that is led is where it is led to. -/
lemma ledTo_of_done {turnEnd : TurnEnd} (hled : Led setup supply h (.active (.done turnEnd))) :
    LedTo setup supply h (.active (.done turnEnd)) := by
  obtain ⟨earlier, ledTo, heq | heq⟩ := hled
  · have hearlier : earlier = .active (.done turnEnd) := heq.symm
    exact hearlier ▸ ledTo
  · exact Driver.eq_of_resumed_eq heq.symm ▸ ledTo

/-- A driver that is led and has no program is where it is led to. -/
lemma ledTo_of_ne (hled : Led setup supply h driver) (hne : ∀ program, driver ≠ .active program) :
    LedTo setup supply h driver.muted := by
  obtain ⟨earlier, ledTo, heq | heq⟩ := hled
  · exact heq ▸ ledTo
  · cases earlier with
    | active program =>
      obtain ⟨program', hprogram'⟩ := Driver.exists_resumed setup program
      rw [hprogram'] at heq
      cases driver with
      | active program => exact absurd rfl (hne program)
      | _ => cases heq
    | _ => exact heq ▸ ledTo

/-- A driver that is led has not broken off. -/
lemma ne_broken (hled : Led setup supply h driver) : driver ≠ .broken := by
  rintro rfl
  have ledTo : LedTo setup supply h .broken := hled.ledTo_of_ne nofun
  cases ledTo with
  | step ledTo hstep hprovides hseen hunbroken => exact hunbroken hstep.eq_brokeOff

end Led

/-- In a life in which no driver breaks off, the driver is led by what is seen. -/
lemma Life.led (life : Life setup events replicator) (hunbroken : .brokeOff ∉ trace events)
    (hserves : supply.Serves (trace events)) :
    Led setup supply (seen (trace events)) replicator.stand := by
  induction life with
  | new => exact ⟨_, .new, .inl rfl⟩
  | start life h ih =>
    have hled := ih hunbroken hserves
    unfold Replicator.start at h
    split at h
    · cases h
    · next hnone =>
      cases h
      unfold Replicator.stand at hled
      rw [hnone] at hled
      have hsetup := life.setup_eq
      exact ⟨_, hled.ledTo_of_done, .inr (hsetup ▸ rfl)⟩
  | requestStop life h ih =>
    have hled := ih hunbroken hserves
    unfold Replicator.requestStop at h
    split at h
    · cases h
    · next running hrunning =>
      cases h
      unfold Replicator.stand at hled
      rw [hrunning] at hled
      exact hled
  | collect life h ih =>
    have hled := ih hunbroken hserves
    unfold Replicator.stand at hled
    unfold Replicator.collect? at h
    split at h
    · next hrunning =>
      cases h
      rw [hrunning] at hled
      exact hled
    · next hrunning =>
      rw [hrunning] at hled
      exact absurd rfl hled.ne_broken
    · cases h
  | doze life milliseconds ih =>
    have hled := ih hunbroken hserves
    unfold Replicator.doze
    split
    · next hrunning =>
      unfold Replicator.stand Replicator.setDriver at *
      rw [hrunning] at hled ⊢
      exact hled
    · exact hled
  | wake life h ih =>
    have hled := ih hunbroken hserves
    unfold Replicator.stand Replicator.wake Replicator.setDriver at *
    rw [h] at hled ⊢
    rw [life.setup_eq]
    exact ⟨_, hled.ledTo_of_done, .inr rfl⟩
  | @step events replicator life isStopping driver h occurrence later hstep ih =>
    obtain ⟨hne, hearlier⟩ : .brokeOff ≠ occurrence ∧ .brokeOff ∉ trace events :=
      not_or.1 fun hor => hunbroken (List.mem_cons.2 hor)
    have hled := ih hearlier hserves.2
    have hstand : replicator.stand = driver := by
      rw [Replicator.stand, h]
      exact hstep.stand_eq.1
    have hlater : (replicator.after occurrence later).stand = later := by
      rw [Replicator.stand, running_after h]
      exact hstep.stand_eq.2
    rw [hstand] at hled
    rw [hlater]
    exact hled.step hstep hserves.1 (Ne.symm hne)
  | settle life h pause ih =>
    have hled := ih hunbroken hserves
    unfold Replicator.stand Replicator.setDriver at *
    rw [h] at hled ⊢
    cases ‹TurnEnd› <;> exact hled

/-- In a life in which no driver breaks off, a driver that rests waits. -/
lemma Life.exists_waits (life : Life setup events replicator)
    (hunbroken : .brokeOff ∉ trace events) (hserves : supply.Serves (trace events))
    (hrest : ¬ replicator.IsActive) :
    ∃ driver, LedTo setup supply (seen (trace events)) driver ∧ driver.Waits := by
  have hled := life.led hunbroken hserves
  unfold Replicator.stand at hled
  split at hled
  · next running hrunning =>
    obtain ⟨isStopping, driver⟩ := running
    cases driver with
    | active program => exact absurd ⟨isStopping, program, hrunning⟩ hrest
    | asleep w left => exact ⟨_, hled.ledTo_of_done, trivial⟩
    | finished w => exact ⟨_, hled.ledTo_of_done, trivial⟩
    | broken => exact absurd rfl hled.ne_broken
    | hanging purpose call resume => exact ⟨_, hled.ledTo_of_ne nofun, trivial⟩
  · exact ⟨_, hled.ledTo_of_done, trivial⟩

/-- Suffixes of a list that are equally long are the same. -/
lemma eq_of_suffix_of_suffix {α : Type} {l l' whole : List α} (h : l <:+ whole) (h' : l' <:+ whole)
    (hlength : l.length = l'.length) : l = l' :=
  (List.suffix_of_suffix_length_le h h' (Nat.le_of_eq hlength)).eq_of_length hlength

/-- How two lives go in parallel. -/
structure Parallel (setup : Setup) (events events' : List Event)
    (replicator replicator' : Replicator) : Prop where
  /-- What is seen of one of the lives is the beginning of what is seen of the other one. -/
  seen : seen (trace events) <:+ seen (trace events') ∨ seen (trace events') <:+ seen (trace events)
  /-- One of the lives makes the calls of the other one, and perhaps more. -/
  calls : Trace.calls (trace events).reverse <+: Trace.calls (trace events').reverse ∨
    Trace.calls (trace events').reverse <+: Trace.calls (trace events).reverse
  /-- Moments of both lives up to which equally much was seen are alike. -/
  alike : ∀ h h', h <:+ trace events → h' <:+ trace events' →
    (History.seen h).length = (History.seen h').length → Alike setup h h'
  /-- Each moment of the one life that the other one has got to has its like there. -/
  exists_alike : ∀ h, h <:+ trace events →
    (History.seen h).length ≤ (History.seen (trace events')).length →
      ∃ h', h' <:+ trace events' ∧ Alike setup h h'
  /-- If both drivers rest, and as much was supplied, the lives have got equally far. -/
  rest : ¬ replicator.IsActive → ¬ replicator'.IsActive →
    (trace events).countP Occurrence.isSupplied = (trace events').countP Occurrence.isSupplied →
      Alike setup (trace events) (trace events')

/-- **Failed queries change nothing.**  Take two lives under the same setup in which no driver
breaks off, and let the same surroundings supply the replies of the node, the choices and the stop
requests in both, but for any queries that fail in the one and are answered with a success in the
other.  Then the lives go in parallel: the same calls are made in the same order, and whatever else
happens differs in reports and in counts of failed queries at most. -/
theorem Life.parallel (life : Life setup events replicator)
    (life' : Life setup events' replicator') (hunbroken : .brokeOff ∉ trace events)
    (hunbroken' : .brokeOff ∉ trace events') (hserves : supply.Serves (trace events))
    (hserves' : supply.Serves (trace events')) :
    Parallel setup events events' replicator replicator' := by
  obtain ⟨driver, ledTo, -⟩ := life.led hunbroken hserves
  obtain ⟨driver', ledTo', -⟩ := life'.led hunbroken' hserves'
  have hseen := ledTo.suffix_or_suffix ledTo'
  have hcalls {h h' : History} (hsuffix : seen h <:+ seen h') :
      Trace.calls h.reverse <+: Trace.calls h'.reverse := by
    rw [← calls_seen h, ← calls_seen h']
    exact (List.reverse_prefix.2 hsuffix).filterMap _
  have halike (h h' : History) (hsuffix : h <:+ trace events) (hsuffix' : h' <:+ trace events')
      (hlength : (seen h).length = (seen h').length) : Alike setup h h' := by
    have hle : seen h <:+ seen (trace events) := hsuffix.filterMap Occurrence.seen?
    have hle' : seen h' <:+ seen (trace events') := hsuffix'.filterMap Occurrence.seen?
    refine alike_of_seen_eq setup ?_
    rcases hseen with hahead | hahead
    · exact eq_of_suffix_of_suffix (hle.trans hahead) hle' hlength
    · exact eq_of_suffix_of_suffix hle (hle'.trans hahead) hlength
  refine ⟨hseen, hseen.imp hcalls hcalls, halike, ?_, ?_⟩
  · intro h hsuffix hreached
    obtain ⟨h', hsuffix', hlength⟩ := exists_suffix_length_seen hreached
    exact ⟨h', hsuffix', halike h h' hsuffix hsuffix' hlength.symm⟩
  · intro hrest hrest' hcount
    obtain ⟨waiting, ledTo, hwaits⟩ := life.exists_waits hunbroken hserves hrest
    obtain ⟨waiting', ledTo', hwaits'⟩ := life'.exists_waits hunbroken' hserves' hrest'
    rw [← countP_seen (trace events), ← countP_seen (trace events')] at hcount
    refine alike_of_seen_eq setup ?_
    rcases hseen with hahead | hahead
    · exact ledTo.eq_of_waits hwaits ledTo' hwaits' hahead hcount
    · exact (ledTo'.eq_of_waits hwaits' ledTo hwaits hahead hcount.symm).symm

/-! ### Unreachable and serving providers -/

/-- The answers to a call can be compared. -/
instance Call.decidableEqAnswer : (call : Call) → DecidableEq call.Answer
  | .chainHead | .tipsetAt _ => inferInstanceAs (DecidableEq Tipset)
  | .parentMessages _ => inferInstanceAs (DecidableEq (List Message))
  | .preCommit _ _ _ => inferInstanceAs (DecidableEq (Option PreCommit))
  | .provenSector _ _ _ => inferInstanceAs (DecidableEq (Option ProvenSector))
  | .marketDeal _ _ => inferInstanceAs (DecidableEq MarketDeal)
  | .clientDeals => inferInstanceAs (DecidableEq (List ClientDeal))
  | .hasLocal _ => inferInstanceAs (DecidableEq Bool)
  | .query _ _ => inferInstanceAs (DecidableEq QueryResponse)
  | .offer _ _ => inferInstanceAs (DecidableEq Offer)
  | .minerInfo _ => inferInstanceAs (DecidableEq MinerInfo)
  | .startDeal _ => inferInstanceAs (DecidableEq Cid)
  | .dealInfo _ => inferInstanceAs (DecidableEq ClientDeal)
  | .syncState => inferInstanceAs (DecidableEq SyncStatus)

instance (supply : Supply) (sights : History) :
    (occurrence : Occurrence) → Decidable (supply.Provides sights occurrence)
  | .answered _ _ _ => inferInstanceAs (Decidable (_ = _))
  | .chose _ _ => inferInstanceAs (Decidable (_ = _))
  | .looked _ => inferInstanceAs (Decidable (_ = _))
  | .called _ _ => inferInstanceAs (Decidable True)
  | .entered _ => inferInstanceAs (Decidable True)
  | .logged _ => inferInstanceAs (Decidable True)
  | .counted _ => inferInstanceAs (Decidable True)
  | .became _ => inferInstanceAs (Decidable True)
  | .published _ => inferInstanceAs (Decidable True)
  | .brokeOff => inferInstanceAs (Decidable True)

instance (supply : Supply) (h : History) : Decidable (supply.Serves h) :=
  History.decidableAlong _ h

namespace Sample

/-- A node with the deals of the crowded one whose providers would serve every payload. -/
def servingNode : Surroundings Unit where
  call _ call :=
    match call with
    | .query _ _ => (.reply (.ok ⟨.success, "", 0⟩), ())
    | call => (.reply (.ok (crowdedAnswer false call)), ())
  release _ call := (.ok (crowdedAnswer false call), ())
  choose _ _ pos := (⟨0, pos⟩, ())

/-- A session in which the replicator is stopped and started again while every query is answered
with a success. -/
def servingSession : Session Unit :=
  [.start, .stop .never, .start].foldl (Session.perform servingNode) (.new crowdedSetup ())

/-- What is supplied in both sessions: the replies of the crowded node with a success for each
query, the first of the candidates, and a stop request at the fourth look, after the first tick. -/
def servingSupply : Supply where
  reply _ call :=
    match call with
    | .query _ _ => .ok ⟨.success, "", 0⟩
    | call => .ok (crowdedAnswer false call)
  choice _ _ := 0
  isStopping sights := (sights.filter fun
    | .looked _ => true
    | _ => false).length == 3

/-- The serving session shows a life. -/
lemma showsLife_servingSession : servingSession.ShowsLife crowdedSetup :=
  Session.showsLife_of_commands servingNode crowdedSetup () _

end Sample

/-- The lives in which no provider is reached, and in which each one would serve, go in parallel:
they differ in eight failed queries. -/
theorem Life.parallel_unreachable :
    ∃ events events', Life Sample.crowdedSetup events Sample.unreachableSession.replicator ∧
      Life Sample.crowdedSetup events' Sample.servingSession.replicator ∧
      .brokeOff ∉ trace events ∧ .brokeOff ∉ trace events' ∧
      Sample.servingSupply.Serves (trace events) ∧ Sample.servingSupply.Serves (trace events') ∧
      Trace.tally (trace events) .retrievalQueryFailures = 8 ∧
      Trace.tally (trace events') .retrievalQueryFailures = 0 ∧
      Parallel Sample.crowdedSetup events events' Sample.unreachableSession.replicator
        Sample.servingSession.replicator := by
  obtain ⟨events, life, htrace⟩ := Sample.showsLife_unreachableSession
  obtain ⟨events', life', htrace'⟩ := Sample.showsLife_servingSession
  have hunbroken : .brokeOff ∉ trace events := by
    rw [htrace]
    exact brokeOff_notMem_of_all (by decide +kernel)
  have hunbroken' : .brokeOff ∉ trace events' := by
    rw [htrace']
    exact brokeOff_notMem_of_all (by decide +kernel)
  have hserves : Sample.servingSupply.Serves (trace events) := by
    rw [htrace]
    decide +kernel
  have hserves' : Sample.servingSupply.Serves (trace events') := by
    rw [htrace']
    decide +kernel
  refine ⟨events, events', life, life', hunbroken, hunbroken', hserves, hserves', ?_, ?_,
    life.parallel life' hunbroken hunbroken' hserves hserves'⟩
  · rw [htrace]
    decide +kernel
  · rw [htrace']
    decide +kernel

end PieceReplication
