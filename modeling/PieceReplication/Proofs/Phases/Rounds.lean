import PieceReplication.Proofs.Dealing.Vetting
import PieceReplication.Proofs.Phases.Order
import PieceReplication.Proofs.Phases.Rotation

/-!
# The order of the walks from tick to tick

A sweep or scan that stops early leaves the keys that it did not get to first.  Nothing changes the
deals before the next sweep, so that one begins with them, and it comes to the deal that stopped the
last one after all others (`AskedLast`).  So a deal that cannot be told about keeps no other deal
from being followed.

That the deals do not change in between is read off the history of a turn (`DealsKept`): each change
belongs to a phase, and only the deal phase changes the deals.
-/

namespace PieceReplication

open History Activity

variable {setup : Setup} {w : Worker} {h : History} {occurrence : Occurrence} {part : Part}
  {key : Cid} {deals : BoundedMap Cid} {driver : Driver}

/-! ## The turn -/

namespace Indexing

/-- The walk over the epochs asks about no deal. -/
lemma keeps_amid : Keeps (rotation setup) (Amid .indexing) where
  toKeeps := Part.keeps_amid (by decide)
  looked _ _ hs := ⟨trivial, hs.part_eq, hs.unended.cons rfl⟩
  tipset _ _ hs :=
    ⟨trivial, fun _ => ⟨hs.part_eq, ((hs.unended.cons rfl).cons rfl).cons rfl⟩⟩

/-- The index phase asks about no deal. -/
lemma rotates_run (hs : Shows setup Unended w h) :
    Meets (rotation setup) (run setup) w h (fun _ => Shows setup Unended)
      fun _ => Shows setup Unended := by
  have hanswered : ∀ {h}, Shows setup (Amid .indexing) w h → ∀ (call : Call) (reply : Reply call),
      Shows setup (Amid .indexing) w
        (.answered .indexing call reply :: .called .indexing call :: h) :=
    fun hs _ _ => ⟨hs.worker_eq, hs.holds.part_eq, (hs.holds.unended.cons rfl).cons rfl⟩
  have hentered := Amid.entered hs .indexing
  simp only [run, meets_bind, meets_enter, meets_get]
  refine ⟨trivial, meets_chainRead.2 ⟨trivial, fun head _ => ?_,
    fun failure _ => Amid.shows (hanswered hentered _ _)⟩⟩
  refine meets_chainRead.2 ⟨trivial, fun clientDeals _ => ?_,
    fun failure _ => Amid.shows (hanswered (hanswered hentered _ _) _ _)⟩
  exact (meets_indexEpochs_of_keeps keeps_amid _ (hanswered (hanswered hentered _ _) _ _)).mono
    (fun _ _ _ => Amid.shows) fun _ _ _ => Amid.shows

end Indexing

namespace Tick

/-- A phase asks about the deals in turn together with the report if it is given up. -/
lemma rotates_runPhase {activity : Activity Unit} {inv : Worker → History → Prop}
    (hmeets : Meets (rotation setup) activity w h (fun _ => inv) fun _ => inv)
    (hreported : ∀ w h event counter, inv w h → inv w (.counted counter :: .logged event :: h))
    (phase : Phase) (report : PhaseError → LogEvent) :
    Task.Meets (rotation setup) (runPhase phase report activity) w h fun _ => inv := by
  rw [runPhase, Task.meets_bind]
  refine Task.Meets.mono hmeets fun result w' h' hw => ?_
  cases result with
  | ok value => exact hw
  | error error =>
    simp only [Task.meets_bind, Task.meets_log, Task.meets_count]
    exact ⟨trivial, trivial, hreported _ _ _ _ hw⟩

/-- A report and a count leave a tick without an end. -/
lemma unended_reported (w : Worker) (h : History) (event : LogEvent) (counter : Counter)
    (hs : Shows setup Unended w h) :
    Shows setup Unended w (.counted counter :: .logged event :: h) :=
  ⟨hs.worker_eq, (hs.holds.cons rfl).cons rfl⟩

/-- The index phase asks about no deal, whether it has to pause or not. -/
lemma rotates_index (hs : Shows setup Unended w h) :
    Task.Meets (rotation setup) (index setup) w h fun _ => Shows setup Unended := by
  have hanswered : ∀ reply, Shows setup Unended w
      (.answered .syncing .syncState reply :: .called .syncing .syncState :: h) :=
    fun _ => ⟨hs.worker_eq, (hs.holds.cons rfl).cons rfl⟩
  have hquestion : Meets (rotation setup) isCatchingUp w h (fun _ => Shows setup Unended)
      fun _ => Shows setup Unended := by
    simp only [isCatchingUp, meets_bind]
    refine meets_request.2 ⟨trivial, fun status _ => ?_, fun failure _ => hanswered _⟩
    exact meets_checked.2 ⟨fun _ _ => hanswered _, fun _ _ => trivial⟩
  rw [index]
  split
  · rw [Task.meets_bind]
    refine Task.Meets.mono hquestion fun result w' h' hs' => ?_
    cases result with
    | ok isCatchingUp =>
      cases isCatchingUp with
      | true =>
        have hshows : Shows setup Unended w' h' := hs'
        exact Task.meets_log.2 ⟨trivial, hshows.worker_eq, hshows.holds.cons rfl⟩
      | false => exact rotates_runPhase (Indexing.rotates_run hs') unended_reported _ _
    | error error =>
      simp only [Task.meets_bind, Task.meets_log, Task.meets_count]
      exact ⟨trivial, trivial, unended_reported _ _ _ _ hs'⟩
  · exact rotates_runPhase (Indexing.rotates_run hs) unended_reported _ _

/-- A tick asks about the deals in turn. -/
lemma rotates_run (hs : Shows setup Unended w h) :
    Task.Meets (rotation setup) (run setup) w h fun _ _ _ => True := by
  simp only [run, Task.meets_bind]
  refine (rotates_index hs).mono fun _ w₁ h₁ hindexed => ?_
  have hretrieval : Meets (rotation setup) (Retrieval.run setup) w₁ h₁
      (fun _ => Shows setup Unended) fun _ => Shows setup Unended :=
    (Retrieval.rotates_run hindexed).mono (fun _ _ _ => WalkEnds.toShows)
      fun _ _ _ => WalkEnds.toShows
  refine (rotates_runPhase hretrieval unended_reported _ _).mono fun _ w₂ h₂ hretrieved => ?_
  have hdeal : Meets (rotation setup) (Dealing.run setup) w₂ h₂ (fun _ _ _ => True)
      fun _ _ _ => True :=
    (Dealing.rotates_run hretrieved).mono (fun _ _ _ _ => trivial) fun _ _ _ _ => trivial
  exact rotates_runPhase hdeal (fun _ _ _ _ _ => trivial) _ _

end Tick

namespace Turn

/-- A turn asks about the deals in turn. -/
lemma rotates_run (hs : Shows setup Unended w h) :
    (run setup w).Meets (rotation setup) h fun _ _ => True := by
  rw [run, Program.meets_bind, Program.meets_effect_stopRequested]
  refine fun isStopping _ => ⟨trivial, ?_⟩
  have hlooked : Shows setup Unended w (.looked isStopping :: h) :=
    ⟨hs.worker_eq, hs.holds.cons rfl⟩
  cases isStopping with
  | true => exact ⟨trivial, trivial⟩
  | false =>
    simp only [Bool.false_eq_true, ↓reduceIte, tick, Program.meets_bind]
    refine Program.Meets.mono (Tick.rotates_run hlooked) ?_
    rintro ⟨⟨⟩, w'⟩ h' -
    refine ⟨trivial, fun isStopping _ => ⟨trivial, ?_⟩⟩
    cases isStopping with
    | true => exact ⟨trivial, trivial⟩
    | false => trivial

/-- A turn on top of a state of the worker is isolated, and asks about the deals in turn. -/
lemma along_append (hreaches : (Driver.active (run setup w)).Reaches h driver) :
    Along (Isolated setup) (h ++ [.became w]) ∧ Along (Rotates setup) (h ++ [.became w]) := by
  have upheld := isolation_upheld setup
  obtain ⟨htook, hapart⟩ := (apart_nil setup).tookOver w
  have hisolates : (Driver.active (run setup w)).Keeps (isolation setup)
      (fun turnEnd h' => Apart setup turnEnd h' ∧ Concludes w [.became w] h') [.became w] :=
    isolates_run hapart
  have hrotates : (Driver.active (run setup w)).Keeps (rotation setup) (fun _ _ => True)
      [.became w] :=
    rotates_run ⟨rfl, List.forall_mem_singleton.2 rfl⟩
  exact ⟨(hreaches.along_and_keeps_append upheld.answered upheld.panic hisolates ⟨htook, trivial⟩
      (along_of_forall fun _ _ _ _ => trivial)).1,
    (hreaches.along_and_keeps_append (fun _ _ _ _ => trivial) (fun _ _ _ => trivial) hrotates
      ⟨fun _ => rfl, trivial⟩ (along_of_forall fun _ _ _ _ => trivial)).1⟩

end Turn

/-! ## The deals between two sweeps -/

/-- Since a worker was taken over, its deals have not changed outside of the deal phase, so the
sweep goes through them. -/
structure DealsKept (setup : Setup) (deals : BoundedMap Cid) (h : History) : Prop where
  outside : Unended h → phase? h ≠ some .deal → (worker setup.config h).deals = deals
  sweep : part? h = some .dealSweep → snapshot setup.config h = deals.keys

namespace DealsKept

/-- A change outside of the deal phase keeps the deals. -/
lemma became (hkept : DealsKept setup deals h) (hne : h ≠ [])
    (hisolated : Isolated setup h (.became w)) (hrotates : Rotates setup h (.became w)) :
    DealsKept setup deals (.became w :: h) where
  outside hunended hphase := by
    have hbefore := hkept.outside (List.forall_mem_cons.1 hunended).2 hphase
    cases hsome : phase? h with
    | none => exact absurd (hrotates (Option.map_eq_none_iff.1 hsome)) hne
    | some phase =>
      have hleaves := hisolated.2.2 phase hsome
      cases phase with
      | index => exact (Worker.Indexed.deals_eq hleaves).trans hbefore
      | retrieve => exact (Worker.Retrieved.deals_eq hleaves).trans hbefore
      | deal => exact absurd hsome hphase
  sweep := hkept.sweep

/-- A part that begins keeps the deals, and if it is the sweep, then it goes through them. -/
lemma entered (hkept : DealsKept setup deals h) (hisolated : Isolated setup h (.entered part))
    (hrotates : Rotates setup h (.entered part)) :
    DealsKept setup deals (.entered part :: h) := by
  have hfollows : Follows setup h part := hisolated.2
  constructor
  · intro hunended hphase
    refine hkept.outside (List.forall_mem_cons.1 hunended).2 fun hdeal => ?_
    cases hfollows with
    | indexing hpart =>
      rw [phase?, hpart] at hdeal
      cases hdeal
    | retrievalSweep hindexed =>
      rcases hindexed with hindexed | hpauses
      · cases hindexed.symm.trans hdeal
      · rw [phase?, hpauses.part] at hdeal
        cases hdeal
    | retrievalScan hretrieving => cases hretrieving.symm.trans hdeal
    | dealSweep => exact hphase rfl
    | dealScan => exact hphase rfl
  · intro hsweep
    obtain rfl := Option.some.inj hsweep
    cases hfollows with
    | dealSweep hretrieved =>
      refine congrArg BoundedMap.keys (hkept.outside hrotates fun hdeal => ?_)
      cases hretrieved.symm.trans hdeal

/-- What happens in a turn keeps the deals outside of the deal phase. -/
lemma cons (hkept : DealsKept setup deals h) (hne : h ≠ [])
    (hisolated : Isolated setup h occurrence) (hrotates : Rotates setup h occurrence) :
    DealsKept setup deals (occurrence :: h) := by
  cases occurrence with
  | became w => exact hkept.became hne hisolated hrotates
  | entered part => exact hkept.entered hisolated hrotates
  | published stats =>
    refine ⟨fun hunended => ?_, by rintro ⟨⟩⟩
    cases (List.forall_mem_cons.1 hunended).1
  | brokeOff =>
    refine ⟨fun hunended => ?_, by rintro ⟨⟩⟩
    cases (List.forall_mem_cons.1 hunended).1
  | _ =>
    exact ⟨fun hunended => hkept.outside (List.forall_mem_cons.1 hunended).2, hkept.sweep⟩

end DealsKept

/-- **Between two sweeps** the deals stay as they are: a driver that takes a worker over begins its
sweep with the deals that it took over. -/
lemma dealsKept_of_along (hisolated : Along (Isolated setup) h) (hrotates : Along (Rotates setup) h)
    (hlast : h.getLast? = some (.became w)) : DealsKept setup w.deals h := by
  induction h with
  | nil => cases hlast
  | cons occurrence earlier ih =>
    cases earlier with
    | nil =>
      obtain rfl := Option.some.inj hlast
      exact ⟨fun _ _ => rfl, by rintro ⟨⟩⟩
    | cons before rest =>
      exact (ih hisolated.2 hrotates.2 hlast).cons (List.cons_ne_nil _ _) hisolated.1 hrotates.1

/-- Since a worker was taken over, each sweep goes through the deals that it had. -/
lemma snapshot_of_suffix {earlier : History} (hisolated : Along (Isolated setup) h)
    (hrotates : Along (Rotates setup) h) (hlast : h.getLast? = some (.became w))
    (hsuffix : earlier <:+ h) (hpart : part? earlier = some .dealSweep) :
    snapshot setup.config earlier = w.deals.keys := by
  have hne : earlier ≠ [] := by
    rintro rfl
    cases hpart
  have hbegan : earlier.getLast? = some (.became w) := by
    obtain ⟨later, rfl⟩ := hsuffix
    rwa [List.getLast?_append_of_ne_nil _ hne] at hlast
  exact (dealsKept_of_along (hisolated.of_suffix hsuffix) (hrotates.of_suffix hsuffix) hbegan).sweep
    hpart

/-! ## The deal that is asked about last -/

/-- In a turn that begins with a worker, the sweep asks about the deal of a key after all others. -/
structure AskedLast (setup : Setup) (w : Worker) (key : Cid) (h : History) : Prop where
  /-- When the node is asked about a deal, it was not asked about this one. -/
  unasked : ∀ other proposal earlier,
    .called (.dealSweep other) (.dealInfo proposal) :: earlier <:+ h → key ∉ consulted earlier
  /-- When it is asked about this one, it has told about all others, unless their pieces are
  gone. -/
  others : ∀ proposal earlier, .called (.dealSweep key) (.dealInfo proposal) :: earlier <:+ h →
    ∀ other ∈ w.deals.keys, other ≠ key → ToldAbout setup earlier [other]
  /-- Before the phase goes on to its scan, the node has told about all. -/
  all : ∀ earlier, .entered .dealScan :: earlier <:+ h → ToldAbout setup earlier w.deals.keys

/-- Where a list without duplicates is split, its last element is not in front. -/
lemma notMem_of_getLast? {before after : List Cid} {other : Cid}
    (hnodup : (before ++ other :: after).Nodup)
    (hlast : (before ++ other :: after).getLast? = some key) : key ∉ before := by
  rw [List.getLast?_append_of_ne_nil _ (List.cons_ne_nil _ _)] at hlast
  intro hbefore
  exact (List.nodup_append.1 hnodup).2.2 key hbefore key (List.mem_of_getLast? hlast) rfl

/-- Nothing comes after the last element of a list without duplicates. -/
lemma eq_nil_of_getLast? {before after : List Cid} (hnodup : (before ++ key :: after).Nodup)
    (hlast : (before ++ key :: after).getLast? = some key) : after = [] := by
  by_contra hne
  rw [List.append_cons, List.getLast?_append_of_ne_nil _ hne] at hlast
  have hafter := (List.nodup_cons.1 (List.nodup_append.1 hnodup).2.1).1
  exact hafter (List.mem_of_getLast? hlast)

/-- The last deal is asked about last. -/
lemma askedLast_of_along (hisolated : Along (Isolated setup) h)
    (hrotates : Along (Rotates setup) h) (hlast : h.getLast? = some (.became w))
    (hkey : w.deals.keys.getLast? = some key) : AskedLast setup w key h := by
  have hnodup : w.deals.keys.Nodup := BoundedMap.keys_nodup
  have hturn : ∀ other proposal earlier,
      .called (.dealSweep other) (.dealInfo proposal) :: earlier <:+ h →
      ∃ before after, w.deals.keys = before ++ other :: after ∧ ToldAbout setup earlier before ∧
        consulted earlier ⊆ before := by
    intro other proposal earlier hsuffix
    obtain ⟨⟨key, ⟨⟩, hturn⟩, -⟩ := hrotates.of_suffix hsuffix
    rw [← snapshot_of_suffix hisolated hrotates hlast ((List.suffix_cons _ _).trans hsuffix)
      hturn.part_eq]
    exact hturn.split
  constructor
  · intro other proposal earlier hsuffix hconsulted
    obtain ⟨before, after, heq, -, hsubset⟩ := hturn other proposal earlier hsuffix
    rw [heq] at hnodup hkey
    exact notMem_of_getLast? hnodup hkey (hsubset hconsulted)
  · intro proposal earlier hsuffix other hother hne
    obtain ⟨before, after, heq, htold, -⟩ := hturn key proposal earlier hsuffix
    rw [heq] at hnodup hkey hother
    obtain rfl := eq_nil_of_getLast? hnodup hkey
    have hbefore : other ∈ before :=
      (List.mem_append.1 hother).resolve_right fun hkey => hne (List.mem_singleton.1 hkey)
    exact List.forall_mem_singleton.2 (htold other hbefore)
  · intro earlier hsuffix
    obtain ⟨⟨hpart, htold⟩, -⟩ := hrotates.of_suffix hsuffix
    rwa [snapshot_of_suffix hisolated hrotates hlast ((List.suffix_cons _ _).trans hsuffix) hpart]
      at htold

/-- **The deal that stopped a sweep comes last.**  A turn that begins with the deals as such a sweep
left them asks about that deal after all others. -/
lemma Dealing.FailsAt.askedLast {failed : History} (hfails : FailsAt setup key w failed)
    (hreaches : (Driver.active (Turn.run setup w)).Reaches h driver) :
    AskedLast setup w key (h ++ [.became w]) := by
  obtain ⟨before, after, -, hrotated⟩ := hfails.rotated
  obtain ⟨proposal, -, hproposal, -⟩ := hfails.failed
  have hmem : key ∈ w.deals.keys := BoundedMap.mem_keys_of_find? hproposal
  have hkey : w.deals.keys.getLast? = some key := by
    have heq : w.deals.keys = _ := BoundedMap.eq_concat_of_rotated hrotated hmem
    rw [heq, List.getLast?_concat]
  obtain ⟨hisolated, hrotates⟩ := Turn.along_append hreaches
  exact askedLast_of_along hisolated hrotates List.getLast?_concat hkey

/-- **A walk that stops early leaves what it did not visit first.**  A phase may begin with any
worker, and its surroundings may supply what they like.  If it ends in a scan, as one that was given
up or with a set that has grown past its cap, then the scan has stopped at some key: the keys that
it did not get to come first in the inventory, and those that it visited follow in that order, as
far as they are still there.  The same holds of the deals if the sweep is given up, and then the
next turn asks last about the deal that the node failed to tell about. -/
theorem unvisited_first (setup : Setup) (w : Worker) {σ : Type} (surroundings : Surroundings σ)
    (isStopping : Bool) (state : σ) :
    let retrieval := ((Retrieval.run setup).run.run w).execute surroundings isStopping state
      [.became w]
    let dealing := ((Dealing.run setup).run.run w).execute surroundings isStopping state [.became w]
    (∀ result w', retrieval.halt = .done (result, w') →
      part? retrieval.trace = some .retrievalScan →
      (∃ error, result = .error error) ∨
        setup.config.retrieveParallel.toNat < w'.retrievals.size →
      ∃ key, StoppedAt setup .retrievalScan key w' retrieval.trace) ∧
    (∀ result w', dealing.halt = .done (result, w') → part? dealing.trace = some .dealScan →
      (∃ error, result = .error error) ∨ setup.config.dealParallel.toNat < w'.deals.size →
      ∃ key, StoppedAt setup .dealScan key w' dealing.trace) ∧
    ∀ error w', dealing.halt = .done (.error error, w') →
      part? dealing.trace = some .dealSweep →
      ∃ key, Dealing.FailsAt setup key w' dealing.trace ∧
        ∀ h driver, (Driver.active (Turn.run setup w')).Reaches h driver →
          AskedLast setup w' key (h ++ [.became w']) := by
  intro retrieval dealing
  have hsupplies : surroundings.Supplies isStopping (rotation setup) :=
    Contract.supplies_of_forall (fun _ _ => trivial) surroundings isStopping
  have hs : Shows setup Unended w [.became w] := ⟨rfl, List.forall_mem_singleton.2 rfl⟩
  refine ⟨fun result w' hdone hpart hearly => ?_, fun result w' hdone hpart hearly => ?_,
    fun error w' hdone hpart => ?_⟩
  · have hpost := Program.Meets.post_of_execute (Retrieval.rotates_run hs) hsupplies hdone
    cases result with
    | ok value =>
      have hends : WalkEnds setup .retrievalScan
        (setup.config.retrieveParallel.toNat < w'.retrievals.size) w' retrieval.trace := hpost
      rcases hearly with ⟨error, ⟨⟩⟩ | hfull
      exact hends.stoppedAt hpart hfull
    | error error =>
      have hends : WalkEnds setup .retrievalScan True w' retrieval.trace := hpost
      exact hends.stoppedAt hpart trivial
  · have hpost := Program.Meets.post_of_execute (Dealing.rotates_run hs) hsupplies hdone
    cases result with
    | ok value =>
      have hends : WalkEnds setup .dealScan (setup.config.dealParallel.toNat < w'.deals.size) w'
        dealing.trace := hpost
      rcases hearly with ⟨error, ⟨⟩⟩ | hfull
      exact hends.stoppedAt hpart hfull
    | error error =>
      have hstops : Dealing.StopsEarly setup w' dealing.trace := hpost
      exact hstops.scan hpart
  · have hstops : Dealing.StopsEarly setup w' dealing.trace :=
      Program.Meets.post_of_execute (Dealing.rotates_run hs) hsupplies hdone
    obtain ⟨key, hfails⟩ := hstops.sweep hpart
    exact ⟨key, hfails, fun h driver hreaches => hfails.askedLast hreaches⟩

namespace Sample

/-- The replies of a node that fails to tell about one of the deals. -/
def forgetfulReply : (call : Call) → Reply call
  | .dealInfo proposal =>
    if proposal = ⟨"lost"⟩ then .error ⟨["lost"]⟩ else dealingReply true (.dealInfo proposal)
  | call => dealingReply true call

/-- A run of a phase with that node, on top of the state in which it begins. -/
def forgetfulRun (activity : Activity Unit) (w : Worker) :
    Progress Unit (Except PhaseError Unit × Worker) :=
  (activity.run.run w).execute (.replying forgetfulReply) false () [.became w]

/-- A turn with that node. -/
def forgetfulTurn (w : Worker) : Progress Unit TurnEnd :=
  (Turn.run dealingSetup w).execute (.replying forgetfulReply) false () []

end Sample

/-- Both scans of a sample worker stop at the second one of three pieces, and a sweep at the second
one of three deals.  In each case that one comes last then, after the third and the first, and so it
is asked about last in the next turn. -/
theorem unvisited_first_failing :
    let w := Sample.dealingWorker [⟨"first"⟩, ⟨"unreadable"⟩, ⟨"third"⟩] []
    let forgotten := Sample.dealingWorker [⟨"first"⟩, ⟨"second"⟩, ⟨"third"⟩]
      [(⟨"first"⟩, ⟨"staged"⟩), (⟨"second"⟩, ⟨"lost"⟩), (⟨"third"⟩, ⟨"staged"⟩)]
    let retrieval := Sample.forgetfulRun (Retrieval.run Sample.dealingSetup) w
    let dealing := Sample.forgetfulRun (Dealing.run Sample.dealingSetup) w
    let sweeping := Sample.forgetfulRun (Dealing.run Sample.dealingSetup) forgotten
    (∃ key w', StoppedAt Sample.dealingSetup .retrievalScan key w' retrieval.trace ∧
      w'.pieces.keys = [⟨"third"⟩, ⟨"first"⟩, ⟨"unreadable"⟩]) ∧
    (∃ key w', StoppedAt Sample.dealingSetup .dealScan key w' dealing.trace ∧
      w'.pieces.keys = [⟨"third"⟩, ⟨"first"⟩, ⟨"unreadable"⟩]) ∧
    ∃ w', Dealing.FailsAt Sample.dealingSetup ⟨"second"⟩ w' sweeping.trace ∧
      w'.deals.keys = [⟨"third"⟩, ⟨"first"⟩, ⟨"second"⟩] ∧
      (asked (fun purpose _ => purpose.part? == some .dealSweep)
        (Sample.forgetfulTurn w').trace).map Prod.fst =
          [.dealSweep ⟨"third"⟩, .dealSweep ⟨"first"⟩, .dealSweep ⟨"second"⟩] ∧
      AskedLast Sample.dealingSetup w' ⟨"second"⟩
        ((Sample.forgetfulTurn w').trace ++ [.became w']) := by
  intro w forgotten retrieval dealing sweeping
  obtain ⟨hretrieval, hdealing, -⟩ := unvisited_first Sample.dealingSetup w
    (.replying Sample.forgetfulReply) false ()
  obtain ⟨-, -, hsweeping⟩ := unvisited_first Sample.dealingSetup forgotten
    (.replying Sample.forgetfulReply) false ()
  refine ⟨?_, ?_, ?_⟩
  · have hresult : retrieval.result?.map (fun last => (last.1, last.2.pieces.keys)) =
        some (.error (.transport ⟨["unreadable"]⟩), [⟨"third"⟩, ⟨"first"⟩, ⟨"unreadable"⟩]) := by
      decide +kernel
    obtain ⟨w', hdone, hkeys⟩ := Progress.exists_done (fun w' => w'.pieces.keys) hresult
    obtain ⟨key, hstopped⟩ := hretrieval _ w' hdone (by decide +kernel) (.inl ⟨_, rfl⟩)
    exact ⟨key, w', hstopped, hkeys⟩
  · have hresult : dealing.result?.map (fun last => (last.1, last.2.pieces.keys)) =
        some (.error (.transport ⟨["unreadable"]⟩), [⟨"third"⟩, ⟨"first"⟩, ⟨"unreadable"⟩]) := by
      decide +kernel
    obtain ⟨w', hdone, hkeys⟩ := Progress.exists_done (fun w' => w'.pieces.keys) hresult
    obtain ⟨key, hstopped⟩ := hdealing _ w' hdone (by decide +kernel) (.inl ⟨_, rfl⟩)
    exact ⟨key, w', hstopped, hkeys⟩
  · have hresult : sweeping.result?.map (fun last => (last.1, last.2.deals.keys,
        (asked (fun purpose _ => purpose.part? == some .dealSweep)
          (Sample.forgetfulTurn last.2).trace).map Prod.fst)) =
        some (.error (.transport ⟨["lost"]⟩), [⟨"third"⟩, ⟨"first"⟩, ⟨"second"⟩],
          [.dealSweep ⟨"third"⟩, .dealSweep ⟨"first"⟩, .dealSweep ⟨"second"⟩]) := by
      decide +kernel
    obtain ⟨w', hdone, heq⟩ := Progress.exists_done (fun w' => (w'.deals.keys,
      (asked (fun purpose _ => purpose.part? == some .dealSweep)
        (Sample.forgetfulTurn w').trace).map Prod.fst)) hresult
    obtain ⟨hkeys, hasked⟩ := Prod.mk.inj heq
    obtain ⟨key, hfails, hlast⟩ : ∃ key,
        Dealing.FailsAt Sample.dealingSetup key w' sweeping.trace ∧ _ :=
      hsweeping _ w' hdone (by decide +kernel)
    have hkey : key = ⟨"second"⟩ := by
      obtain ⟨proposal, failure, -, hreply⟩ := hfails.failed
      have hpurpose : (lastReply? sweeping.trace).map (·.purpose) =
          some (.dealSweep ⟨"second"⟩) := by decide +kernel
      rw [hreply] at hpurpose
      exact Purpose.dealSweep.inj (Option.some.inj hpurpose)
    subst hkey
    exact ⟨w', hfails, hkeys, hasked,
      hlast _ _ (Driver.Reaches.refl.execute (.replying Sample.forgetfulReply) false ())⟩

end PieceReplication
