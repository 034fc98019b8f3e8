import PieceReplication.Lifecycle.Session
import PieceReplication.Proofs.Run.Life

/-!
# Sessions are lives

A session runs the driver in given surroundings until it rests after each command, so it shows only
some of the lives of a replicator.  What holds along the trace of every life holds along the trace
of every session.
-/

namespace PieceReplication

section Commands

variable {σ : Type} {setup : Setup} {events : List Event} {replicator : Replicator}

/-! ## Runs of programs -/

/-- What the driver did on top of some events. -/
lemma trace_map_happened (new : History) :
    trace (new.map .happened ++ events) = new ++ trace events := by
  induction new with
  | nil => rfl
  | cons occurrence earlier ih => exact congrArg (occurrence :: ·) ih

/-- Where a driver stands whose program halted, before it goes to sleep or ends. -/
def Driver.atHalt : Halt TurnEnd → Driver
  | .done turnEnd => active (.done turnEnd)
  | .hanging purpose call resume => hanging purpose call resume
  | .broken => broken

/-- The replicator after its driver did something new and came to stand elsewhere. -/
def Replicator.afterAll (replicator : Replicator) (isStopping : Bool) (new : History)
    (driver : Driver) : Replicator :=
  { replicator with
    running := some ⟨isStopping, driver⟩
    stats := (Trace.lastStats? new.reverse).getD replicator.stats }

/-- A first occurrence and those after it together. -/
lemma Replicator.afterAll_after {isStopping : Bool} {occurrence : Occurrence} {new : History}
    {driver driver' : Driver} :
    (replicator.after occurrence driver).afterAll isStopping new driver' =
      replicator.afterAll isStopping (new ++ [occurrence]) driver' := by
  have hstats : (Trace.lastStats? new.reverse).getD (replicator.after occurrence driver).stats =
      (Trace.lastStats? (new ++ [occurrence]).reverse).getD replicator.stats := by
    rw [Trace.lastStats?, Trace.lastStats?, List.reverse_reverse, List.reverse_reverse,
      List.findSome?_append]
    cases hnew : new.findSome? _ with
    | some stats => rfl
    | none => cases occurrence <;> rfl
  unfold Replicator.afterAll
  rw [hstats]
  cases occurrence <;> rfl

/-- What a run shows: it is a part of the lives that go through the replicator. -/
def Progress.Extends (progress : Progress σ TurnEnd) (setup : Setup) (isStopping : Bool)
    (t : History) (events : List Event) (replicator : Replicator) : Prop :=
  ∃ new, progress.trace = new ++ t ∧
    Life setup (new.map .happened ++ events)
      (replicator.afterAll isStopping new (.atHalt progress.halt))

/-- A run that goes on after an occurrence is a part of a life together with it. -/
lemma Progress.Extends.of_after {progress : Progress σ TurnEnd} {isStopping : Bool} {t : History}
    {occurrence : Occurrence} {driver : Driver}
    (hextends : progress.Extends setup isStopping (occurrence :: t)
      (.happened occurrence :: events) (replicator.after occurrence driver)) :
    progress.Extends setup isStopping t events replicator := by
  obtain ⟨new, htrace, life⟩ := hextends
  refine ⟨new ++ [occurrence], ?_, ?_⟩
  · rw [htrace, List.append_assoc]
    rfl
  · rw [← Replicator.afterAll_after, List.map_append, List.append_assoc]
    exact life

/-- A run that stands still is a part of a life. -/
lemma Life.extends_rfl {isStopping : Bool} {halt : Halt TurnEnd} {state : σ}
    {t : History} (life : Life setup events replicator)
    (hrunning : replicator.running = some ⟨isStopping, .atHalt halt⟩) :
    Progress.Extends ⟨halt, state, t⟩ setup isStopping t events replicator := by
  refine ⟨[], rfl, ?_⟩
  obtain ⟨setup', idle, running, stats⟩ := replicator
  obtain rfl : running = _ := hrunning
  exact life

/-- A driver whose program has halted goes to sleep or ends, as the program says. -/
lemma Life.atRest {isStopping : Bool} {new : History} {halt : Halt TurnEnd}
    (life : Life setup events (replicator.afterAll isStopping new (.atHalt halt)))
    (pause : Nat) :
    Life setup events (replicator.afterAll isStopping new (.ofHalt pause halt)) := by
  cases halt with
  | done turnEnd => exact life.settle rfl pause
  | hanging purpose call resume => exact life
  | broken => exact life

/-- A run of the driver's program is a part of a life. -/
lemma Life.execute (surroundings : Surroundings σ) (isStopping : Bool) (program : Program TurnEnd)
    (state : σ) (t : History) (life : Life setup events replicator)
    (hrunning : replicator.running = some ⟨isStopping, .active program⟩) :
    (program.execute surroundings isStopping state t).Extends setup isStopping t events
      replicator := by
  induction program generalizing state t events replicator with
  | done turnEnd => exact life.extends_rfl hrunning
  | perform effect resume ih =>
    -- a step that leads to the rest of the program by an answer
    have hnext : ∀ {occurrence} (answer : effect.Answer) (state : σ),
        Driver.Step isStopping (.active (.perform effect resume)) occurrence
          (.active (resume answer)) →
        ((resume answer).execute surroundings isStopping state (occurrence :: t)).Extends setup
          isStopping t events replicator := fun answer state hstep =>
      .of_after (ih answer state _ (life.step hrunning hstep) (running_after hrunning))
    cases effect with
    | call purpose call =>
      have hcalled := life.step hrunning .call
      have hhanging : (replicator.after (.called purpose call)
          (.hanging purpose call resume)).running =
          some ⟨isStopping, .hanging purpose call resume⟩ := running_after hrunning
      rw [Program.execute]
      split
      · next reply state' hreply =>
        have hanswered := hcalled.step hhanging (.answer reply)
        exact .of_after (.of_after (ih reply state' _ hanswered (running_after hhanging)))
      · exact .of_after (hcalled.extends_rfl hhanging)
      · have hbroken := hcalled.step hhanging .panic
        exact .of_after (.of_after (hbroken.extends_rfl (running_after hhanging)))
    | choose n pos => exact hnext _ _ (.choose _)
    | stopRequested => exact hnext _ _ .look
    | overflow cause =>
      exact .of_after ((life.step hrunning .overflow).extends_rfl (running_after hrunning))
    | enter part => exact hnext _ _ .enter
    | log event => exact hnext _ _ .log
    | count counter => exact hnext _ _ .count
    | become worker => exact hnext _ _ .become
    | publish stats => exact hnext _ _ .publish

/-! ## Sessions -/

namespace Session

/-- A command to a session. -/
inductive Command (σ : Type) where
  | start
  | stop (context : StopContext)
  | advance (milliseconds : Nat)
  | release
  | alter (f : σ → σ)

/-- The session after a command. -/
def perform (surroundings : Surroundings σ) (session : Session σ) : Command σ → Session σ
  | .start => (session.start surroundings).2
  | .stop context => (session.stop surroundings context).2
  | .advance milliseconds => session.advance surroundings milliseconds
  | .release => session.release surroundings
  | .alter f => session.alter f

/-- Whether a session shows a life: its replicator can come to stand there, with that trace. -/
def ShowsLife (setup : Setup) (session : Session σ) : Prop :=
  ∃ events, Life setup events session.replicator ∧ PieceReplication.trace events = session.trace

variable {surroundings : Surroundings σ} {session : Session σ}

/-- A session in which the driver goes on shows a life. -/
lemma ShowsLife.proceed (hlife : session.ShowsLife setup) :
    (session.proceed surroundings).ShowsLife setup := by
  obtain ⟨events, life, htrace⟩ := hlife
  unfold Session.proceed
  split
  · next isStopping program hrunning =>
    obtain ⟨new, hnew, hafter⟩ :=
      life.execute surroundings isStopping program session.state [] hrunning
    rw [List.append_nil] at hnew
    subst hnew
    exact ⟨_, hafter.atRest _, by rw [trace_map_happened, htrace]⟩
  · exact ⟨events, life, htrace⟩

/-- A session in which the driver's sleep ends shows a life. -/
lemma ShowsLife.wake (hlife : session.ShowsLife setup) :
    (session.wake surroundings).ShowsLife setup := by
  obtain ⟨events, life, htrace⟩ := hlife
  refine ShowsLife.proceed ?_
  by_cases hasleep : ∃ isStopping worker left,
      session.replicator.running = some ⟨isStopping, .asleep worker left⟩
  · obtain ⟨isStopping, worker, left, hrunning⟩ := hasleep
    exact ⟨_, life.wake hrunning, htrace⟩
  · have hsame : session.replicator.wake = session.replicator := by
      unfold Replicator.wake
      split
      · next isStopping worker left hrunning =>
        exact absurd ⟨isStopping, worker, left, hrunning⟩ hasleep
      · rfl
    rw [hsame]
    exact ⟨events, life, htrace⟩

/-- A session in which time passes shows a life. -/
lemma ShowsLife.advance (milliseconds : Nat) (hlife : session.ShowsLife setup) :
    (session.advance surroundings milliseconds).ShowsLife setup := by
  fun_induction Session.advance surroundings milliseconds session with
  | case1 => exact hlife
  | case2 milliseconds session left hleft hle ih => exact ih hlife.wake
  | case3 milliseconds session left hleft hle =>
    obtain ⟨events, life, htrace⟩ := hlife
    exact ⟨events, life.doze milliseconds, htrace⟩

/-- A session in which the replicator is started shows a life. -/
lemma ShowsLife.start (hlife : session.ShowsLife setup) :
    (session.start surroundings).2.ShowsLife setup := by
  unfold Session.start
  split
  · exact hlife
  · next replicator hstart =>
    obtain ⟨events, life, htrace⟩ := hlife
    exact ShowsLife.proceed ⟨_, life.start hstart, htrace⟩

/-- A session in which a driver is removed shows a life. -/
lemma ShowsLife.collect {result : Except LifecycleError Unit} {replicator : Replicator}
    (hlife : session.ShowsLife setup)
    (hcollect : session.replicator.collect? = some (result, replicator)) :
    { session with replicator }.ShowsLife setup := by
  obtain ⟨events, life, htrace⟩ := hlife
  exact ⟨_, life.collect hcollect, htrace⟩

/-- A session in which the replicator is stopped shows a life. -/
lemma ShowsLife.stop (context : StopContext) (hlife : session.ShowsLife setup) :
    (session.stop surroundings context).2.ShowsLife setup := by
  unfold Session.stop
  split
  · exact hlife
  · next replicator hrequest =>
    obtain ⟨events, life, htrace⟩ := hlife
    have hrequested : { session with replicator }.ShowsLife setup :=
      ⟨_, life.requestStop hrequest, htrace⟩
    split
    · next result replicator' hcollect => exact hrequested.collect hcollect
    · dsimp only
      split
      · exact hrequested.wake
      · split
        · next result replicator' hcollect => exact hrequested.wake.collect hcollect
        · exact hrequested.wake

/-- A session in which a hanging call is released shows a life. -/
lemma ShowsLife.release (hlife : session.ShowsLife setup) :
    (session.release surroundings).ShowsLife setup := by
  unfold Session.release
  split
  · next isStopping purpose call resume hrunning =>
    obtain ⟨events, life, htrace⟩ := hlife
    have hanswered := life.step hrunning
      (.answer (surroundings.release session.state call).1)
    unfold Replicator.after Replicator.setDriver at hanswered
    rw [hrunning] at hanswered
    exact ShowsLife.proceed ⟨_, hanswered, congrArg _ htrace⟩
  · exact hlife

/-- A session after a command shows a life if it did before. -/
lemma ShowsLife.perform (command : Command σ) (hlife : session.ShowsLife setup) :
    (session.perform surroundings command).ShowsLife setup := by
  cases command with
  | start => exact hlife.start
  | stop context => exact hlife.stop context
  | advance milliseconds => exact hlife.advance milliseconds
  | release => exact hlife.release
  | alter f => exact hlife

/-- **Sessions are lives.**  After any commands, in any surroundings, a session shows a life. -/
theorem showsLife_of_commands (surroundings : Surroundings σ) (setup : Setup) (state : σ)
    (commands : List (Command σ)) :
    (commands.foldl (perform surroundings) (.new setup state)).ShowsLife setup := by
  suffices hall : ∀ session : Session σ, session.ShowsLife setup →
      (commands.foldl (Session.perform surroundings) session).ShowsLife setup from
    hall _ ⟨[], .new, rfl⟩
  induction commands with
  | nil => exact fun _ hlife => hlife
  | cons command rest ih => exact fun session hlife => ih _ (hlife.perform command)

end Session

end Commands

/-! ## A sample node -/

namespace Sample

/-- A setup with room for a single piece. -/
def setup : Setup where
  miner := ⟨"local"⟩
  config := { inventoryCapacity := ⟨1, by decide⟩ }
  seed := none

/-- The answers of a node that has made some deals. Two deals of another provider are proved on its
chain, in one sector that lists one of them twice, and the node stores the payload. -/
def answer (deals : List ClientDeal) : (call : Call) → call.Answer
  | .chainHead => ⟨⟨"block"⟩, [], 11, ⟨[]⟩⟩
  | .tipsetAt height => ⟨⟨"block"⟩, [], height, ⟨[]⟩⟩
  | .parentMessages _ =>
    [⟨⟨"message"⟩, ⟨"sender"⟩, ⟨"provider"⟩, 0, ProveCommit.methodNumber, [0x82, 0x01, 0x40]⟩]
  | .preCommit _ sector _ => some ⟨sector, ⟨"sealed"⟩, 0, [7, 8, 7], 0, 0⟩
  | .provenSector _ _ _ => none
  | .marketDeal _ _ =>
    ⟨⟨⟨"piece"⟩, 0, false, ⟨"client"⟩, ⟨"provider"⟩, "", 0, 0⟩, ⟨1, 0, 0⟩, ⟨⟨"root"⟩, ""⟩⟩
  | .clientDeals => deals
  | .hasLocal _ => true
  | .query _ _ => ⟨.success, "", 0⟩
  | .offer miner root => ⟨"not served", root, 0, miner⟩
  | .minerInfo _ => ⟨⟨"owner"⟩, ⟨"worker"⟩, some "peer", 0⟩
  | .startDeal _ => if deals.isEmpty then ⟨"first"⟩ else ⟨"second"⟩
  | .dealInfo proposal =>
    (deals.find? (·.proposal == proposal)).getD
      ⟨proposal, .unknown, "", ⟨"local"⟩, ⟨"piece"⟩, 0, 0⟩
  | .syncState => ⟨[]⟩

/-- The node, which keeps the deals that it makes. -/
def node : Surroundings (List ClientDeal) where
  call deals call :=
    (.reply (.ok (answer deals call)),
      match call with
      | .startDeal terms =>
        deals ++ [⟨answer deals (.startDeal terms), .staged, "", terms.miner, ⟨"piece"⟩, 0, 0⟩]
      | _ => deals)
  release deals call := (.ok (answer deals call), deals)
  choose deals _ pos := (⟨0, pos⟩, deals)

/-- A session in which a deal is started, the node lets it fail, and the replicator is stopped and
started again. -/
def session : Session (List ClientDeal) :=
  [.start, .alter (·.map ({ · with state := .error })), .stop .never, .start].foldl
    (Session.perform node) (.new setup [])

/-- The sample session shows a life. -/
lemma showsLife_session : session.ShowsLife setup :=
  Session.showsLife_of_commands node setup [] _

/-- Two deals are started in the sample session. -/
lemma returned_trace_session :
    History.returned session.trace = [(⟨"piece"⟩, ⟨"second"⟩), (⟨"piece"⟩, ⟨"first"⟩)] := by
  decide +kernel

/-! ### A crowded node -/

/-- A setup with room for four pieces and a cap of two on the retrievals. -/
def crowdedSetup : Setup where
  miner := ⟨"local"⟩
  config := { inventoryCapacity := ⟨4, by decide⟩, retrieveParallel := 2 }
  seed := none

/-- The deals on the chain of the crowded node: each with its piece, the root of its payload and the
epoch at which its sector starts.  Three of the pieces can be retrieved under their second deal
only. -/
def crowdedDeals : List (DealId × Cid × Cid × Epoch) :=
  [(1, ⟨"first"⟩, ⟨"first, unproved"⟩, -1), (2, ⟨"first"⟩, ⟨"first, proved"⟩, 1),
    (3, ⟨"second"⟩, ⟨"second, unproved"⟩, -1), (4, ⟨"second"⟩, ⟨"second, proved"⟩, 1),
    (5, ⟨"third"⟩, ⟨"third, unproved"⟩, -1), (6, ⟨"third"⟩, ⟨"third, proved"⟩, 1),
    (7, ⟨"fourth"⟩, ⟨"fourth, proved"⟩, 1)]

/-- The answers of the crowded node, whose providers serve nothing.  Some payloads arrive later, of
the first piece that of the second deal, of the second and the third piece those of the first
deals, and the local miner serves what has arrived. -/
def crowdedAnswer (haveArrived : Bool) : (call : Call) → call.Answer
  | .preCommit _ sector _ => some ⟨sector, ⟨"sealed"⟩, 0, crowdedDeals.map Prod.fst, 0, 0⟩
  | .marketDeal dealId _ =>
    let (_, piece, root, start) :=
      (crowdedDeals.find? (·.1 == dealId)).getD (dealId, ⟨"fourth"⟩, ⟨"fourth, proved"⟩, 1)
    ⟨⟨piece, 0, false, ⟨"client"⟩, ⟨"provider"⟩, "", 0, 0⟩, ⟨start, 0, 0⟩, ⟨root, ""⟩⟩
  | .hasLocal root =>
    haveArrived && [⟨"first, proved"⟩, ⟨"second, unproved"⟩, ⟨"third, unproved"⟩].contains root
  | .query _ _ => ⟨.unavailable, "", 0⟩
  | .offer miner root => ⟨"", root, 0, miner⟩
  | call => answer [] call

/-- The crowded node; its state tells whether the payloads have arrived. -/
def crowdedNode : Surroundings Bool where
  call haveArrived call := (.reply (.ok (crowdedAnswer haveArrived call)), haveArrived)
  release haveArrived call := (.ok (crowdedAnswer haveArrived call), haveArrived)
  choose haveArrived _ pos := (⟨0, pos⟩, haveArrived)

/-- A session in which three retrievals become pending, the payloads arrive, and the replicator is
stopped and started again. -/
def crowdedSession : Session Bool :=
  [.start, .alter fun _ => true, .stop .never, .start].foldl
    (Session.perform crowdedNode) (.new crowdedSetup false)

/-- The crowded session shows a life. -/
lemma showsLife_crowdedSession : crowdedSession.ShowsLife crowdedSetup :=
  Session.showsLife_of_commands crowdedNode crowdedSetup false _

end Sample

end PieceReplication
