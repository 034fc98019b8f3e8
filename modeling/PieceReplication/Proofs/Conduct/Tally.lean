import PieceReplication.Proofs.Conduct.Basic
import PieceReplication.Proofs.Conduct.Work
import PieceReplication.Proofs.Run.Turns

/-!
# The tally of failed queries

`Conduct` says that a try is counted only after a query failed.  It leaves open whether each failure
is counted, and whether one is counted twice.  A contract of its own says that: a query that failed
is counted right away, in the record of the deal that was tried, and the scan of the retrieval phase
changes no record otherwise.

Only the scan makes queries, so in the other parts of a tick nothing is left to count.  What these
allow keeps that (`Activity.Passes.of_confined`), whatever it changes.
-/

namespace PieceReplication

open History BoundedMap

/-- The piece and the index of the deal that was tried by a call, if the call is a query that
failed. -/
@[simp] def failureOf? : Purpose → (call : Call) → Reply call → Option (Cid × Nat)
  | .retrievalScan key index, .query _ _, .error _ => some (key, index)
  | _, _, _ => none

/-- The piece and the index of the deal whose query has just failed, if nothing came after the reply
but counts. -/
@[simp] def History.justFailed? : History → Option (Cid × Nat)
  | [] => none
  | occurrence :: earlier =>
    match occurrence with
    | .answered purpose call reply => failureOf? purpose call reply
    | .counted _ => justFailed? earlier
    | _ => none

section Tally

variable (setup : Setup)

/-- What happens after the query for a deal has failed, until it is counted. -/
inductive Tallies (h : History) (key : Cid) (index : Nat) : Occurrence → Prop where
  | counted (counter : Counter) : Tallies h key index (.counted counter)
  /-- One more try is counted in the record of the deal. -/
  | tried {record tries} (hrecord : (worker setup.config h).record? key index = some record)
    (htries : Retrieval.nextTry record.tries = .ok tries) :
    Tallies h key index (.became { worker setup.config h with
      pieces := (worker setup.config h).pieces.modify key (·.setTries index tries) })
  /-- The count does not fit. -/
  | exhausted {record} (hrecord : (worker setup.config h).record? key index = some record)
    (hfull : record.tries.toNat + 1 = UInt64.size) : Tallies h key index .brokeOff

/-- Whether failed queries are tallied, at an occurrence and the history before it. -/
structure Tallied (h : History) (occurrence : Occurrence) : Prop where
  failed : ∀ key index, justFailed? h = some (key, index) → Tallies setup h key index occurrence
  /-- Apart from the tally the scan leaves the records of the inventory as they are. -/
  unchanged : justFailed? h = none → part? h = some .retrievalScan → ∀ w, occurrence = .became w →
    ∀ key, w.pieces.find? key = (worker setup.config h).pieces.find? key

/-- The contract that failed queries are tallied, whatever the surroundings supply. -/
def tally : Contract where
  rely _ _ := True
  guarantee := Tallied setup

/-- The history shows the state of the worker, and no failed query is left to count. -/
structure Balanced (w : Worker) (h : History) : Prop where
  worker_eq : worker setup.config h = w
  justFailed?_eq : justFailed? h = none

/-- No failed query is left to count, and the scan of the retrieval phase is not under way. -/
structure Aside (w : Worker) (h : History) : Prop extends Balanced setup w h where
  part_ne : part? h ≠ some .retrievalScan

/-- Whether an activity leaves nothing to count, when it is not a part of the scan. -/
def Activity.Passes {α : Type} (activity : Activity α) : Prop :=
  ∀ w h, Aside setup w h → activity.Meets (tally setup) w h (fun _ => Aside setup)
    fun _ => Aside setup

end Tally

variable {setup : Setup} {w : Worker} {h : History} {occurrence : Occurrence} {key : Cid}

/-- Where no failed query is left to count, all but a change of the worker is as in a tally. -/
lemma Balanced.tallied (hs : Balanced setup w h) (hne : ∀ w, occurrence ≠ .became w) :
    Tallied setup h occurrence where
  failed key index hfailed := by
    rw [hs.justFailed?_eq] at hfailed
    cases hfailed
  unchanged _ _ w heq := absurd heq (hne w)

/-- Where no failed query is left to count, a change that leaves the records as they are is as in a
tally. -/
lemma Balanced.tallied_became (hs : Balanced setup w h) {w' : Worker}
    (hfind : ∀ key, w'.pieces.find? key = w.pieces.find? key) :
    Tallied setup h (.became w') where
  failed key index hfailed := by
    rw [hs.justFailed?_eq] at hfailed
    cases hfailed
  unchanged _ _ w'' heq key := by
    obtain rfl := Occurrence.became.inj heq
    rw [hs.worker_eq]
    exact hfind key

/-- Outside the scan all is as in a tally. -/
lemma Aside.tallied (hs : Aside setup w h) : Tallied setup h occurrence where
  failed key index hfailed := by
    rw [hs.justFailed?_eq] at hfailed
    cases hfailed
  unchanged _ hpart := absurd hpart hs.part_ne

/-- Where a query has just failed, what tallies it is as in a tally. -/
lemma Tallies.tallied {index : Nat} (htallies : Tallies setup h key index occurrence)
    (hfailed : justFailed? h = some (key, index)) : Tallied setup h occurrence where
  failed key' index' hfailed' := by
    obtain ⟨rfl, rfl⟩ := Prod.mk.inj (Option.some.inj (hfailed.symm.trans hfailed'))
    exact htallies
  unchanged hnone := by
    rw [hfailed] at hnone
    cases hnone

/-- A reply outside the scan leaves nothing to count, unless it is a failed query. -/
lemma Aside.answered (hs : Aside setup w h) (purpose : Purpose) (call : Call) (reply : Reply call)
    (hreply : failureOf? purpose call reply = none) :
    Aside setup w (.answered purpose call reply :: .called purpose call :: h) :=
  ⟨⟨hs.worker_eq, hreply⟩, hs.part_ne⟩

/-- A part that is not the scan begins with nothing to count. -/
lemma Balanced.entered (hs : Balanced setup w h) {part : Part} (hpart : part ≠ .retrievalScan) :
    Tallied setup h (.entered part) ∧ Aside setup w (.entered part :: h) := by
  refine ⟨hs.tallied ?_, ⟨hs.worker_eq, rfl⟩, fun heq => hpart (Option.some.inj heq)⟩
  rintro w' ⟨⟩

/-! ## Activities outside the scan -/

/-- A part of a tick that is not the scan leaves nothing to count. -/
lemma Part.keeps_aside {part : Part} (hpart : part ≠ .retrievalScan) :
    part.Keeps (tally setup) fun h => Aside setup (worker setup.config h) h where
  step h occurrence hs hallowed := by
    refine ⟨hs.tallied, ⟨rfl, ?_⟩, ?_⟩
    · cases occurrence with
      | answered purpose call reply =>
        -- a query is a call of the scan only
        cases call with
        | query =>
          cases part with
          | retrievalScan => exact absurd rfl hpart
          | _ => cases hallowed
        | _ => cases purpose <;> rfl
      | counted => exact hs.justFailed?_eq
      | _ => rfl
    · cases occurrence with
      | entered | published | brokeOff => cases hallowed
      | _ => exact hs.part_ne
  broke _ hs := hs.tallied

/-- Where the history shows that nothing is left to count outside the scan, that is so for the
worker that it shows. -/
lemma Aside.of_shows (hs : Shows setup (fun h => Aside setup (worker setup.config h) h) w h) :
    Aside setup w h := by
  obtain ⟨rfl, haside⟩ := hs
  exact haside

namespace Activity.Passes

variable {α β : Type}

/-- The work of a part that is not the scan leaves nothing to count. -/
lemma of_confined {part : Part} {activity : Activity α} (hconfined : activity.Confined setup part)
    (hpart : part ≠ .retrievalScan) : activity.Passes setup := by
  intro w h hs
  obtain rfl := hs.worker_eq
  exact (hconfined.meets (Part.keeps_aside hpart) ⟨rfl, hs⟩).mono (fun _ _ _ => .of_shows)
    fun _ _ _ => .of_shows

lemma get : Passes setup (MonadState.get : Activity Worker) := fun _ _ hs => hs

lemma bind {activity : Activity α} {next : α → Activity β} (hfirst : activity.Passes setup)
    (hnext : ∀ value, (next value).Passes setup) : (activity >>= next).Passes setup := by
  intro w h hs
  refine (Activity.meets_bind _ _ _).2 ?_
  exact (hfirst w h hs).mono (fun value w' h' hs' => hnext value w' h' hs') fun _ _ _ => id

lemma checked (sum : Except Overflow α) : Passes setup (Activity.checked sum) := fun _ _ hs =>
  Activity.meets_checked.2 ⟨fun _ _ => hs, fun _ _ => hs.tallied⟩

/-- A call that is not a query leaves nothing to count. -/
lemma request {purpose : Purpose} {call : Call}
    (hcall : ∀ reply, failureOf? purpose call reply = none) :
    Passes setup (Activity.request purpose call) := fun _ _ hs =>
  Activity.meets_request.2 ⟨hs.tallied, fun _ _ => hs.answered _ _ _ (hcall _),
    fun _ _ => hs.answered _ _ _ (hcall _)⟩

/-- A read of the chain that is not a query leaves nothing to count. -/
lemma chainRead {purpose : Purpose} {call : Call}
    (hcall : ∀ reply, failureOf? purpose call reply = none) :
    Passes setup (Activity.chainRead purpose call) := fun _ _ hs =>
  Activity.meets_chainRead.2 ⟨hs.tallied, fun _ _ => hs.answered _ _ _ (hcall _),
    fun _ _ => hs.answered _ _ _ (hcall _)⟩

end Activity.Passes

/-- What the walk over the epochs does leaves nothing to count. -/
lemma Indexing.keeps_aside :
    Keeps (tally setup) fun h => Aside setup (worker setup.config h) h where
  toKeeps := Part.keeps_aside (by decide)
  looked _ _ hs := ⟨hs.tallied, ⟨rfl, rfl⟩, hs.part_ne⟩
  tipset h height hs := by
    have hlooked : Aside setup (worker setup.config h) (.looked false :: h) :=
      ⟨⟨rfl, rfl⟩, hs.part_ne⟩
    exact ⟨hlooked.tallied, fun reply => hlooked.answered _ _ reply rfl⟩

/-- The walk over the epochs leaves nothing to count. -/
lemma Indexing.passes_indexEpochs (clientDeals : List ClientDeal) (count : Nat) :
    (indexEpochs setup clientDeals count).Passes setup := by
  intro w h hs
  obtain rfl := hs.worker_eq
  exact (meets_indexEpochs_of_keeps keeps_aside count ⟨rfl, hs⟩).mono (fun _ _ _ => .of_shows)
    fun _ _ _ => .of_shows

open Activity in
/-- The question whether the node is catching up leaves nothing to count. -/
lemma Tick.passes_isCatchingUp : isCatchingUp.Passes setup :=
  (Passes.request fun _ => rfl).bind fun _ => Passes.checked _

/-! ## The scan of the retrieval phase -/

namespace Retrieval

open Activity

/-- In the scan of the retrieval phase, with no failed query left to count. -/
structure Trying (setup : Setup) (w : Worker) (h : History) : Prop extends
    Balanced setup w h where
  part : part? h = some .retrievalScan

/-- A report in the scan is as in a tally. -/
lemma Trying.logged (hs : Trying setup w h) (event : LogEvent) :
    Tallied setup h (.logged event) ∧ Trying setup w (.logged event :: h) := by
  refine ⟨hs.tallied ?_, ⟨hs.worker_eq, rfl⟩, hs.part⟩
  rintro w' ⟨⟩

/-- A change in the scan that leaves the records as they are is as in a tally. -/
lemma Trying.became (hs : Trying setup w h) {w' : Worker}
    (hfind : ∀ key, w'.pieces.find? key = w.pieces.find? key) :
    Tallied setup h (.became w') ∧ Trying setup w' (.became w' :: h) :=
  ⟨hs.tallied_became hfind, ⟨rfl, rfl⟩, hs.part⟩

/-- A call in the scan is as in a tally. -/
lemma Trying.called (hs : Trying setup w h) (purpose : Purpose) (call : Call) :
    Tallied setup h (.called purpose call) := by
  refine hs.tallied ?_
  rintro w' ⟨⟩

/-- A reply in the scan leaves nothing to count, unless it is a failed query. -/
lemma Trying.answered (hs : Trying setup w h) (purpose : Purpose) (call : Call)
    (reply : Reply call) (hreply : failureOf? purpose call reply = none) :
    Trying setup w (.answered purpose call reply :: .called purpose call :: h) :=
  ⟨⟨hs.worker_eq, hreply⟩, hs.part⟩

/-- The look at the cap of the retrievals keeps what a report keeps. -/
lemma tallies_isFull {inv : Worker → History → Prop}
    (hlogged : ∀ event, Tallied setup h (.logged event) ∧ inv w (.logged event :: h))
    (hw : inv w h) : Meets (tally setup) (isFull setup) w h (fun _ => inv) fun _ => inv := by
  simp only [isFull, meets_bind, meets_get]
  split
  · simp only [meets_bind, meets_log, meets_pure]
    exact hlogged _
  · exact hw

/-- The choice of a deal leaves nothing to count. -/
lemma tallies_chooseRecord (hs : Trying setup w h) (piece : Piece) :
    Meets (tally setup) (chooseRecord setup piece) w h (fun _ w' h' => w' = w ∧ Trying setup w h')
      fun _ => Trying setup := by
  have hchosen : ∀ h', Trying setup w h' → ∀ n choice,
      Tallied setup h' (.chose n choice) ∧ Trying setup w (.chose n choice :: h') := by
    intro h' hs' n choice
    refine ⟨hs'.tallied ?_, ⟨hs'.worker_eq, rfl⟩, hs'.part⟩
    rintro w' ⟨⟩
  rw [chooseRecord]
  split
  · have hchoice : ∀ h', Trying setup w h' → ∀ choice,
        Tallied setup h' (.chose piece.retrievable.length choice) ∧
          w = w ∧ Trying setup w (.chose piece.retrievable.length choice :: h') :=
      fun h' hs' choice => ⟨(hchosen h' hs' _ choice).1, rfl, (hchosen h' hs' _ choice).2⟩
    simp only [reportSeed, meets_bind, meets_pure]
    split
    · exact meets_pure.2 fun choice _ => hchoice h hs choice
    · split
      · obtain ⟨hlogged, hs'⟩ := hs.logged (.seedUsed _)
        exact meets_log.2 ⟨hlogged, fun choice _ => hchoice _ hs' choice⟩
      · obtain ⟨hlogged, hs'⟩ := hs.logged (.seedInvalid _)
        exact meets_log.2 ⟨hlogged, fun choice _ => hchoice _ hs' choice⟩
  · exact meets_pure.2 ⟨rfl, hs⟩

/-- The count of a failed query is tallied. -/
lemma tallies_takeFailure {index : Nat} {record : DealRecord} (hworker : worker setup.config h = w)
    (hpart : part? h = some .retrievalScan) (hrecord : w.record? key index = some record)
    (hfailed : justFailed? h = some (key, index)) (failure : Failure) :
    Meets (tally setup) (takeFailure setup key index record failure) w h (fun _ => Trying setup)
      fun _ => Trying setup := by
  subst hworker
  have hrecord' : (worker setup.config (.counted .retrievalQueryFailures :: h)).record? key index =
      some record := hrecord
  have hfailed' : justFailed? (.counted .retrievalQueryFailures :: h) = some (key, index) := hfailed
  simp only [takeFailure, meets_bind, meets_count, meets_checked, meets_update, meets_log]
  refine ⟨(Tallies.counted _).tallied hfailed, fun tries htries => ?_, fun cause hcause => ?_⟩
  · have htried : Trying setup _ (.became { worker setup.config h with
        pieces := (worker setup.config h).pieces.modify key (·.setTries index tries) } ::
        .counted .retrievalQueryFailures :: h) := ⟨⟨rfl, rfl⟩, hpart⟩
    obtain ⟨hlogged, hreported⟩ :=
      htried.logged (.queryFailed record.provider record.root tries failure)
    refine ⟨(Tallies.tried hrecord' htries).tallied hfailed', hlogged, ?_⟩
    split
    · exact meets_log.2 (hreported.logged _)
    · exact meets_pure.2 hreported
  · refine (Tallies.exhausted hrecord' ?_).tallied hfailed'
    unfold nextTry at hcause
    split at hcause
    · cases hcause
    · next hfull =>
      have hlt := record.tries.toNat_lt_size
      omega

/-- The taking of an answer leaves nothing to count. -/
lemma tallies_takeResponse (hs : Trying setup w h) (record : DealRecord)
    (response : QueryResponse) :
    Meets (tally setup) (takeResponse key record response) w h (fun _ => Trying setup)
      fun _ => Trying setup := by
  obtain ⟨hlogged, hreported⟩ :=
    hs.logged (.queried record.provider record.root record.tries response.status)
  simp only [takeResponse, dropRetrieval, meets_bind, meets_log]
  refine ⟨hlogged, ?_⟩
  split
  · exact meets_update.2 (hreported.became fun _ => rfl)
  · exact meets_update.2 (hreported.became fun _ => rfl)

/-- The try of a deal is tallied. -/
lemma tallies_tryRecord (hs : Trying setup w h) {index : Nat} {record : DealRecord}
    (hrecord : w.record? key index = some record) :
    Meets (tally setup) (tryRecord setup key index record) w h (fun _ => Trying setup)
      fun _ => Trying setup := by
  simp only [tryRecord, isPending, dropRetrieval, meets_bind]
  refine meets_request.2 ⟨hs.called _ _, fun isLocal _ => ?_,
    fun failure _ => hs.answered _ _ _ rfl⟩
  have hprobed := hs.answered (.retrievalScan key index) (.hasLocal record.root) (.ok isLocal) rfl
  cases isLocal with
  | true =>
    simp only [↓reduceIte, meets_bind, meets_update, meets_pure]
    exact hprobed.became fun _ => rfl
  | false =>
    simp only [Bool.false_eq_true, ↓reduceIte, meets_bind, meets_get, meets_pure]
    split
    · exact meets_pure.2 hprobed
    · rw [meets_bind, meets_attempt]
      refine ⟨hprobed.called _ _, fun reply _ => ?_⟩
      cases reply with
      | ok response =>
        simp only [meets_bind]
        refine (tallies_takeResponse (hprobed.answered _ _ _ rfl) record response).mono ?_
          fun _ _ _ => id
        exact fun _ w' h' hs' => tallies_isFull hs'.logged hs'
      | error failure =>
        simp only [meets_bind, meets_pure]
        refine tallies_takeFailure ?_ ?_ hrecord rfl failure
        · exact hs.worker_eq
        · exact hs.part

/-- The visit of a piece is tallied. -/
lemma tallies_visit (hs : Trying setup w h) (key : Cid) :
    Meets (tally setup) (visit setup key) w h (fun _ => Trying setup) fun _ => Trying setup := by
  have hfind : ∀ other, (w.pieces.touch key).find? other = w.pieces.find? other :=
    fun _ => find?_touch
  obtain ⟨htouched, htouching⟩ : Tallied setup h (.became { w with pieces := w.pieces.touch key }) ∧
      Trying setup _ (.became { w with pieces := w.pieces.touch key } :: h) := hs.became hfind
  simp only [visit, findPiece, meets_bind, meets_get, meets_update, meets_pure]
  refine ⟨htouched, ?_⟩
  split
  · next piece hpiece =>
    rw [meets_bind]
    refine (tallies_chooseRecord htouching piece).mono ?_ fun _ _ _ => id
    rintro index? w' h' ⟨rfl, hchosen⟩
    cases index? with
    | none => exact hchosen
    | some index =>
      refine tallies_tryRecord hchosen ?_
      refine Option.bind_eq_some_iff.2 ⟨piece, ?_, List.getElem?_eq_getElem index.isLt⟩
      rw [hfind, hpiece]
  · exact meets_pure.2 htouching

/-- A scan is tallied. -/
lemma tallies_scan (keys : List Cid) (hs : Trying setup w h) :
    Meets (tally setup) (scan setup keys) w h (fun _ => Trying setup) fun _ => Trying setup := by
  induction keys generalizing w h with
  | nil => exact hs
  | cons key rest ih =>
    rw [scan, meets_bind]
    refine (tallies_visit hs key).mono (fun isFull w' h' hs' => ?_) fun _ _ _ => id
    cases isFull with
    | true => exact hs'
    | false => exact ih hs'

end Retrieval

/-! ## The phases -/

/-- A part of a tick other than the scan leaves nothing to count. -/
lemma Activity.Passes.meets_entered {α : Type} {activity : Activity α}
    (hpasses : activity.Passes setup) {part : Part} (hpart : part ≠ .retrievalScan)
    (hs : Balanced setup w h) :
    Activity.Meets (tally setup) (Activity.enter part >>= fun _ => activity) w h
      (fun _ => Aside setup) fun _ => Aside setup := by
  obtain ⟨hentered, haside⟩ := hs.entered hpart
  rw [Activity.meets_bind, Activity.meets_enter]
  exact ⟨hentered, hpasses w _ haside⟩

/-- The index phase leaves nothing to count. -/
lemma Indexing.tallies_run (hs : Balanced setup w h) :
    Activity.Meets (tally setup) (run setup) w h (fun _ => Balanced setup)
      fun _ => Balanced setup := by
  have hpasses : Activity.Passes setup (do
      let head ← Activity.chainRead .indexing .chainHead
      let clientDeals ← Activity.chainRead .indexing .clientDeals
      let worker ← get
      indexEpochs setup clientDeals (worker.cursor.stepsTo head.epoch)) :=
    (Activity.Passes.chainRead fun _ => rfl).bind fun _ =>
      (Activity.Passes.chainRead fun _ => rfl).bind fun _ =>
        Activity.Passes.get.bind fun _ => passes_indexEpochs _ _
  have hne : Part.indexing ≠ .retrievalScan := by decide
  exact (hpasses.meets_entered hne hs).mono (fun _ _ _ => Aside.toBalanced)
    fun _ _ _ => Aside.toBalanced

/-- The retrieval phase tallies the failed queries. -/
lemma Retrieval.tallies_run (hs : Balanced setup w h) :
    Activity.Meets (tally setup) (run setup) w h (fun _ => Balanced setup)
      fun _ => Balanced setup := by
  have hne : Part.retrievalSweep ≠ .retrievalScan := by decide
  have hsweeps : Activity.Passes setup (w.retrievals.keys.forM sweepKey) :=
    .of_confined (.forM confined_sweepKey _) hne
  obtain ⟨hentered, hsweep⟩ := hs.entered hne
  simp only [run, Activity.meets_bind, Activity.meets_get, Activity.meets_enter]
  refine ⟨hentered, ?_⟩
  refine (hsweeps w _ hsweep).mono (fun _ w₁ h₁ hswept => ?_) fun _ _ _ => Aside.toBalanced
  have hlogged : ∀ event, Tallied setup h₁ (.logged event) ∧ Aside setup w₁ (.logged event :: h₁) :=
    fun _ => ⟨hswept.tallied, ⟨hswept.worker_eq, rfl⟩, hswept.part_ne⟩
  refine (tallies_isFull hlogged hswept).mono (fun isFull w₂ h₂ hlooked => ?_)
    fun _ _ _ => Aside.toBalanced
  cases isFull with
  | true => exact hlooked.toBalanced
  | false =>
    simp only [Bool.false_eq_true, ↓reduceIte, Activity.meets_bind, Activity.meets_get,
      Activity.meets_enter]
    have hscan : Trying setup w₂ (.entered .retrievalScan :: h₂) := ⟨⟨hlooked.worker_eq, rfl⟩, rfl⟩
    refine ⟨hlooked.tallied, ?_⟩
    exact (tallies_scan _ hscan).mono (fun _ _ _ => Trying.toBalanced)
      fun _ _ _ => Trying.toBalanced

/-- The deal phase leaves nothing to count. -/
lemma Dealing.tallies_run (hs : Balanced setup w h) :
    Activity.Meets (tally setup) (run setup) w h (fun _ => Balanced setup)
      fun _ => Balanced setup := by
  have hsweep : Part.dealSweep ≠ .retrievalScan := by decide
  have hscan : Part.dealScan ≠ .retrievalScan := by decide
  obtain rfl := hs.worker_eq
  exact (Activity.meets_sweep_scan confined_sweepKey confined_isFull
    (fun w => confined_scan false w.pieces.keys) (Part.keeps_aside hsweep)
    (Part.keeps_aside hscan) rfl (hs.entered hsweep) (fun _ haside => haside.entered hscan)
    fun _ => id).mono (fun _ _ _ hleft => (Aside.of_shows hleft).toBalanced)
      fun _ _ _ hleft => (Aside.of_shows hleft).toBalanced

/-- The failed queries are tallied in each phase, and none is left to count around the phases. -/
lemma tally_phased (setup : Setup) :
    (tally setup).Phased setup (Aside setup) (Balanced setup) where
  fresh := ⟨⟨rfl, rfl⟩, nofun⟩
  broken _ := ⟨⟨rfl, rfl⟩, nofun⟩
  answered h _ _ _ := Balanced.tallied (w := worker setup.config h) ⟨rfl, rfl⟩ (by rintro w' ⟨⟩)
  panic h _ _ := Balanced.tallied (w := worker setup.config h) ⟨rfl, rfl⟩ (by rintro w' ⟨⟩)
  inv_of_rest _ _ := Aside.toBalanced
  tookOver _ _ hs := ⟨hs.tallied, ⟨rfl, rfl⟩, hs.part_ne⟩
  reported _ _ _ hs := ⟨hs.tallied, ⟨hs.worker_eq, rfl⟩, hs.part_ne⟩
  looked _ _ _ hs := ⟨hs.tallied, ⟨hs.worker_eq, rfl⟩, hs.part_ne⟩
  logged _ _ _ hs := ⟨hs.tallied (by rintro w' ⟨⟩), hs.worker_eq, rfl⟩
  counted _ _ _ hs := ⟨hs.tallied (by rintro w' ⟨⟩), hs.worker_eq, hs.justFailed?_eq⟩
  published _ _ hs := ⟨hs.tallied (by rintro w' ⟨⟩), ⟨hs.worker_eq, rfl⟩, nofun⟩
  synced w h hs := (Tick.passes_isCatchingUp w h hs).mono (fun _ _ _ => Aside.toBalanced)
    fun _ _ _ => Aside.toBalanced
  indexed _ _ := Indexing.tallies_run
  retrieved _ _ := Retrieval.tallies_run
  dealt _ _ := Dealing.tallies_run

/-- **The tally of failed queries.**  In each life of a replicator, whatever its surroundings
supply, each failed query is counted right away, and the scan changes no record otherwise. -/
theorem Life.tallied {events : List Event} {replicator : Replicator}
    (life : Life setup events replicator) : Along (Tallied setup) (trace events) :=
  life.along (tally_phased setup).upheld (along_of_forall fun _ _ _ _ => trivial)

end PieceReplication
