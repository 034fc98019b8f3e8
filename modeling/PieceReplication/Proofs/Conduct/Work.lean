import PieceReplication.Proofs.Indexing.Walk
import PieceReplication.Proofs.Run.Execution
import PieceReplication.Schedule.Dealing
import PieceReplication.Schedule.Retrieval

/-!
# The work of the parts of a tick

A tick falls into parts, and each part works through a list: epochs, pending retrievals, deals or
pieces.  What such work is made of is said once (`Part.Allows`): the calls of the part
(`Part.calls`), reports, counts and changes of the worker, and in the scan of the retrieval phase
the choice of a deal.  It looks for no stop request, begins no part and publishes nothing.

That the work of a part is confined to that (`Activity.Confined`) is shown by its structure, with
one rule for each way to build an activity.  A statement about histories that is kept by everything
that a part allows (`Part.Keeps`) is then kept by the work of the part
(`Activity.Confined.meets`), and no later proof has to walk through the loops again.
-/

namespace PieceReplication

open History

/-- The calls that the work of a part makes.  What the index phase reads of an epoch besides its
tipset is its work; the tipsets themselves, the head and the deals of the node are not. -/
def Part.calls : Part → Call → Bool
  | .indexing, call => Indexing.readsEpoch call
  | .retrievalSweep, .hasLocal _ => true
  | .retrievalScan, .hasLocal _ => true
  | .retrievalScan, .query _ _ => true
  | .dealSweep, .dealInfo _ => true
  | .dealScan, .hasLocal _ => true
  | .dealScan, .offer _ _ => true
  | .dealScan, .minerInfo _ => true
  | .dealScan, .startDeal _ => true
  | _, _ => false

/-- What may happen in the work of a part, apart from a break-off. -/
def Part.Allows (part : Part) : Occurrence → Prop
  | .called _ call => part.calls call = true
  | .answered _ call _ => part.calls call = true
  | .chose _ _ => part = .retrievalScan
  | .logged _ => True
  | .counted _ => True
  | .became _ => True
  | _ => False

/-- The contract that nothing happens but what a part allows, whatever the surroundings supply. -/
def confined (part : Part) : Contract where
  rely _ _ := True
  guarantee _ occurrence := occurrence ≠ .brokeOff → part.Allows occurrence

/-- Whether an activity is confined to the work of a part, and leaves the worker in the state that
the history shows. -/
def Activity.Confined {α : Type} (setup : Setup) (part : Part) (activity : Activity α) : Prop :=
  ∀ h, activity.Meets (confined part) (worker setup.config h) h
    (fun _ w' h' => worker setup.config h' = w') fun _ w' h' => worker setup.config h' = w'

variable {setup : Setup} {part : Part}

namespace Activity.Confined

variable {α β : Type}

lemma pure (value : α) : Confined setup part (Pure.pure value) := fun _ => rfl

lemma throw (error : PhaseError) : Confined setup part (throw error : Activity α) := fun _ => rfl

lemma get : Confined setup part (MonadState.get : Activity Worker) := fun _ => rfl

lemma bind {activity : Activity α} {next : α → Activity β}
    (hfirst : activity.Confined setup part) (hnext : ∀ value, (next value).Confined setup part) :
    (activity >>= next).Confined setup part := by
  intro h
  refine (meets_bind _ _ _).2 ((hfirst h).mono ?_ fun _ _ _ => id)
  rintro value w' h' rfl
  exact hnext value h'

lemma log (event : LogEvent) : Confined setup part (Activity.log event) :=
  fun _ => meets_log.2 ⟨fun _ => trivial, rfl⟩

lemma count (counter : Counter) : Confined setup part (Activity.count counter) :=
  fun _ => meets_count.2 ⟨fun _ => trivial, rfl⟩

lemma update (f : Worker → Worker) : Confined setup part (Activity.update f) :=
  fun _ => meets_update.2 ⟨fun _ => trivial, rfl⟩

lemma checked (sum : Except Overflow α) : Confined setup part (Activity.checked sum) :=
  fun _ => meets_checked.2 ⟨fun _ _ => rfl, fun _ _ hne => absurd rfl hne⟩

lemma choose {n : Nat} (pos : 0 < n) : Confined setup .retrievalScan (Activity.choose n pos) :=
  fun _ => meets_choose.2 fun _ _ => ⟨fun _ => rfl, rfl⟩

lemma attempt {purpose : Purpose} {call : Call} (hcall : part.calls call = true) :
    Confined setup part (Activity.attempt purpose call) :=
  fun _ => meets_attempt.2 ⟨fun _ => hcall, fun _ _ => rfl⟩

lemma request {purpose : Purpose} {call : Call} (hcall : part.calls call = true) :
    Confined setup part (Activity.request purpose call) :=
  fun _ => meets_request.2 ⟨fun _ => hcall, fun _ _ => rfl, fun _ _ => rfl⟩

lemma chainRead {purpose : Purpose} {call : Call} (hcall : part.calls call = true) :
    Confined setup part (Activity.chainRead purpose call) :=
  fun _ => meets_chainRead.2 ⟨fun _ => hcall, fun _ _ => rfl, fun _ _ => rfl⟩

lemma forM {visit : β → Activity Unit} (hvisit : ∀ element, (visit element).Confined setup part)
    (elements : List β) : (elements.forM visit).Confined setup part := by
  induction elements with
  | nil => exact pure ()
  | cons element rest ih => exact (hvisit element).bind fun _ => ih

end Activity.Confined

/-! ## What the work keeps -/

/-- A statement about histories is kept by everything that a part allows, and all that is as a
contract guarantees. -/
structure Part.Keeps (part : Part) (c : Contract) (inv : History → Prop) : Prop where
  step : ∀ h occurrence, inv h → part.Allows occurrence →
    c.guarantee h occurrence ∧ inv (occurrence :: h)
  broke : ∀ h, inv h → c.guarantee h .brokeOff

/-- A program that is confined to the work of a part keeps what the part keeps. -/
lemma Program.Meets.of_confined {α : Type} {c : Contract} {inv : History → Prop}
    {program : Program α} {post : α → History → Prop} {h : History}
    (hmeets : program.Meets (confined part) h post) (hkeeps : part.Keeps c inv) (hinv : inv h) :
    program.Meets c h fun result h' => post result h' ∧ inv h' := by
  induction program generalizing h with
  | done result => exact ⟨hmeets, hinv⟩
  | perform effect resume ih =>
    cases effect with
    | call purpose call =>
      have hcall : part.calls call = true := hmeets.1 nofun
      obtain ⟨hcalled, hinv⟩ := hkeeps.step h (.called purpose call) hinv hcall
      refine ⟨hcalled, fun reply _ => ih reply (hmeets.2 reply trivial) ?_⟩
      exact (hkeeps.step _ (.answered purpose call reply) hinv hcall).2
    | choose n pos =>
      intro choice _
      obtain ⟨hallowed, hmeets⟩ := hmeets choice trivial
      obtain ⟨hchose, hinv⟩ := hkeeps.step h (.chose n choice) hinv (hallowed nofun)
      exact ⟨hchose, ih choice hmeets hinv⟩
    | stopRequested => exact absurd ((hmeets false trivial).1 nofun) id
    | overflow cause => exact hkeeps.broke h hinv
    | enter part => exact absurd (hmeets.1 nofun) id
    | log event =>
      obtain ⟨hlogged, hinv⟩ := hkeeps.step h (.logged event) hinv trivial
      exact ⟨hlogged, ih () hmeets.2 hinv⟩
    | count counter =>
      obtain ⟨hcounted, hinv⟩ := hkeeps.step h (.counted counter) hinv trivial
      exact ⟨hcounted, ih () hmeets.2 hinv⟩
    | become worker =>
      obtain ⟨hbecame, hinv⟩ := hkeeps.step h (.became worker) hinv trivial
      exact ⟨hbecame, ih () hmeets.2 hinv⟩
    | publish stats => exact absurd (hmeets.1 nofun) id

/-- The history shows the state of the worker, and a statement holds of it. -/
structure Shows (setup : Setup) (inv : History → Prop) (w : Worker) (h : History) : Prop where
  worker_eq : worker setup.config h = w
  holds : inv h

/-- **The rule of the work of a part.**  What is kept by everything that a part allows is kept by an
activity that is confined to the part. -/
lemma Activity.Confined.meets {α : Type} {c : Contract} {inv : History → Prop}
    {activity : Activity α} {w : Worker} {h : History} (hconfined : activity.Confined setup part)
    (hkeeps : part.Keeps c inv) (hs : Shows setup inv w h) :
    activity.Meets c w h (fun _ => Shows setup inv) fun _ => Shows setup inv := by
  obtain ⟨rfl, hinv⟩ := hs
  refine Program.Meets.mono (Program.Meets.of_confined (hconfined h) hkeeps hinv) ?_
  rintro ⟨result, w'⟩ h' ⟨hpost, hinv'⟩
  cases result <;> exact ⟨hpost, hinv'⟩

/-- The rule of a phase that sweeps some keys and then, unless that left too many, scans: it keeps
one statement in the sweep and another one in the scan. -/
lemma Activity.meets_sweep_scan {c : Contract} {sweep scan : Part} {inv₁ inv₂ : History → Prop}
    {keys : Worker → List Cid} {visit : Cid → Activity Unit} {isFull : Activity Bool}
    {walk : Worker → Activity Unit} {w : Worker} {h : History}
    (hvisit : ∀ key, (visit key).Confined setup sweep) (hfull : isFull.Confined setup sweep)
    (hwalk : ∀ w, (walk w).Confined setup scan) (hsweep : sweep.Keeps c inv₁)
    (hscan : scan.Keeps c inv₂) (hworker : worker setup.config h = w)
    (hswept : c.guarantee h (.entered sweep) ∧ inv₁ (.entered sweep :: h))
    (hscanned : ∀ h, inv₁ h → c.guarantee h (.entered scan) ∧ inv₂ (.entered scan :: h))
    (hleft : ∀ h, inv₁ h → inv₂ h) :
    Meets c
      (do
        enter sweep
        (keys (← get)).forM visit
        unless ← isFull do
          enter scan
          walk (← get))
      w h (fun _ => Shows setup inv₂) fun _ => Shows setup inv₂ := by
  have hgiven : ∀ (_ : PhaseError) w' h', Shows setup inv₁ w' h' → Shows setup inv₂ w' h' :=
    fun _ _ h' hs => ⟨hs.worker_eq, hleft h' hs.holds⟩
  have hs : Shows setup inv₁ w (.entered sweep :: h) := ⟨hworker, hswept.2⟩
  simp only [meets_bind, meets_enter, meets_get]
  refine ⟨hswept.1, ?_⟩
  refine ((Confined.forM hvisit (keys w)).meets hsweep hs).mono ?_ hgiven
  intro _ w₁ h₁ hs₁
  refine (hfull.meets hsweep hs₁).mono (fun isFull w₂ h₂ hs₂ => ?_) hgiven
  cases isFull with
  | true => exact ⟨hs₂.worker_eq, hleft h₂ hs₂.holds⟩
  | false =>
    simp only [Bool.false_eq_true, ↓reduceIte, meets_bind, meets_enter, meets_get]
    obtain ⟨hentered, hinv₂⟩ := hscanned h₂ hs₂.holds
    exact ⟨hentered, (hwalk w₂).meets hscan ⟨hs₂.worker_eq, hinv₂⟩⟩

/-! ## The work of each part -/

section Parts

open Activity

/-- The look-up of a piece is work of any part. -/
lemma confined_findPiece (key : Cid) : (findPiece key).Confined setup part :=
  Confined.get.bind fun _ => (Confined.update _).bind fun _ => .pure _

namespace Indexing

/-- The fold of a deal into the inventory is work of any part. -/
lemma confined_addRecord (provider : Address) (height : Epoch) (record : DealRecord) :
    (addRecord provider height record).Confined setup part := by
  refine Confined.get.bind fun worker => ?_
  split
  · refine (Confined.update _).bind fun _ => ?_
    split
    · exact .log _
    · exact .pure _
  · exact .update _

/-- The indexing of a deal is work of the index phase. -/
lemma confined_indexDeal (clientDeals : List ClientDeal) (site : Site) (provider : Address)
    (dealId : DealId) :
    (indexDeal setup clientDeals site provider dealId).Confined setup .indexing := by
  refine (Confined.chainRead rfl).bind fun deal => ?_
  split
  · exact .log _
  · exact confined_addRecord _ _ _

/-- The look-up of the deals of a sector is work of the index phase. -/
lemma confined_sectorDeals (miner : Address) (sector : SectorNumber) (state : TipsetKey) :
    (sectorDeals miner sector state).Confined setup .indexing := by
  refine (Confined.chainRead rfl).bind fun preCommit => ?_
  cases preCommit with
  | some preCommit => exact .pure _
  | none => exact (Confined.chainRead rfl).bind fun _ => .pure _

/-- The indexing of a message is work of the index phase. -/
lemma confined_indexMessage (clientDeals : List ClientDeal) (site : Site) (message : Message) :
    (indexMessage setup clientDeals site message).Confined setup .indexing := by
  rw [indexMessage]
  split
  · exact .log _
  · refine (confined_sectorDeals _ _ _).bind fun dealIds => ?_
    cases dealIds with
    | none => exact .log _
    | some dealIds => exact .forM (confined_indexDeal _ _ _) _

/-- The indexing of a tipset is work of the index phase. -/
lemma confined_indexTipset (clientDeals : List ClientDeal) (height : Epoch) (tipset : Tipset) :
    (indexTipset setup clientDeals height tipset).Confined setup .indexing :=
  (Confined.chainRead rfl).bind fun _ => .forM (confined_indexMessage _ _) _

/-- The move of the cursor is work of any part. -/
lemma confined_advance : advance.Confined setup part :=
  Confined.get.bind fun _ => (Confined.checked _).bind fun _ => .update _

/-- A statement about histories is kept by the walk over the epochs: by the work of the index phase,
by the looks for a stop request, and by the requests for a tipset, which follow a look. -/
structure Keeps (c : Contract) (inv : History → Prop) : Prop extends
    Part.Keeps .indexing c inv where
  looked : ∀ h isStopping, inv h →
    c.guarantee h (.looked isStopping) ∧ inv (.looked isStopping :: h)
  tipset : ∀ h height, inv h →
    c.guarantee (.looked false :: h) (.called .indexing (.tipsetAt height)) ∧
      ∀ reply, inv (.answered .indexing (.tipsetAt height) reply ::
        .called .indexing (.tipsetAt height) :: .looked false :: h)

/-- **The rule of the walk over the epochs.**  It keeps what each of its steps does. -/
lemma meets_indexEpochs_of_keeps {c : Contract} {inv : History → Prop} {w : Worker} {h : History}
    (hkeeps : Keeps c inv) {clientDeals : List ClientDeal} (count : Nat)
    (hs : Shows setup inv w h) :
    Meets c (indexEpochs setup clientDeals count) w h (fun _ => Shows setup inv)
      fun _ => Shows setup inv := by
  induction count generalizing w h with
  | zero => exact hs
  | succ count ih =>
    -- the rest of the walk, once the tipset of the epoch is indexed
    have hnext : ∀ w' h', Shows setup inv w' h' → Meets c advance w' h'
        (fun _ w' h' => Meets c (indexEpochs setup clientDeals count) w' h'
          (fun _ => Shows setup inv) fun _ => Shows setup inv)
        fun _ => Shows setup inv :=
      fun w' h' hs' =>
        (confined_advance.meets hkeeps.toKeeps hs').mono (fun _ _ _ => ih) fun _ _ _ => id
    simp only [indexEpochs, meets_bind, meets_stopRequested]
    intro isStopping _
    obtain ⟨hlooked, hinv⟩ := hkeeps.looked h isStopping hs.holds
    refine ⟨hlooked, ?_⟩
    cases isStopping with
    | true => exact meets_pure.2 ⟨hs.worker_eq, hinv⟩
    | false =>
      simp only [Bool.false_eq_true, ↓reduceIte, meets_bind, meets_get]
      obtain ⟨hcalled, hreplied⟩ := hkeeps.tipset h w.cursor hs.holds
      have hanswered : ∀ reply, Shows setup inv w (.answered .indexing (.tipsetAt w.cursor) reply ::
          .called .indexing (.tipsetAt w.cursor) :: .looked false :: h) :=
        fun reply => ⟨hs.worker_eq, hreplied reply⟩
      refine meets_chainRead.2 ⟨hcalled, fun tipset _ => ?_, fun failure _ => hanswered _⟩
      split
      · simp only [meets_bind]
        exact ((confined_indexTipset clientDeals _ tipset).meets hkeeps.toKeeps (hanswered _)).mono
          (fun _ => hnext) fun _ _ _ => id
      · rw [meets_bind]
        exact hnext _ _ (hanswered _)

end Indexing

namespace Retrieval

/-- The review of a pending retrieval is work of the sweep. -/
lemma confined_sweepKey (key : Cid) : (sweepKey key).Confined setup .retrievalSweep := by
  refine (confined_findPiece key).bind fun piece => ?_
  split
  · exact .update _
  · refine (Confined.request rfl).bind fun isLocal => ?_
    split
    · exact .update _
    · exact .pure _

/-- The look at the cap of the retrievals is work of any part. -/
lemma confined_isFull : (isFull setup).Confined setup part := by
  refine Confined.get.bind fun worker => ?_
  split
  · exact (Confined.log _).bind fun _ => .pure _
  · exact .pure _

/-- The choice of a deal is work of the scan. -/
lemma confined_chooseRecord (piece : Piece) :
    (chooseRecord setup piece).Confined setup .retrievalScan := by
  have hseed : (reportSeed setup).Confined setup .retrievalScan := by
    rw [reportSeed]
    split
    · exact .pure _
    · split
      · exact .log _
      · exact .log _
  rw [chooseRecord]
  split
  · exact hseed.bind fun _ => (Confined.choose _).bind fun _ => .pure _
  · exact .pure _

/-- The count of a failed query is work of any part. -/
lemma confined_takeFailure (key : Cid) (index : Nat) (record : DealRecord) (failure : Failure) :
    (takeFailure setup key index record failure).Confined setup part := by
  refine (Confined.count _).bind fun _ => (Confined.checked _).bind fun tries =>
    (Confined.update _).bind fun _ => (Confined.log _).bind fun _ => ?_
  split
  · exact .log _
  · exact .pure _

/-- The taking of an answer is work of any part. -/
lemma confined_takeResponse (key : Cid) (record : DealRecord) (response : QueryResponse) :
    (takeResponse key record response).Confined setup part := by
  refine (Confined.log _).bind fun _ => ?_
  split
  · exact .update _
  · exact .update _

/-- The try of a deal is work of the scan. -/
lemma confined_tryRecord (key : Cid) (index : Nat) (record : DealRecord) :
    (tryRecord setup key index record).Confined setup .retrievalScan := by
  refine (Confined.request rfl).bind fun isLocal => ?_
  split
  · exact (Confined.update _).bind fun _ => .pure _
  · refine Confined.bind (Confined.get.bind fun _ => .pure _) fun isPending => ?_
    split
    · exact .pure _
    · refine (Confined.attempt rfl).bind fun reply => ?_
      cases reply with
      | ok response => exact (confined_takeResponse _ _ _).bind fun _ => confined_isFull
      | error failure => exact (confined_takeFailure _ _ _ _).bind fun _ => .pure _

/-- The visit of a piece is work of the scan. -/
lemma confined_visit (key : Cid) : (visit setup key).Confined setup .retrievalScan := by
  refine (confined_findPiece key).bind fun piece => ?_
  split
  · refine (confined_chooseRecord _).bind fun index? => ?_
    split
    · exact confined_tryRecord _ _ _
    · exact .pure _
  · exact .pure _

/-- The scan of the retrieval phase is its own work. -/
lemma confined_scan (keys : List Cid) : (scan setup keys).Confined setup .retrievalScan := by
  induction keys with
  | nil => exact .pure _
  | cons key rest ih =>
    refine (confined_visit key).bind fun isFull => ?_
    cases isFull with
    | true => exact .pure _
    | false => exact ih

end Retrieval

namespace Dealing

/-- The review of a deal is work of the sweep. -/
lemma confined_sweepKey (key : Cid) : (sweepKey key).Confined setup .dealSweep := by
  refine Confined.get.bind fun worker => ?_
  split
  · refine (Confined.update _).bind fun _ => ?_
    split
    · refine (Confined.request rfl).bind fun deal => ?_
      split
      · exact (Confined.log _).bind fun _ => (Confined.update _).bind fun _ => .update _
      · split
        · exact (Confined.log _).bind fun _ => .update _
        · exact .pure _
    · exact .pure _
  · exact (Confined.update _).bind fun _ => .pure _

/-- The look at the cap of the deals is work of any part. -/
lemma confined_isFull : (isFull setup).Confined setup part := by
  refine Confined.get.bind fun worker => ?_
  split
  · exact (Confined.log _).bind fun _ => .pure _
  · exact .pure _

/-- The check of the local miner is work of the scan. -/
lemma confined_checkMiner (key : Cid) (isChecked : Bool) :
    (checkMiner setup key isChecked).Confined setup .dealScan := by
  unfold checkMiner
  split
  · exact .pure _
  · refine (Confined.request rfl).bind fun info => ?_
    split
    · exact .pure _
    · exact .throw _

/-- The proposal of a deal is work of the scan. -/
lemma confined_propose (key : Cid) (payload : PayloadRef) :
    (propose setup key payload).Confined setup .dealScan := by
  refine (Confined.attempt rfl).bind fun reply => ?_
  cases reply with
  | error failure => exact (Confined.log _).bind fun _ => .pure _
  | ok proposal =>
    refine (Confined.log _).bind fun _ => (Confined.count _).bind fun _ =>
      (Confined.update _).bind fun _ => confined_isFull.bind fun isFull => ?_
    split
    · exact .pure _
    · exact .pure _

/-- The visit of a piece is work of the scan. -/
lemma confined_visit (key : Cid) (isChecked : Bool) :
    (visit setup key isChecked).Confined setup .dealScan := by
  refine (confined_findPiece key).bind fun piece => ?_
  split
  · refine (Confined.request rfl).bind fun isLocal => ?_
    split
    · refine Confined.bind (Confined.get.bind fun _ => .pure _) fun isFollowed => ?_
      split
      · exact .pure _
      · refine (Confined.request rfl).bind fun offer => ?_
        split
        · exact (Confined.log _).bind fun _ => (Confined.update _).bind fun _ => .pure _
        · exact (confined_checkMiner _ _).bind fun _ => confined_propose _ _
    · exact .pure _
  · exact .pure _

/-- The scan of the deal phase is its own work. -/
lemma confined_scan (isChecked : Bool) (keys : List Cid) :
    (scan setup isChecked keys).Confined setup .dealScan := by
  induction keys generalizing isChecked with
  | nil => exact .pure _
  | cons key rest ih =>
    refine (confined_visit key isChecked).bind fun visited => ?_
    cases visited with
    | passed => exact ih isChecked
    | minerChecked => exact ih true
    | full => exact .pure _

end Dealing

end Parts

end PieceReplication
