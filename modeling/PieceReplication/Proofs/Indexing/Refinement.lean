import PieceReplication.Proofs.Indexing.Meaning
import PieceReplication.Proofs.Indexing.Walk
import PieceReplication.Proofs.Run.Execution
import PieceReplication.Proofs.Run.Session

/-!
# Indexing folds the found deals

The index phase is run against reads whose answers are a function of the call (`Reads`); some of
them may fail, and a stop may be requested.  Each of its nested walks folds the deals that it stands
for into the inventory, and a walk that is given up has folded a beginning of them (`Folds`).  So
the walk over the epochs folds the deals of its range.  If it is stopped or given up between two
epochs, it has folded those of some epochs, past which the cursor has moved (`Indexed`), and if it
is given up in the middle of an epoch, also a beginning of those that are left (`PartlyIndexed`).
-/

namespace PieceReplication

open Activity BoundedMap

/-- The reads of the chain answer as a function of the call, if they do not fail, which they do only
if `mayFail` says so; no stop is requested, and the program does not break off. -/
def reading (read : (call : Call) → Option call.Answer) (mayFail : Bool) : Contract where
  rely _ occurrence :=
    match occurrence with
    | .answered _ call (.ok answer) => read call = some answer
    | .answered _ _ (.error _) => mayFail = true
    | .looked isStopping => isStopping = false
    | _ => True
  guarantee _ occurrence :=
    match occurrence with
    | .brokeOff => False
    | _ => True

namespace Indexing

/-- Whether a call reads a sector or a deal, as the walk over a message does. -/
def readsSector : Call → Bool
  | .preCommit _ _ _ => true
  | .provenSector _ _ _ => true
  | .marketDeal _ _ => true
  | _ => false

/-- What the walk over the epochs may rely on under a contract: its reads answer as a function of
the call, reads of a sector or a deal fail only if `dealFails` and the others only if `epochFails`,
and a stop is requested only if `stops`.  The contract asks for nothing but that the program does
not break off. -/
structure Reads (c : Contract) (read : (call : Call) → Option call.Answer)
    (epochFails dealFails stops : Prop) : Prop where
  answered : ∀ {h purpose call answer}, c.rely h (.answered purpose call (.ok answer)) →
    call ≠ .chainHead → read call = some answer
  epochFailed : ∀ {h purpose call failure}, c.rely h (.answered purpose call (.error failure)) →
    readsSector call = false → epochFails
  dealFailed : ∀ {h purpose call failure}, c.rely h (.answered purpose call (.error failure)) →
    readsSector call = true → dealFails
  stopped : ∀ {h}, c.rely h (.looked true) → stops
  guaranteed : ∀ h occurrence, occurrence ≠ .brokeOff → c.guarantee h occurrence

variable {c : Contract} {read : (call : Call) → Option call.Answer}
  {epochFails dealFails stops : Prop} {w : Worker} {h : History}

/-- The worker with some deals folded into its inventory. -/
def foldInto (w : Worker) (found : List FoundDeal) : Worker :=
  { w with pieces := fold w.pieces found }

/-- Deals that are folded in one part after another. -/
lemma foldInto_append (w : Worker) (found more : List FoundDeal) :
    foldInto (foldInto w found) more = foldInto w (found ++ more) := by
  rw [foldInto, foldInto, foldInto, fold, fold, fold, List.foldl_append]

/-- Whether an activity folds some deals into the inventory, or a beginning of them if it is given
up. -/
def Folds (c : Contract) (fails : Prop) (activity : Activity Unit) (found : List FoundDeal) :
    Prop :=
  ∀ w h, Meets c activity w h (fun _ w' _ => w' = foldInto w found)
    fun _ w' _ => fails ∧ ∃ part, part <+: found ∧ w' = foldInto w part

/-- A walk over a list folds what its visits fold, one after another. -/
lemma folds_forM {β : Type} {visit : β → Activity Unit} {found : β → List FoundDeal}
    (hvisit : ∀ element, Folds c dealFails (visit element) (found element)) (elements : List β) :
    Folds c dealFails (elements.forM visit) (elements.flatMap found) := by
  induction elements with
  | nil => exact fun w h => rfl
  | cons element rest ih =>
    intro w h
    change Meets _ (visit element >>= fun _ => rest.forM visit) w h _ _
    rw [meets_bind, List.flatMap_cons]
    refine (hvisit element w h).mono ?_ ?_
    · rintro ⟨⟩ w' h' rfl
      refine (ih _ h').mono ?_ ?_
      · rintro ⟨⟩ w' h' rfl
        exact foldInto_append w _ _
      · rintro error w' h' ⟨hfails, part, hpart, rfl⟩
        exact ⟨hfails, found element ++ part, (List.prefix_append_right_inj _).2 hpart,
          foldInto_append w _ _⟩
    · rintro error w' h' ⟨hfails, part, hpart, rfl⟩
      exact ⟨hfails, part, hpart.trans (List.prefix_append _ _), rfl⟩

/-! ## The walks of the index phase -/

variable {setup : Setup} {clientDeals : List ClientDeal}

namespace Reads

/-- A report folds nothing. -/
lemma folds_log (hreads : Reads c read epochFails dealFails stops) (event : LogEvent) :
    Folds c dealFails (log event) [] :=
  fun _ _ => ⟨hreads.guaranteed _ _ (by rintro ⟨⟩), rfl⟩

/-- What follows a read of a sector or a deal folds what it folds for the answer. -/
lemma folds_chainRead (hreads : Reads c read epochFails dealFails stops) {call : Call}
    (hcall : readsSector call = true) {next : call.Answer → Activity Unit} {found : List FoundDeal}
    (hnext : ∀ answer, read call = some answer → Folds c dealFails (next answer) found) :
    Folds c dealFails (chainRead .indexing call >>= next) found := by
  have hhead : call ≠ .chainHead := by
    rintro rfl
    cases hcall
  intro w h
  rw [meets_bind]
  refine meets_chainRead.2 ⟨hreads.guaranteed _ _ (by rintro ⟨⟩), fun answer hanswer => ?_,
    fun failure hfailure => ?_⟩
  · exact hnext answer (hreads.answered hanswer hhead) w _
  · exact ⟨hreads.dealFailed hfailure hcall, [], List.nil_prefix, rfl⟩

/-- The record of a found deal folds the deal. -/
lemma folds_addRecord (hreads : Reads c read epochFails dealFails stops) (provider : Address)
    (height : Epoch) (found : FoundDeal) :
    Folds c dealFails (addRecord provider height found.record) [found] := by
  intro w h
  have hkey : found.record.proposal.piece = found.piece := rfl
  have hfold : foldInto w [found] = { w with pieces := record w.pieces found } := rfl
  simp only [addRecord, meets_bind, meets_get, hkey]
  split
  · next piece hpiece =>
    rw [record_of_mem (mem_keys_of_find? hpiece)] at hfold
    simp only [meets_bind, meets_update, hfold]
    refine ⟨hreads.guaranteed _ _ (by rintro ⟨⟩), ?_⟩
    split
    · exact meets_log.2 ⟨hreads.guaranteed _ _ (by rintro ⟨⟩), rfl⟩
    · exact meets_pure.2 rfl
  · next hpiece =>
    rw [record_of_notMem (find?_eq_none_iff.1 hpiece)] at hfold
    exact meets_update.2 ⟨hreads.guaranteed _ _ (by rintro ⟨⟩), hfold.symm⟩

/-- The indexing of a deal folds it, if it is to be replicated. -/
lemma folds_indexDeal (hreads : Reads c read epochFails dealFails stops) (site : Site)
    (provider : Address) (dealId : DealId) :
    Folds c dealFails (indexDeal setup clientDeals site provider dealId)
      (((read (.marketDeal dealId site.parents)).toList.map (FoundDeal.mk dealId)).filter
        (isWanted setup.miner clientDeals)) := by
  rw [indexDeal]
  refine hreads.folds_chainRead rfl fun deal hdeal => ?_
  rw [hdeal, Option.toList_some, List.map_singleton, List.filter_singleton, isWanted]
  split
  · next hlocal =>
    rw [hlocal]
    exact hreads.folds_log _
  · next hforeign =>
    rw [Bool.eq_false_iff.2 hforeign]
    exact hreads.folds_addRecord provider site.height ⟨dealId, deal⟩

/-- The look-up of the deals of a sector changes nothing. -/
lemma meets_sectorDealIds (hreads : Reads c read epochFails dealFails stops) (miner : Address)
    (sector : SectorNumber) (state : TipsetKey) (w : Worker) (h : History) :
    Meets c (sectorDeals miner sector state) w h
      (fun dealIds w' _ => w' = w ∧ sectorDealIds read miner sector state = dealIds.getD [])
      fun _ w' _ => dealFails ∧ w' = w := by
  rw [sectorDeals, meets_bind]
  refine meets_chainRead.2 ⟨hreads.guaranteed _ _ (by rintro ⟨⟩), fun preCommit hanswer => ?_,
    fun failure hfailure => ⟨hreads.dealFailed hfailure rfl, rfl⟩⟩
  have hpreCommit := hreads.answered hanswer (by rintro ⟨⟩)
  cases preCommit with
  | some preCommit => exact meets_pure.2 ⟨rfl, by rw [sectorDealIds, hpreCommit]; rfl⟩
  | none =>
    simp only [meets_bind]
    refine meets_chainRead.2 ⟨hreads.guaranteed _ _ (by rintro ⟨⟩), fun proven hanswer => ?_,
      fun failure hfailure => ⟨hreads.dealFailed hfailure rfl, rfl⟩⟩
    have hproven := hreads.answered hanswer (by rintro ⟨⟩)
    refine meets_pure.2 ⟨rfl, ?_⟩
    rw [sectorDealIds, hpreCommit, hproven]
    cases proven <;> rfl

/-- The indexing of a message folds the wanted deals of the message. -/
lemma folds_indexMessage (hreads : Reads c read epochFails dealFails stops) (site : Site)
    (message : Message) :
    Folds c dealFails (indexMessage setup clientDeals site message)
      ((messageDeals read site.parents message).filter
        (isWanted setup.miner clientDeals)) := by
  rw [indexMessage, messageDeals]
  cases ProveCommit.decode? message.params with
  | none => exact hreads.folds_log _
  | some params =>
    intro w h
    rw [meets_bind]
    refine (hreads.meets_sectorDealIds message.receiver params.sector site.parents w h).mono ?_ ?_
    · rintro dealIds w' h' ⟨rfl, hdealIds⟩
      simp only [hdealIds, List.filter_flatMap]
      cases dealIds with
      | none => exact hreads.folds_log _ w' h'
      | some dealIds =>
        exact folds_forM (hreads.folds_indexDeal site message.receiver) dealIds w' h'
    · rintro error w' h' ⟨hfails, rfl⟩
      exact ⟨hfails, [], List.nil_prefix, rfl⟩

/-- The indexing of the tipset of an epoch folds the wanted deals of the epoch, or nothing if the
messages cannot be read. -/
lemma meets_indexTipset_folds (hreads : Reads c read epochFails dealFails stops) {height : Epoch}
    {tipset : Tipset} (htipset : read (.tipsetAt height) = some tipset)
    (hepoch : tipset.epoch = height) (w : Worker) (h : History) :
    Meets c (indexTipset setup clientDeals height tipset) w h
      (fun _ w' _ => w' = foldInto w (wantedDeals read setup.miner clientDeals height))
      fun _ w' _ => epochFails ∧ w' = w ∨
        dealFails ∧ ∃ part, part <+: wantedDeals read setup.miner clientDeals height ∧
          w' = foldInto w part := by
  rw [indexTipset, meets_bind]
  refine meets_chainRead.2 ⟨hreads.guaranteed _ _ (by rintro ⟨⟩), fun messages hanswer => ?_,
    fun failure hfailure => .inl ⟨hreads.epochFailed hfailure rfl, rfl⟩⟩
  have hmessages := hreads.answered hanswer (by rintro ⟨⟩)
  have hwanted : wantedDeals read setup.miner clientDeals height =
      (messages.filter Message.isProveCommit).flatMap fun message =>
        (messageDeals read tipset.parents message).filter (isWanted setup.miner clientDeals) := by
    simp only [wantedDeals, epochDeals, htipset, if_pos hepoch, hmessages, List.filter_flatMap]
  rw [hwanted]
  exact (folds_forM (hreads.folds_indexMessage ⟨height, tipset.parents⟩) _ w _).mono
    (fun _ _ _ => id) fun _ _ _ => .inr

end Reads

/-! ## The range of epochs -/

/-- The worker after some deals were folded in and the cursor was moved. -/
def moved (w : Worker) (found : List FoundDeal) (cursor : Epoch) : Worker :=
  { foldInto w found with cursor }

/-- The worker without any deals folded in. -/
lemma moved_nil (w : Worker) : moved w [] (w.cursor + Int64.ofNat 0) = w := by
  rw [moved, Epoch.add_ofNat_zero]
  rfl

/-- Where a worker was moved to. -/
lemma cursor_moved (w : Worker) (found : List FoundDeal) (cursor : Epoch) :
    (moved w found cursor).cursor = cursor :=
  rfl

/-- A worker that was moved twice. -/
lemma moved_moved (w : Worker) (found more : List FoundDeal) (cursor cursor' : Epoch) :
    moved (moved w found cursor) more cursor' = moved w (found ++ more) cursor' := by
  rw [moved, moved, moved, ← foldInto_append]
  rfl

/-- How the indexing of some epochs leaves a worker: the wanted deals of all of them are folded in
and the cursor is past them. -/
def Indexed (read : (call : Call) → Option call.Answer) (miner : Address)
    (clientDeals : List ClientDeal) (count : Nat) (w w' : Worker) : Prop :=
  w' = moved w (dealsFrom read miner clientDeals w.cursor count) (w.cursor + Int64.ofNat count)

/-- How the indexing of some epochs leaves a worker if it is given up: the wanted deals of the first
of them are folded in and the cursor is past these, and a beginning of the deals that are left is
folded in too. -/
def PartlyIndexed (read : (call : Call) → Option call.Answer) (miner : Address)
    (clientDeals : List ClientDeal) (count : Nat) (w w' : Worker) : Prop :=
  ∃ done part, done ≤ count ∧
    part <+: dealsFrom read miner clientDeals (w.cursor + Int64.ofNat done) (count - done) ∧
    w' = moved w (dealsFrom read miner clientDeals w.cursor done ++ part)
      (w.cursor + Int64.ofNat done)

/-- The indexing of no epochs changes nothing. -/
lemma indexed_zero {miner : Address} : Indexed read miner clientDeals 0 w w :=
  (moved_nil w).symm

/-- The indexing of one epoch and then of some more is that of one more. -/
lemma Indexed.succ {count : Nat} {w w' : Worker} {miner : Address}
    (hindexed : Indexed read miner clientDeals count
      (moved w (wantedDeals read miner clientDeals w.cursor) (w.cursor + 1)) w') :
    Indexed read miner clientDeals (count + 1) w w' := by
  rw [Indexed, hindexed, cursor_moved, moved_moved, dealsFrom_succ, Epoch.add_one_add_ofNat]

/-- The indexing of one epoch and then of a part of some more is that of a part of one more. -/
lemma PartlyIndexed.succ {count : Nat} {w w' : Worker} {miner : Address}
    (hindexed : PartlyIndexed read miner clientDeals count
      (moved w (wantedDeals read miner clientDeals w.cursor) (w.cursor + 1)) w') :
    PartlyIndexed read miner clientDeals (count + 1) w w' := by
  obtain ⟨done, part, hdone, hpart, rfl⟩ := hindexed
  rw [cursor_moved, Epoch.add_one_add_ofNat] at hpart
  refine ⟨done + 1, part, Nat.succ_le_succ hdone, ?_, ?_⟩
  · rw [Nat.add_sub_add_right]
    exact hpart
  · rw [cursor_moved, moved_moved, dealsFrom_succ, Epoch.add_one_add_ofNat, List.append_assoc]

/-- If only a beginning of the deals of the first epoch is folded in, a part is indexed. -/
lemma partlyIndexed_of_prefix {count : Nat} {w : Worker} {miner : Address} {part : List FoundDeal}
    (hpart : part <+: wantedDeals read miner clientDeals w.cursor) :
    PartlyIndexed read miner clientDeals (count + 1) w (foldInto w part) := by
  refine ⟨0, part, Nat.zero_le _, ?_, ?_⟩
  · rw [Epoch.add_ofNat_zero, Nat.sub_zero, dealsFrom_succ]
    exact hpart.trans (List.prefix_append _ _)
  · rw [Epoch.add_ofNat_zero]
    rfl

/-- If only the first of some epochs are indexed, a part is. -/
lemma Indexed.partly {count done : Nat} {w w' : Worker} {miner : Address}
    (hindexed : Indexed read miner clientDeals done w w') (hdone : done ≤ count) :
    PartlyIndexed read miner clientDeals count w w' := by
  refine ⟨done, [], hdone, List.nil_prefix, ?_⟩
  rw [List.append_nil]
  exact hindexed

/-! ## The walk over the epochs -/

/-- How the walk over some epochs leaves a worker: the first of them are indexed, and that is all of
them unless a stop is requested. -/
def IndexedUntilStop (read : (call : Call) → Option call.Answer) (miner : Address)
    (clientDeals : List ClientDeal) (stops : Prop) (count : Nat) (w w' : Worker) : Prop :=
  ∃ done ≤ count, Indexed read miner clientDeals done w w' ∧ (done < count → stops)

/-- How the walk over some epochs leaves a worker if it is given up: the first of them are indexed
if the tipset of an epoch or its messages could not be read, and a part of them if a sector or a
deal could not be read. -/
def IndexedUntilFault (read : (call : Call) → Option call.Answer) (miner : Address)
    (clientDeals : List ClientDeal) (epochFails dealFails : Prop) (count : Nat) (w w' : Worker) :
    Prop :=
  (epochFails ∧ ∃ done ≤ count, Indexed read miner clientDeals done w w') ∨
    dealFails ∧ PartlyIndexed read miner clientDeals count w w'

section Until

variable {miner : Address} {count : Nat} {w' : Worker}

/-- A walk over no epochs is at its end. -/
lemma indexedUntilStop_zero : IndexedUntilStop read miner clientDeals stops 0 w w :=
  ⟨0, Nat.le_refl _, indexed_zero, fun hlt => absurd hlt (Nat.lt_irrefl 0)⟩

/-- A walk may be stopped before its first epoch. -/
lemma indexedUntilStop_of_stops (hstops : stops) :
    IndexedUntilStop read miner clientDeals stops count w w :=
  ⟨0, Nat.zero_le _, indexed_zero, fun _ => hstops⟩

/-- A walk may be given up because its first epoch cannot be read. -/
lemma indexedUntilFault_of_epochFails (hfails : epochFails) :
    IndexedUntilFault read miner clientDeals epochFails dealFails count w w :=
  .inl ⟨hfails, 0, Nat.zero_le _, indexed_zero⟩

/-- The walk over one epoch and then over some more is that over one more. -/
lemma IndexedUntilStop.succ
    (hindexed : IndexedUntilStop read miner clientDeals stops count
      (moved w (wantedDeals read miner clientDeals w.cursor) (w.cursor + 1)) w') :
    IndexedUntilStop read miner clientDeals stops (count + 1) w w' := by
  obtain ⟨done, hdone, hindexed, hstops⟩ := hindexed
  exact ⟨done + 1, Nat.succ_le_succ hdone, hindexed.succ,
    fun hlt => hstops (Nat.lt_of_succ_lt_succ hlt)⟩

/-- If the walk is given up after its first epoch, that epoch is indexed. -/
lemma IndexedUntilFault.succ
    (hindexed : IndexedUntilFault read miner clientDeals epochFails dealFails count
      (moved w (wantedDeals read miner clientDeals w.cursor) (w.cursor + 1)) w') :
    IndexedUntilFault read miner clientDeals epochFails dealFails (count + 1) w w' := by
  rcases hindexed with ⟨hfails, done, hdone, hindexed⟩ | ⟨hfails, hindexed⟩
  · exact .inl ⟨hfails, done + 1, Nat.succ_le_succ hdone, hindexed.succ⟩
  · exact .inr ⟨hfails, hindexed.succ⟩

end Until

/-- The walk over some epochs folds in their deals and moves the cursor past them, until it is
stopped or given up. -/
lemma Reads.meets_indexEpochs (hreads : Reads c read epochFails dealFails stops) {stop : Epoch}
    (count : Nat) (w : Worker) (h : History) (hcount : count ≤ w.cursor.stepsTo stop) :
    Meets c (indexEpochs setup clientDeals count) w h
      (fun _ w' _ => IndexedUntilStop read setup.miner clientDeals stops count w w')
      fun _ w' _ =>
        IndexedUntilFault read setup.miner clientDeals epochFails dealFails count w w' := by
  induction count generalizing w h with
  | zero => exact meets_pure.2 indexedUntilStop_zero
  | succ count ih =>
    have hlt : w.cursor < stop :=
      Epoch.stepsTo_pos_iff.1 (Nat.lt_of_lt_of_le (Nat.succ_pos count) hcount)
    -- the rest of the walk, once the deals of the epoch at the cursor are folded in
    have hrest : ∀ h', Meets c (advance >>= fun _ => indexEpochs setup clientDeals count)
        (foldInto w (wantedDeals read setup.miner clientDeals w.cursor)) h'
        (fun _ w' _ => IndexedUntilStop read setup.miner clientDeals stops (count + 1) w w')
        fun _ w' _ =>
          IndexedUntilFault read setup.miner clientDeals epochFails dealFails (count + 1) w w' := by
      intro h'
      have hleft : count ≤ (w.cursor + 1).stepsTo stop := by
        rw [Epoch.stepsTo_add_one hlt]
        exact Nat.le_sub_one_of_lt hcount
      have hfolded :
          (foldInto w (wantedDeals read setup.miner clientDeals w.cursor)).cursor < stop := hlt
      rw [meets_bind, meets_advance_of_lt hfolded]
      refine ⟨hreads.guaranteed _ _ (by rintro ⟨⟩), ?_⟩
      exact (ih (moved w (wantedDeals read setup.miner clientDeals w.cursor) (w.cursor + 1)) _
        hleft).mono (fun _ _ _ => .succ) fun _ _ _ => .succ
    simp only [indexEpochs, meets_bind, meets_stopRequested]
    refine fun isStopping hlooked => ⟨hreads.guaranteed _ _ (by rintro ⟨⟩), ?_⟩
    cases isStopping with
    | true => exact meets_pure.2 (indexedUntilStop_of_stops (hreads.stopped hlooked))
    | false =>
      simp only [Bool.false_eq_true, ↓reduceIte, meets_bind, meets_get]
      refine meets_chainRead.2 ⟨hreads.guaranteed _ _ (by rintro ⟨⟩), fun tipset hanswer => ?_,
        fun failure hfailure => indexedUntilFault_of_epochFails (hreads.epochFailed hfailure rfl)⟩
      have htipset := hreads.answered hanswer (by rintro ⟨⟩)
      split
      · next hepoch =>
        rw [meets_bind]
        refine (hreads.meets_indexTipset_folds htipset hepoch w _).mono ?_ ?_
        · rintro ⟨⟩ w' h' rfl
          exact hrest h'
        · rintro error w' h' (⟨hfails, rfl⟩ | ⟨hfails, part, hpart, rfl⟩)
          · exact indexedUntilFault_of_epochFails hfails
          · exact .inr ⟨hfails, partlyIndexed_of_prefix hpart⟩
      · next hepoch =>
        rw [wantedDeals_of_ne htipset hepoch] at hrest
        exact hrest _

/-! ## The index phase without a stop request -/

variable {mayFail : Bool}

/-- Reads that answer as a function of the call, or may all fail. -/
lemma reads_reading :
    Reads (reading read mayFail) read (mayFail = true) (mayFail = true) False where
  answered hanswer _ := hanswer
  epochFailed hfails _ := hfails
  dealFailed hfails _ := hfails
  stopped hlooked := Bool.noConfusion hlooked
  guaranteed _ occurrence hunbroken := by
    cases occurrence with
    | brokeOff => exact absurd rfl hunbroken
    | _ => trivial

/-- The indexing of some epochs folds in their deals and moves the cursor past them. -/
lemma meets_indexEpochs_reading {stop : Epoch} (count : Nat) (w : Worker) (h : History)
    (hcount : count ≤ w.cursor.stepsTo stop) :
    Meets (reading read mayFail) (indexEpochs setup clientDeals count) w h
      (fun _ w' _ => Indexed read setup.miner clientDeals count w w')
      fun _ w' _ => mayFail = true ∧ PartlyIndexed read setup.miner clientDeals count w w' := by
  refine (reads_reading.meets_indexEpochs count w h hcount).mono ?_ ?_
  · rintro ⟨⟩ w' h' ⟨done, hdone, hindexed, hstops⟩
    obtain rfl : done = count := Nat.le_antisymm hdone (Nat.le_of_not_lt hstops)
    exact hindexed
  · rintro error w' h' (⟨hfails, done, hdone, hindexed⟩ | hgiven)
    · exact ⟨hfails, hindexed.partly hdone⟩
    · exact hgiven

/-- The index phase folds in the deals of the epochs from the cursor up to the head and moves the
cursor past them. -/
lemma meets_run_reading (read : (call : Call) → Option call.Answer) (mayFail : Bool)
    (setup : Setup) (w : Worker) (h : History) :
    Meets (reading read mayFail) (run setup) w h
      (fun _ w' _ => ∃ head clientDeals, read .chainHead = some head ∧
        read .clientDeals = some clientDeals ∧
        Indexed read setup.miner clientDeals (w.cursor.stepsTo head.epoch) w w')
      fun _ w' _ => mayFail = true ∧ (w' = w ∨ ∃ head clientDeals, read .chainHead = some head ∧
        read .clientDeals = some clientDeals ∧
        PartlyIndexed read setup.miner clientDeals (w.cursor.stepsTo head.epoch) w w') := by
  simp only [run, meets_bind, meets_enter]
  refine ⟨trivial, meets_chainRead.2 ⟨trivial, fun head hhead => ?_,
    fun failure hfails => ⟨hfails, .inl rfl⟩⟩⟩
  refine meets_chainRead.2 ⟨trivial, fun clientDeals hclientDeals => ?_,
    fun failure hfails => ⟨hfails, .inl rfl⟩⟩
  refine meets_get.2 ((meets_indexEpochs_reading _ w _ (Nat.le_refl _)).mono ?_ ?_)
  · exact fun _ _ _ hindexed => ⟨head, clientDeals, hhead, hclientDeals, hindexed⟩
  · exact fun _ _ _ hgiven => ⟨hgiven.1, .inr ⟨head, clientDeals, hhead, hclientDeals, hgiven.2⟩⟩

/-! ## Runs of the index phase -/

/-- A run of the index phase on top of a history. -/
def runFrom {σ : Type} (setup : Setup) (surroundings : Surroundings σ) (isStopping : Bool)
    (state : σ) (w : Worker) (h : History) : Progress σ (Except PhaseError Unit × Worker) :=
  ((run setup).run.run w).execute surroundings isStopping state h

/-- Surroundings whose answers are a function of the call supply what reads of them rely on. -/
lemma supplies_reading {σ : Type} {surroundings : Surroundings σ} (hreplies :
      ∀ state call reply state', surroundings.call state call = (.reply reply, state') →
        (∃ answer, reply = .ok answer ∧ read call = some answer) ∨
          (∃ failure, reply = .error failure) ∧ mayFail = true) :
    surroundings.Supplies false (reading read mayFail) := by
  refine ⟨fun h state purpose call reply state' hreply => ?_, fun _ _ _ _ => trivial, fun _ => rfl⟩
  obtain ⟨answer, rfl, hanswer⟩ | ⟨⟨failure, rfl⟩, hfails⟩ :=
    hreplies state call reply state' hreply
  · exact hanswer
  · exact hfails

/-- A reply that answers is the answer. -/
lemma eq_ok_of_toOption {call : Call} {reply : Reply call} {answer : call.Answer}
    (hanswer : reply.toOption = some answer) : reply = .ok answer := by
  cases reply with
  | ok found => exact congrArg Except.ok (Option.some.inj hanswer)
  | error failure => cases hanswer

/-- In surroundings that answer each call, by a function of the call, a run of the index phase ends
well. -/
lemma exists_runFrom_ok {σ : Type} {surroundings : Surroundings σ}
    {node : (call : Call) → call.Answer}
    (hnode : surroundings.AnswersBy fun call => .ok (node call))
    (hreplies : surroundings.Replies) (setup : Setup) (state : σ) (w : Worker) (h : History) :
    ∃ w', (runFrom setup surroundings false state w h).halt = .done (.ok (), w') ∧
      Indexed (fun call => some (node call)) setup.miner (node .clientDeals)
        (w.cursor.stepsTo (node .chainHead).epoch) w w' := by
  have hsupplies : surroundings.Supplies false (reading (fun call => some (node call)) false) :=
    supplies_reading fun state call reply state' hreply =>
      .inl ⟨node call, hnode state call reply state' hreply, rfl⟩
  have hmeets := meets_run_reading (fun call => some (node call)) false setup w h
  obtain ⟨⟨result, w'⟩, hdone⟩ :=
    Program.Meets.exists_done hmeets hsupplies hreplies (fun h hbroke => hbroke) state
  have hpost := Program.Meets.post_of_execute hmeets hsupplies hdone
  cases result with
  | ok value =>
    obtain ⟨head, clientDeals, hhead, hclientDeals, hindexed⟩ := hpost
    cases hhead
    cases hclientDeals
    exact ⟨w', hdone, hindexed⟩
  | error error => exact absurd hpost.1 Bool.false_ne_true

/-- **The meaning of the index phase.**  Let the answers of the node be a function of the call, and
let a run of the phase end well without being stopped.  Then the keys of the inventory afterwards
are the last distinct ones of the old keys followed by the pieces of the deals that the range from
the cursor to the head holds.  If all these pieces fit into the inventory, each piece keeps its
records and gets one for each of those deals that it did not have, in the order of their first
occurrence. -/
theorem run_refines {σ : Type} {setup : Setup} {surroundings : Surroundings σ}
    {node : (call : Call) → Reply call} (hnode : surroundings.AnswersBy node) {state : σ}
    {w w' : Worker} {h : History}
    (hdone : (runFrom setup surroundings false state w h).halt = .done (.ok (), w')) :
    ∃ head clientDeals, node .chainHead = .ok head ∧ node .clientDeals = .ok clientDeals ∧
      let found := foundDeals (fun call => (node call).toOption) setup.miner clientDeals w.cursor
        head.epoch
      w'.pieces.keys =
          lastDistinct w.pieces.capacity (w.pieces.keys ++ found.map FoundDeal.piece) ∧
        (Fits w.pieces found → ∀ piece,
          records w'.pieces piece = records w.pieces piece ++
            newRecords (records w.pieces piece) (found.filter (·.piece == piece))) := by
  have hsupplies : surroundings.Supplies false
      (reading (fun call => (node call).toOption) true) := by
    refine supplies_reading fun state call reply state' hreply => ?_
    have heq := hnode state call reply state' hreply
    cases reply with
    | ok answer => exact .inl ⟨answer, rfl, congrArg Except.toOption heq.symm⟩
    | error failure => exact .inr ⟨⟨failure, rfl⟩, rfl⟩
  obtain ⟨head, clientDeals, hhead, hclientDeals, rfl⟩ :=
    Program.Meets.post_of_execute (meets_run_reading _ true setup w h) hsupplies hdone
  exact ⟨head, clientDeals, eq_ok_of_toOption hhead, eq_ok_of_toOption hclientDeals, keys_fold,
    fun hfits piece => records_fold hfits⟩

/-- A run over the sample chain finds three deals, all for one piece, and two of them are the same:
the inventory holds the piece with two records. -/
theorem run_refines_sample :
    ∃ w', (runFrom Sample.setup (.answering (Sample.answer [])) false ()
        (.fresh Sample.setup.config) []).halt = .done (.ok (), w') ∧
      w'.pieces.keys = [⟨"piece"⟩] ∧
      (records w'.pieces ⟨"piece"⟩).map (fun record => (record.dealId, record.tries)) =
        [(7, 0), (8, 0)] := by
  obtain ⟨w', hdone, -⟩ := exists_runFrom_ok (Surroundings.answersBy_answering (Sample.answer []))
    (Surroundings.replies_answering _) Sample.setup () (.fresh Sample.setup.config) []
  obtain ⟨head, clientDeals, hhead, hclientDeals, hkeys, hrecords⟩ :=
    run_refines (Surroundings.answersBy_answering (Sample.answer [])) hdone
  cases hhead
  cases hclientDeals
  refine ⟨w', hdone, ?_, ?_⟩
  · rw [hkeys]
    decide +kernel
  · rw [hrecords (by decide +kernel)]
    decide +kernel

end Indexing

end PieceReplication
