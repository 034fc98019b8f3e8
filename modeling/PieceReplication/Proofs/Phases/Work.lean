import PieceReplication.Proofs.Phases.Isolation

/-!
# The work of the phases is isolated

Each phase meets the contract of isolation from the moment at which it opens, and comes to its end
either with nothing left to count or with its failure.  Most of the work is put together from
activities that are isolated wherever they are done in their phase.  Three places need to know more:
the walk over the epochs, whose cursor is below the head and moves on without overflow; a query that
fails, after which the count of the record that was tried is taken; and the choice of that record.
-/

namespace PieceReplication

open History BoundedMap

variable {setup : Setup} {w : Worker} {h : History} {phase : Phase} {key : Cid}

/-! ## The index phase -/

namespace Indexing

open Activity

variable {clientDeals : List ClientDeal} {head height : Epoch}

/-- Each step of the indexing of an epoch is isolated, and leaves the cursor where it stands. -/
lemma epochInvariant_isolation :
    EpochInvariant (isolation setup) setup clientDeals
      (fun w h => Runs setup .index w h ∧ w.cursor = height) fun _ => Fails setup .index where
  read w h call hs hcall := by
    obtain ⟨hs, hcursor⟩ := hs
    cases call with
    | parentMessages | preCommit | provenSector | marketDeal =>
      exact ⟨hs.called rfl rfl, fun answer => ⟨hs.answered _ _ _ rfl, hcursor⟩,
        fun failure => hs.faulted rfl⟩
    | _ => cases hcall
  logged w h event hs := ⟨trivial, hs.1.logged event, hs.2⟩
  folded w h dealId deal hs _ _ pieces hpieces := by
    obtain ⟨hs, hcursor⟩ := hs
    obtain ⟨-, rfl⟩ | ⟨hnew, rfl⟩ := hpieces
    · obtain ⟨hbecame, hs'⟩ := hs.became (w.indexed_modify _ _)
      exact ⟨hbecame, hs', hcursor⟩
    · obtain ⟨hbecame, hs'⟩ := hs.became (Worker.indexed_insert hnew _)
      exact ⟨hbecame, hs', hcursor⟩

/-- The walk over the epochs below the head is isolated. -/
lemma isolates_indexEpochs (count : Nat) (hs : Runs setup .index w h)
    (hcount : count ≤ w.cursor.stepsTo head) :
    Meets (isolation setup) (indexEpochs setup clientDeals count) w h
      (fun _ => Runs setup .index) fun _ => Fails setup .index := by
  induction count generalizing w h with
  | zero => exact hs
  | succ count ih =>
    have hlt : w.cursor < head :=
      Epoch.stepsTo_pos_iff.1 (Nat.lt_of_lt_of_le (Nat.succ_pos count) hcount)
    -- the rest of the walk, once the tipset of the epoch is indexed
    have hnext : ∀ w' h', Runs setup .index w' h' ∧ w'.cursor = w.cursor →
        Meets (isolation setup) advance w' h'
          (fun _ w' h' => Meets (isolation setup) (indexEpochs setup clientDeals count) w' h'
            (fun _ => Runs setup .index) fun _ => Fails setup .index)
          fun _ => Fails setup .index := by
      rintro w' h' ⟨hs', hcursor⟩
      obtain ⟨hbecame, hmoved⟩ := hs'.became (w'.indexed_cursor (w.cursor + 1))
      rw [meets_advance_of_lt (hcursor ▸ hlt), hcursor]
      refine ⟨hbecame, ih hmoved ?_⟩
      rw [Epoch.stepsTo_add_one hlt]
      exact Nat.le_sub_one_of_lt hcount
    simp only [indexEpochs, meets_bind, meets_stopRequested]
    intro isStopping _
    obtain ⟨hlook, hlooked⟩ := Within.looked hs isStopping
    refine ⟨hlook, ?_⟩
    cases isStopping with
    | true => exact meets_pure.2 hlooked
    | false =>
      simp only [Bool.false_eq_true, ↓reduceIte, meets_bind, meets_get]
      refine meets_chainRead.2 ⟨hlooked.called rfl rfl, fun tipset _ => ?_,
        fun failure _ => hlooked.faulted rfl⟩
      have hread := hlooked.answered .indexing (.tipsetAt w.cursor) (.ok tipset) rfl
      split
      · simp only [meets_bind]
        exact (epochInvariant_isolation.meets_indexTipset ⟨hread, rfl⟩ _ tipset).mono
          (fun _ => hnext) fun _ _ _ => id
      · rw [meets_bind]
        exact hnext _ _ ⟨hread, rfl⟩

/-- The index phase is isolated. -/
lemma isolates_run (hs : Opens setup .indexing w h) :
    Meets (isolation setup) (run setup) w h (fun _ => Runs setup .index)
      fun _ => Fails setup .index := by
  obtain ⟨hentered, hs⟩ := hs.entered
  simp only [run, meets_bind, meets_enter]
  refine ⟨hentered, ?_⟩
  refine meets_chainRead.2 ⟨hs.called rfl rfl, fun head _ => ?_, fun failure _ => hs.faulted rfl⟩
  replace hs := hs.answered .indexing .chainHead (.ok head) rfl
  refine meets_chainRead.2 ⟨hs.called rfl rfl, fun clientDeals _ => ?_,
    fun failure _ => hs.faulted rfl⟩
  replace hs := hs.answered .indexing .clientDeals (.ok clientDeals) rfl
  exact isolates_indexEpochs _ hs (Nat.le_refl _)

end Indexing

/-! ## The retrieval phase -/

namespace Retrieval

open Activity

/-- The look-up of a piece is isolated in the retrieval phase. -/
lemma isolated_findPiece (key : Cid) : (findPiece key).Isolated setup .retrieve := by
  refine Isolated.get.bind fun _ => Isolated.bind ?_ fun _ => .pure _
  exact .update fun w => w.retrieved_touch key

/-- The end of the wait for a retrieval is isolated. -/
lemma isolated_dropRetrieval (key : Cid) : (dropRetrieval key).Isolated setup .retrieve :=
  .update fun w => w.retrieved_retrievals _

/-- The review of a pending retrieval is isolated. -/
lemma isolated_sweepKey (key : Cid) : (sweepKey key).Isolated setup .retrieve := by
  refine (isolated_findPiece key).bind fun piece => ?_
  split
  · exact isolated_dropRetrieval key
  · refine (Isolated.request rfl rfl (fun _ => rfl) fun _ => rfl).bind fun isLocal => ?_
    split
    · exact isolated_dropRetrieval key
    · exact .pure _

/-- The look at the cap of the retrievals is isolated. -/
lemma isolated_isFull : (isFull setup).Isolated setup phase := by
  refine Isolated.get.bind fun worker => ?_
  split
  · exact (Isolated.log _).bind fun _ => .pure _
  · exact .pure _

/-- The taking of an answer is isolated. -/
lemma isolated_takeResponse (key : Cid) (record : DealRecord) (response : QueryResponse) :
    (takeResponse key record response).Isolated setup .retrieve := by
  refine (Isolated.log _).bind fun _ => ?_
  split
  · exact isolated_dropRetrieval key
  · exact .update fun w => w.retrieved_retrievals _

/-- The choice of a deal is isolated, and leaves the worker as it is. -/
lemma isolates_chooseRecord (hs : Runs setup .retrieve w h) (piece : Piece) :
    Meets (isolation setup) (chooseRecord setup piece) w h
      (fun _ w' h' => w' = w ∧ Runs setup .retrieve w' h') fun _ => Fails setup .retrieve := by
  have hchoice : ∀ h', Runs setup .retrieve w h' → ∀ choice,
      Isolated setup h' (.chose piece.retrievable.length choice) ∧
        w = w ∧ Runs setup .retrieve w (.chose piece.retrievable.length choice :: h') :=
    fun _ hs' choice => ⟨(Within.chose hs' choice).1, rfl, (Within.chose hs' choice).2⟩
  rw [chooseRecord]
  split
  · simp only [reportSeed, meets_bind, meets_pure]
    split
    · exact meets_pure.2 fun choice _ => hchoice h hs choice
    · split
      · exact meets_log.2 ⟨trivial, fun choice _ => hchoice _ (hs.logged _) choice⟩
      · exact meets_log.2 ⟨trivial, fun choice _ => hchoice _ (hs.logged _) choice⟩
  · exact meets_pure.2 ⟨rfl, hs⟩

/-- The count of a failed query is isolated. -/
lemma isolates_takeFailure {index : Nat} {record : DealRecord} {failure : Failure}
    (hs : Within setup .retrieve 1 (some .retrievalQueryFailures) w h)
    (hrecord : w.record? key index = some record)
    (hreply : lastReply? h = some ⟨.retrievalScan key index,
      .query record.root record.provider, .error failure⟩) :
    Meets (isolation setup) (takeFailure setup key index record failure) w h
      (fun _ => Runs setup .retrieve) fun _ => Fails setup .retrieve := by
  obtain ⟨hcounted, hs⟩ := hs.counted
  simp only [takeFailure, meets_bind, meets_count, meets_checked, meets_update, meets_log]
  refine ⟨hcounted, fun tries _ => ?_, fun cause hcause => ⟨rfl, .inr (.tries hreply ?_ hcause)⟩⟩
  · obtain ⟨htried, hs⟩ : Isolated setup _ (.became { w with
        pieces := w.pieces.modify key (·.setTries index tries) }) ∧ Runs setup .retrieve _ _ :=
      Within.became hs (w.retrieved_modify key fun _ => Piece.uncounted_setTries _ _)
    refine ⟨htried, trivial, ?_⟩
    replace hs := hs.logged (.queryFailed record.provider record.root tries failure)
    split
    · exact meets_log.2 ⟨trivial, hs.logged _⟩
    · exact meets_pure.2 hs
  · exact hs.worker_eq ▸ hrecord

/-- The try of a deal is isolated. -/
lemma isolates_tryRecord {index : Nat} {record : DealRecord} (hs : Runs setup .retrieve w h)
    (hrecord : w.record? key index = some record) :
    Meets (isolation setup) (tryRecord setup key index record) w h
      (fun _ => Runs setup .retrieve) fun _ => Fails setup .retrieve := by
  simp only [tryRecord, isPending, meets_bind]
  refine meets_request.2 ⟨hs.called rfl rfl, fun isLocal _ => ?_, fun failure _ => hs.faulted rfl⟩
  replace hs := hs.answered (.retrievalScan key index) (.hasLocal record.root) (.ok isLocal) rfl
  cases isLocal with
  | true =>
    simp only [↓reduceIte, meets_bind, meets_pure]
    exact isolated_dropRetrieval key w _ hs
  | false =>
    simp only [Bool.false_eq_true, ↓reduceIte, meets_bind, meets_get, meets_pure]
    split
    · exact meets_pure.2 hs
    · rw [meets_bind, meets_attempt]
      refine ⟨hs.called rfl rfl, fun reply _ => ?_⟩
      cases reply with
      | ok response =>
        simp only [meets_bind]
        refine (isolated_takeResponse key record response w _ (hs.answered _ _ _ rfl)).mono ?_
          fun _ _ _ => id
        exact fun _ w' h' hs' => isolated_isFull w' h' hs'
      | error failure =>
        -- a query that fails is counted, and the phase goes on
        have hqueried : Clear setup 1 (some .retrievalQueryFailures) w
            (.answered (.retrievalScan key index) (.query record.root record.provider)
              (.error failure) :: _ :: _) :=
          hs.toClear.answered (Nat.le_refl 1) rfl (by rintro later - ⟨⟩)
        simp only [meets_bind, meets_pure]
        exact isolates_takeFailure ⟨hqueried, hs.phase_eq⟩ hrecord rfl

/-- The visit of a piece is isolated. -/
lemma isolated_visit (key : Cid) : (visit setup key).Isolated setup .retrieve := by
  intro w h hs
  obtain ⟨htouched, hs⟩ := hs.became (w.retrieved_touch key)
  simp only [visit, findPiece, meets_bind, meets_get, meets_update, meets_pure]
  refine ⟨htouched, ?_⟩
  split
  · next piece hpiece =>
    rw [meets_bind]
    refine (isolates_chooseRecord hs piece).mono ?_ fun _ _ _ => id
    rintro index? w' h' ⟨rfl, hchosen⟩
    cases index? with
    | none => exact hchosen
    | some index =>
      refine isolates_tryRecord hchosen ?_
      refine Option.bind_eq_some_iff.2 ⟨piece, ?_, List.getElem?_eq_getElem index.isLt⟩
      exact find?_touch.trans hpiece
  · exact meets_pure.2 hs

/-- The scan of the retrieval phase is isolated. -/
lemma isolated_scan (keys : List Cid) : (scan setup keys).Isolated setup .retrieve := by
  induction keys with
  | nil => exact .pure _
  | cons key rest ih =>
    refine (isolated_visit key).bind fun isFull => ?_
    cases isFull with
    | true => exact .pure _
    | false => exact ih

/-- The retrieval phase is isolated. -/
lemma isolates_run (hs : Opens setup .retrievalSweep w h) :
    Meets (isolation setup) (run setup) w h (fun _ => Runs setup .retrieve)
      fun _ => Fails setup .retrieve := by
  obtain ⟨hentered, hs⟩ := hs.entered
  rw [run, meets_bind, meets_enter]
  refine ⟨hentered, ?_⟩
  refine (Isolated.get.bind fun worker => ?_ : Activity.Isolated setup .retrieve _) w _ hs
  refine (Isolated.forM isolated_sweepKey _).bind fun _ => isolated_isFull.bind fun isFull => ?_
  cases isFull with
  | true => exact .pure _
  | false =>
    refine Isolated.bind (Isolated.enter fun h hphase => .retrievalScan hphase) fun _ => ?_
    exact Isolated.get.bind fun worker => isolated_scan _

end Retrieval

/-! ## The deal phase -/

namespace Dealing

open Activity

/-- The look-up of a piece is isolated in the deal phase. -/
lemma isolated_findPiece (key : Cid) : (findPiece key).Isolated setup .deal := by
  refine Isolated.get.bind fun _ => Isolated.bind ?_ fun _ => .pure _
  exact .update fun w => w.dealt_touch key

/-- The removal of a piece is isolated. -/
lemma isolated_dropPiece (key : Cid) : (dropPiece key).Isolated setup .deal :=
  .update fun w => w.dealt_erase key

/-- A change of the deals is isolated. -/
lemma isolated_updateDeals (f : BoundedMap Cid → BoundedMap Cid) :
    (update fun w => { w with deals := f w.deals }).Isolated setup .deal :=
  .update fun w => w.dealt_deals _

/-- The review of a deal is isolated. -/
lemma isolated_sweepKey (key : Cid) : (sweepKey key).Isolated setup .deal := by
  refine Isolated.get.bind fun worker => ?_
  split
  · refine (isolated_updateDeals (·.touch key)).bind fun _ => ?_
    split
    · refine (Isolated.request rfl rfl (fun _ => rfl) fun _ => rfl).bind fun deal => ?_
      split
      · refine (Isolated.log _).bind fun _ => (isolated_dropPiece key).bind fun _ => ?_
        exact isolated_updateDeals (·.erase key)
      · split
        · exact (Isolated.log _).bind fun _ => isolated_updateDeals (·.erase key)
        · exact .pure _
    · exact .pure _
  · exact (isolated_updateDeals (·.erase key)).bind fun _ => .pure _

/-- The look at the cap of the deals is isolated. -/
lemma isolated_isFull : (isFull setup).Isolated setup phase := by
  refine Isolated.get.bind fun worker => ?_
  split
  · exact (Isolated.log _).bind fun _ => .pure _
  · exact .pure _

/-- The check of the local miner is isolated: the phase fails by a miner that is not initialized. -/
lemma isolated_checkMiner (key : Cid) (isChecked : Bool) :
    (checkMiner setup key isChecked).Isolated setup .deal := by
  cases isChecked with
  | true => exact .pure _
  | false =>
    intro w h hs
    simp only [checkMiner, Bool.false_eq_true, ↓reduceIte, meets_bind]
    refine meets_request.2 ⟨hs.called rfl rfl, fun info _ => ?_, fun failure _ => hs.faulted rfl⟩
    have hdue : dueOf? (.dealScan key) (.minerInfo setup.miner) (.ok info) =
        (if info.isInitialized then none else some Phase.deal).map .phaseErrors := rfl
    split
    · next hinitialized =>
      rw [if_pos hinitialized] at hdue
      exact meets_pure.2 (hs.answered _ _ _ hdue)
    · next hinitialized =>
      rw [if_neg hinitialized] at hdue
      exact meets_throw.2 (hs.faulted hdue)

/-- The proposal of a deal is isolated: it is counted if it was taken. -/
lemma isolated_propose (key : Cid) (payload : PayloadRef) :
    (propose setup key payload).Isolated setup .deal := by
  intro w h hs
  rw [propose, meets_bind, meets_attempt]
  refine ⟨hs.called rfl rfl, fun reply _ => ?_⟩
  cases reply with
  | error failure =>
    simp only [meets_bind, meets_log, meets_pure]
    exact ⟨trivial, (hs.answered _ _ _ rfl).logged _⟩
  | ok proposal =>
    have hproposed : Clear setup 2 (some .dealsStarted) w
        (.answered (.dealScan key) (.startDeal (terms setup payload)) (.ok proposal) :: _ :: _) :=
      hs.toClear.answered (Nat.le_refl 2) rfl (by rintro later - ⟨⟩)
    have hlogged : Within setup .deal 2 (some .dealsStarted) w
        (.logged (.dealStarted setup.miner key proposal) :: _) :=
      Within.logged ⟨hproposed, hs.phase_eq⟩ _
    obtain ⟨hcounted, hs⟩ := hlogged.counted
    simp only [meets_bind, meets_log, meets_count]
    refine ⟨trivial, hcounted, ?_⟩
    refine (isolated_updateDeals (·.insert key proposal) w _ hs).mono ?_ fun _ _ _ => id
    intro _ w' h' hs'
    refine (isolated_isFull w' h' hs').mono (fun isFull w'' h'' hs'' => ?_) fun _ _ _ => id
    cases isFull <;> exact meets_pure.2 hs''

/-- The visit of a piece is isolated. -/
lemma isolated_visit (key : Cid) (isChecked : Bool) :
    (visit setup key isChecked).Isolated setup .deal := by
  refine (isolated_findPiece key).bind fun piece => ?_
  split
  · refine (Isolated.request rfl rfl (fun _ => rfl) fun _ => rfl).bind fun isLocal => ?_
    split
    · refine Isolated.bind (Isolated.get.bind fun _ => .pure _) fun isFollowed => ?_
      split
      · exact .pure _
      · refine (Isolated.request rfl rfl (fun _ => rfl) fun _ => rfl).bind fun offer => ?_
        split
        · exact (Isolated.log _).bind fun _ => (isolated_dropPiece key).bind fun _ => .pure _
        · exact (isolated_checkMiner key isChecked).bind fun _ => isolated_propose _ _
    · exact .pure _
  · exact .pure _

/-- The scan of the deal phase is isolated. -/
lemma isolated_scan (isChecked : Bool) (keys : List Cid) :
    (scan setup isChecked keys).Isolated setup .deal := by
  induction keys generalizing isChecked with
  | nil => exact .pure _
  | cons key rest ih =>
    refine (isolated_visit key isChecked).bind fun visited => ?_
    cases visited with
    | passed => exact ih isChecked
    | minerChecked => exact ih true
    | full => exact .pure _

/-- The deal phase is isolated. -/
lemma isolates_run (hs : Opens setup .dealSweep w h) :
    Meets (isolation setup) (run setup) w h (fun _ => Runs setup .deal)
      fun _ => Fails setup .deal := by
  obtain ⟨hentered, hs⟩ := hs.entered
  rw [run, meets_bind, meets_enter]
  refine ⟨hentered, ?_⟩
  refine (Isolated.get.bind fun worker => ?_ : Activity.Isolated setup .deal _) w _ hs
  refine (Isolated.forM isolated_sweepKey _).bind fun _ => isolated_isFull.bind fun isFull => ?_
  cases isFull with
  | true => exact .pure _
  | false =>
    refine Isolated.bind (Isolated.enter fun h hphase => .dealScan hphase) fun _ => ?_
    exact Isolated.get.bind fun worker => isolated_scan false _

end Dealing

end PieceReplication
