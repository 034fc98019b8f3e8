import PieceReplication.Lifecycle.Driver
import PieceReplication.Proofs.Run.Abreast

/-!
# The phases go abreast

From level states on each phase goes abreast with itself, and so do a tick and a turn of the driver:
the counts of failed queries, and whether a query fails or is answered with a success, make no
difference to what the driver does next.

In the index phase, in the deal phase and in the sweep of the retrieval phase this is so because
nothing they do depends on the counts.  In the scan of the retrieval phase the two ways to take the
outcome of a query have to be compared.  One counts a failure, the other one stops waiting for a
retrieval that was not pending and looks at the cap; in the end both leave the same pieces in the
same order, the same retrievals, and a walk that goes on (`Retrieval.muted_takeOutcome`).
-/

namespace PieceReplication

open Activity

variable {setup : Setup}

/-! ## The index phase -/

namespace Indexing

lemma even_sectorDeals (miner : Address) (sector : SectorNumber) (state : TipsetKey) :
    Even Eq (sectorDeals miner sector state) (sectorDeals miner sector state) := by
  refine (Even.chainRead _ rfl).bind ?_
  rintro preCommit? _ rfl
  cases preCommit? with
  | some preCommit => exact .pure rfl
  | none =>
    refine (Even.chainRead _ rfl).bind ?_
    rintro proven? _ rfl
    exact .pure rfl

/-- Level inventories know the same pieces, under the same deals. -/
lemma even_addRecord (provider : Address) (height : Epoch) (record : DealRecord) :
    Even Eq (addRecord provider height record) (addRecord provider height record) := by
  refine Even.get.bind fun v v' hv => ?_
  have hfind := (hv.find?_eq record.proposal.piece).symm
  cases hpiece : v.pieces.find? record.proposal.piece with
  | none =>
    have hpiece' : v'.pieces.find? record.proposal.piece = none := by
      simpa [hpiece] using hfind
    simp only [hpiece']
    exact .update fun w w' hlevel => hlevel.insert _ _
  | some piece =>
    obtain ⟨piece', hpiece', huncounted⟩ :
        ∃ piece', v'.pieces.find? record.proposal.piece = some piece' ∧
          piece'.uncounted = piece.uncounted := by
      simpa [hpiece] using hfind
    have hcontains : piece'.containsDeal record.dealId = piece.containsDeal record.dealId := by
      rw [← Piece.containsDeal_uncounted, huncounted, Piece.containsDeal_uncounted]
    simp only [hpiece', hcontains]
    refine (Even.update fun w w' hlevel => hlevel.modify _ record).bind fun _ _ _ => ?_
    split
    · exact .log _ _
    · exact .pure rfl

lemma even_indexDeal (clientDeals : List ClientDeal) (site : Site) (provider : Address)
    (dealId : DealId) : Even Eq (indexDeal setup clientDeals site provider dealId)
      (indexDeal setup clientDeals site provider dealId) := by
  refine (Even.chainRead _ rfl).bind ?_
  rintro deal _ rfl
  split
  · exact .log _ _
  · exact even_addRecord _ _ _

lemma even_indexMessage (clientDeals : List ClientDeal) (site : Site) (message : Message) :
    Even Eq (indexMessage setup clientDeals site message)
      (indexMessage setup clientDeals site message) := by
  unfold indexMessage
  split
  · exact .log _ _
  · refine (even_sectorDeals _ _ _).bind ?_
    rintro dealIds? _ rfl
    cases dealIds? with
    | none => exact .log _ _
    | some dealIds => exact .forM (even_indexDeal clientDeals site _) dealIds

lemma even_indexTipset (clientDeals : List ClientDeal) (height : Epoch) (tipset : Tipset) :
    Even Eq (indexTipset setup clientDeals height tipset)
      (indexTipset setup clientDeals height tipset) := by
  refine (Even.chainRead _ rfl).bind ?_
  rintro messages _ rfl
  exact .forM (even_indexMessage clientDeals _) _

lemma even_advance : Even Eq advance advance := by
  refine Even.get.bind fun v v' hv => ?_
  rw [hv.cursor_eq]
  refine (Even.checked _).bind ?_
  rintro next _ rfl
  exact .updateUncounted fun _ => rfl

lemma even_indexEpochs (clientDeals : List ClientDeal) (count : Nat) :
    Even Eq (indexEpochs setup clientDeals count) (indexEpochs setup clientDeals count) := by
  induction count with
  | zero => exact .pure rfl
  | succ count ih =>
    have hrest : Even Eq (do advance; indexEpochs setup clientDeals count)
        (do advance; indexEpochs setup clientDeals count) :=
      even_advance.bind fun _ _ _ => ih
    refine Even.stopRequested.bind ?_
    rintro isStopping _ rfl
    cases isStopping with
    | true => exact .pure rfl
    | false =>
      refine Even.get.bind fun v v' hv => ?_
      rw [hv.cursor_eq]
      refine (Even.chainRead _ rfl).bind ?_
      rintro tipset _ rfl
      split
      · exact (even_indexTipset _ _ _).bind fun _ _ _ => hrest
      · exact hrest

/-- The index phase goes abreast with itself. -/
lemma even_run : Even Eq (run setup) (run setup) := by
  refine (Even.enter _).bind fun _ _ _ => (Even.chainRead _ rfl).bind ?_
  rintro head _ rfl
  refine (Even.chainRead _ rfl).bind ?_
  rintro clientDeals _ rfl
  refine Even.get.bind fun v v' hv => ?_
  rw [hv.cursor_eq]
  exact even_indexEpochs _ _

end Indexing

/-- Level look-ups of a piece give the same payload. -/
lemma payload?_eq_of_uncounted {piece? piece?' : Option Piece}
    (hpiece : piece?.map Piece.uncounted = piece?'.map Piece.uncounted) :
    piece?.bind Piece.payload? = piece?'.bind Piece.payload? := by
  have hpayload : ∀ piece? : Option Piece,
      piece?.bind Piece.payload? = (piece?.map Piece.uncounted).bind Piece.payload? := by
    intro piece?
    cases piece? with
    | none => rfl
    | some piece => exact Piece.payload?_uncounted.symm
  rw [hpayload, hpiece, ← hpayload]

/-! ## The retrieval phase -/

namespace Retrieval

open BoundedMap

variable {key : Cid} {w w' : Worker} {index : Nat} {record record' : DealRecord}

lemma even_sweepKey (key : Cid) : Even Eq (sweepKey key) (sweepKey key) := by
  refine (Even.findPiece key).bind fun piece? piece?' hpiece => ?_
  rw [payload?_eq_of_uncounted hpiece]
  split
  · exact .dropRetrieval key
  · refine (Even.request _ rfl).bind ?_
    rintro isLocal _ rfl
    split
    · exact .dropRetrieval key
    · exact .pure rfl

/-- How visits of a piece leave two scans: in level states, and if the walks go on, with no more
retrievals pending than the cap allows. -/
structure BothVisited (setup : Setup) (isFull isFull' : Bool) (v v' : Worker) : Prop where
  isFull_eq : isFull = isFull'
  level : v.Level v'
  size_le : isFull = false → v.retrievals.size ≤ setup.config.retrieveParallel.toNat

/-- The rule of looks at the cap. -/
lemma abreast_isFull (hlevel : w.Level w') :
    Abreast (isFull setup) (isFull setup) w w' (BothVisited setup) := by
  have hget : Abreast get get w w' fun v v' u u' => v = w ∧ v' = w' ∧ u = w ∧ u' = w' :=
    .get ⟨rfl, rfl, rfl, rfl⟩
  refine hget.bind ?_
  rintro _ _ _ _ ⟨rfl, rfl, rfl, rfl⟩
  rw [← hlevel.retrievals_eq]
  split
  · refine (Even.log _ _ _ _ hlevel).bind fun _ _ v v' hv => .done ⟨rfl, hv.2, ?_⟩
    rintro ⟨⟩
  · next hroom => exact .done ⟨rfl, hlevel, fun _ => Nat.not_lt.1 hroom⟩

/-- Takes the outcome of a query for a piece; the result tells whether the walk ends. -/
def takeOutcome (setup : Setup) (key : Cid) (index : Nat) (record : DealRecord) :
    Except Failure QueryResponse → Activity Bool
  | .ok response => do
    takeResponse key record response
    isFull setup
  | .error failure => do
    takeFailure setup key index record failure
    return false

/-- How a program leaves a scan that was in a state: it is broken off, or the walk goes on from
a level state. -/
def GoesOn (w : Worker) (program : Program (Except PhaseError Bool × Worker)) : Prop :=
  (∃ cause resume, program = .perform (.overflow cause) resume) ∨
    ∃ v : Worker, v.Level w ∧ program = .perform (.become v) fun _ => .done (.ok false, v)

/-- A report that is made under a condition is not seen. -/
lemma muted_ite_log {c : Prop} [Decidable c] (event : LogEvent) :
    (((if c then log event else pure ()) >>= fun _ => pure false : Activity Bool).run.run w).muted =
      .done (.ok false, w) := by
  split <;> rfl

/-- After a failed query the walk goes on with one more try counted. -/
lemma goesOn_failure (hlast : w.pieces.touch key = w.pieces) (failure : Failure) :
    GoesOn w ((takeOutcome setup key index record (.error failure)).run.run w).muted := by
  unfold takeOutcome takeFailure
  cases htries : nextTry record.tries with
  | error cause => exact .inl ⟨cause, _, rfl⟩
  | ok tries =>
    refine .inr ⟨_, (Worker.level_rfl w).setTries_left hlast index tries, ?_⟩
    exact congrArg (Program.perform _) (funext fun _ => muted_ite_log _)

/-- After a query that was answered with a success the walk goes on as before. -/
lemma goesOn_success (hpending : key ∉ w.retrievals.keys)
    (hsize : w.retrievals.size ≤ setup.config.retrieveParallel.toNat) {response : QueryResponse}
    (hstatus : response.status = .success) :
    GoesOn w ((takeOutcome setup key index record (.ok response)).run.run w).muted := by
  have herased : { w with retrievals := w.retrievals.erase key } = w := by
    rw [erase_of_notMem hpending]
  have hfull : ((isFull setup).run.run w).muted = .done (.ok false, w) := by
    have hroom : ¬ setup.config.retrieveParallel.toNat < w.retrievals.size := Nat.not_lt.2 hsize
    change ((ite _ _ (pure false) : Activity Bool).run.run w).muted = _
    rw [if_neg hroom]
    rfl
  refine .inr ⟨w, rfl, ?_⟩
  simp only [takeOutcome, takeResponse, if_pos hstatus]
  change Program.perform (.become { w with retrievals := w.retrievals.erase key }) (fun _ =>
    ((isFull setup).run.run { w with retrievals := w.retrievals.erase key }).muted) = _
  rw [herased, hfull]


/-- Scans that go on from level states go abreast. -/
lemma GoesOn.level (hlevel : w.Level w')
    (hsize : w.retrievals.size ≤ setup.config.retrieveParallel.toNat)
    {program program' : Program (Except PhaseError Bool × Worker)} (hprogram : GoesOn w program)
    (hprogram' : GoesOn w' program') :
    Program.Level (Meet (BothVisited setup)) program program' := by
  rcases hprogram with ⟨cause, resume, rfl⟩ | ⟨v, hv, rfl⟩
  · exact .breakLeft
  · rcases hprogram' with ⟨cause, resume, rfl⟩ | ⟨v', hv', rfl⟩
    · exact .breakRight
    · have hboth : v.Level v' := (hv.trans hlevel).trans hv'.symm
      refine .become hboth (.done ⟨rfl, hboth, fun _ => ?_⟩)
      rw [hv.retrievals_eq]
      exact hsize

/-- After a query that fails, or that is answered with a success, the walk goes on. -/
lemma goesOn_takeOutcome (hlast : w.pieces.touch key = w.pieces)
    (hpending : key ∉ w.retrievals.keys)
    (hsize : w.retrievals.size ≤ setup.config.retrieveParallel.toNat) {root : Cid}
    {provider : Address} {reply : Reply (.query root provider)}
    (hreply : Reply.swallowed (.query root provider) reply = .error ⟨[]⟩) :
    GoesOn w ((takeOutcome setup key index record reply).run.run w).muted := by
  cases reply with
  | error failure => exact goesOn_failure hlast failure
  | ok response =>
    by_cases hstatus : response.status = .success
    · exact goesOn_success hpending hsize hstatus
    · simp [Reply.swallowed, hstatus] at hreply

/-- Level outcomes of a query are taken abreast: if they differ, both walks go on. -/
lemma abreast_takeOutcome (hlevel : w.Level w') (hlast : w.pieces.touch key = w.pieces)
    (hlast' : w'.pieces.touch key = w'.pieces) (hpending : key ∉ w.retrievals.keys)
    (hsize : w.retrievals.size ≤ setup.config.retrieveParallel.toNat) {root : Cid}
    {provider : Address} {reply reply' : Reply (.query root provider)}
    (hreply : Reply.Level reply reply') :
    Abreast (takeOutcome setup key index record reply) (takeOutcome setup key index record' reply')
      w w' (BothVisited setup) := by
  by_cases hswallowed : Reply.swallowed (.query root provider) reply = .error ⟨[]⟩
  · have hswallowed' := hreply.symm.trans hswallowed
    have hpending' : key ∉ w'.retrievals.keys := hlevel.retrievals_eq ▸ hpending
    have hsize' := hlevel.retrievals_eq ▸ hsize
    exact (goesOn_takeOutcome hlast hpending hsize hswallowed).level hlevel hsize
      (goesOn_takeOutcome hlast' hpending' hsize' hswallowed')
  · obtain ⟨response, rfl, rfl, hstatus⟩ := hreply.exists_of_ne hswallowed
    have htake : Even Eq (takeResponse key record response)
        (takeResponse key record' response) := by
      simp only [takeResponse, if_neg hstatus]
      exact (Even.log _ _).bind fun _ _ _ => Even.updateUncounted fun _ => by rfl
    exact (htake w w' hlevel).bind fun _ _ v v' hv => abreast_isFull hv.2

/-- Level deals of a piece that was just looked up are tried abreast. -/
lemma abreast_tryRecord (hlevel : w.Level w') (hlast : w.pieces.touch key = w.pieces)
    (hlast' : w'.pieces.touch key = w'.pieces)
    (hsize : w.retrievals.size ≤ setup.config.retrieveParallel.toNat)
    (hrecord : record.uncounted = record'.uncounted) :
    Abreast (tryRecord setup key index record) (tryRecord setup key index record') w w'
      (BothVisited setup) := by
  have hroot : record.root = record'.root := by
    have h := congrArg DealRecord.root hrecord
    exact h
  have hprovider : record.provider = record'.provider := by
    have h := congrArg DealRecord.provider hrecord
    exact h
  have hrequest : Abreast (request (.retrievalScan key index) (.hasLocal record'.root))
      (request (.retrievalScan key index) (.hasLocal record'.root)) w w'
      fun isLocal isLocal' v v' => isLocal = isLocal' ∧ w = v ∧ w' = v' :=
    .request hlevel rfl fun _ => ⟨rfl, rfl, rfl⟩
  unfold tryRecord
  rw [hroot, hprovider]
  refine hrequest.bind ?_
  rintro isLocal _ _ _ ⟨rfl, rfl, rfl⟩
  cases isLocal with
  | true =>
    have herase : (w.retrievals.erase key).size ≤ w.retrievals.size := length_others_le _ _
    have hdrop : Abreast (dropRetrieval key) (dropRetrieval key) w w' fun _ _ v v' =>
        v.Level v' ∧ v.retrievals = w.retrievals.erase key :=
      .update hlevel.eraseRetrieval ⟨hlevel.eraseRetrieval, rfl⟩
    refine hdrop.bind fun _ _ v v' hv => .done ⟨rfl, hv.1, fun _ => ?_⟩
    rw [hv.2]
    exact Nat.le_trans herase hsize
  | false =>
    have hpends : Abreast (isPending key) (isPending key) w w' fun isPending isPending' v v' =>
        isPending = isPending' ∧ w.retrievals.contains key = isPending ∧ w = v ∧ w' = v' :=
      .done ⟨by rw [hlevel.retrievals_eq], rfl, rfl, rfl⟩
    refine hpends.bind ?_
    rintro isPending _ _ _ ⟨rfl, hpending, rfl, rfl⟩
    cases isPending with
    | true => exact .done ⟨rfl, hlevel, fun _ => hsize⟩
    | false =>
      have hnotMem : key ∉ w.retrievals.keys := by
        intro hmem
        rw [contains_iff.2 hmem] at hpending
        cases hpending
      have hquery : Abreast
          (attempt (.retrievalScan key index) (.query record'.root record'.provider))
          (attempt (.retrievalScan key index) (.query record'.root record'.provider)) w w'
          fun reply reply' v v' => Reply.Level reply reply' ∧ w = v ∧ w' = v' :=
        .attempt fun _ _ hreply => ⟨hreply, rfl, rfl⟩
      refine hquery.bind ?_
      rintro reply reply' _ _ ⟨hreply, rfl, rfl⟩
      have htake : Abreast (takeOutcome setup key index record reply)
          (takeOutcome setup key index record' reply') w w' (BothVisited setup) :=
        abreast_takeOutcome hlevel hlast hlast' hnotMem hsize hreply
      cases reply <;> cases reply' <;> exact htake

/-- Of level pieces deals with the same number are chosen, and nothing changes in between. -/
lemma abreast_chooseRecord {piece piece' : Piece} (hpiece : piece.uncounted = piece'.uncounted) :
    Abreast (chooseRecord setup piece) (chooseRecord setup piece') w w' fun index? index?' v v' =>
      index?.map Fin.val = index?'.map Fin.val ∧ w = v ∧ w' = v' := by
  have hvals := Piece.map_val_retrievable_eq hpiece
  have hlength : piece.retrievable.length = piece'.retrievable.length := by
    simpa using congrArg List.length hvals
  have hreport : Abreast (reportSeed setup) (reportSeed setup) w w' fun _ _ v v' =>
      w = v ∧ w' = v' := by
    unfold reportSeed
    split
    · exact .done ⟨rfl, rfl⟩
    · split <;> exact .done ⟨rfl, rfl⟩
  unfold chooseRecord
  by_cases hpos : 0 < piece.retrievable.length
  · rw [dif_pos hpos, dif_pos (hlength ▸ hpos)]
    refine hreport.bind ?_
    rintro _ _ _ _ ⟨rfl, rfl⟩
    have hchoose : Abreast (choose piece.retrievable.length hpos)
        (choose piece'.retrievable.length (hlength ▸ hpos)) w w' fun choice choice' v v' =>
          choice.val = choice'.val ∧ w = v ∧ w' = v' :=
      .choose hlength fun choice choice' hchoice => ⟨hchoice, rfl, rfl⟩
    refine hchoose.bind ?_
    rintro choice choice' _ _ ⟨hchoice, rfl, rfl⟩
    refine .done ⟨?_, rfl, rfl⟩
    have hchosen : (piece.retrievable.map Fin.val)[choice.val]? =
        (piece'.retrievable.map Fin.val)[choice'.val]? := by
      rw [hvals, hchoice]
    simpa using hchosen
  · rw [dif_neg hpos, dif_neg (hlength ▸ hpos)]
    exact .done ⟨rfl, rfl, rfl⟩

/-- The scans visit a piece abreast. -/
lemma abreast_visit (hlevel : w.Level w')
    (hsize : w.retrievals.size ≤ setup.config.retrieveParallel.toNat) (key : Cid) :
    Abreast (visit setup key) (visit setup key) w w' (BothVisited setup) := by
  have hfind : Abreast (findPiece key) (findPiece key) w w' fun piece? piece?' v v' =>
      piece?.map Piece.uncounted = piece?'.map Piece.uncounted ∧
        { w with pieces := w.pieces.touch key } = v ∧
        { w' with pieces := w'.pieces.touch key } = v' :=
    .become (hlevel.touch key) (.done ⟨hlevel.find?_eq key, rfl, rfl⟩)
  refine hfind.bind ?_
  rintro piece? piece?' _ _ ⟨hpiece, rfl, rfl⟩
  have htouched : ∀ m : BoundedMap Piece, (m.touch key).touch key = m.touch key :=
    fun m => touch_touch
  cases piece? with
  | none =>
    obtain rfl : piece?' = none := by simpa using hpiece.symm
    exact .done ⟨rfl, hlevel.touch key, fun _ => hsize⟩
  | some piece =>
    obtain ⟨piece', rfl, huncounted⟩ :
        ∃ piece', piece?' = some piece' ∧ piece'.uncounted = piece.uncounted := by
      simpa using hpiece.symm
    refine (abreast_chooseRecord huncounted.symm).bind ?_
    rintro index? index?' _ _ ⟨hindex, rfl, rfl⟩
    cases index? with
    | none =>
      obtain rfl : index?' = none := by simpa using hindex.symm
      exact .done ⟨rfl, hlevel.touch key, fun _ => hsize⟩
    | some index =>
      obtain ⟨index', rfl, heq⟩ : ∃ index', index?' = some index' ∧ index'.val = index.val := by
        simpa using hindex.symm
      change Abreast (tryRecord setup key index.val _) (tryRecord setup key index'.val _) _ _ _
      rw [heq]
      exact abreast_tryRecord (hlevel.touch key) (htouched _) (htouched _) hsize
        (Piece.uncounted_get_eq huncounted.symm heq.symm)

/-- The scans visit pieces abreast. -/
lemma abreast_scan (keys : List Cid) (hlevel : w.Level w')
    (hsize : w.retrievals.size ≤ setup.config.retrieveParallel.toNat) :
    Abreast (scan setup keys) (scan setup keys) w w' fun value value' v v' =>
      value = value' ∧ v.Level v' := by
  induction keys generalizing w w' with
  | nil => exact .done ⟨rfl, hlevel⟩
  | cons key rest ih =>
    refine (abreast_visit hlevel hsize key).bind ?_
    rintro isFull _ v v' ⟨rfl, hv, hroom⟩
    cases isFull with
    | true => exact .done ⟨rfl, hv⟩
    | false => exact ih hv (hroom rfl)

/-- The retrieval phase goes abreast with itself. -/
lemma even_run : Even Eq (run setup) (run setup) := by
  refine (Even.enter _).bind fun _ _ _ => Even.get.bind fun v v' hv => ?_
  rw [hv.retrievals_eq]
  refine (Even.forM even_sweepKey _).bind fun _ _ _ w w' hlevel => ?_
  refine (abreast_isFull hlevel).bind ?_
  rintro isFull _ v v' ⟨rfl, hv, hroom⟩
  cases isFull with
  | true => exact .done ⟨rfl, hv⟩
  | false =>
    have henter : Abreast (enter .retrievalScan) (enter .retrievalScan) v v' fun _ _ u u' =>
        v = u ∧ v' = u' := .enter (.done ⟨rfl, rfl⟩)
    refine henter.bind ?_
    rintro _ _ _ _ ⟨rfl, rfl⟩
    change Abreast (scan setup v.pieces.keys) (scan setup v'.pieces.keys) v v' _
    rw [hv.keys_eq]
    exact abreast_scan _ hv (hroom rfl)

end Retrieval

/-! ## The deal phase -/

namespace Dealing

lemma even_sweepKey (key : Cid) : Even Eq (sweepKey key) (sweepKey key) := by
  refine Even.get.bind fun v v' hv => ?_
  rw [hv.contains_eq, hv.deals_eq]
  split
  · refine (Even.updateUncounted fun _ => by rfl).bind fun _ _ _ => ?_
    split
    · refine (Even.request _ rfl).bind ?_
      rintro deal _ rfl
      split
      · exact (Even.log _ _).bind fun _ _ _ =>
          (Even.dropPiece key).bind fun _ _ _ => Even.dropDeal key
      · split
        · exact (Even.log _ _).bind fun _ _ _ => Even.dropDeal key
        · exact .pure rfl
    · exact .pure rfl
  · exact (Even.dropDeal key).bind fun _ _ _ => .pure rfl

lemma even_isFull : Even Eq (isFull setup) (isFull setup) := by
  refine Even.get.bind fun v v' hv => ?_
  rw [hv.deals_eq]
  split
  · exact (Even.log _ _).bind fun _ _ _ => .pure rfl
  · exact .pure rfl

lemma even_isFollowed (key : Cid) : Even Eq (isFollowed key) (isFollowed key) :=
  Even.get.bind fun _ _ hv => .pure (by rw [hv.deals_eq])

lemma even_checkMiner (key : Cid) (isChecked : Bool) :
    Even Eq (checkMiner setup key isChecked) (checkMiner setup key isChecked) := by
  unfold checkMiner
  split
  · exact .pure rfl
  · refine (Even.request _ rfl).bind ?_
    rintro info _ rfl
    split
    · exact .pure rfl
    · exact .throw _ _

lemma even_propose (key : Cid) (payload : PayloadRef) :
    Even Eq (propose setup key payload) (propose setup key payload) := by
  refine (Even.attempt _ rfl).bind ?_
  rintro (failure | proposal) _ rfl
  · exact (Even.log _ _).bind fun _ _ _ => .pure rfl
  · refine (Even.log _ _).bind fun _ _ _ => (Even.count _).bind fun _ _ _ =>
      (Even.updateUncounted fun _ => by rfl).bind fun _ _ _ => even_isFull.bind ?_
    rintro isFull _ rfl
    split <;> exact .pure rfl

lemma even_visit (key : Cid) (isChecked : Bool) :
    Even Eq (visit setup key isChecked) (visit setup key isChecked) := by
  refine (Even.findPiece key).bind fun piece? piece?' hpiece => ?_
  rw [payload?_eq_of_uncounted hpiece]
  split
  · refine (Even.request _ rfl).bind ?_
    rintro isLocal _ rfl
    split
    · refine (even_isFollowed key).bind ?_
      rintro isFollowed _ rfl
      split
      · exact .pure rfl
      · refine (Even.request _ rfl).bind ?_
        rintro offer _ rfl
        split
        · exact (Even.log _ _).bind fun _ _ _ =>
            (Even.dropPiece key).bind fun _ _ _ => .pure rfl
        · exact (even_checkMiner key isChecked).bind fun _ _ _ => even_propose key _
    · exact .pure rfl
  · exact .pure rfl

lemma even_scan (keys : List Cid) (isChecked : Bool) :
    Even Eq (scan setup isChecked keys) (scan setup isChecked keys) := by
  induction keys generalizing isChecked with
  | nil => exact .pure rfl
  | cons key rest ih =>
    refine (even_visit key isChecked).bind ?_
    rintro visit _ rfl
    cases visit with
    | passed => exact ih isChecked
    | minerChecked => exact ih true
    | full => exact .pure rfl

/-- The deal phase goes abreast with itself. -/
lemma even_run : Even Eq (run setup) (run setup) := by
  refine (Even.enter _).bind fun _ _ _ => Even.get.bind fun v v' hv => ?_
  rw [hv.deals_eq]
  refine (Even.forM even_sweepKey _).bind fun _ _ _ => even_isFull.bind ?_
  rintro isFull _ rfl
  split
  · exact .pure rfl
  · refine (Even.enter _).bind fun _ _ _ => Even.get.bind fun v v' hv => ?_
    rw [hv.keys_eq]
    exact even_scan _ _

end Dealing

/-! ## Ticks and turns -/

/-- Whether two tasks go abreast from level states on, and end in level states. -/
def Task.Even (task task' : Task Unit) : Prop :=
  ∀ w w', w.Level w' →
    Program.Abreast (fun result result' => result.2.Level result'.2) (task.run w) (task'.run w')

/-- Tasks that go abreast one after another. -/
lemma Task.Even.bind {first first' : Task Unit} {next next' : Unit → Task Unit}
    (hfirst : Even first first') (hnext : Even (next ()) (next' ())) :
    Even (first >>= next) (first' >>= next') :=
  fun w w' hlevel => (hfirst w w' hlevel).bind fun _ _ h => hnext _ _ h

namespace Tick

/-- A phase that goes abreast with itself does so with the report if it is given up. -/
lemma even_runPhase (phase : Phase) (report : PhaseError → LogEvent) {activity : Activity Unit}
    (heven : Activity.Even Eq activity activity) :
    Task.Even (runPhase phase report activity) (runPhase phase report activity) := by
  intro w w' hlevel
  refine Program.Abreast.bind (heven w w' hlevel) ?_
  rintro ⟨error | value, v⟩ ⟨error' | value', v'⟩ hmeet
  · exact .count (.done hmeet)
  · exact hmeet.elim
  · exact hmeet.elim
  · exact .done hmeet.2

lemma even_isCatchingUp : Activity.Even Eq isCatchingUp isCatchingUp := by
  refine (Even.request _ rfl).bind ?_
  rintro status _ rfl
  exact .checked _

lemma even_index : Task.Even (index setup) (index setup) := by
  have hphase : Task.Even (runPhase .index .indexFailed (Indexing.run setup))
      (runPhase .index .indexFailed (Indexing.run setup)) :=
    even_runPhase _ _ Indexing.even_run
  unfold index
  split
  · intro w w' hlevel
    refine Program.Abreast.bind (even_isCatchingUp w w' hlevel) ?_
    rintro ⟨error | isCatchingUp, v⟩ ⟨error' | isCatchingUp', v'⟩ hmeet
    · exact .count (.done hmeet)
    · exact hmeet.elim
    · exact hmeet.elim
    · obtain ⟨rfl, hv⟩ := hmeet
      cases isCatchingUp with
      | true => exact .done hv
      | false => exact hphase v v' hv
  · exact hphase

/-- A tick goes abreast with itself. -/
lemma even_run : Task.Even (run setup) (run setup) :=
  even_index.bind ((even_runPhase _ _ Retrieval.even_run).bind
    (even_runPhase _ _ Dealing.even_run))

end Tick

/-- Whether two turns end alike, in level states. -/
inductive TurnEnd.Level : TurnEnd → TurnEnd → Prop
  | asleep {w w'} (hlevel : w.Level w') : Level (.asleep w) (.asleep w')
  | finished {w w'} (hlevel : w.Level w') : Level (.finished w) (.finished w')

namespace Turn

variable {w w' : Worker}

/-- From level states on, a tick and what it publishes go abreast with themselves. -/
lemma abreast_tick (hlevel : w.Level w') :
    Program.Abreast Worker.Level (tick setup w) (tick setup w') := by
  refine Program.Abreast.bind (Tick.even_run w w' hlevel) ?_
  rintro ⟨⟨⟩, v⟩ ⟨⟨⟩, v'⟩ hv
  change Program.Abreast Worker.Level (do Program.effect (.publish v.stats); return v)
    (do Program.effect (.publish v'.stats); return v')
  rw [hv.stats_eq]
  exact .publish (.done hv)

/-- From level states on, a turn goes abreast with itself. -/
lemma abreast_run (hlevel : w.Level w') :
    Program.Abreast TurnEnd.Level (run setup w) (run setup w') := by
  have hrest (v v' : Worker) (hv : v.Level v') : Program.Abreast TurnEnd.Level
      (do if ← Program.effect .stopRequested then finish v else return .asleep v)
      (do if ← Program.effect .stopRequested then finish v' else return .asleep v') := by
    refine .look fun isStopping => ?_
    cases isStopping with
    | true => exact .done (.finished hv)
    | false => exact .done (.asleep hv)
  refine .look fun isStopping => ?_
  cases isStopping with
  | true => exact .done (.finished hlevel)
  | false => exact (abreast_tick hlevel).bind hrest

/-- From level states on, the first turn of a driver goes abreast with itself. -/
lemma abreast_first (hlevel : w.Level w') :
    Program.Abreast TurnEnd.Level (first setup w) (first setup w') :=
  .become hlevel (abreast_run hlevel)

end Turn

end PieceReplication
