import PieceReplication.Proofs.Chain.Epochs
import PieceReplication.Proofs.Inventory.Recency
import PieceReplication.Schedule.Indexing

/-!
# What indexing means

The deals that a range of epochs holds are one sequence (`foundDeals`): the epochs in order, the
prove-commit messages of each in order, the deals of each proved sector in order.  It is a function
of what the chain reads answer.  Indexing the range folds this sequence into the inventory, one deal
after another (`fold`).

Of a fold two things are said.  The keys afterwards are the last distinct ones of the old keys
followed by the pieces of the deals (`keys_fold`).  If no piece has to be dropped for that, each
piece keeps its old records and gets one for each deal that it did not have, at the deal's first
occurrence (`records_fold`).
-/

namespace PieceReplication.Indexing

open BoundedMap

/-- A deal that was found on the chain, with its identifier. -/
structure FoundDeal where
  dealId : DealId
  deal : MarketDeal
  deriving DecidableEq

namespace FoundDeal

/-- The piece that the deal stores. -/
def piece (found : FoundDeal) : Cid :=
  found.deal.proposal.piece

/-- The record of the deal, which was never queried. -/
def record (found : FoundDeal) : DealRecord :=
  .ofDeal found.dealId found.deal

end FoundDeal

/-- Whether a found deal is to be replicated: it is not made with the local miner, and the node has
no deal of its own for the piece that may still succeed. -/
def isWanted (miner : Address) (clientDeals : List ClientDeal) (found : FoundDeal) : Bool :=
  !isDealtLocally miner clientDeals found.deal.proposal

/-! ## The deals of a range of epochs -/

section Deals

-- what a call answers, if it does
variable (read : (call : Call) → Option call.Answer)

/-- The deals of a proved sector: those of its pre-commit record if there is one, else those of the
record of the proved sector if there is one. -/
def sectorDealIds (miner : Address) (sector : SectorNumber) (state : TipsetKey) : List DealId :=
  match read (.preCommit miner sector state) with
  | some (some preCommit) => preCommit.dealIds
  | _ =>
    match read (.provenSector miner sector state) with
    | some (some proven) => proven.dealIds
    | _ => []

/-- The deals of a prove-commit message: none if its parameters do not decode. -/
def messageDeals (state : TipsetKey) (message : Message) : List FoundDeal :=
  match ProveCommit.decode? message.params with
  | none => []
  | some params =>
    (sectorDealIds read message.receiver params.sector state).flatMap fun dealId =>
      (read (.marketDeal dealId state)).toList.map (⟨dealId, ·⟩)

/-- The deals of an epoch: none if the chain has no tipset of that very epoch. -/
def epochDeals (height : Epoch) : List FoundDeal :=
  match read (.tipsetAt height) with
  | none => []
  | some tipset =>
    if tipset.epoch = height then
      match read (.parentMessages tipset.firstBlock) with
      | none => []
      | some messages =>
        (messages.filter Message.isProveCommit).flatMap (messageDeals read tipset.parents)
    else []

/-- The deals of an epoch that are to be replicated. -/
def wantedDeals (miner : Address) (clientDeals : List ClientDeal) (height : Epoch) :
    List FoundDeal :=
  (epochDeals read height).filter (isWanted miner clientDeals)

/-- The deals of a number of epochs from `start` on that are to be replicated. -/
def dealsFrom (miner : Address) (clientDeals : List ClientDeal) (start : Epoch) (count : Nat) :
    List FoundDeal :=
  (Epoch.consecutive start count).flatMap (wantedDeals read miner clientDeals)

/-- The deals that are to be replicated of the epochs from `start` up to below `stop`. -/
def foundDeals (miner : Address) (clientDeals : List ClientDeal) (start stop : Epoch) :
    List FoundDeal :=
  dealsFrom read miner clientDeals start (start.stepsTo stop)

variable {read} {miner : Address} {clientDeals : List ClientDeal}

/-- An epoch without a tipset of its own has no deals. -/
lemma wantedDeals_of_ne {height : Epoch} {tipset : Tipset}
    (htipset : read (.tipsetAt height) = some tipset) (hepoch : tipset.epoch ≠ height) :
    wantedDeals read miner clientDeals height = [] := by
  simp only [wantedDeals, epochDeals, htipset, if_neg hepoch, List.filter_nil]

/-- The wanted deals of an epoch and those of the epochs after it. -/
lemma dealsFrom_succ (start : Epoch) (count : Nat) :
    dealsFrom read miner clientDeals start (count + 1) =
      wantedDeals read miner clientDeals start ++
        dealsFrom read miner clientDeals (start + 1) count := by
  rw [dealsFrom, Epoch.consecutive_succ, List.flatMap_cons, dealsFrom]

/-- The wanted deals of some epochs and those of the epochs after these. -/
lemma dealsFrom_add (start : Epoch) (done more : Nat) :
    dealsFrom read miner clientDeals start (done + more) =
      dealsFrom read miner clientDeals start done ++
        dealsFrom read miner clientDeals (start + Int64.ofNat done) more := by
  rw [dealsFrom, Epoch.consecutive_add, List.flatMap_append, dealsFrom, dealsFrom]

/-- The wanted deals of a range are those of some of its epochs and those of the range that is left
after them. -/
lemma foundDeals_eq_append {start stop : Epoch} {done : Nat} (hdone : done ≤ start.stepsTo stop) :
    foundDeals read miner clientDeals start stop = dealsFrom read miner clientDeals start done ++
      foundDeals read miner clientDeals (start + Int64.ofNat done) stop := by
  have hsteps : start.stepsTo stop = done + (start.stepsTo stop - done) := by omega
  rw [foundDeals, hsteps, dealsFrom_add, foundDeals, Epoch.stepsTo_add_ofNat hdone]

end Deals

/-! ## Folding deals into the inventory -/

/-- The inventory with one more deal: it is added to its piece if that is known, else it makes a new
one. -/
def record (pieces : BoundedMap Piece) (found : FoundDeal) : BoundedMap Piece :=
  if pieces.contains found.piece then
    pieces.modify found.piece (·.add found.record)
  else pieces.insert found.piece (.ofRecord found.record)

/-- The inventory with more deals, one after another. -/
def fold (pieces : BoundedMap Piece) (found : List FoundDeal) : BoundedMap Piece :=
  found.foldl record pieces

variable {pieces : BoundedMap Piece} {found : List FoundDeal} {first : FoundDeal} {piece : Cid}

/-- A deal for a known piece is added to it. -/
lemma record_of_mem (hmem : first.piece ∈ pieces.keys) :
    record pieces first = pieces.modify first.piece (·.add first.record) :=
  if_pos (contains_iff.2 hmem)

/-- A deal for an unknown piece makes a new one. -/
lemma record_of_notMem (habsent : first.piece ∉ pieces.keys) :
    record pieces first = pieces.insert first.piece (.ofRecord first.record) :=
  if_neg fun hcontains => habsent (contains_iff.1 hcontains)

/-- A deal keeps the capacity. -/
lemma capacity_record : (record pieces first).capacity = pieces.capacity := by
  unfold record
  split
  · exact capacity_modify
  · exact capacity_insert

/-- Deals keep the capacity. -/
lemma capacity_fold : (fold pieces found).capacity = pieces.capacity := by
  induction found generalizing pieces with
  | nil => rfl
  | cons first rest ih => exact ih.trans capacity_record

/-- A deal uses its piece. -/
lemma keys_record :
    (record pieces first).keys = lastDistinct pieces.capacity (pieces.keys ++ [first.piece]) := by
  by_cases hmem : first.piece ∈ pieces.keys
  · rw [record_of_mem hmem, keys_modify hmem]
  · rw [record_of_notMem hmem, keys_insert]

/-- Deals use their pieces: the keys afterwards are the last distinct ones of the old keys followed
by the pieces. -/
lemma keys_fold :
    (fold pieces found).keys =
      lastDistinct pieces.capacity (pieces.keys ++ found.map FoundDeal.piece) := by
  induction found generalizing pieces with
  | nil =>
    rw [List.map_nil, List.append_nil, lastDistinct_eq_self keys_nodup]
    · rfl
    · rw [← size_eq_length_keys]
      exact pieces.size_le
  | cons first rest ih =>
    have hcapacity : (record pieces first).capacity = pieces.capacity := capacity_record
    calc (fold pieces (first :: rest)).keys
        = lastDistinct pieces.capacity
            ((record pieces first).keys ++ rest.map FoundDeal.piece) := by
          rw [← hcapacity]
          exact ih
      _ = lastDistinct pieces.capacity
            (pieces.keys ++ [first.piece] ++ rest.map FoundDeal.piece) := by
          rw [keys_record, lastDistinct_append]
      _ = lastDistinct pieces.capacity
            (pieces.keys ++ (first :: rest).map FoundDeal.piece) := by
          rw [List.append_assoc]
          rfl

/-! ## The records after a fold -/

/-- The records of a piece: none if the piece is not in the inventory. -/
def records (pieces : BoundedMap Piece) (piece : Cid) : List DealRecord :=
  ((pieces.find? piece).map Piece.records).getD []

/-- Inventories with the same keys and the same records of a piece have the same value under it. -/
lemma find?_eq_of_records {pieces pieces' : BoundedMap Piece} (hkeys : pieces.keys = pieces'.keys)
    (hrecords : records pieces piece = records pieces' piece) :
    pieces.find? piece = pieces'.find? piece := by
  by_cases hmem : piece ∈ pieces.keys
  · obtain ⟨⟨old⟩, hfound⟩ := exists_find? hmem
    obtain ⟨⟨old'⟩, hfound'⟩ := exists_find? (hkeys ▸ hmem)
    rw [records, records, hfound, hfound'] at hrecords
    obtain rfl : old = old' := hrecords
    rw [hfound, hfound']
  · rw [find?_eq_none_iff.2 hmem, find?_eq_none_iff.2 (hkeys ▸ hmem)]

/-- Whether the pieces of some deals fit into an inventory beside those that it holds. -/
def Fits (pieces : BoundedMap Piece) (found : List FoundDeal) : Prop :=
  (pieces.keys ++ found.map FoundDeal.piece).dedup.length ≤ pieces.capacity

instance (pieces : BoundedMap Piece) (found : List FoundDeal) : Decidable (Fits pieces found) :=
  inferInstanceAs (Decidable (_ ≤ _))

/-- The records that deals for a piece add to old ones: one for each deal that is not among them, at
the first occurrence of the deal. -/
def newRecords (old : List DealRecord) (found : List FoundDeal) : List DealRecord :=
  ((found.filter fun new => !old.any (·.dealId == new.dealId)).eraseDupsBy
    (·.dealId == ·.dealId)).map FoundDeal.record

/-- The first of some deals adds a record if it is not among the old ones. -/
lemma newRecords_cons (old : List DealRecord) :
    newRecords old (first :: found) =
      if old.any (·.dealId == first.dealId) then newRecords old found
      else first.record :: newRecords (old ++ [first.record]) found := by
  unfold newRecords
  rw [List.filter_cons]
  by_cases hknown : old.any (·.dealId == first.dealId)
  · simp only [hknown, Bool.not_true, Bool.false_eq_true, ↓reduceIte]
  · simp only [hknown, Bool.not_false, Bool.false_eq_true, ↓reduceIte, List.eraseDupsBy_cons,
      List.map_cons, List.filter_filter]
    have hfilter : ∀ new ∈ found,
        (decide ((new.dealId == first.dealId) = false) && !old.any (·.dealId == new.dealId)) =
          !(old ++ [first.record]).any (·.dealId == new.dealId) := by
      intro new _
      have hid : first.record.dealId = first.dealId := rfl
      by_cases hsame : new.dealId = first.dealId
      · simp [hsame, hid]
      · simp [hsame, Ne.symm hsame, hid]
    rw [List.filter_congr hfilter]

/-- Beside the old records, deals that are all among them add none. -/
lemma newRecords_eq_nil {old : List DealRecord}
    (hknown : ∀ new ∈ found, old.any (·.dealId == new.dealId)) : newRecords old found = [] := by
  have hnone : (found.filter fun new => !old.any (·.dealId == new.dealId)) = [] := by
    refine List.filter_eq_nil_iff.2 fun new hnew => ?_
    rw [hknown new hnew]
    exact Bool.false_ne_true
  rw [newRecords, hnone]
  rfl

/-- Deals add what the first of them add and then what the others add to that. -/
lemma newRecords_append (old : List DealRecord) (found more : List FoundDeal) :
    newRecords old (found ++ more) =
      newRecords old found ++ newRecords (old ++ newRecords old found) more := by
  induction found generalizing old with
  | nil =>
    rw [show newRecords old [] = [] from rfl, List.append_nil]
    rfl
  | cons first rest ih =>
    rw [List.cons_append, newRecords_cons, newRecords_cons]
    split
    · exact ih old
    · rw [ih, List.cons_append, List.append_assoc]
      rfl

/-- The deals that are added are among the records afterwards. -/
lemma any_append_newRecords (old : List DealRecord) {new : FoundDeal} (hnew : new ∈ found) :
    (old ++ newRecords old found).any (·.dealId == new.dealId) := by
  induction found generalizing old with
  | nil => cases hnew
  | cons first rest ih =>
    rw [newRecords_cons]
    split
    · next hknown =>
      rcases List.mem_cons.1 hnew with rfl | hrest
      · rw [List.any_append, hknown, Bool.true_or]
      · exact ih old hrest
    · rcases List.mem_cons.1 hnew with rfl | hrest
      · have hself : new.record.dealId == new.dealId := beq_self_eq_true _
        rw [List.any_append, List.any_cons, hself, Bool.true_or, Bool.or_true]
      · have hlater := ih (old ++ [first.record]) hrest
        rwa [List.append_assoc] at hlater

/-- Of deals whose pieces fit the piece of the first fits. -/
lemma Fits.length_le (hfits : Fits pieces (first :: found)) :
    (pieces.keys ++ [first.piece]).dedup.length ≤ pieces.capacity := by
  refine Nat.le_trans (length_dedup_le_append _ (found.map FoundDeal.piece)) ?_
  rw [List.append_assoc]
  exact hfits

/-- Deals whose pieces fit leave room for the rest of them. -/
lemma Fits.record (hfits : Fits pieces (first :: found)) : Fits (record pieces first) found := by
  rw [Fits, capacity_record, keys_record, lastDistinct_eq_dedup hfits.length_le, dedup_dedup_append,
    List.append_assoc]
  exact hfits

/-- A deal whose piece fits is recorded under its piece, unless it was before. -/
lemma records_record (hfits : Fits pieces (first :: found)) :
    records (record pieces first) piece =
      if piece = first.piece then (Piece.add ⟨records pieces piece⟩ first.record).records
      else records pieces piece := by
  by_cases hmem : first.piece ∈ pieces.keys
  · obtain ⟨known, hknown⟩ := exists_find? hmem
    rw [record_of_mem hmem]
    by_cases heq : piece = first.piece
    · rw [if_pos heq, records, records, find?_modify, if_pos heq, heq, hknown]
      rfl
    · rw [if_neg heq, records, find?_modify, if_neg heq, records]
  · rw [record_of_notMem hmem]
    have hroom : pieces.size < pieces.capacity := by
      have hdedup : (pieces.keys ++ [first.piece]).dedup = pieces.keys ++ [first.piece] :=
        (List.nodup_append.2 ⟨keys_nodup, List.nodup_singleton _, by
          rintro key hkey last hlast rfl
          exact hmem (List.mem_singleton.1 hlast ▸ hkey)⟩).dedup
      have hlength := hfits.length_le
      rw [hdedup, List.length_append, ← size_eq_length_keys] at hlength
      exact hlength
    by_cases heq : piece = first.piece
    · rw [if_pos heq, records, records, find?_insert_of_lt hmem hroom, if_pos heq, heq,
        find?_eq_none_iff.2 hmem]
      rfl
    · rw [if_neg heq, records, find?_insert_of_lt hmem hroom, if_neg heq, records]

/-- Deals whose pieces fit are recorded under their pieces: each piece keeps its records and gets
one for each deal that it did not have. -/
lemma records_fold (hfits : Fits pieces found) :
    records (fold pieces found) piece = records pieces piece ++
      newRecords (records pieces piece) (found.filter (·.piece == piece)) := by
  induction found generalizing pieces with
  | nil => exact (List.append_nil _).symm
  | cons first rest ih =>
    change records (fold (record pieces first) rest) piece = _
    rw [ih hfits.record, records_record hfits, List.filter_cons]
    by_cases heq : piece = first.piece
    · subst heq
      have hid : first.record.dealId = first.dealId := rfl
      rw [if_pos rfl, if_pos (beq_self_eq_true _), newRecords_cons, Piece.add, Piece.containsDeal,
        hid]
      split
      · rfl
      · exact List.append_assoc _ _ _
    · rw [if_neg heq, if_neg (by simpa using Ne.symm heq)]

end PieceReplication.Indexing
