import PieceReplication.Schedule.Activity

/-!
# Indexing

The index phase walks the epochs from the cursor up to the head and folds the deals of the sectors
that other providers proved into the inventory. An epoch without a tipset is skipped. The cursor
moves on only when an epoch is done, so after a failure the phase resumes with the epoch that
failed; a deal that is found again is recognised by its identifier.

The deals of a sector are those of its pre-commit record or, where that is gone, of the record of
the proved sector. A deal is left out if it is with the local miner, or if the node itself made a
deal for the same piece that may still succeed.
-/

namespace PieceReplication.Indexing

open Activity

/-- Whether the node itself made a deal for a piece that may still succeed. -/
def hasLiveDeal (deals : List ClientDeal) (piece : Cid) : Bool :=
  deals.any fun deal => deal.piece == piece && !deal.state.isTerminalFailure

/-- Whether a deal needs no replication. -/
def isDealtLocally (miner : Address) (deals : List ClientDeal) (proposal : DealProposal) : Bool :=
  proposal.provider == miner || hasLiveDeal deals proposal.piece

/-- The deals of a proved sector; `none` if the chain knows no such sector. -/
def sectorDeals (miner : Address) (sector : SectorNumber) (state : TipsetKey) :
    Activity (Option (List DealId)) := do
  match ← chainRead .indexing (.preCommit miner sector state) with
  | some preCommit => return some preCommit.dealIds
  | none =>
    let proven ← chainRead .indexing (.provenSector miner sector state)
    return proven.map ProvenSector.dealIds

/-- Adds a record to the inventory: to its piece if that is known, else as a new piece. -/
def addRecord (provider : Address) (height : Epoch) (record : DealRecord) : Activity Unit := do
  let key := record.proposal.piece
  let worker ← get
  match worker.pieces.find? key with
  | some piece =>
    update fun w => { w with pieces := w.pieces.modify key (·.add record) }
    if piece.containsDeal record.dealId then
      log (.duplicateDeal provider record.dealId height)
  | none =>
    update fun w => { w with pieces := w.pieces.insert key (.ofRecord record) }

/-- Indexes one deal of a sector proved by `provider`. -/
def indexDeal (setup : Setup) (clientDeals : List ClientDeal) (site : Site) (provider : Address)
    (dealId : DealId) : Activity Unit := do
  let deal ← chainRead .indexing (.marketDeal dealId site.parents)
  if isDealtLocally setup.miner clientDeals deal.proposal then
    log (.dealtLocally deal.proposal.piece dealId site)
  else
    addRecord provider site.height (.ofDeal dealId deal)

/-- Indexes one prove-commit message. -/
def indexMessage (setup : Setup) (clientDeals : List ClientDeal) (site : Site)
    (message : Message) : Activity Unit := do
  match ProveCommit.decode? message.params with
  | none => log (.undecodable message.cid site)
  | some params =>
    match ← sectorDeals message.receiver params.sector site.parents with
    | none => log (.unknownSector params.sector message.receiver site)
    | some dealIds => dealIds.forM (indexDeal setup clientDeals site message.receiver)

/-- Indexes the messages of one tipset. -/
def indexTipset (setup : Setup) (clientDeals : List ClientDeal) (height : Epoch)
    (tipset : Tipset) : Activity Unit := do
  let messages ← chainRead .indexing (.parentMessages tipset.firstBlock)
  (messages.filter Message.isProveCommit).forM
    (indexMessage setup clientDeals ⟨height, tipset.parents⟩)

/-- Moves the cursor to the next epoch. -/
def advance : Activity Unit := do
  let worker ← get
  let next ← checked worker.cursor.next
  update fun w => { w with cursor := next }

/-- Indexes the given number of epochs from the cursor on, unless a stop is requested. -/
def indexEpochs (setup : Setup) (clientDeals : List ClientDeal) : (count : Nat) → Activity Unit
  | 0 => pure ()
  | count + 1 => do
    if ← stopRequested then
      return
    let height := (← get).cursor
    let tipset ← chainRead .indexing (.tipsetAt height)
    if tipset.epoch = height then
      indexTipset setup clientDeals height tipset
    advance
    indexEpochs setup clientDeals count

/-- The index phase. -/
def run (setup : Setup) : Activity Unit := do
  enter .indexing
  let head ← chainRead .indexing .chainHead
  let clientDeals ← chainRead .indexing .clientDeals
  let worker ← get
  indexEpochs setup clientDeals (worker.cursor.stepsTo head.epoch)

end PieceReplication.Indexing
