import PieceReplication.Schedule.Activity

/-!
# Dealing

The deal phase first sweeps the deals that were started. A deal whose piece left the inventory is
no longer followed; one that became active retires its piece; one that failed for good is
forgotten, so that its piece can be dealt again. If more deals than the cap are still followed, or
no piece is of interest, the phase ends there.

Otherwise it walks the inventory, the piece used the longest ago first. A piece whose payload is
here and that has no deal yet is dealt with the local miner, unless the miner serves the payload
already, in which case the piece is dropped. Before the first deal the miner must turn out to be
initialized. The walk ends once more deals than the cap are followed.
-/

namespace PieceReplication.Dealing

open Activity

/-- Reviews the deal that was started for a piece. -/
def sweepKey (key : Cid) : Activity Unit := do
  let worker ← get
  unless worker.pieces.contains key do
    dropDeal key
    return
  update fun w => { w with deals := w.deals.touch key }
  let some proposal := worker.deals.find? key | return
  let deal ← request (.dealSweep key) (.dealInfo proposal)
  if deal.state = .active then
    log (.replicated key proposal)
    dropPiece key
    dropDeal key
  else if deal.state.isTerminalFailure then
    log (.dealEnded key proposal deal.state deal.message)
    dropDeal key

/-- Whether more deals are followed than the cap allows; if so, that is reported. -/
def isFull (setup : Setup) : Activity Bool := do
  let worker ← get
  if setup.config.dealParallel.toNat < worker.deals.size then
    log (.dealsFull worker.deals.size)
    return true
  else
    return false

/-- Whether a deal is followed for a piece. -/
def isFollowed (key : Cid) : Activity Bool := do
  return (← get).deals.contains key

/-- The terms under which a payload is dealt with the local miner. -/
def terms (setup : Setup) (payload : PayloadRef) : DealTerms where
  transfer := .graphSync
  root := payload.root
  piece := none
  pieceSize := 0
  expert := payload.expert
  wallet := none
  miner := setup.miner
  fastRetrieval := true
  verified := false

/-- Makes sure that the local miner is initialized, once in a phase. -/
def checkMiner (setup : Setup) (key : Cid) (isChecked : Bool) : Activity Unit := do
  unless isChecked do
    let info ← request (.dealScan key) (.minerInfo setup.miner)
    unless info.isInitialized do
      throw .minerNotInitialized

/-- How the visit of a piece ends. -/
inductive Visit where
  /-- The walk goes on; nothing was asked of the miner. -/
  | passed
  /-- The walk goes on; the miner was found initialized. -/
  | minerChecked
  /-- The walk ends. -/
  | full

/-- Proposes a deal for a piece to the local miner, which was found initialized. -/
def propose (setup : Setup) (key : Cid) (payload : PayloadRef) : Activity Visit := do
  match ← attempt (.dealScan key) (.startDeal (terms setup payload)) with
  | .error failure =>
    log (.startFailed key failure)
    return .minerChecked
  | .ok proposal =>
    log (.dealStarted setup.miner key proposal)
    count .dealsStarted
    update fun w => { w with deals := w.deals.insert key proposal }
    if ← isFull setup then
      return .full
    else
      return .minerChecked

/-- Visits a piece of the inventory. -/
def visit (setup : Setup) (key : Cid) (isChecked : Bool) : Activity Visit := do
  let some payload := (← findPiece key).bind Piece.payload? | return .passed
  unless ← request (.dealScan key) (.hasLocal payload.root) do
    return .passed
  if ← isFollowed key then
    return .passed
  let offer ← request (.dealScan key) (.offer setup.miner payload.root)
  if offer.isAvailable then
    log (.alreadyServed setup.miner payload.root key)
    dropPiece key
    return .passed
  checkMiner setup key isChecked
  propose setup key payload

/-- Visits pieces in turn until the walk ends. -/
def scan (setup : Setup) : (isChecked : Bool) → List Cid → Activity Unit
  | _, [] => pure ()
  | isChecked, key :: rest => do
    match ← visit setup key isChecked with
    | .passed => scan setup isChecked rest
    | .minerChecked => scan setup true rest
    | .full => return

/-- The deal phase. -/
def run (setup : Setup) : Activity Unit := do
  enter .dealSweep
  (← get).deals.keys.forM sweepKey
  unless ← isFull setup do
    enter .dealScan
    scan setup false (← get).pieces.keys

end PieceReplication.Dealing
