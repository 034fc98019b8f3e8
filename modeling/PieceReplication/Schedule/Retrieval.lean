import PieceReplication.Schedule.Activity
import PieceReplication.Text.Integer

/-!
# Retrieval

The retrieval phase first sweeps the pending retrievals: one whose piece left the inventory, or
whose payload has arrived, is no longer pending. If more than the cap are still pending it ends
there. Otherwise it walks the inventory, the piece used the longest ago first. For a piece that can
be retrieved it chooses one of its deals; unless that deal's payload is here already or a retrieval
of the piece is pending, it asks the deal's provider. A refusal makes the retrieval pending, and the
walk ends once more than the cap are. A query that fails only counts as one more try for its deal.
-/

namespace PieceReplication.Retrieval

open Activity

/-- Reports how the provider choice is seeded. -/
def reportSeed (setup : Setup) : Activity Unit :=
  match setup.seed with
  | none => pure ()
  | some text =>
    match Integer.uint64? text with
    | some seed => log (.seedUsed seed)
    | none => log (.seedInvalid text)

/-- Reviews one pending retrieval. -/
def sweepKey (key : Cid) : Activity Unit := do
  match (← findPiece key).bind Piece.payload? with
  | none => dropRetrieval key
  | some payload =>
    if ← request (.retrievalSweep key) (.hasLocal payload.root) then
      dropRetrieval key

/-- Chooses one of the deals under which a piece can be retrieved; `none` if there is none. -/
def chooseRecord (setup : Setup) (piece : Piece) :
    Activity (Option (Fin piece.records.length)) := do
  if h : 0 < piece.retrievable.length then
    reportSeed setup
    let choice ← choose piece.retrievable.length h
    return some piece.retrievable[choice]
  else
    return none

/-- Whether a retrieval of a piece is pending. -/
def isPending (key : Cid) : Activity Bool := do
  return (← get).retrievals.contains key

/-- The next count of failed queries. -/
def nextTry (tries : UInt64) : Except Overflow UInt64 :=
  if tries.toNat + 1 < UInt64.size then .ok (tries + 1) else .error .add

/-- Counts a failed query to the provider of a deal. -/
def takeFailure (setup : Setup) (key : Cid) (index : Nat) (record : DealRecord)
    (failure : Failure) : Activity Unit := do
  count .retrievalQueryFailures
  let tries ← checked (nextTry record.tries)
  update fun w => { w with pieces := w.pieces.modify key (·.setTries index tries) }
  log (.queryFailed record.provider record.root tries failure)
  if setup.config.retrieveTryMax < tries then
    log (.triesExceeded record.provider setup.config.retrieveTryMax record.root)

/-- Takes the answer of a provider to a query for a piece. -/
def takeResponse (key : Cid) (record : DealRecord) (response : QueryResponse) :
    Activity Unit := do
  log (.queried record.provider record.root record.tries response.status)
  if response.status = .success then
    dropRetrieval key
  else
    update fun w => { w with retrievals := w.retrievals.insert key response }

/-- Whether more retrievals are pending than the cap allows; if so, that is reported. -/
def isFull (setup : Setup) : Activity Bool := do
  let worker ← get
  if setup.config.retrieveParallel.toNat < worker.retrievals.size then
    log (.retrievalsFull worker.retrievals.size)
    return true
  else
    return false

/-- Tries the deal of a piece at an index; the result tells whether the walk ends. -/
def tryRecord (setup : Setup) (key : Cid) (index : Nat) (record : DealRecord) : Activity Bool := do
  let purpose := Purpose.retrievalScan key index
  if ← request purpose (.hasLocal record.root) then
    dropRetrieval key
    return false
  if ← isPending key then
    return false
  match ← attempt purpose (.query record.root record.provider) with
  | .ok response =>
    takeResponse key record response
    isFull setup
  | .error failure =>
    takeFailure setup key index record failure
    return false

/-- Visits a piece of the inventory; the result tells whether the walk ends. -/
def visit (setup : Setup) (key : Cid) : Activity Bool := do
  let some piece ← findPiece key | return false
  let some index ← chooseRecord setup piece | return false
  tryRecord setup key index (piece.records.get index)

/-- Visits pieces in turn until the walk ends. -/
def scan (setup : Setup) : List Cid → Activity Unit
  | [] => pure ()
  | key :: rest => do
    unless ← visit setup key do
      scan setup rest

/-- The retrieval phase. -/
def run (setup : Setup) : Activity Unit := do
  enter .retrievalSweep
  (← get).retrievals.keys.forM sweepKey
  unless ← isFull setup do
    enter .retrievalScan
    scan setup (← get).pieces.keys

end PieceReplication.Retrieval
