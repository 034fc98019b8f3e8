import PieceReplication.Proofs.Inventory.Lookup
import PieceReplication.Proofs.Run.Life
import PieceReplication.Schedule.Dealing
import PieceReplication.Schedule.Indexing
import PieceReplication.Schedule.Retrieval

/-!
# The conduct of the driver

What the driver may do after a history, said once for the whole tick.  `Asks` lists the calls it
makes, each with the state of the worker in which it makes them; `Changes` lists the ways in which
it changes that state, each with the reply or the look-up that it acts on; `Conduct` puts these
together.  An invariant of the worker follows by induction along a history from `Changes` alone,
with no look into a phase.

That the driver conducts itself so is proved phase by phase in the other files of this directory.
-/

namespace PieceReplication

open History

section Conduct

variable (setup : Setup) (h : History)

/-- The payload of a piece of the inventory. -/
def Worker.payload? (w : Worker) (key : Cid) : Option PayloadRef :=
  (w.pieces.find? key).bind Piece.payload?

/-- The deal record of a piece of the inventory at an index. -/
def Worker.record? (w : Worker) (key : Cid) (index : Nat) : Option DealRecord :=
  (w.pieces.find? key).bind fun piece => piece.records[index]?

/-- The worker after a deal was entered that was just started. -/
def Worker.withDeal (w : Worker) (piece proposal : Cid) : Worker :=
  { w with deals := w.deals.insert piece proposal }

/-- The bound on the entries of each container. -/
def Setup.capacity : Nat :=
  setup.config.inventoryCapacity.val.toNat

/-- A deal is started for a piece that has none, with room for it. -/
structure MayStart (w : Worker) (key : Cid) : Prop where
  notMem : key ∉ w.deals.keys
  size_lt : w.deals.size < setup.capacity
  size_le : w.deals.size ≤ setup.config.dealParallel.toNat

/-- The deal of a piece at an index was just chosen among those under which the piece can be
retrieved. -/
def Chosen (w : Worker) (key : Cid) (index : Nat) : Prop :=
  ∃ piece choice, w.pieces.find? key = some piece ∧
    h.head? = some (.chose piece.retrievable.length choice) ∧
    (piece.retrievable.get choice).val = index

/-- The calls that the driver makes. -/
inductive Asks : Purpose → Call → Prop where
  | syncState (hpart : part? h = none) : Asks .syncing .syncState
  | chainHead (hpart : part? h = some .indexing) : Asks .indexing .chainHead
  | clientDeals (hpart : part? h = some .indexing) : Asks .indexing .clientDeals
  | tipset (hpart : part? h = some .indexing) (hidle : underway? h = none) :
    Asks .indexing (.tipsetAt (worker setup.config h).cursor)
  | parentMessages {block} (hpart : part? h = some .indexing)
    (hunderway : underway? h = some (worker setup.config h).cursor) :
    Asks .indexing (.parentMessages block)
  | preCommit {miner sector state} (hpart : part? h = some .indexing)
    (hunderway : underway? h = some (worker setup.config h).cursor) :
    Asks .indexing (.preCommit miner sector state)
  | provenSector {miner sector state} (hpart : part? h = some .indexing)
    (hunderway : underway? h = some (worker setup.config h).cursor) :
    Asks .indexing (.provenSector miner sector state)
  | marketDeal {deal state} (hpart : part? h = some .indexing)
    (hunderway : underway? h = some (worker setup.config h).cursor) :
    Asks .indexing (.marketDeal deal state)
  | sweepRetrieval {key payload} (hpart : part? h = some .retrievalSweep)
    (hpayload : (worker setup.config h).payload? key = some payload)
    (hpending : key ∈ (worker setup.config h).retrievals.keys) (hnew : key ∉ reviewed h) :
    Asks (.retrievalSweep key) (.hasLocal payload.root)
  | probe {key index record} (hpart : part? h = some .retrievalScan)
    (hrecord : (worker setup.config h).record? key index = some record)
    (hretrievable : record.isRetrievable) (hchosen : Chosen h (worker setup.config h) key index) :
    Asks (.retrievalScan key index) (.hasLocal record.root)
  | query {key index record} (hpart : part? h = some .retrievalScan)
    (hrecord : (worker setup.config h).record? key index = some record)
    (hretrievable : record.isRetrievable)
    (hprobed : lastReply? h =
      some ⟨.retrievalScan key index, .hasLocal record.root, .ok false⟩)
    (hpending : key ∉ (worker setup.config h).retrievals.keys)
    (hsize : (worker setup.config h).retrievals.size ≤ setup.config.retrieveParallel.toNat) :
    Asks (.retrievalScan key index) (.query record.root record.provider)
  | sweepDeal {key proposal} (hpart : part? h = some .dealSweep)
    (hmem : key ∈ (worker setup.config h).pieces.keys)
    (hdeal : (worker setup.config h).deals.find? key = some proposal) (hnew : key ∉ reviewed h) :
    Asks (.dealSweep key) (.dealInfo proposal)
  | arrival {key payload} (hpart : part? h = some .dealScan)
    (hpayload : (worker setup.config h).payload? key = some payload) :
    Asks (.dealScan key) (.hasLocal payload.root)
  | offer {key payload} (hpart : part? h = some .dealScan)
    (hpayload : (worker setup.config h).payload? key = some payload)
    (harrived : lastReply? h = some ⟨.dealScan key, .hasLocal payload.root, .ok true⟩)
    (hstart : MayStart setup (worker setup.config h) key) :
    Asks (.dealScan key) (.offer setup.miner payload.root)
  | minerInfo {key payload} (hpart : part? h = some .dealScan)
    (hpayload : (worker setup.config h).payload? key = some payload)
    (hstart : MayStart setup (worker setup.config h) key) :
    Asks (.dealScan key) (.minerInfo setup.miner)
  | startDeal {key payload} (hpart : part? h = some .dealScan)
    (hpayload : (worker setup.config h).payload? key = some payload)
    (hstart : MayStart setup (worker setup.config h) key) :
    Asks (.dealScan key) (.startDeal (Dealing.terms setup payload))

/-- A sweep has ended: the entries under the keys that are left were all reviewed, and their pieces
are in the inventory. -/
def Swept (keys : Worker → List Cid) : Prop :=
  ∀ key ∈ keys (worker setup.config h),
    key ∈ reviewed h ∧ key ∈ (worker setup.config h).pieces.keys

/-- When the parts of a tick begin: a scan begins after a sweep that left no more entries than the
cap allows. -/
inductive Begins : Part → Prop where
  | indexing : Begins .indexing
  | retrievalSweep : Begins .retrievalSweep
  | retrievalScan (hpart : part? h = some .retrievalSweep)
    (hswept : Swept setup h fun w => w.retrievals.keys)
    (hsize : (worker setup.config h).retrievals.size ≤ setup.config.retrieveParallel.toNat) :
    Begins .retrievalScan
  | dealSweep : Begins .dealSweep
  | dealScan (hpart : part? h = some .dealSweep) (hswept : Swept setup h fun w => w.deals.keys)
    (hsize : (worker setup.config h).deals.size ≤ setup.config.dealParallel.toNat) :
    Begins .dealScan

/-- Why the driver breaks off. -/
inductive Breaks : Prop where
  /-- The node broke a call off. -/
  | panic {purpose call} (hcalled : h.head? = some (.called purpose call))
  /-- The distance to the end of a sync does not fit. -/
  | gap {status} (hreply : lastReply? h = some ⟨.syncing, .syncState, .ok status⟩)
  /-- The count of failed queries to a provider does not fit. -/
  | tries {key index root provider failure} (hpart : part? h = some .retrievalScan)
    (hreply : lastReply? h = some ⟨.retrievalScan key index, .query root provider, .error failure⟩)

/-- Why a retrieval is no longer waited for. -/
inductive Forgets (key : Cid) : Prop where
  /-- The piece left the inventory. -/
  | gone (hpart : part? h = some .retrievalSweep)
    (hpayload : (worker setup.config h).payload? key = none)
  /-- The payload has arrived, as the sweep found. -/
  | swept {payload} (hpart : part? h = some .retrievalSweep)
    (hpayload : (worker setup.config h).payload? key = some payload)
    (hreply : lastReply? h = some ⟨.retrievalSweep key, .hasLocal payload.root, .ok true⟩)
  /-- The payload has arrived, as the scan found. -/
  | arrived {index record} (hpart : part? h = some .retrievalScan)
    (hrecord : (worker setup.config h).record? key index = some record)
    (hreply : lastReply? h = some ⟨.retrievalScan key index, .hasLocal record.root, .ok true⟩)
  /-- The provider serves the payload, and no retrieval was waited for. -/
  | served {index root provider response} (hpart : part? h = some .retrievalScan)
    (hreply : lastReply? h = some ⟨.retrievalScan key index, .query root provider, .ok response⟩)
    (hstatus : response.status = .success)
    (hpending : key ∉ (worker setup.config h).retrievals.keys)

/-- Why a retrieval begins to be waited for. -/
structure Pends (key : Cid) (response : QueryResponse) : Prop where
  part : part? h = some .retrievalScan
  mem : key ∈ (worker setup.config h).pieces.keys
  notMem : key ∉ (worker setup.config h).retrievals.keys
  size_lt : (worker setup.config h).retrievals.size < setup.capacity
  size_le : (worker setup.config h).retrievals.size ≤ setup.config.retrieveParallel.toNat
  /-- The payload of a deal of the piece was not here, and the deal's provider does not serve it. -/
  refused : ∃ index record, (worker setup.config h).record? key index = some record ∧
    previousReply? h = some ⟨.retrievalScan key index, .hasLocal record.root, .ok false⟩ ∧
    lastReply? h =
      some ⟨.retrievalScan key index, .query record.root record.provider, .ok response⟩
  status : response.status ≠ .success

/-- Why a deal is no longer followed. -/
inductive Releases (key : Cid) : Prop where
  /-- The piece left the inventory. -/
  | gone (hpart : part? h = some .dealSweep)
    (hmem : key ∉ (worker setup.config h).pieces.keys)
  /-- The deal is active, and its piece was dropped for that. -/
  | replicated {proposal info} (hpart : part? h = some .dealSweep)
    (hdeal : (worker setup.config h).deals.find? key = some proposal)
    (hreply : lastReply? h = some ⟨.dealSweep key, .dealInfo proposal, .ok info⟩)
    (hstate : info.state = .active)
    (hmem : key ∉ (worker setup.config h).pieces.keys)
  /-- The deal has failed for good. -/
  | failed {proposal info} (hpart : part? h = some .dealSweep)
    (hdeal : (worker setup.config h).deals.find? key = some proposal)
    (hreply : lastReply? h = some ⟨.dealSweep key, .dealInfo proposal, .ok info⟩)
    (hstate : info.state.isTerminalFailure)

/-- Why a piece is dropped from the inventory. -/
inductive Drops (key : Cid) : Prop where
  /-- The deal that was followed for it is active. -/
  | replicated {proposal info} (hpart : part? h = some .dealSweep)
    (hdeal : (worker setup.config h).deals.find? key = some proposal)
    (hreply : lastReply? h = some ⟨.dealSweep key, .dealInfo proposal, .ok info⟩)
    (hstate : info.state = .active)
  /-- The local miner serves its payload. -/
  | served {payload offer} (hpart : part? h = some .dealScan)
    (hpayload : (worker setup.config h).payload? key = some payload)
    (hdeal : key ∉ (worker setup.config h).deals.keys)
    (harrived : previousReply? h = some ⟨.dealScan key, .hasLocal payload.root, .ok true⟩)
    (hreply : lastReply? h =
      some ⟨.dealScan key, .offer setup.miner payload.root, .ok offer⟩)
    (hoffer : offer.isAvailable)

/-- A deal of the chain is found that the node did not make itself. -/
structure Finds (dealId : DealId) (deal : MarketDeal) : Prop where
  part : part? h = some .indexing
  reply : ∃ state, lastReply? h = some ⟨.indexing, .marketDeal dealId state, .ok deal⟩
  foreign : ∃ clientDeals, listed? h = some clientDeals ∧
    Indexing.isDealtLocally setup.miner clientDeals deal.proposal = false

/-- The ways in which the driver changes the state of the worker, but for the start of a deal. -/
inductive Changes : Worker → Prop where
  | takeOver : Changes (worker setup.config h)
  | addToPiece {dealId deal} (hfinds : Finds setup h dealId deal)
    (hmem : deal.proposal.piece ∈ (worker setup.config h).pieces.keys) :
    Changes { worker setup.config h with
      pieces := (worker setup.config h).pieces.modify deal.proposal.piece
        (·.add (.ofDeal dealId deal)) }
  | addPiece {dealId deal} (hfinds : Finds setup h dealId deal)
    (hmem : deal.proposal.piece ∉ (worker setup.config h).pieces.keys) :
    Changes { worker setup.config h with
      pieces := (worker setup.config h).pieces.insert deal.proposal.piece
        (.ofRecord (.ofDeal dealId deal)) }
  | advance {next head} (hpart : part? h = some .indexing)
    (hunderway : underway? h = some (worker setup.config h).cursor)
    (hhead : headEpoch? h = some head) (hlt : (worker setup.config h).cursor < head)
    (hnext : (worker setup.config h).cursor.next = .ok next) :
    Changes { worker setup.config h with cursor := next }
  | touchPiece {part} (key : Cid) (hpart : part? h = some part)
    (hwalk : part = .retrievalSweep ∨ part = .retrievalScan ∨ part = .dealScan) :
    Changes { worker setup.config h with pieces := (worker setup.config h).pieces.touch key }
  | forget {key} (hforgets : Forgets setup h key) :
    Changes { worker setup.config h with
      retrievals := (worker setup.config h).retrievals.erase key }
  | pend {key response} (hpends : Pends setup h key response) :
    Changes { worker setup.config h with
      retrievals := (worker setup.config h).retrievals.insert key response }
  | countTry {key index record failure tries} (hpart : part? h = some .retrievalScan)
    (hrecord : (worker setup.config h).record? key index = some record)
    (hreply : lastReply? h = some ⟨.retrievalScan key index,
      .query record.root record.provider, .error failure⟩)
    (htries : Retrieval.nextTry record.tries = .ok tries) :
    Changes { worker setup.config h with
      pieces := (worker setup.config h).pieces.modify key (·.setTries index tries) }
  | touchDeal (key : Cid) (hpart : part? h = some .dealSweep) :
    Changes { worker setup.config h with deals := (worker setup.config h).deals.touch key }
  | release {key} (hreleases : Releases setup h key) :
    Changes { worker setup.config h with deals := (worker setup.config h).deals.erase key }
  | drop {key} (hdrops : Drops setup h key) :
    Changes { worker setup.config h with pieces := (worker setup.config h).pieces.erase key }

/-- What the driver may do next. -/
def Conduct : Occurrence → Prop
  | .called purpose call => justStarted? h = none ∧ Asks setup h purpose call
  | .answered purpose call _ => h.head? = some (.called purpose call)
  | .became w =>
    match justStarted? h with
    | none => Changes setup h w
    | some (key, proposal) =>
      MayStart setup (worker setup.config h) key ∧
        w = { worker setup.config h with
          deals := (worker setup.config h).deals.insert key proposal }
  | .logged _ => True
  | .counted _ => True
  | .published stats => justStarted? h = none ∧ stats = (worker setup.config h).stats
  | .chose _ _ => justStarted? h = none
  | .looked _ => justStarted? h = none
  | .entered part => justStarted? h = none ∧ Begins setup h part
  | .brokeOff => justStarted? h = none ∧ Breaks h

/-- The contract that the driver conducts itself properly, whatever its surroundings supply. -/
def conduct : Contract where
  rely _ _ := True
  guarantee := Conduct setup

/-- The history shows the state of the worker, no deal was just started, and the containers are
bounded as configured. -/
structure Steady (w : Worker) (h : History) : Prop where
  worker_eq : worker setup.config h = w
  justStarted?_eq : justStarted? h = none
  capacity_pieces : w.pieces.capacity = setup.capacity
  capacity_retrievals : w.retrievals.capacity = setup.capacity
  capacity_deals : w.deals.capacity = setup.capacity

/-- Between two steps, and not while an epoch is indexed. -/
structure Settled (w : Worker) (h : History) : Prop extends Steady setup w h where
  idle : underway? h = none

/-- Between two ticks. -/
structure Resting (w : Worker) (h : History) : Prop extends Settled setup w h where
  part : part? h = none

end Conduct

section Between

variable {setup : Setup} {w w' : Worker} {h : History} {key : Cid}

/-- A piece with a payload is in the inventory. -/
lemma Worker.mem_keys_of_payload? {payload : PayloadRef}
    (hpayload : w.payload? key = some payload) :
    key ∈ w.pieces.keys := by
  obtain ⟨piece, hpiece, -⟩ := Option.bind_eq_some_iff.1 hpayload
  exact BoundedMap.mem_keys_of_find? hpiece

/-- A piece with a deal record is in the inventory. -/
lemma Worker.mem_keys_of_record? {index : Nat} {record : DealRecord}
    (hrecord : w.record? key index = some record) : key ∈ w.pieces.keys := by
  obtain ⟨piece, hpiece, -⟩ := Option.bind_eq_some_iff.1 hrecord
  exact BoundedMap.mem_keys_of_find? hpiece

/-- The part of the tick in which calls are made for a purpose. -/
def Purpose.part? : Purpose → Option Part
  | syncing => none
  | indexing => some .indexing
  | retrievalSweep _ => some .retrievalSweep
  | retrievalScan _ _ => some .retrievalScan
  | dealSweep _ => some .dealSweep
  | dealScan _ => some .dealScan

/-- A call is made in the part of the tick that its purpose belongs to. -/
lemma Asks.part?_eq {purpose : Purpose} {call : Call} (hasks : Asks setup h purpose call) :
    part? h = purpose.part? := by
  cases hasks <;> assumption

/-- A failed call is the start of no deal. -/
lemma startOf?_error (purpose : Purpose) (call : Call) (failure : Failure) :
    startOf? purpose call (.error failure) = none := by
  cases purpose <;> cases call <;> rfl

/-- A reply starts a deal only in the scan of the deal phase. -/
lemma dealScan_of_startOf? {purpose : Purpose} {call : Call} {reply : Reply call}
    {start : Cid × Cid} (hstart : startOf? purpose call reply = some start) :
    ∃ terms, purpose = .dealScan start.1 ∧ call = .startDeal terms := by
  unfold startOf? at hstart
  split at hstart
  · obtain rfl := Option.some.inj hstart
    exact ⟨_, rfl, rfl⟩
  · cases hstart

/-- Deals are released by the sweep of the deal phase. -/
lemma Releases.part?_eq (hreleases : Releases setup h key) : part? h = some .dealSweep := by
  cases hreleases <;> assumption

/-- Where no epoch is indexed, a reply to a call for something else than a tipset begins none. -/
lemma underway?_answered {purpose : Purpose} {call : Call} (reply : Reply call)
    (hcall : opens? call = none) (hidle : underway? h = none) :
    underway? (.answered purpose call reply :: .called purpose call :: h) = none := by
  cases reply with
  | error failure => rfl
  | ok answer =>
    change (opens? call).or (underway? h) = none
    rw [hcall, hidle, Option.or_none]

namespace Steady

/-- A report leaves the driver between two steps. -/
lemma logged (hs : Steady setup w h) (event : LogEvent) : Steady setup w (.logged event :: h) :=
  ⟨hs.1, hs.2, hs.3, hs.4, hs.5⟩

/-- A call and its reply leave the driver between two steps, unless a deal was started. -/
lemma answered (hs : Steady setup w h) (purpose : Purpose) (call : Call) (reply : Reply call)
    (hreply : startOf? purpose call reply = none) :
    Steady setup w (.answered purpose call reply :: .called purpose call :: h) :=
  ⟨hs.1, hreply, hs.3, hs.4, hs.5⟩

/-- After a call that failed the driver is between two steps and indexes no epoch. -/
lemma failed (hs : Steady setup w h) (purpose : Purpose) (call : Call) (failure : Failure) :
    Settled setup w (.answered purpose call (.error failure) :: .called purpose call :: h) :=
  ⟨hs.answered purpose call _ (startOf?_error purpose call failure), rfl⟩

/-- After a change that keeps the bounds the driver is between two steps, whatever it did before. -/
lemma became_after (hs : Steady setup w h) {h' : History}
    (hpieces : w'.pieces.capacity = w.pieces.capacity)
    (hretrievals : w'.retrievals.capacity = w.retrievals.capacity)
    (hdeals : w'.deals.capacity = w.deals.capacity) : Steady setup w' (.became w' :: h') :=
  ⟨rfl, rfl, hpieces.trans hs.3, hretrievals.trans hs.4, hdeals.trans hs.5⟩

/-- Between two steps the driver may make the calls that it makes. -/
lemma conduct_called (hs : Steady setup w h) {purpose : Purpose} {call : Call}
    (hasks : Asks setup h purpose call) : (conduct setup).guarantee h (.called purpose call) :=
  ⟨hs.justStarted?_eq, hasks⟩

/-- Between two steps the driver may change the state in the ways in which it does. -/
lemma conduct_became (hs : Steady setup w h) (hchanges : Changes setup h w') :
    (conduct setup).guarantee h (.became w') := by
  simpa only [conduct, Conduct, hs.justStarted?_eq] using hchanges

end Steady

namespace Settled

/-- A report leaves the driver between two steps. -/
lemma logged (hs : Settled setup w h) (event : LogEvent) : Settled setup w (.logged event :: h) :=
  ⟨hs.toSteady.logged event, hs.idle⟩

/-- A count leaves the driver between two steps. -/
lemma counted (hs : Settled setup w h) (counter : Counter) :
    Settled setup w (.counted counter :: h) :=
  ⟨⟨hs.1.1, hs.1.2, hs.1.3, hs.1.4, hs.1.5⟩, hs.idle⟩

/-- The beginning of a part leaves the driver between two steps. -/
lemma entered (hs : Settled setup w h) (part : Part) : Settled setup w (.entered part :: h) :=
  ⟨⟨hs.1.1, rfl, hs.1.3, hs.1.4, hs.1.5⟩, hs.idle⟩

/-- A look for a stop request leaves the driver between two steps. -/
lemma looked (hs : Settled setup w h) (answer : Bool) : Settled setup w (.looked answer :: h) :=
  ⟨⟨hs.1.1, rfl, hs.1.3, hs.1.4, hs.1.5⟩, hs.idle⟩

/-- A choice leaves the driver between two steps. -/
lemma chose (hs : Settled setup w h) {n : Nat} (choice : Fin n) :
    Settled setup w (.chose n choice :: h) :=
  ⟨⟨hs.1.1, rfl, hs.1.3, hs.1.4, hs.1.5⟩, hs.idle⟩

/-- A publication leaves the driver between two steps. -/
lemma published (hs : Settled setup w h) (stats : Stats) :
    Settled setup w (.published stats :: h) :=
  ⟨⟨hs.1.1, rfl, hs.1.3, hs.1.4, hs.1.5⟩, hs.idle⟩

/-- A call and its reply leave the driver between two steps, unless a deal was started or the
indexing of an epoch begins. -/
lemma answered (hs : Settled setup w h) (purpose : Purpose) (call : Call) (reply : Reply call)
    (hreply : startOf? purpose call reply = none) (hcall : opens? call = none) :
    Settled setup w (.answered purpose call reply :: .called purpose call :: h) :=
  ⟨hs.toSteady.answered purpose call reply hreply, underway?_answered reply hcall hs.idle⟩

/-- After a change that keeps the bounds the driver is between two steps, whatever it did since. -/
lemma became_after (hs : Settled setup w h) {h' : History} (hidle : underway? h' = none)
    (hpieces : w'.pieces.capacity = w.pieces.capacity)
    (hretrievals : w'.retrievals.capacity = w.retrievals.capacity)
    (hdeals : w'.deals.capacity = w.deals.capacity) : Settled setup w' (.became w' :: h') := by
  refine ⟨hs.toSteady.became_after hpieces hretrievals hdeals, ?_⟩
  rw [underway?, hidle]
  rfl

/-- After a change that keeps the bounds the driver is between two steps. -/
lemma became (hs : Settled setup w h) (w' : Worker)
    (hpieces : w'.pieces.capacity = w.pieces.capacity)
    (hretrievals : w'.retrievals.capacity = w.retrievals.capacity)
    (hdeals : w'.deals.capacity = w.deals.capacity) : Settled setup w' (.became w' :: h) :=
  hs.became_after hs.idle hpieces hretrievals hdeals

end Settled

end Between

end PieceReplication
