import PieceReplication.Lifecycle.Session
import PieceReplication.Random.Generator
import PieceReplication.Synthetic.Chain

/-!
# The synthetic node

A node over the synthetic chain. It is set up by naming null rounds, failures, sectors with their
deals, stored payloads and so on; it takes deal proposals and tracks their states; and it remembers
every call, every retrieval query and every proposal that it was asked for.
-/

namespace PieceReplication.Synthetic

/-- A deal that was proposed to the node. -/
structure ProposedDeal where
  proposal : Cid
  terms : DealTerms
  state : DealStatus

/-- What the node reports about a deal that was proposed to it. -/
def ProposedDeal.info (deal : ProposedDeal) : ClientDeal :=
  { proposal := deal.proposal, state := deal.state, message := "", provider := deal.terms.miner
    piece := deal.terms.piece.getD deal.terms.root, size := deal.terms.pieceSize, dealId := 0 }

/-- The state of a synthetic node. -/
structure Node where
  head : Epoch
  nullRounds : List Epoch := []
  failingTipsets : List Epoch := []
  /-- Whether the head is never answered. -/
  isHeadHanging : Bool := false
  /-- The messages found through each block. -/
  messages : List (Cid × Message) := []
  /-- The deals of each sector, the sector set last first. -/
  sectors : List ((Address × SectorNumber) × List DealId) := []
  droppedPreCommits : List (Address × SectorNumber) := []
  /-- The deals on the chain, the one set last first. -/
  marketDeals : List (DealId × MarketDeal) := []
  clientDeals : List ClientDeal := []
  stored : List Cid := []
  isStoreFailing : Bool := false
  /-- The verdicts of providers, the one set last first. -/
  queryStatuses : List (Address × QueryStatus) := []
  failingProviders : List Address := []
  /-- The retrieval queries so far, failed ones included. -/
  queries : List (Cid × Address) := []
  /-- The roots that the local miner offers. -/
  offers : List Cid := []
  peerId : Option String := some "12D3KooWGzxzKZYveHXtpG6AsrUJBcWxHBFS2HsEoGTxrMLvKXtf"
  /-- The deals that were started, in order. -/
  deals : List ProposedDeal := []
  /-- The roots for which no deal can be started. -/
  failingStarts : List Cid := []
  syncs : List ActiveSync := []
  /-- The methods of the calls so far, the latest first. -/
  methods : List String := []

namespace Node

/-! ### Setting the node up -/

/-- Makes the tipset of a height fail to load. -/
def failTipset (height : Epoch) (node : Node) : Node :=
  { node with failingTipsets := height :: node.failingTipsets }

/-- Lets the tipset of a height load again. -/
def healTipset (height : Epoch) (node : Node) : Node :=
  { node with failingTipsets := node.failingTipsets.filter (· != height) }

/-- Puts a message behind the block of an epoch, after those that are there. -/
def addMessage (epoch : Epoch) (message : Message) (node : Node) : Node :=
  { node with messages := node.messages ++ [(blockOf epoch, message)] }

/-- Proves a sector of a provider at an epoch, with its deals and their pieces. -/
def addProveCommit (epoch : Epoch) (provider : Address) (sector : SectorNumber)
    (deals : List (DealId × Cid × Epoch)) (node : Node) : Node :=
  let marketDeals := deals.foldl (fun known (dealId, piece, start) =>
    (dealId, marketDealOf piece provider start) :: known) node.marketDeals
  { node with
    marketDeals
    sectors := ((provider, sector), deals.map Prod.fst) :: node.sectors }.addMessage epoch
      (proveCommitMessage provider (some sector))

/-- Makes a deal of the node known that it did not start here. -/
def addClientDeal (piece : Cid) (state : DealStatus) (node : Node) : Node :=
  let deal : ClientDeal :=
    { proposal := .ofText s!"local-deal-{node.clientDeals.length}", state, message := ""
      provider := ⟨"f04000"⟩, piece, size := 2048, dealId := 0 }
  { node with clientDeals := node.clientDeals ++ [deal] }

/-- Takes a proposed deal to a state; an unknown proposal changes nothing. -/
def setDealState (proposal : Cid) (state : DealStatus) (node : Node) : Node :=
  { node with deals := node.deals.map fun deal =>
      if deal.proposal = proposal then { deal with state } else deal }

/-! ### Answering calls -/

/-- A failure with a single text. -/
def fail {α : Type} (text : String) : Except Failure α :=
  .error ⟨[text]⟩

/-- The first epoch from the given one on that is no null round. -/
def skipNullRounds (nullRounds : List Epoch) (epoch : Epoch) : Except Overflow Epoch :=
  if h : epoch ∈ nullRounds then
    match epoch.next with
    | .error cause => .error cause
    | .ok next =>
      have := List.length_erase_of_mem h
      have := List.length_pos_of_mem h
      skipNullRounds (nullRounds.erase epoch) next
  else .ok epoch
termination_by nullRounds.length

/-- The response to a call whose answer needs checked arithmetic. -/
def checked {call : Call} : Except Overflow (Reply call) → Response call
  | .ok reply => .reply reply
  | .error cause => .panic cause.message

/-- The tipset of a height: that of the next epoch with a block. -/
def tipsetAt (node : Node) (height : Epoch) : Except Overflow (Except Failure Tipset) :=
  if height ∈ node.failingTipsets then .ok (fail s!"failed to load tipset at {height.text}")
  else if node.head < height then .ok (fail s!"height {height.text} is in the future")
  else do
    let epoch ← skipNullRounds node.nullRounds height
    let tipset ← tipsetOf epoch
    return .ok tipset

/-- The deals of a sector. -/
def sectorDeals? (node : Node) (miner : Address) (sector : SectorNumber) : Option (List DealId) :=
  node.sectors.lookup (miner, sector)

/-- The identifier under which every sector is sealed. -/
def sealedCid : Cid :=
  .ofText "sealed"

/-- The record of a sector that is not proved yet. -/
def preCommit? (node : Node) (miner : Address) (sector : SectorNumber) : Option PreCommit :=
  if (miner, sector) ∈ node.droppedPreCommits then none
  else
    (node.sectorDeals? miner sector).map fun dealIds =>
      { sector, sealedCid, sealRandEpoch := 0, dealIds, expiration := 100000
        preCommitEpoch := 0 }

/-- The record of a proved sector. -/
def provenSector? (node : Node) (miner : Address) (sector : SectorNumber) :
    Option ProvenSector :=
  (node.sectorDeals? miner sector).map fun dealIds =>
    { sector, sealedCid, dealIds, activation := 0, expiration := 100000 }

/-- The response to a retrieval query. -/
def query (node : Node) (provider : Address) : Except Failure QueryResponse :=
  if provider ∈ node.failingProviders then fail s!"failed to dial {provider.text}"
  else .ok ⟨(node.queryStatuses.lookup provider).getD .success, "", 2048⟩

/-- The offer of a miner. -/
def offer (node : Node) (miner : Address) (root : Cid) : Offer :=
  { err := if root ∈ node.offers then "" else "retrieval query offer errored: not found"
    root, size := 2048, miner }

/-- Starts a deal. -/
def startDeal (node : Node) (terms : DealTerms) : Except Failure Cid × Node :=
  if terms.root ∈ node.failingStarts then
    (fail s!"deal proposal rejected by {terms.miner.text}", node)
  else
    let proposal := Cid.ofText s!"proposal-{node.deals.length}"
    (.ok proposal, { node with deals := node.deals ++ [⟨proposal, terms, .startDataTransfer⟩] })

/-- What the node reports about a proposal. -/
def dealInfo (node : Node) (proposal : Cid) : Except Failure ClientDeal :=
  match node.deals.find? fun deal => deal.proposal == proposal with
  | some deal => .ok deal.info
  | none => fail s!"unknown deal {proposal.text}"

/-- The response to a call that has been noted. -/
def answer (node : Node) : (call : Call) → Response call × Node
  | .chainHead =>
    if node.isHeadHanging then (.hang, node)
    else (checked ((tipsetOf node.head).map Except.ok), node)
  | .tipsetAt height => (checked (node.tipsetAt height), node)
  | .parentMessages block =>
    (.reply (.ok ((node.messages.filter fun entry => entry.1 == block).map Prod.snd)), node)
  | .preCommit miner sector _ => (.reply (.ok (node.preCommit? miner sector)), node)
  | .provenSector miner sector _ => (.reply (.ok (node.provenSector? miner sector)), node)
  | .marketDeal deal _ =>
    match node.marketDeals.lookup deal with
    | some marketDeal => (.reply (.ok marketDeal), node)
    | none => (.reply (fail s!"deal {deal.toNat} not found"), node)
  | .clientDeals => (.reply (.ok node.clientDeals), node)
  | .hasLocal root =>
    (.reply (if node.isStoreFailing then fail "blockstore unavailable"
      else .ok (node.stored.contains root)), node)
  | .query root provider =>
    (.reply (node.query provider), { node with queries := node.queries ++ [(root, provider)] })
  | .offer miner root => (.reply (.ok (node.offer miner root)), node)
  | .minerInfo miner => (.reply (.ok ⟨miner, miner, node.peerId, 2048⟩), node)
  | .startDeal terms =>
    let (reply, node) := node.startDeal terms
    (.reply reply, node)
  | .dealInfo proposal => (.reply (node.dealInfo proposal), node)
  | .syncState => (.reply (.ok ⟨node.syncs⟩), node)

/-- Notes a call and meets it. -/
def meet (node : Node) (call : Call) : Response call × Node :=
  { node with methods := call.method :: node.methods }.answer call

/-- How often a method has been called. -/
def callCount (node : Node) (method : String) : Nat :=
  node.methods.count method

/-- The node as surroundings, with the choice of providers under the text of a fixed seed. The
head, which alone may hang, is never released. -/
def surroundings (seed : Option String) : Surroundings Node where
  call := meet
  release node _ := (fail "never released", node)
  choose node n pos := (chooseProvider seed n pos, node)

end Node

end PieceReplication.Synthetic
