import PieceReplication.Chain.Message
import PieceReplication.Chain.Sector
import PieceReplication.Deal.Client
import PieceReplication.Deal.Market
import PieceReplication.Deal.Retrieval
import PieceReplication.Node.Sync

/-!
# The node

The replicator talks to its node through fourteen calls. `Call` lists them with their arguments,
`Call.Answer` gives the type of each answer, and a `Reply` is an answer or a failure. A failure is
a chain of texts, the outermost first. A phase of a tick that is given up because of one is given
up with a `PhaseError`.
-/

namespace PieceReplication

/-- Why a call failed: a text and the texts of its causes in turn. -/
structure Failure where
  chain : List String
  deriving DecidableEq

/-- The text of a failure: its whole chain, parted by colons. -/
def Failure.message (failure : Failure) : String :=
  ": ".intercalate failure.chain

/-- Why a phase of a tick was given up. -/
inductive PhaseError where
  /-- A read of the chain failed while indexing. -/
  | chainQuery (failure : Failure)
  /-- Any other call of the node failed. -/
  | transport (failure : Failure)
  /-- The local miner has no identity of its own yet. -/
  | minerNotInitialized
  deriving DecidableEq

/-- The text of a phase error. -/
def PhaseError.message : PhaseError → String
  | chainQuery failure => s!"chain query failed: {failure.message}"
  | transport failure => s!"node API call failed: {failure.message}"
  | minerNotInitialized => "the miner hasn't initialized yet"

/-- A call of the node. -/
inductive Call where
  /-- The head of the chain. -/
  | chainHead
  /-- The tipset of a height; for a height without one, a tipset of another epoch. -/
  | tipsetAt (height : Epoch)
  /-- The messages of the parents of a block. -/
  | parentMessages (block : Cid)
  /-- The record of a sector that is not proved yet. -/
  | preCommit (miner : Address) (sector : SectorNumber) (state : TipsetKey)
  /-- The record of a proved sector. -/
  | provenSector (miner : Address) (sector : SectorNumber) (state : TipsetKey)
  /-- A deal on the chain. -/
  | marketDeal (deal : DealId) (state : TipsetKey)
  /-- The deals that the node made as a client. -/
  | clientDeals
  /-- Whether the node stores a payload. -/
  | hasLocal (root : Cid)
  /-- Whether a provider will serve a payload. -/
  | query (root : Cid) (provider : Address)
  /-- The retrieval offer of a miner. -/
  | offer (miner : Address) (root : Cid)
  /-- What the chain knows about a miner. -/
  | minerInfo (miner : Address)
  /-- Propose a deal; the answer identifies the proposal. -/
  | startDeal (terms : DealTerms)
  /-- The state of a deal that the node proposed. -/
  | dealInfo (proposal : Cid)
  /-- The syncs in progress. -/
  | syncState
  deriving DecidableEq

namespace Call

/-- The type of the answer to a call. -/
abbrev Answer : Call → Type
  | chainHead => Tipset
  | tipsetAt _ => Tipset
  | parentMessages _ => List Message
  | preCommit _ _ _ => Option PreCommit
  | provenSector _ _ _ => Option ProvenSector
  | marketDeal _ _ => MarketDeal
  | clientDeals => List ClientDeal
  | hasLocal _ => Bool
  | query _ _ => QueryResponse
  | offer _ _ => Offer
  | minerInfo _ => MinerInfo
  | startDeal _ => Cid
  | dealInfo _ => ClientDeal
  | syncState => SyncStatus

/-- The name of the method that a call uses. -/
def method : Call → String
  | chainHead => "chain_head"
  | tipsetAt _ => "chain_get_tipset_by_height"
  | parentMessages _ => "chain_get_parent_messages"
  | preCommit _ _ _ => "state_sector_precommit_info"
  | provenSector _ _ _ => "state_sector_get_info"
  | marketDeal _ _ => "state_market_storage_deal"
  | clientDeals => "client_list_deals"
  | hasLocal _ => "client_has_local"
  | query _ _ => "client_query"
  | offer _ _ => "client_miner_query_offer"
  | minerInfo _ => "state_miner_info"
  | startDeal _ => "client_start_deal"
  | dealInfo _ => "client_get_deal_info"
  | syncState => "sync_state"

/-- The arguments of a call as words. -/
def arguments : Call → List String
  | chainHead | clientDeals | syncState => []
  | tipsetAt height => [height.text]
  | parentMessages block => [block.text]
  | preCommit miner sector state | provenSector miner sector state =>
    [miner.text, toString sector.toNat, state.text]
  | marketDeal deal state => [toString deal.toNat, state.text]
  | hasLocal root => [root.text]
  | query root provider => [root.text, provider.text]
  | offer miner root => [miner.text, root.text]
  | minerInfo miner => [miner.text]
  | startDeal terms =>
    [terms.miner.text, terms.root.text, terms.transfer.text, terms.piece.elim "-" Cid.text,
     toString terms.pieceSize.toNat, terms.wallet.elim "-" Address.text,
     toString terms.fastRetrieval, toString terms.verified, terms.expert]
  | dealInfo proposal => [proposal.text]

/-- A call as one line: its method and its arguments. -/
def line (call : Call) : String :=
  " ".intercalate (call.method :: call.arguments)

end Call

/-- What comes back from a call. -/
abbrev Reply (call : Call) :=
  Except Failure call.Answer

end PieceReplication
