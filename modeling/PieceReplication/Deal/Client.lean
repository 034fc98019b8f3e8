import PieceReplication.Chain.Basic
import PieceReplication.Deal.Status

/-!
# Deals of the local node

The terms under which the node proposes a deal as a client, and what it reports about a deal it
has proposed.
-/

namespace PieceReplication

/-- How the payload of a deal reaches the miner. -/
inductive TransferType where
  | graphSync
  | manual
  deriving DecidableEq

/-- The name of a transfer type. -/
def TransferType.text : TransferType → String
  | graphSync => "graphsync"
  | manual => "manual"

/-- The terms of a deal that the node is asked to propose. -/
structure DealTerms where
  transfer : TransferType
  /-- The root of the payload. -/
  root : Cid
  /-- The piece, if the client computed it. -/
  piece : Option Cid
  pieceSize : UInt64
  expert : String
  /-- The paying wallet; the default one if absent. -/
  wallet : Option Address
  miner : Address
  fastRetrieval : Bool
  verified : Bool
  deriving DecidableEq

/-- What the node reports about a deal that it proposed. -/
structure ClientDeal where
  proposal : Cid
  state : DealStatus
  message : String
  provider : Address
  piece : Cid
  size : UInt64
  dealId : DealId
  deriving DecidableEq

end PieceReplication
