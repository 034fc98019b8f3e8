import PieceReplication.Chain.Basic

/-!
# Deals on the chain

A deal as the market actor of the chain records it: its proposal, its state and the payload that
was published with it. A deal is active once its piece is in a proved sector.
-/

namespace PieceReplication

/-- The proposal of a deal. -/
structure DealProposal where
  piece : Cid
  pieceSize : UInt64
  verified : Bool
  client : Address
  provider : Address
  label : String
  startEpoch : Epoch
  endEpoch : Epoch
  deriving DecidableEq

/-- What the market actor notes about a published deal. -/
structure DealState where
  /-- When the deal's sector was proved, negative if it was not. -/
  sectorStartEpoch : Epoch := 0
  /-- When the state was last updated, negative if never. -/
  lastUpdatedEpoch : Epoch := 0
  /-- When the deal was slashed, negative if never. -/
  slashEpoch : Epoch := 0
  deriving DecidableEq

/-- Whether the deal is in a proved sector. -/
def DealState.isActive (state : DealState) : Bool :=
  0 < state.sectorStartEpoch

/-- The payload that was published with a deal. -/
structure PayloadRef where
  /-- The root of the payload. -/
  root : Cid
  expert : String
  deriving DecidableEq

/-- A deal on the chain. -/
structure MarketDeal where
  proposal : DealProposal
  state : DealState
  payload : PayloadRef
  deriving DecidableEq

end PieceReplication
