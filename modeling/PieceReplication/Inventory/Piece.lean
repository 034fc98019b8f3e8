import PieceReplication.Deal.Market

/-!
# Pieces of interest

A piece of interest is known by the deals that store it with other providers, in the order in
which they were found, each deal once. The payload of a piece is that of its first deal.
-/

namespace PieceReplication

/-- A deal that stores a piece with some other provider. -/
structure DealRecord where
  dealId : DealId
  proposal : DealProposal
  payload : PayloadRef
  state : DealState
  /-- How many retrieval queries to this deal's provider have failed. -/
  tries : UInt64
  deriving DecidableEq

namespace DealRecord

/-- The record of a deal that was never queried. -/
def ofDeal (dealId : DealId) (deal : MarketDeal) : DealRecord :=
  ⟨dealId, deal.proposal, deal.payload, deal.state, 0⟩

/-- Who stores the piece under this deal. -/
def provider (record : DealRecord) : Address :=
  record.proposal.provider

/-- The root of the payload published with this deal. -/
def root (record : DealRecord) : Cid :=
  record.payload.root

/-- Whether the provider should be able to serve the piece: the deal has an identifier and is
active. -/
def isRetrievable (record : DealRecord) : Bool :=
  0 < record.dealId && record.state.isActive

end DealRecord

/-- A piece of interest: every known deal that stores it. -/
structure Piece where
  records : List DealRecord
  deriving DecidableEq

namespace Piece

/-- A piece that is known by one deal. -/
def ofRecord (record : DealRecord) : Piece :=
  ⟨[record]⟩

/-- Whether a deal is known to store the piece. -/
def containsDeal (piece : Piece) (dealId : DealId) : Bool :=
  piece.records.any fun record => record.dealId == dealId

/-- The piece with one more deal, unless that deal is known already. -/
def add (piece : Piece) (record : DealRecord) : Piece :=
  if piece.containsDeal record.dealId then piece else ⟨piece.records ++ [record]⟩

/-- The payload of the piece: that of its first deal. -/
def payload? (piece : Piece) : Option PayloadRef :=
  piece.records.head?.map DealRecord.payload

/-- The indices of the deals under which the piece can be retrieved. -/
def retrievable (piece : Piece) : List (Fin piece.records.length) :=
  (List.finRange piece.records.length).filter fun i => piece.records[i].isRetrievable

/-- The piece with another count of failed queries for the deal at an index. -/
def setTries (piece : Piece) (index : Nat) (tries : UInt64) : Piece :=
  ⟨piece.records.modify index fun record => { record with tries }⟩

end Piece

end PieceReplication
