import PieceReplication.Chain.Basic

/-!
# Retrieval queries

What a provider answers when it is asked whether it will serve a payload, and the offer of a single
miner.
-/

namespace PieceReplication

/-- The verdict of a provider on a retrieval query. -/
inductive QueryStatus where
  | success
  | unavailable
  | error
  deriving DecidableEq

namespace QueryStatus

/-- The name of a verdict. -/
def text : QueryStatus → String
  | success => "Success"
  | unavailable => "Unavailable"
  | error => "Error"

/-- The verdict of a name. -/
def ofText? (name : String) : Option QueryStatus :=
  [success, unavailable, error].find? fun status => status.text == name

end QueryStatus

/-- The answer of a provider to a retrieval query. -/
structure QueryResponse where
  status : QueryStatus
  message : String
  size : UInt64
  deriving DecidableEq

/-- The retrieval offer of a miner. -/
structure Offer where
  /-- Why the miner cannot serve the payload; empty if it can. -/
  err : String
  root : Cid
  size : UInt64
  miner : Address
  deriving DecidableEq

/-- Whether the miner serves the payload. -/
def Offer.isAvailable (offer : Offer) : Bool :=
  offer.err.isEmpty

end PieceReplication
