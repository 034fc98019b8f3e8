import PieceReplication.Chain.Basic

/-!
# Sectors and miners

What the chain knows about a sector before and after it is proved, and about a miner.
-/

namespace PieceReplication

/-- The record of a sector whose proof is still awaited. -/
structure PreCommit where
  sector : SectorNumber
  sealedCid : Cid
  sealRandEpoch : Epoch
  dealIds : List DealId
  expiration : Epoch
  preCommitEpoch : Epoch
  deriving DecidableEq

/-- The record of a proved sector. -/
structure ProvenSector where
  sector : SectorNumber
  sealedCid : Cid
  dealIds : List DealId
  activation : Epoch
  expiration : Epoch
  deriving DecidableEq

/-- What the chain knows about a miner. -/
structure MinerInfo where
  owner : Address
  worker : Address
  /-- The network identity of the miner, if it has one. -/
  peerId : Option String
  sectorSize : UInt64
  deriving DecidableEq

namespace MinerInfo

/-- The network identity that a miner shows before it is set up. -/
def placeholderPeerId : String :=
  "SETME"

/-- Whether the miner has published an identity of its own, and so can be dealt with. -/
def isInitialized (info : MinerInfo) : Bool :=
  match info.peerId with
  | some id => id != placeholderPeerId
  | none => false

end MinerInfo

end PieceReplication
