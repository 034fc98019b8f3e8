import PieceReplication.Chain.Content
import PieceReplication.Chain.Message
import PieceReplication.Chain.Tipset
import PieceReplication.Deal.Market
import PieceReplication.Node.Sync

/-!
# A synthetic chain

On the synthetic chain every epoch has one block, named after its epoch, whose parent is the block
of the epoch before. Pieces, roots, messages and proposals are named by the hash of a telling text.
-/

namespace PieceReplication.Synthetic

/-- The miner that stands for the local one. -/
def localMiner : Address :=
  ⟨"f01000"⟩

/-- The client of every deal and the sender of every message. -/
def client : Address :=
  ⟨"f0100"⟩

/-- The root of the payload published for a piece. -/
def rootOf (piece : Cid) : Cid :=
  .ofContent (Bytes.ofText "root-" ++ piece.binary?.getD [])

/-- The block of an epoch. -/
def blockOf (epoch : Epoch) : Cid :=
  .ofText s!"block-{epoch.text}"

/-- The tipset of an epoch. The lowest epoch has none, since it has no parent. -/
def tipsetOf (epoch : Epoch) : Except Overflow Tipset := do
  let parent ← epoch.previous
  return ⟨blockOf epoch, [], epoch, ⟨[blockOf parent]⟩⟩

/-- The tipset of an epoch that may be unknown. -/
def tipsetOf? : Option Epoch → Except Overflow (Option Tipset)
  | none => .ok none
  | some epoch => do
    let tipset ← tipsetOf epoch
    return some tipset

/-- A sync from one epoch to another, either of which may be unknown. -/
def syncOf (base target : Option Epoch) : Except Overflow ActiveSync := do
  let base ← tipsetOf? base
  let target ← tipsetOf? target
  return ⟨base, target⟩

/-- The deal for a piece with a provider. -/
def marketDealOf (piece : Cid) (provider : Address) (sectorStart : Epoch) : MarketDeal where
  proposal :=
    { piece, pieceSize := 2048, verified := false, client, provider, label := ""
      startEpoch := 0, endEpoch := 100000 }
  state := { sectorStartEpoch := sectorStart, lastUpdatedEpoch := -1, slashEpoch := -1 }
  payload := ⟨rootOf piece, "expert"⟩

/-- The words for a sector that may be missing. -/
def sectorWords : Option SectorNumber → String
  | some sector => s!"Some({sector.toNat})"
  | none => "None"

/-- A prove-commit message to a provider. Without a sector its parameters are unreadable. -/
def proveCommitMessage (provider : Address) (sector : Option SectorNumber) : Message where
  cid := .ofText s!"prove-commit-{provider.text}-{sectorWords sector}"
  sender := client
  receiver := provider
  sequence := 0
  method := ProveCommit.methodNumber
  params :=
    match sector with
    | some sector => ProveCommit.encode ⟨sector, List.replicate 8 0⟩
    | none => [0xff, 0x00]

end PieceReplication.Synthetic
