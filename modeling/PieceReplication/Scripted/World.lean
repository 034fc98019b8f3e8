import PieceReplication.Node.Call

/-!
# Scripted worlds

A scripted world says what a node answers to each call. Its tables are keyed by text: heights, deal
identifiers, or a miner and a sector parted by a slash. Whatever the script leaves out has a
default. A world is changed field by field; a change of a table adds, replaces and deletes entries,
and an empty change clears the table.
-/

namespace PieceReplication.Scripted

/-- A table keyed by text. -/
abbrev Table (α : Type) := List (String × α)

namespace Table

variable {α : Type}

/-- The entry of a key. -/
def find? (table : Table α) (key : String) : Option α :=
  (List.find? (fun entry => entry.1 == key) table).map Prod.snd

/-- The table with an entry replaced, or deleted if there is no new value. -/
def set (table : Table α) (entry : String × Option α) : Table α :=
  let others := table.filter fun other => other.1 != entry.1
  match entry.2 with
  | some value => (entry.1, value) :: others
  | none => others

/-- The table after a change. -/
def change (table : Table α) (entries : List (String × Option α)) : Table α :=
  if entries.isEmpty then [] else entries.foldl set table

end Table

/-- What goes wrong with a call. -/
structure Fault where
  /-- The call breaks its caller off. -/
  panic : Option String
  /-- The call waits to be released. -/
  hang : Bool
  /-- The call fails, after its release if it hangs. -/
  failure : Option Failure

/-- The tipset of a height. -/
structure TipsetScript where
  /-- The epoch of the tipset; the height itself if left out. -/
  epoch : Option Epoch
  blocks : TipsetKey
  parents : TipsetKey

/-- A world. -/
structure World where
  head : Option Epoch := none
  tipsets : Table TipsetScript := []
  messages : Table (List Message) := []
  preCommits : Table (List DealId) := []
  sectors : Table (List DealId) := []
  marketDeals : Table MarketDeal := []
  clientDeals : List ClientDeal := []
  stored : List Cid := []
  queries : Table QueryStatus := []
  offers : Table String := []
  /-- The peer identity of every miner; if left out, a real one. -/
  peerId : Option (Option String) := none
  proposals : List Cid := []
  dealInfo : Table (Option DealStatus × Option String) := []
  syncs : List ActiveSync := []
  faults : Table Fault := []

/-- A change of one field of a world. -/
inductive Change where
  | head (epoch : Option Epoch)
  | tipsets (entries : List (String × Option TipsetScript))
  | messages (entries : List (String × Option (List Message)))
  | preCommits (entries : List (String × Option (List DealId)))
  | sectors (entries : List (String × Option (List DealId)))
  | marketDeals (entries : List (String × Option MarketDeal))
  | clientDeals (deals : List ClientDeal)
  | stored (roots : List Cid)
  | queries (entries : List (String × Option QueryStatus))
  | offers (entries : List (String × Option String))
  | peerId (id : Option String)
  | proposals (cids : List Cid)
  | dealInfo (entries : List (String × Option (Option DealStatus × Option String)))
  | syncs (syncs : List ActiveSync)
  | faults (entries : List (String × Option Fault))

/-- The world after a change. -/
def World.apply (world : World) : Change → World
  | .head epoch => { world with head := epoch }
  | .tipsets entries => { world with tipsets := world.tipsets.change entries }
  | .messages entries => { world with messages := world.messages.change entries }
  | .preCommits entries => { world with preCommits := world.preCommits.change entries }
  | .sectors entries => { world with sectors := world.sectors.change entries }
  | .marketDeals entries => { world with marketDeals := world.marketDeals.change entries }
  | .clientDeals deals => { world with clientDeals := deals }
  | .stored roots => { world with stored := roots }
  | .queries entries => { world with queries := world.queries.change entries }
  | .offers entries => { world with offers := world.offers.change entries }
  | .peerId id => { world with peerId := some id }
  | .proposals cids => { world with proposals := cids }
  | .dealInfo entries => { world with dealInfo := world.dealInfo.change entries }
  | .syncs syncs => { world with syncs }
  | .faults entries => { world with faults := world.faults.change entries }

/-- The identifier that stands wherever a script has none. -/
def filler : Cid :=
  ⟨"bafkqabdgnfwgy"⟩

/-- The key of the filler alone. -/
def fillerKey : TipsetKey :=
  ⟨[filler]⟩

/-- The tipset of a script without blocks of its own. -/
def plainTipset (epoch : Epoch) : Tipset :=
  ⟨filler, [], epoch, fillerKey⟩

/-- A sync from one epoch to another, either of which may be unknown. -/
def syncOf (base target : Option Epoch) : ActiveSync :=
  ⟨base.map plainTipset, target.map plainTipset⟩

/-- A message to a provider. -/
def messageOf (cid : Cid) (receiver : Address) (method : Option UInt64) (params : Bytes) :
    Message where
  cid
  sender := receiver
  receiver
  sequence := 0
  method := method.getD ProveCommit.methodNumber
  params

/-- A deal on the chain. -/
def marketDealOf (piece root : Cid) (provider : Address) (expert : Option String)
    (start slash : Option Epoch) : MarketDeal where
  proposal :=
    { piece, pieceSize := 0, verified := false, client := provider, provider, label := ""
      startEpoch := 0, endEpoch := 0 }
  state :=
    { sectorStartEpoch := start.getD 100, lastUpdatedEpoch := -1
      slashEpoch := slash.getD (-1) }
  payload := ⟨root, expert.getD "expert"⟩

/-- A deal of the node for a piece. -/
def clientDealOf (piece : Cid) (state : DealStatus) : ClientDeal :=
  ⟨filler, state, "", ⟨""⟩, piece, 0, 0⟩

end PieceReplication.Scripted
