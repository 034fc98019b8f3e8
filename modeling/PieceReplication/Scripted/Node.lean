import PieceReplication.Lifecycle.Session
import PieceReplication.Random.Generator
import PieceReplication.Scripted.World

/-!
# The scripted node

A node that answers from a scripted world. A call first meets its fault, which is looked up under
the call's line and then under its method. A call that hangs keeps the failure of its fault, but is
answered, once released, from the world as it is then.
-/

namespace PieceReplication.Scripted

/-- The state of a scripted node. -/
structure Node where
  world : World
  /-- How many deals were started. -/
  started : Nat
  /-- The failure that awaits the hanging call. -/
  pending : Option Failure

namespace Node

/-- The node of a world in which nothing has happened. -/
def new (world : World) : Node :=
  ⟨world, 0, none⟩

/-- A failure with a single text. -/
def fail {α : Type} (text : String) : Except Failure α :=
  .error ⟨[text]⟩

/-- The key of a sector in the tables of sectors. -/
def sectorKey (miner : Address) (sector : SectorNumber) : String :=
  s!"{miner.text}/{sector.toNat}"

/-- The tipset of a height. -/
def tipsetAt (world : World) (height : Epoch) : Except Failure Tipset :=
  match world.tipsets.find? height.text with
  | none => .ok (plainTipset height)
  | some script =>
    match Tipset.ofKey? script.blocks (script.epoch.getD height) script.parents with
    | some tipset => .ok tipset
    | none => fail Tipset.noBlocks

/-- The identity of a miner that is set up. -/
def plainPeerId : String :=
  "peer"

/-- The answer to a call without a fault. Only a started deal changes the node. -/
def answer (node : Node) : (call : Call) → Reply call × Node
  | .chainHead => (.ok (plainTipset (node.world.head.getD 10)), node)
  | .tipsetAt height => (tipsetAt node.world height, node)
  | .parentMessages block => (.ok ((node.world.messages.find? block.text).getD []), node)
  | .preCommit miner sector _ =>
    (.ok ((node.world.preCommits.find? (sectorKey miner sector)).map fun dealIds =>
      ⟨sector, filler, 0, dealIds, 0, 0⟩), node)
  | .provenSector miner sector _ =>
    (.ok ((node.world.sectors.find? (sectorKey miner sector)).map fun dealIds =>
      ⟨sector, filler, dealIds, 0, 0⟩), node)
  | .marketDeal deal _ =>
    match node.world.marketDeals.find? (toString deal.toNat) with
    | some marketDeal => (.ok marketDeal, node)
    | none => (fail s!"deal {deal.toNat} not found", node)
  | .clientDeals => (.ok node.world.clientDeals, node)
  | .hasLocal root => (.ok (node.world.stored.contains root), node)
  | .query _ provider =>
    (.ok ⟨(node.world.queries.find? provider.text).getD .success, "", 0⟩, node)
  | .offer miner root =>
    (.ok ⟨(node.world.offers.find? root.text).getD "not found", root, 0, miner⟩, node)
  | .minerInfo miner => (.ok ⟨miner, miner, node.world.peerId.getD (some plainPeerId), 0⟩, node)
  | .startDeal _ =>
    match node.world.proposals[node.started]? with
    | some proposal => (.ok proposal, { node with started := node.started + 1 })
    | none => (fail "no proposal left", node)
  | .dealInfo proposal =>
    let (state, message) := (node.world.dealInfo.find? proposal.text).getD (none, none)
    (.ok ⟨proposal, state.getD .startDataTransfer, message.getD "", ⟨""⟩, filler, 0, 0⟩, node)
  | .syncState => (.ok ⟨node.world.syncs⟩, node)

/-- The reply to a call whose fault, if any, gives the failure. -/
def replyWith (node : Node) (failure : Option Failure) (call : Call) : Reply call × Node :=
  match failure with
  | some failure => (.error failure, node)
  | none => node.answer call

/-- The fault that a call meets. -/
def fault? (node : Node) (call : Call) : Option Fault :=
  (node.world.faults.find? call.line).or (node.world.faults.find? call.method)

/-- Meets a call. -/
def meet (node : Node) (call : Call) : Response call × Node :=
  match node.fault? call with
  | none =>
    let (reply, node) := node.answer call
    (.reply reply, node)
  | some fault =>
    match fault.panic with
    | some text => (.panic text, node)
    | none =>
      if fault.hang then (.hang, { node with pending := fault.failure })
      else
        let (reply, node) := node.replyWith fault.failure call
        (.reply reply, node)

/-- Replies to the call that hangs. -/
def release (node : Node) (call : Call) : Reply call × Node :=
  { node with pending := none }.replyWith node.pending call

/-- The node as surroundings, with the choice of providers under the text of a fixed seed. -/
def surroundings (seed : Option String) : Surroundings Node where
  call := meet
  release := release
  choose node n pos := (chooseProvider seed n pos, node)

end Node

end PieceReplication.Scripted
