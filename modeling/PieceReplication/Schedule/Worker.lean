import PieceReplication.Deal.Retrieval
import PieceReplication.Inventory.BoundedMap
import PieceReplication.Inventory.Piece

/-!
# The worker

The state that the replication loop carries from tick to tick: how far the chain is indexed, the
inventory of pieces of interest, the retrievals that are pending, and the deals that were started
and are not active yet. All three containers are keyed by piece and share one capacity.
-/

namespace PieceReplication

/-- What stays fixed while the replicator lives. -/
structure Setup where
  /-- The local miner, with which new deals are made. -/
  miner : Address
  config : Config
  /-- The text that fixes the seed of the provider choice, if there is one. -/
  seed : Option String

/-- The state of the replication loop. -/
structure Worker where
  /-- The next epoch to index. -/
  cursor : Epoch
  /-- The pieces of interest. -/
  pieces : BoundedMap Piece
  /-- The last answer for each piece whose retrieval is pending. -/
  retrievals : BoundedMap QueryResponse
  /-- The proposal of the last deal started for each piece. -/
  deals : BoundedMap Cid

/-- The cursor and the sizes of the three containers. -/
structure Stats where
  cursor : Epoch
  pieces : Nat
  retrievals : Nat
  deals : Nat
  deriving DecidableEq

namespace Worker

/-- The state before the first tick. -/
def fresh (config : Config) : Worker where
  cursor := config.scanStart
  pieces := .empty config.inventoryCapacity
  retrievals := .empty config.inventoryCapacity
  deals := .empty config.inventoryCapacity

/-- The figures of a state. -/
def stats (worker : Worker) : Stats :=
  ⟨worker.cursor, worker.pieces.size, worker.retrievals.size, worker.deals.size⟩

end Worker

end PieceReplication
