import PieceReplication.Chain.Basic

/-!
# Configuration

The settings of the replication loop and their defaults. The two caps are soft bounds on work in
flight, and the capacity, which is never zero, bounds the inventory and both sets of pending work.
-/

namespace PieceReplication

/-- A bound on the number of entries of a container, never zero. -/
abbrev Capacity := { n : UInt64 // n ≠ 0 }

/-- The settings of the replication loop. -/
structure Config where
  /-- The pause between two ticks, in milliseconds. -/
  loopWait : Nat := 10000
  /-- The soft cap on pieces with a retrieval in flight. -/
  retrieveParallel : UInt64 := 16
  /-- The soft cap on deals that are started and not yet active. -/
  dealParallel : UInt64 := 16
  /-- The count of failed queries to a provider above which each failure is reported. -/
  retrieveTryMax : UInt64 := 50
  /-- The first epoch that is indexed. -/
  scanStart : Epoch := 10
  /-- The bound on the inventory and on both sets of pending work. -/
  inventoryCapacity : Capacity := ⟨1000000, by decide⟩
  /-- Whether indexing pauses while the node is syncing. -/
  pauseWhileSyncing : Bool := false
  deriving DecidableEq

namespace Config

/-- The configuration in which every setting has its default. -/
def standard : Config :=
  {}

/-- The capacity of a number, if it is not zero. -/
def capacity? (n : UInt64) : Option Capacity :=
  if h : n ≠ 0 then some ⟨n, h⟩ else none

/-- A pause of whole seconds. -/
def ofSeconds (seconds : UInt64) : Nat :=
  1000 * seconds.toNat

end Config

end PieceReplication
