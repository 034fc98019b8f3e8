import PieceReplication.Chain.Tipset

/-!
# Sync state

A sync brings the node from a base tipset to a target. The node is catching up while the target of
some sync lies above its base; a missing base counts as epoch zero and a missing target as no gap.
The syncs are looked at in order up to the first positive gap, so an overflow after it is never
met.
-/

namespace PieceReplication

/-- A sync in progress. -/
structure ActiveSync where
  base : Option Tipset
  target : Option Tipset
  deriving DecidableEq

/-- The number of epochs from the base of a sync to its target. -/
def ActiveSync.heightGap (sync : ActiveSync) : Except Overflow Epoch :=
  match sync.target with
  | some target => target.epoch.gap (sync.base.elim 0 Tipset.epoch)
  | none => .ok 0

/-- The syncs of the node. -/
structure SyncStatus where
  syncs : List ActiveSync
  deriving DecidableEq

/-- Whether some sync of a list has epochs left. -/
def ActiveSync.isSomeAhead : List ActiveSync → Except Overflow Bool
  | [] => .ok false
  | sync :: rest => do
    if 0 < (← sync.heightGap) then return true
    isSomeAhead rest

/-- Whether the node is catching up. -/
def SyncStatus.isCatchingUp (status : SyncStatus) : Except Overflow Bool :=
  ActiveSync.isSomeAhead status.syncs

end PieceReplication
