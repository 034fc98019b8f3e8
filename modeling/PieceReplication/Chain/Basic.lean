/-!
# Identifiers and epochs

Identifiers of content and addresses are compared by their canonical text, so the text is all that
is kept of them. The binary form of an identifier is needed only to derive identifiers from content,
and is computed in `PieceReplication.Chain.Content`.

An epoch is a height of the chain. Epochs are signed 64-bit numbers and their arithmetic is
checked: a result outside that range is an `Overflow`, never a wrapped number. `Epoch.next`,
`Epoch.previous` and `Epoch.gap` are the only three sums that the library forms, and
`Epoch.stepsTo` counts how often `next` has to be taken to reach another epoch.
-/

namespace PieceReplication

/-- The identifier of a piece of content. -/
structure Cid where
  /-- The canonical text. -/
  text : String
  deriving DecidableEq

/-- The address of an actor of the chain: a miner, a client or a wallet. -/
structure Address where
  /-- The canonical text. -/
  text : String
  deriving DecidableEq

/-- A height of the chain. -/
abbrev Epoch := Int64

/-- The identifier of a storage deal on the chain. -/
abbrev DealId := UInt64

/-- The number of a sector of a storage provider. -/
abbrev SectorNumber := UInt64

/-- The operation whose result left the range of its type. -/
inductive Overflow where
  | add
  | subtract
  deriving DecidableEq

/-- The text under which an overflow is reported. -/
def Overflow.message : Overflow → String
  | .add => "attempt to add with overflow"
  | .subtract => "attempt to subtract with overflow"

namespace Epoch

/-- The epoch with the given number, if the number fits. -/
def ofInt? (n : Int) : Option Epoch :=
  if Int64.minValue.toInt ≤ n ∧ n ≤ Int64.maxValue.toInt then some (Int64.ofInt n) else none

/-- The epoch after this one. -/
def next (e : Epoch) : Except Overflow Epoch :=
  match ofInt? (e.toInt + 1) with
  | some following => .ok following
  | none => .error .add

/-- The epoch before this one. -/
def previous (e : Epoch) : Except Overflow Epoch :=
  match ofInt? (e.toInt - 1) with
  | some preceding => .ok preceding
  | none => .error .subtract

/-- The number of epochs from `base` up to `target`, negative if `target` lies below. -/
def gap (target base : Epoch) : Except Overflow Epoch :=
  match ofInt? (target.toInt - base.toInt) with
  | some difference => .ok difference
  | none => .error .subtract

/-- How many epochs lie in the half-open range from `start` to `stop`: none if `stop` is not
above `start`. -/
def stepsTo (start stop : Epoch) : Nat :=
  (stop.toInt - start.toInt).toNat

/-- The decimal text of an epoch. -/
def text (e : Epoch) : String :=
  toString e.toInt

end Epoch

end PieceReplication
