import PieceReplication.Chain.Basic

/-!
# Tipsets

A tipset is a set of blocks of one epoch with the same parents. It always has a block: a tipset
is made by `Tipset.ofKey?`, which refuses the empty key, and the type keeps the first block
apart, since the parent messages of a tipset are asked for through it.
-/

namespace PieceReplication

/-- The identifiers of the blocks of a tipset in canonical order. The empty key stands for the
current head. -/
structure TipsetKey where
  cids : List Cid
  deriving DecidableEq

namespace TipsetKey

/-- The key that stands for the current head. -/
def empty : TipsetKey :=
  ⟨[]⟩

/-- Whether the key is the empty one. -/
def isEmpty (key : TipsetKey) : Bool :=
  key.cids.isEmpty

/-- The text of a key: its identifiers between braces, parted by commas. -/
def text (key : TipsetKey) : String :=
  "\x7b" ++ ",".intercalate (key.cids.map Cid.text) ++ "\x7d"

end TipsetKey

/-- A set of blocks of one epoch with the same parents. -/
structure Tipset where
  /-- The first block in canonical order. -/
  firstBlock : Cid
  /-- The blocks after the first one. -/
  laterBlocks : List Cid
  epoch : Epoch
  parents : TipsetKey
  deriving DecidableEq

namespace Tipset

/-- The tipset with the blocks of `key`; there is none without a block. -/
def ofKey? (key : TipsetKey) (epoch : Epoch) (parents : TipsetKey) : Option Tipset :=
  match key.cids with
  | [] => none
  | first :: later => some ⟨first, later, epoch, parents⟩

/-- The text of the error about a tipset without blocks. -/
def noBlocks : String :=
  "No blocks for tipset"

/-- The blocks of the tipset in canonical order. -/
def key (tipset : Tipset) : TipsetKey :=
  ⟨tipset.firstBlock :: tipset.laterBlocks⟩

end Tipset

end PieceReplication
