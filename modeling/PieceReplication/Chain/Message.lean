import PieceReplication.Chain.Basic
import PieceReplication.Encoding.Cbor

/-!
# Messages

The parts of a chain message that the indexer looks at, and the identifier it is reported under.

A provider proves a sector by a message whose parameters are an array of two items: the number of
the sector and the proof. `ProveCommit.decode?` reads them and accepts nothing after them.
-/

namespace PieceReplication

/-- The parameters of a prove-commit message. -/
structure ProveCommit where
  sector : SectorNumber
  proof : Bytes
  deriving DecidableEq

namespace ProveCommit

/-- The number of the method that proves a sector. -/
def methodNumber : UInt64 := 7

/-- Reads the parameters from the whole of a byte string. -/
def decode? (input : Bytes) : Option ProveCommit := do
  let (size, rest) ← Cbor.head? Cbor.arrayKind input
  guard (size = 2)
  let (sector, rest) ← Cbor.head? Cbor.unsignedKind rest
  let (proof, rest) ← Cbor.bytes? rest
  guard (rest = [])
  return ⟨UInt64.ofNat sector, proof⟩

/-- Writes the parameters. -/
def encode (params : ProveCommit) : Bytes :=
  Cbor.head Cbor.arrayKind 2 ++ Cbor.head Cbor.unsignedKind params.sector.toNat ++
    (Cbor.head Cbor.bytesKind params.proof.length ++ params.proof)

end ProveCommit

/-- A chain message with its identifier. -/
structure Message where
  cid : Cid
  sender : Address
  receiver : Address
  sequence : UInt64
  method : UInt64
  params : Bytes
  deriving DecidableEq

namespace Message

/-- Whether the message proves a sector. -/
def isProveCommit (message : Message) : Bool :=
  message.method == ProveCommit.methodNumber

end Message

end PieceReplication
