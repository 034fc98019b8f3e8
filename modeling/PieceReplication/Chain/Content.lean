import PieceReplication.Chain.Basic
import PieceReplication.Encoding.Multibase
import PieceReplication.Hash.Blake2b

/-!
# Identifiers derived from content

`Cid.ofContent` names a byte string by its hash: a version, a codec and a hash function, each a
number in a variable-length form, the length of the digest, the digest itself, and the whole in
base 32 behind the letter `b`. `Cid.binary?` goes back from the text of an identifier to its
binary form, also for the older texts in base 58, whose binary form is the hash alone.
-/

namespace PieceReplication.Cid

/-- The bytes before the digest: version 1, the codec for linked binary objects, the hash function
BLAKE2b of 32 bytes, and that length. -/
def contentHeader : Bytes :=
  [0x01, 0x71, 0xa0, 0xe4, 0x02, 0x20]

/-- The identifier of a byte string. -/
def ofContent (content : Bytes) : Cid :=
  ⟨"b" ++ Base32.encode (contentHeader ++ Blake2b.digest 32 content)⟩

/-- The identifier of a text. -/
def ofText (text : String) : Cid :=
  ofContent (Bytes.ofText text)

/-- The binary form of an identifier, if its text is well-formed. -/
def binary? (cid : Cid) : Option Bytes :=
  match cid.text.toList with
  | 'b' :: digits => Base32.decode? digits
  | digits => Base58.decode? digits

end PieceReplication.Cid
