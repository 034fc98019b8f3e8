import PieceReplication.Encoding.Radix

/-!
# Base-32 and base-58 text

A base-32 text cuts the bits of the bytes, taken in order, into groups of five, the last one
filled up with zeros. A base-58 text is the number that the bytes denote, with one leading `1` for
each leading zero byte.
-/

namespace PieceReplication

/-- The values of the characters of a text in an alphabet. -/
def alphabetValues? (alphabet : List Char) (text : List Char) : Option (List Nat) :=
  text.mapM fun c => alphabet.idxOf? c

namespace Base32

/-- The digits in the order of their values. -/
def alphabet : List Char :=
  "abcdefghijklmnopqrstuvwxyz234567".toList

/-- The text of a byte string. -/
def encode (bytes : Bytes) : String :=
  let count := (8 * bytes.length + 4) / 5
  let number := Radix.ofBytes bytes <<< (5 * count - 8 * bytes.length)
  String.ofList ((Radix.digits 32 count number).map (alphabet.getD · 'a'))

/-- The byte string of a text. Bits that fill no byte are dropped. -/
def decode? (text : List Char) : Option Bytes := do
  let values ← alphabetValues? alphabet text
  let count := 5 * values.length / 8
  return Radix.toBytes count (Radix.value 32 values >>> (5 * values.length - 8 * count))

end Base32

namespace Base58

/-- The digits in the order of their values. -/
def alphabet : List Char :=
  "123456789ABCDEFGHJKLMNPQRSTUVWXYZabcdefghijkmnopqrstuvwxyz".toList

/-- The count of bytes that a number needs, none for zero. -/
def byteLength (n : Nat) : Nat :=
  if n = 0 then 0 else n.log2 / 8 + 1

/-- The byte string of a text. -/
def decode? (text : List Char) : Option Bytes := do
  let values ← alphabetValues? alphabet text
  let number := Radix.value 58 values
  return List.replicate (values.takeWhile (· == 0)).length 0 ++
    Radix.toBytes (byteLength number) number

end Base58

end PieceReplication
