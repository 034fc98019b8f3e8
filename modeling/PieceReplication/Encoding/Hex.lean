import PieceReplication.Encoding.Radix

/-!
# Hexadecimal text

Two lower-case digits a byte, the high half first. Reading accepts upper-case digits as well and
refuses an odd count of digits and every other character.
-/

namespace PieceReplication.Hex

/-- The digits in the order of their values. -/
def alphabet : List Char :=
  "0123456789abcdef".toList

/-- The text of a byte string. -/
def encode (bytes : Bytes) : String :=
  String.ofList <| bytes.flatMap fun byte =>
    (Radix.digits 16 2 byte.toNat).map (alphabet.getD · '0')

/-- The value of a digit of either case. -/
def digitValue? (c : Char) : Option Nat :=
  alphabet.idxOf? c.toLower

/-- Reads the digits two by two. -/
def decodeDigits : List Char → Option Bytes
  | [] => some []
  | [_] => none
  | high :: low :: rest => do
    let h ← digitValue? high
    let l ← digitValue? low
    let bytes ← decodeDigits rest
    return UInt8.ofNat (16 * h + l) :: bytes

/-- The byte string that a text denotes. -/
def decode (text : String) : Option Bytes :=
  decodeDigits text.toList

end PieceReplication.Hex
