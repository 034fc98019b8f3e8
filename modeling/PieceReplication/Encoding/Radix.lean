/-!
# Byte strings and positional numerals

A byte string is a list of bytes. Text is stored as its UTF-8 bytes, and a byte string is text if
it is well-formed UTF-8.

Every text and word encoding of this library is a change of base: a byte string is a numeral in
base 256, its hexadecimal, base-32 and base-58 texts are numerals of the same number, and a
64-bit word is eight digits in base 256. `Radix.digits` writes a number with a fixed count of
digits, the most significant first, and `Radix.value` reads it back.
-/

namespace PieceReplication

/-- A string of bytes. -/
abbrev Bytes := List UInt8

/-- The bytes of a text. -/
def Bytes.ofText (text : String) : Bytes :=
  text.toUTF8.toList

/-- The text of a byte string, if it is well-formed. -/
def Bytes.text? (bytes : Bytes) : Option String :=
  String.fromUTF8? ⟨bytes.toArray⟩

namespace Radix

/-- The last `count` digits of `n` in `base`, the most significant first. -/
def digits (base : Nat) : (count n : Nat) → List Nat
  | 0, _ => []
  | count + 1, n => digits base count (n / base) ++ [n % base]

/-- The number that a numeral in `base` denotes. -/
def value (base : Nat) (numeral : List Nat) : Nat :=
  numeral.foldl (fun sum digit => sum * base + digit) 0

/-- The number that a byte string denotes, the first byte the most significant. -/
def ofBytes (bytes : Bytes) : Nat :=
  value 256 (bytes.map UInt8.toNat)

/-- The byte string of `count` bytes that denotes `n`, the first byte the most significant. -/
def toBytes (count n : Nat) : Bytes :=
  (digits 256 count n).map UInt8.ofNat

end Radix

end PieceReplication
