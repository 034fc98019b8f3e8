/-!
# Integers written in text

The text of an integer is an optional sign and at least one decimal digit, leading zeros allowed.
Unsigned numbers take `+` only, signed ones also `-`. The reader of a type refuses a number
outside its 64 bits.
-/

namespace PieceReplication.Integer

/-- Whether a character is one of the ten decimal digits. -/
def isDigit (c : Char) : Bool :=
  '0' ≤ c && c ≤ '9'

/-- The number that a list of digits denotes. -/
def digitsValue (digits : List Char) : Nat :=
  digits.foldl (fun sum c => 10 * sum + (c.toNat - 48)) 0

/-- Reads one or more digits and nothing else. -/
def digits? (text : List Char) : Option Nat :=
  if text ≠ [] ∧ text.all isDigit then some (digitsValue text) else none

/-- Reads digits behind an optional `+`. -/
def unsigned? : List Char → Option Nat
  | '+' :: rest => digits? rest
  | text => digits? text

/-- Reads digits behind an optional sign. -/
def signed? : List Char → Option Int
  | '-' :: rest => (digits? rest).map fun n => -(n : Int)
  | text => (unsigned? text).map Int.ofNat

/-- Reads an unsigned number of 64 bits. -/
def uint64? (text : String) : Option UInt64 := do
  let n ← unsigned? text.toList
  if n < UInt64.size then some (UInt64.ofNat n) else none

/-- Reads a signed number of 64 bits. -/
def int64? (text : String) : Option Int64 := do
  let n ← signed? text.toList
  if Int64.minValue.toInt ≤ n ∧ n ≤ Int64.maxValue.toInt then some (Int64.ofInt n) else none

end PieceReplication.Integer
