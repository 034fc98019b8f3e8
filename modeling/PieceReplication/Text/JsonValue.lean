/-!
# JSON values

The values that a configuration document is made of. A number written with a fraction or an
exponent is kept apart from an integer, since no setting accepts it.
-/

namespace PieceReplication

/-- A JSON value. -/
inductive JsonValue where
  | null
  | bool (b : Bool)
  | integer (n : Int)
  /-- A number that is not written as an integer. -/
  | fraction
  | string (s : String)
  | array (items : List JsonValue)
  | object (fields : List (String × JsonValue))
  deriving Inhabited

namespace JsonValue

/-- The value of the last field of the given name. -/
def field? (fields : List (String × JsonValue)) (name : String) : Option JsonValue :=
  (fields.reverse.find? fun entry => entry.1 == name).map Prod.snd

/-- The value as an unsigned number of 64 bits. -/
def uint64? : JsonValue → Option UInt64
  | integer n => if 0 ≤ n ∧ n < UInt64.size then some (UInt64.ofNat n.toNat) else none
  | _ => none

/-- The value as a signed number of 64 bits. -/
def int64? : JsonValue → Option Int64
  | integer n =>
    if Int64.minValue.toInt ≤ n ∧ n ≤ Int64.maxValue.toInt then some (Int64.ofInt n) else none
  | _ => none

/-- The value as a truth value. -/
def bool? : JsonValue → Option Bool
  | bool b => some b
  | _ => none

end JsonValue

end PieceReplication
