import PieceReplication.Chain.Basic
import PieceReplication.Log.Event

/-!
# Log spans

Every event of a replicator lies in the span of its driver. A span has a name, a target, a level
and a field, which holds the miner. An event has no field but its message.
-/

namespace PieceReplication

/-- The span of a driver. -/
structure LogSpan where
  miner : Address
  deriving DecidableEq

/-- The name of the field of an event. -/
def LogEvent.field : String :=
  "message"

namespace LogSpan

/-- The name of the span. -/
def name : String :=
  "replicator"

/-- The part of the program that the span comes from. -/
def target : LogTarget :=
  .driver

/-- The level of the span. -/
def level : LogLevel :=
  .info

/-- The name of the field of the span. -/
def field : String :=
  "miner"

/-- The value of the field of the span. -/
def value (span : LogSpan) : String :=
  span.miner.text

/-- The span as it is written before the messages of its events. -/
def mark (span : LogSpan) : String :=
  name ++ "\x7b" ++ field ++ "=" ++ span.value ++ "\x7d"

end LogSpan

end PieceReplication
