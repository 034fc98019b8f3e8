import PieceReplication.Schedule.Execution

/-!
# Traces

What a trace, taken in the order in which it happened, shows of a run: the calls, the reported
events, the counts, and the figures published last.
-/

namespace PieceReplication

/-- Every counter, in the order in which they are listed. -/
def Counter.all : List Counter :=
  [.dealsStarted, .retrievalQueryFailures, .phaseErrors .index, .phaseErrors .retrieve,
   .phaseErrors .deal]

namespace Trace

/-- The calls that were made, in order. -/
def calls (trace : List Occurrence) : List Call :=
  trace.filterMap fun
    | .called _ call => some call
    | _ => none

/-- The events that were reported, in order. -/
def events (trace : List Occurrence) : List LogEvent :=
  trace.filterMap fun
    | .logged event => some event
    | _ => none

/-- How often a counter was counted. -/
def tally (trace : List Occurrence) (counter : Counter) : Nat :=
  (trace.filterMap fun
    | .counted counted => some counted
    | _ => none).count counter

/-- The figures that were published last, if any were. -/
def lastStats? (trace : List Occurrence) : Option Stats :=
  trace.reverse.findSome? fun
    | .published stats => some stats
    | _ => none

end Trace

end PieceReplication
