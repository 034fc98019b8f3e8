import PieceReplication.Schedule.Trace

/-!
# Metrics

The counters and the published figures of a run are exposed as text. A metric appears with its
first use, in the order of first uses; it is written as a line of help, a line with its type, and
its samples. The phase errors are one metric with a sample for each phase, in the order of the
phases' names.
-/

namespace PieceReplication

/-- A metric that is exposed. -/
inductive Metric where
  | scanCursor
  | inventoryPieces
  | pendingRetrievals
  | pendingDeals
  | dealsStarted
  | retrievalQueryFailures
  | phaseErrors
  deriving DecidableEq

namespace Metric

/-- The name of a metric. -/
def name : Metric → String
  | scanCursor => "replicator_scan_cursor"
  | inventoryPieces => "replicator_inventory_pieces"
  | pendingRetrievals => "replicator_pending_retrievals"
  | pendingDeals => "replicator_pending_deals"
  | dealsStarted => "replicator_deals_started"
  | retrievalQueryFailures => "replicator_retrieval_query_failure"
  | phaseErrors => "replicator_phase_error"

/-- What a metric says. -/
def help : Metric → String
  | scanCursor => "Next chain epoch to be indexed"
  | inventoryPieces => "Number of pieces of interest awaiting replication"
  | pendingRetrievals => "Number of pieces with a retrieval in flight"
  | pendingDeals => "Number of deals started by the replicator that are not active yet"
  | dealsStarted => "Total number of storage deals started against the local miner"
  | retrievalQueryFailures => "Total number of failed retrieval queries"
  | phaseErrors => "Total number of failed driver phases by phase"

/-- The metric of a counter. -/
def ofCounter : Counter → Metric
  | .dealsStarted => dealsStarted
  | .retrievalQueryFailures => retrievalQueryFailures
  | .phaseErrors _ => phaseErrors

/-- The metrics that an occurrence uses, in order. -/
def used : Occurrence → List Metric
  | .counted counter => [ofCounter counter]
  | .published _ => [scanCursor, inventoryPieces, pendingRetrievals, pendingDeals]
  | _ => []

/-- Whether a metric only grows. -/
def isCounter : Metric → Bool
  | dealsStarted | retrievalQueryFailures | phaseErrors => true
  | _ => false

end Metric

/-- The name of a phase. -/
def Phase.text : Phase → String
  | index => "index"
  | retrieve => "retrieve"
  | deal => "deal"

namespace Exposition

open Trace

/-- The metrics that were used in a run, in the order of their first use. -/
def metrics (trace : List Occurrence) : List Metric :=
  (trace.flatMap Metric.used).foldl (fun seen metric =>
    if metric ∈ seen then seen else seen ++ [metric]) []

/-- A count as a gauge shows it: at most the highest signed number of 64 bits. -/
def gauge (n : Nat) : String :=
  toString (min n Int64.maxValue.toNatClampNeg)

/-- The samples of the phase errors, phases without an error left out. -/
def phaseSamples (trace : List Occurrence) : List String :=
  [Phase.deal, Phase.index, Phase.retrieve].filterMap fun phase =>
    let count := tally trace (.phaseErrors phase)
    if count = 0 then none
    else some (Metric.phaseErrors.name ++ "_total\x7bphase=\"" ++ phase.text ++ "\"\x7d " ++
      toString count)

/-- The samples of a metric. -/
def samples (trace : List Occurrence) : Metric → List String
  | .phaseErrors => phaseSamples trace
  | .dealsStarted =>
    [Metric.dealsStarted.name ++ "_total " ++ toString (tally trace .dealsStarted)]
  | .retrievalQueryFailures =>
    [Metric.retrievalQueryFailures.name ++ "_total " ++
      toString (tally trace .retrievalQueryFailures)]
  | .scanCursor =>
    (lastStats? trace).toList.map fun stats =>
      Metric.scanCursor.name ++ " " ++ stats.cursor.text
  | .inventoryPieces =>
    (lastStats? trace).toList.map fun stats =>
      Metric.inventoryPieces.name ++ " " ++ gauge stats.pieces
  | .pendingRetrievals =>
    (lastStats? trace).toList.map fun stats =>
      Metric.pendingRetrievals.name ++ " " ++ gauge stats.retrievals
  | .pendingDeals =>
    (lastStats? trace).toList.map fun stats =>
      Metric.pendingDeals.name ++ " " ++ gauge stats.deals

/-- The lines of a metric. -/
def metricLines (trace : List Occurrence) (metric : Metric) : List String :=
  [s!"# HELP {metric.name} {metric.help}.",
   s!"# TYPE {metric.name} " ++ if metric.isCounter then "counter" else "gauge"] ++
    samples trace metric

/-- The lines of all metrics that were used in a run, in order. -/
def lines (trace : List Occurrence) : List String :=
  (metrics trace).flatMap (metricLines trace) ++ ["# EOF"]

end Exposition

end PieceReplication
