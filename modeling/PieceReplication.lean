import PieceReplication.Chain.Basic
import PieceReplication.Chain.Content
import PieceReplication.Chain.Message
import PieceReplication.Chain.Sector
import PieceReplication.Chain.Tipset
import PieceReplication.Deal.Client
import PieceReplication.Deal.Market
import PieceReplication.Deal.Retrieval
import PieceReplication.Deal.Status
import PieceReplication.Encoding.Cbor
import PieceReplication.Encoding.Hex
import PieceReplication.Encoding.Multibase
import PieceReplication.Encoding.Radix
import PieceReplication.Hash.Blake2b
import PieceReplication.Inventory.BoundedMap
import PieceReplication.Inventory.Piece
import PieceReplication.Lifecycle.Driver
import PieceReplication.Lifecycle.Replicator
import PieceReplication.Lifecycle.Session
import PieceReplication.Log.Console
import PieceReplication.Log.Directive
import PieceReplication.Log.Event
import PieceReplication.Log.Filter
import PieceReplication.Log.Span
import PieceReplication.Metrics.Exposition
import PieceReplication.Node.Call
import PieceReplication.Node.Sync
import PieceReplication.Proofs.Admission.Caps
import PieceReplication.Proofs.Chain.Canonical
import PieceReplication.Proofs.Chain.Epochs
import PieceReplication.Proofs.Chain.Parameters
import PieceReplication.Proofs.Conduct.Abreast
import PieceReplication.Proofs.Conduct.Basic
import PieceReplication.Proofs.Conduct.Dealing
import PieceReplication.Proofs.Conduct.Indexing
import PieceReplication.Proofs.Conduct.Invariant
import PieceReplication.Proofs.Conduct.Retrieval
import PieceReplication.Proofs.Conduct.Tally
import PieceReplication.Proofs.Conduct.Tick
import PieceReplication.Proofs.Conduct.Work
import PieceReplication.Proofs.Dealing.Idempotence
import PieceReplication.Proofs.Dealing.Meaning
import PieceReplication.Proofs.Dealing.Publication
import PieceReplication.Proofs.Dealing.Sweep
import PieceReplication.Proofs.Dealing.Tracking
import PieceReplication.Proofs.Dealing.Uniqueness
import PieceReplication.Proofs.Dealing.Vetting
import PieceReplication.Proofs.Encoding.Heads
import PieceReplication.Proofs.Encoding.Numerals
import PieceReplication.Proofs.Encoding.Overhead
import PieceReplication.Proofs.Encoding.Strings
import PieceReplication.Proofs.Indexing.Cursor
import PieceReplication.Proofs.Indexing.Increments
import PieceReplication.Proofs.Indexing.Irrelevance
import PieceReplication.Proofs.Indexing.Meaning
import PieceReplication.Proofs.Indexing.Refinement
import PieceReplication.Proofs.Indexing.Resumption
import PieceReplication.Proofs.Indexing.Walk
import PieceReplication.Proofs.Inventory.Keeping
import PieceReplication.Proofs.Inventory.LeastRecent
import PieceReplication.Proofs.Inventory.Lookup
import PieceReplication.Proofs.Inventory.Recency
import PieceReplication.Proofs.Inventory.Rotation
import PieceReplication.Proofs.Inventory.Selection
import PieceReplication.Proofs.Inventory.Uncounted
import PieceReplication.Proofs.Inventory.WellFormed
import PieceReplication.Proofs.Lifecycle.Course
import PieceReplication.Proofs.Lifecycle.Figures
import PieceReplication.Proofs.Lifecycle.Interruption
import PieceReplication.Proofs.Lifecycle.Lockstep
import PieceReplication.Proofs.Lifecycle.Pace
import PieceReplication.Proofs.Lifecycle.Parallel
import PieceReplication.Proofs.Lifecycle.Restarts
import PieceReplication.Proofs.Lifecycle.Safety
import PieceReplication.Proofs.Lifecycle.Ticks
import PieceReplication.Proofs.Lifecycle.WindingDown
import PieceReplication.Proofs.Node.Gaps
import PieceReplication.Proofs.Phases.Counters
import PieceReplication.Proofs.Phases.Frames
import PieceReplication.Proofs.Phases.Isolation
import PieceReplication.Proofs.Phases.Order
import PieceReplication.Proofs.Phases.Pausing
import PieceReplication.Proofs.Phases.Rotation
import PieceReplication.Proofs.Phases.Rounds
import PieceReplication.Proofs.Phases.Turns
import PieceReplication.Proofs.Phases.Work
import PieceReplication.Proofs.Random.Provider
import PieceReplication.Proofs.Random.Uniform
import PieceReplication.Proofs.Retrieval.Failures
import PieceReplication.Proofs.Retrieval.Meaning
import PieceReplication.Proofs.Retrieval.Queries
import PieceReplication.Proofs.Retrieval.Roots
import PieceReplication.Proofs.Retrieval.Sweep
import PieceReplication.Proofs.Retrieval.Tracking
import PieceReplication.Proofs.Run.Abreast
import PieceReplication.Proofs.Run.Contract
import PieceReplication.Proofs.Run.Execution
import PieceReplication.Proofs.Run.History
import PieceReplication.Proofs.Run.Life
import PieceReplication.Proofs.Run.Outcome
import PieceReplication.Proofs.Run.Reach
import PieceReplication.Proofs.Run.Replies
import PieceReplication.Proofs.Run.Seen
import PieceReplication.Proofs.Run.Session
import PieceReplication.Proofs.Run.Stopping
import PieceReplication.Proofs.Run.Turns
import PieceReplication.Proofs.Run.Walks
import PieceReplication.Proofs.Settings.Overlay
import PieceReplication.Proofs.Settings.RoundTrip
import PieceReplication.Proofs.Text.Integers
import PieceReplication.Random.ChaCha
import PieceReplication.Random.Generator
import PieceReplication.Schedule.Activity
import PieceReplication.Schedule.Dealing
import PieceReplication.Schedule.Execution
import PieceReplication.Schedule.Indexing
import PieceReplication.Schedule.Program
import PieceReplication.Schedule.Retrieval
import PieceReplication.Schedule.Tick
import PieceReplication.Schedule.Trace
import PieceReplication.Schedule.Worker
import PieceReplication.Scripted.Node
import PieceReplication.Scripted.World
import PieceReplication.Settings.Config
import PieceReplication.Settings.Document
import PieceReplication.Settings.Environment
import PieceReplication.Synthetic.Chain
import PieceReplication.Synthetic.Node
import PieceReplication.Text.CharClass
import PieceReplication.Text.CharSet
import PieceReplication.Text.Integer
import PieceReplication.Text.JsonValue
import PieceReplication.Text.Pattern.Basic
import PieceReplication.Text.Pattern.Reader
import PieceReplication.Text.Pattern.Sign
