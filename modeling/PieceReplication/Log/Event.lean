import PieceReplication.Node.Call

/-!
# Log events

Everything the library reports while it works is a `LogEvent`. An event has a level, a target,
which is the part of the program it comes from, and a message; all three are functions of the
event.
-/

namespace PieceReplication

/-- The severity of an event. -/
inductive LogLevel where
  | error
  | warn
  | info
  | debug
  deriving DecidableEq

namespace LogLevel

/-- The name of a level. -/
def text : LogLevel → String
  | error => "ERROR"
  | warn => "WARN"
  | info => "INFO"
  | debug => "DEBUG"

/-- The least verbosity that shows the level. -/
def rank : LogLevel → Nat
  | error => 1
  | warn => 2
  | info => 3
  | debug => 4

end LogLevel

/-- The part of the program that an event comes from. -/
inductive LogTarget where
  | driver
  | indexing
  | retrieval
  | dealing
  | randomness
  | environment
  deriving DecidableEq

/-- The path under which a target is selected. -/
def LogTarget.path : LogTarget → String
  | driver => "forest_replicator::replicator"
  | indexing => "forest_replicator::replicator::indexer"
  | retrieval => "forest_replicator::replicator::retrieval"
  | dealing => "forest_replicator::replicator::deal"
  | randomness => "forest_replicator::utils::rand"
  | environment => "forest_replicator::utils::misc::env"

/-- Where a prove-commit message was found: the height being indexed, and the parent tipset that
the message and its deals are looked up in. -/
structure Site where
  height : Epoch
  parents : TipsetKey
  deriving DecidableEq

/-- The words that locate a site. -/
def Site.text (site : Site) : String :=
  s!"parent tipset {site.parents.text} of height {site.height.text}"

/-- An event that is reported. -/
inductive LogEvent where
  /-- The driver begins. -/
  | started (cursor : Epoch)
  /-- The driver ends. -/
  | stopped (cursor : Epoch)
  /-- Indexing is skipped because the node is syncing. -/
  | catchingUp
  /-- The sync state could not be read. -/
  | syncFailed (error : PhaseError)
  /-- The index phase was given up. -/
  | indexFailed (error : PhaseError)
  /-- The retrieval phase was given up. -/
  | retrieveFailed (error : PhaseError)
  /-- The deal phase was given up. -/
  | dealFailed (error : PhaseError)
  /-- A prove-commit message has unreadable parameters. -/
  | undecodable (message : Cid) (site : Site)
  /-- A proved sector is not known to the chain. -/
  | unknownSector (sector : SectorNumber) (miner : Address) (site : Site)
  /-- A deal needs no replication. -/
  | dealtLocally (piece : Cid) (deal : DealId) (site : Site)
  /-- A deal is known to store its piece already. -/
  | duplicateDeal (miner : Address) (deal : DealId) (height : Epoch)
  /-- No more retrievals are asked for. -/
  | retrievalsFull (pending : Nat)
  /-- A provider answered a retrieval query. -/
  | queried (provider : Address) (root : Cid) (tries : UInt64) (status : QueryStatus)
  /-- A retrieval query failed. -/
  | queryFailed (provider : Address) (root : Cid) (tries : UInt64) (failure : Failure)
  /-- A provider failed more often than the configured limit. -/
  | triesExceeded (provider : Address) (limit : UInt64) (root : Cid)
  /-- The deal for a piece became active. -/
  | replicated (piece proposal : Cid)
  /-- The deal for a piece will never become active. -/
  | dealEnded (piece proposal : Cid) (state : DealStatus) (message : String)
  /-- No more deals are started. -/
  | dealsFull (pending : Nat)
  /-- The local miner serves a piece already. -/
  | alreadyServed (miner : Address) (root piece : Cid)
  /-- A deal could not be started. -/
  | startFailed (piece : Cid) (failure : Failure)
  /-- A deal was started. -/
  | dealStarted (miner : Address) (piece proposal : Cid)
  /-- A provider is chosen with a fixed seed. -/
  | seedUsed (seed : UInt64)
  /-- The fixed seed is unreadable. -/
  | seedInvalid (value : String)
  /-- A setting is taken from the environment. -/
  | settingUsed (name value : String)
  /-- A setting in the environment is unreadable or out of bounds. -/
  | settingInvalid (name value : String)
  deriving DecidableEq

/-- The environment variable with the seed of the provider choice. -/
def seedVariable : String :=
  "FOREST_TEST_RNG_FIXED_SEED"

namespace LogEvent

/-- The severity of an event. -/
def level : LogEvent → LogLevel
  | started _ | stopped _ | retrievalsFull _ | queried .. | replicated .. | dealEnded ..
  | dealsFull _ | dealStarted .. | settingUsed .. => .info
  | catchingUp | dealtLocally .. | duplicateDeal .. | alreadyServed .. | seedUsed _ => .debug
  | syncFailed _ | indexFailed _ | dealFailed _ | startFailed .. => .error
  | retrieveFailed _ | undecodable .. | unknownSector .. | queryFailed .. | triesExceeded ..
  | seedInvalid _ | settingInvalid .. => .warn

/-- The part of the program that an event comes from. -/
def target : LogEvent → LogTarget
  | started _ | stopped _ | catchingUp | syncFailed _ | indexFailed _ | retrieveFailed _
  | dealFailed _ => .driver
  | undecodable .. | unknownSector .. | dealtLocally .. | duplicateDeal .. => .indexing
  | retrievalsFull _ | queried .. | queryFailed .. | triesExceeded .. => .retrieval
  | replicated .. | dealEnded .. | dealsFull _ | alreadyServed .. | startFailed ..
  | dealStarted .. => .dealing
  | seedUsed _ | seedInvalid _ => .randomness
  | settingUsed .. | settingInvalid .. => .environment

/-- The message of an event. -/
def message : LogEvent → String
  | started cursor => s!"replicator started at epoch {cursor.text}"
  | stopped cursor => s!"replicator stopped at epoch {cursor.text}"
  | catchingUp => "node is catching up, skipping chain indexing"
  | syncFailed error => s!"failed to read sync state: {error.message}"
  | indexFailed error => s!"failed to check chain data: {error.message}"
  | retrieveFailed error => s!"failed to retrieve data: {error.message}"
  | dealFailed error => s!"failed to deal chain data: {error.message}"
  | undecodable message site =>
    s!"failed to decode prove-commit {message.text} in {site.text}: <decode error>"
  | unknownSector sector miner site =>
    s!"no pre-commit or sector info for sector {sector.toNat} of miner {miner.text} in " ++
      site.text
  | dealtLocally piece deal site =>
    s!"ignore miner dealed piece {piece.text}, deal id {deal.toNat}, {site.text}"
  | duplicateDeal miner deal height =>
    s!"miner {miner.text} stored duplicate deal {deal.toNat} at height {height.text}"
  | retrievalsFull pending => s!"wait for retrieval: {pending}"
  | queried provider root tries status =>
    s!"client retrieve miner: {provider.text}, data: {root.text}, try: {tries.toNat}, " ++
      s!"status: {status.text}"
  | queryFailed provider root tries failure =>
    s!"failed to retrieve miner: {provider.text}, data: {root.text}, try: {tries.toNat}, " ++
      s!"err: {failure.message}"
  | triesExceeded provider limit root =>
    s!"provider {provider.text} exceeded {limit.toNat} retrieval attempts for {root.text}"
  | replicated piece proposal => s!"piece {piece.text} replicated by deal {proposal.text}"
  | dealEnded piece proposal state message =>
    s!"deal {proposal.text} for piece {piece.text} ended in state {state.text}: {message}"
  | dealsFull pending => s!"wait for deal: {pending}"
  | alreadyServed miner root piece =>
    s!"miner {miner.text} already serves {root.text}, dropping piece {piece.text}"
  | startFailed piece failure =>
    s!"failed to start deal for piece {piece.text}: {failure.message}"
  | dealStarted miner piece proposal =>
    s!"start deal with miner: {miner.text} piece: {piece.text} deal: {proposal.text}"
  | seedUsed seed => s!"using test RNG with fixed seed {seed.toNat} set by {seedVariable}"
  | seedInvalid value =>
    s!"invalid u64 seed set by {seedVariable}: {value}. Falling back to the default RNG."
  | settingUsed name value => s!"Using {value} set by {name}"
  | settingInvalid name value =>
    s!"Invalid {name} value {value}. Falling back to the default."

/-- An event as one line: its level and its message. -/
def line (event : LogEvent) : String :=
  s!"{event.level.text} {event.message}"

end LogEvent

end PieceReplication
