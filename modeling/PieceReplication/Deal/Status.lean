/-!
# Deal states

The states that the node reports for a deal it made as a client, in the order of their numbers.
Four of them are terminal failures: a deal in such a state will never become active, and its piece
may be dealt again.
-/

namespace PieceReplication

/-- The state of a client's deal. -/
inductive DealStatus where
  | unknown
  | proposalNotFound
  | proposalRejected
  | proposalAccepted
  | staged
  | sealing
  | finalizing
  | active
  | expired
  | slashed
  | rejecting
  | failing
  | fundsReserved
  | checkForAcceptance
  | validating
  | acceptWait
  | startDataTransfer
  | transferring
  | waitingForData
  | verifyData
  | reserveProviderFunds
  | reserveClientFunds
  | providerFunding
  | clientFunding
  | publish
  | publishing
  | error
  | providerTransferAwaitRestart
  | clientTransferRestart
  | awaitingPreCommit
  deriving DecidableEq

namespace DealStatus

/-- Every state, in the order of their numbers. -/
def all : List DealStatus :=
  [unknown, proposalNotFound, proposalRejected, proposalAccepted, staged, sealing, finalizing,
   active, expired, slashed, rejecting, failing, fundsReserved, checkForAcceptance, validating,
   acceptWait, startDataTransfer, transferring, waitingForData, verifyData, reserveProviderFunds,
   reserveClientFunds, providerFunding, clientFunding, publish, publishing, error,
   providerTransferAwaitRestart, clientTransferRestart, awaitingPreCommit]

/-- The number of a state. -/
def number (status : DealStatus) : Nat :=
  all.idxOf status

/-- The name of a state. -/
def text : DealStatus → String
  | unknown => "Unknown"
  | proposalNotFound => "ProposalNotFound"
  | proposalRejected => "ProposalRejected"
  | proposalAccepted => "ProposalAccepted"
  | staged => "Staged"
  | sealing => "Sealing"
  | finalizing => "Finalizing"
  | active => "Active"
  | expired => "Expired"
  | slashed => "Slashed"
  | rejecting => "Rejecting"
  | failing => "Failing"
  | fundsReserved => "FundsReserved"
  | checkForAcceptance => "CheckForAcceptance"
  | validating => "Validating"
  | acceptWait => "AcceptWait"
  | startDataTransfer => "StartDataTransfer"
  | transferring => "Transferring"
  | waitingForData => "WaitingForData"
  | verifyData => "VerifyData"
  | reserveProviderFunds => "ReserveProviderFunds"
  | reserveClientFunds => "ReserveClientFunds"
  | providerFunding => "ProviderFunding"
  | clientFunding => "ClientFunding"
  | publish => "Publish"
  | publishing => "Publishing"
  | error => "Error"
  | providerTransferAwaitRestart => "ProviderTransferAwaitRestart"
  | clientTransferRestart => "ClientTransferRestart"
  | awaitingPreCommit => "AwaitingPreCommit"

/-- The state of a name. -/
def ofText? (name : String) : Option DealStatus :=
  all.find? fun status => status.text == name

/-- Whether a deal in this state will never become active. -/
def isTerminalFailure : DealStatus → Bool
  | proposalNotFound | proposalRejected | failing | error => true
  | _ => false

end DealStatus

end PieceReplication
