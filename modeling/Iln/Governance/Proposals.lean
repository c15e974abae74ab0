import Iln.Governance.Delegation

/-! Proposals: creation, the status table and the forfeitable deposit. The sink is stored as an
`Option` and read back as an address, so a sink that was explicitly cleared cannot be decoded and
traps the call. -/
namespace IlnGovernance

open Outcome FixedWidth Function
open InvoiceLiquidity (Address Hash Balances Clock)

variable {contract : Address}

def loadProposal (world : World) (id : Nat) : Result GovernanceProposal := do
  let count := world.parameters.proposalCount.getD 0
  require (¬ (id = 0 ∨ id > count)) GovernanceError.proposalNotFound
  let proposal ← orFail (world.proposals.proposal id) GovernanceError.proposalStorageCorrupt
  require (proposal.id = id) GovernanceError.proposalStorageCorrupt
  return proposal

def saveProposal (world : World) (proposal : GovernanceProposal) : World :=
  { world with
    proposals := { world.proposals with
      proposal := update world.proposals.proposal proposal.id (some proposal) } }

/-- Entries that `create_proposal` writes before the deposit moves. The proposer's balance is a
snapshot on the spot, and a first checkpoint when there is none yet. -/
def recordProposal (world : World) (proposal : GovernanceProposal) (balance : Int) : World :=
  let id := proposal.id
  let proposer := proposal.proposer
  let ballots := world.ballots
  { world with
    parameters := { world.parameters with proposalCount := some id }
    proposals := { world.proposals with
      proposal := update world.proposals.proposal id (some proposal)
      proposer := update world.proposals.proposer id (some proposer)
      createdLedger := update world.proposals.createdLedger id (some world.clock.sequence) }
    ballots := { ballots with
      voteWeightSnapshot := update ballots.voteWeightSnapshot id
        (update (ballots.voteWeightSnapshot id) proposer (some balance))
      balanceCheckpoint :=
        if (ballots.balanceCheckpoint proposer).isNone then
          update ballots.balanceCheckpoint proposer (some ⟨balance, world.clock.sequence⟩)
        else ballots.balanceCheckpoint } }

def createProposal (env : Env contract) (world : World) (proposer : Address)
    (action : ProposalAction) (descriptionHash : Hash) (proposedValue : Int) :
    Result (World × Nat) := do
  requireAuth env proposer
  let token ← getGovToken world.parameters
  let balance := world.balance token proposer
  require (¬ balance < getMinProposalBalance world.parameters)
    GovernanceError.insufficientProposerBalance
  let deposit := getMinProposalDeposit world.parameters
  require (¬ deposit < 0) GovernanceError.invalidProposalDeposit
  require (¬ (deposit > 0 ∧ balance < deposit)) GovernanceError.insufficientProposerBalance
  let id := addCapped u64Max (world.parameters.proposalCount.getD 0) 1
  let now := world.clock.timestamp
  let recorded := recordProposal world
    { id
      proposer
      descriptionHash
      actionType := action
      proposedValue
      status := .active
      votesFor := 0
      votesAgainst := 0
      createdAt := now
      votingEnd := addCapped u64Max now votingPeriodSecs
      etaLedger := 0 } balance
  if deposit > 0 then do
    let paid ← transferToken env recorded.balance token proposer contract deposit
    return ({ recorded with
      balance := paid
      proposals := { recorded.proposals with
        deposit := update recorded.proposals.deposit id (some deposit) } }, id)
  else
    return (recorded, id)

def isLegalTransition : ProposalStatus → ProposalStatus → Bool
  | .active, .passed | .active, .rejected | .active, .vetoed | .passed, .executed
  | .passed, .vetoed => true
  | _, _ => false

/-- The only writer of a status after creation. -/
def transitionStatus (world : World) (proposal : GovernanceProposal) (next : ProposalStatus) :
    Result (World × GovernanceProposal) := do
  require (isLegalTransition proposal.status next = true) GovernanceError.invalidStateTransition
  let moved := { proposal with status := next }
  return (saveProposal world moved, moved)

def assertExecutable (clock : Clock) (proposal : GovernanceProposal) : Result Unit := do
  require (proposal.status = .passed) GovernanceError.invalidStateTransition
  require (¬ clock.timestamp < proposal.votingEnd) GovernanceError.votingOngoing
  require (¬ clock.sequence < proposal.etaLedger) GovernanceError.timelockNotExpired

def settleDeposit (world : World) (id : Nat) : World :=
  { world with
    proposals := { world.proposals with
      depositSettled := update world.proposals.depositSettled id true
      deposit := update world.proposals.deposit id none } }

def payFromEscrow (env : Env contract) (world : World) (recipient : Address) (amount : Int) :
    Result World := do
  let token ← orFail world.parameters.govToken .trap
  let paid ← transferToken env world.balance token contract recipient amount
  return { world with balance := paid }

def refundProposalDeposit (env : Env contract) (world : World) (id : Nat) (proposer : Address) :
    Result World :=
  if world.proposals.depositSettled id then .ok world
  else
    let amount := (world.proposals.deposit id).getD 0
    let settled := settleDeposit world id
    if amount ≤ 0 then .ok settled else payFromEscrow env settled proposer amount

def forfeitProposalDeposit (env : Env contract) (world : World) (id : Nat) : Result World :=
  if world.proposals.depositSettled id then .ok world
  else
    let amount := (world.proposals.deposit id).getD 0
    let settled := settleDeposit world id
    if amount ≤ 0 then .ok settled
    else
      match world.parameters.proposalDepositSink with
      | none => .ok settled
      -- a stored `None` does not decode as an address
      | some none => .error .trap
      | some (some sink) => payFromEscrow env settled sink amount

/-- The proposer bound at creation, filled in once for older proposals. -/
def verifiedProposer (world : World) (proposal : GovernanceProposal) : Result World :=
  match world.proposals.proposer proposal.id with
  | some bound =>
    if bound = proposal.proposer then .ok world else .error GovernanceError.proposerIdentityMismatch
  | none =>
    .ok { world with
      proposals := { world.proposals with
        proposer := update world.proposals.proposer proposal.id (some proposal.proposer) } }

end IlnGovernance
