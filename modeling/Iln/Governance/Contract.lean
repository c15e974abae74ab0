import Iln.Foundation.Transition
import Iln.Governance.Veto

/-! The governance contract as a machine. An action is a top-level call with its environment, a
token transfer between holders, the passing of time, or the host archiving temporary entries. A call
that fails leaves the world as it was. -/
namespace IlnGovernance

open Outcome FixedWidth Function
open InvoiceLiquidity (Address Hash Balances Clock move)

inductive Call where
  | initializeContract
      (ilnContract distributionContract reputationBonusContract govToken admin : Address)
      (govTokenTotalSupply : Int)
  | setMaxDelegationDepth (maxDepth : Nat)
  | setGovTokenTotalSupply (totalSupply : Int)
  | setMinQuorumBps (minQuorumBps : Nat)
  | setMinProposalDeposit (amount : Int)
  | setProposalDepositSink (sink : Option Address)
  | setQuadraticVotingEnabled (enabled : Bool)
  | setMinProposalBalance (minBalance : Int)
  | setExecutionDelay (admin : Address) (delay : Nat)
  | createProposal (proposer : Address) (action : ProposalAction) (descriptionHash : Hash)
      (proposedValue : Int)
  | checkpointBalance (voter : Address)
  | delegateVotes (delegator delegate : Address)
  | undelegateVotes (delegator : Address)
  | castVote (voter : Address) (id : Nat) (support : Bool)
  | executeProposal (id : Nat)
  | configureVetoMultisig (signers : List Address) (threshold : Nat)
  | vetoProposal (signer : Address) (id : Nat) (reasonHash : Hash)
  | disableVetoPower
  | disableVetoPowerWithReason (reasonHash : Hash)
  deriving DecidableEq, Repr

def ProposalAction.wellTyped : ProposalAction → Bool
  | .updateFeeRate rate | .updateMaxDiscountRate rate | .updateInsurancePremiumRate rate =>
    decide (rate ≤ u32Max)
  | .addToken _ decimals => decide (decimals ≤ u32Max)
  | .updateDecayParams rateBps periodLedgers => decide (rateBps ≤ u32Max ∧ periodLedgers ≤ u64Max)
  | .updateDistributionRewardParams halfToken hundredUsdcStroops lpMultiplier =>
    decide (Fits i128 halfToken ∧ Fits i128 hundredUsdcStroops ∧ Fits i128 lpMultiplier)
  | .updateFeeTiers tiers => tiers.all fun tier =>
    decide (Fits i128 tier.minAmount ∧ tier.feeRateBps ≤ u32Max)
  | .updateLpRewardRate rate | .updateFreelancerRewardRate rate | .updatePayerRewardRate rate =>
    decide (Fits i128 rate)
  | .updateInsuranceCoverageCap cap | .updateMaxInvoiceAmount cap | .updateTokenVolumeCap _ cap =>
    decide (Fits i128 cap)
  | .updateReputationBonusParams highRepThreshold bonusBps minDiscountRateBps =>
    decide (highRepThreshold ≤ u32Max ∧ bonusBps ≤ u32Max ∧ minDiscountRateBps ≤ u32Max)
  | .removeToken _ | .upgrade _ | .registerOracle _ _ | .removeOracle _
  | .registerTokenOracle _ _ _ => true

def Call.wellTyped : Call → Bool
  | .initializeContract _ _ _ _ _ supply => decide (Fits i128 supply)
  | .setMaxDelegationDepth value | .setMinQuorumBps value | .setExecutionDelay _ value
  | .configureVetoMultisig _ value => decide (value ≤ u32Max)
  | .setGovTokenTotalSupply amount | .setMinProposalDeposit amount
  | .setMinProposalBalance amount => decide (Fits i128 amount)
  | .createProposal _ action _ proposedValue => action.wellTyped && decide (Fits i128 proposedValue)
  | .castVote _ id _ | .executeProposal id | .vetoProposal _ id _ => decide (id ≤ u64Max)
  | _ => true

variable {contract : Address}

def invokeParameters (env : Env contract) (world : World) : Call → Option (Result Parameters)
  | .setMaxDelegationDepth maxDepth => some (setMaxDelegationDepth env world.parameters maxDepth)
  | .setGovTokenTotalSupply totalSupply =>
    some (setGovTokenTotalSupply env world.parameters totalSupply)
  | .setMinQuorumBps minQuorumBps => some (setMinQuorumBps env world.parameters minQuorumBps)
  | .setMinProposalDeposit amount => some (setMinProposalDeposit env world.parameters amount)
  | .setProposalDepositSink sink => some (setProposalDepositSink env world.parameters sink)
  | .setQuadraticVotingEnabled enabled =>
    some (setQuadraticVotingEnabled env world.parameters enabled)
  | .setMinProposalBalance minBalance =>
    some (setMinProposalBalance env world.parameters minBalance)
  | .setExecutionDelay admin delay =>
    some (setExecutionDelay env world.veto world.parameters admin delay)
  | _ => none

def invokeWorld (env : Env contract) (world : World) : Call → Result World
  | .initializeContract iln distribution reputationBonus token admin supply =>
    initializeContract world iln distribution reputationBonus token admin supply
  | .createProposal proposer action descriptionHash proposedValue =>
    Prod.fst <$> createProposal env world proposer action descriptionHash proposedValue
  | .checkpointBalance voter => checkpointBalance env world voter
  | .delegateVotes delegator delegate => delegateVotes env world delegator delegate
  | .undelegateVotes delegator => undelegateVotes env world delegator
  | .castVote voter id support => castVote env world voter id support
  | .executeProposal id => executeProposal env world id
  | .configureVetoMultisig signers threshold => configureVetoMultisig env world signers threshold
  | .vetoProposal signer id reasonHash => vetoProposal env world signer id reasonHash
  | .disableVetoPower => disableVetoPower env world
  | .disableVetoPowerWithReason reasonHash => disableVetoPowerWithReason env world reasonHash
  | _ => .error .trap

def invoke (env : Env contract) (world : World) (call : Call) : Result World := do
  require (call.wellTyped = true) .trap
  match invokeParameters env world call with
  | some result => do
    let parameters ← result
    return { world with parameters }
  | none => invokeWorld env world call

inductive Action (contract : Address) where
  | invoke (env : Env contract) (call : Call)
  | transfer (token source target : Address) (amount : Int)
  | advance (seconds ledgers : Nat)
  | archiveVote (id : Nat) (voter : Address)
  | archiveApprovals (id : Nat)

/-- Holders move what they have; the contract's own tokens move only in its calls. -/
def transferBetween (contract : Address) (balance : Balances) (token source target : Address)
    (amount : Int) : Balances :=
  if source ≠ contract ∧ 0 ≤ amount ∧ amount ≤ balance token source then
    move balance token source target amount
  else balance

def step (world : World) : Action contract → World
  | .invoke env call =>
    match invoke env world call with
    | .ok next => next
    | .error _ => world
  | .transfer token source target amount =>
    { world with balance := transferBetween contract world.balance token source target amount }
  | .advance seconds ledgers =>
    { world with clock := ⟨world.clock.timestamp + seconds, world.clock.sequence + ledgers⟩ }
  | .archiveVote id voter =>
    { world with
      ballots := { world.ballots with
        hasVoted := update world.ballots.hasVoted id
          (update (world.ballots.hasVoted id) voter false)
        appliedVoteWeight :=
          update world.ballots.appliedVoteWeight id
            (update (world.ballots.appliedVoteWeight id) voter none) } }
  | .archiveApprovals id =>
    { world with veto := { world.veto with approvals := update world.veto.approvals id none } }

def genesis (clock : Clock) (balance : Balances) : World where
  clock := clock
  parameters := {
    ilnContract := none
    distributionContract := none
    reputationBonusContract := none
    govToken := none
    admin := none
    govTokenTotalSupply := none
    minQuorumBps := none
    maxDelegationDepth := none
    executionDelay := none
    quadraticVotingEnabled := none
    minProposalBalance := none
    minProposalDeposit := none
    proposalDepositSink := none
    proposalCount := none
    executionNonce := none }
  proposals := {
    proposal := fun _ => none
    proposer := fun _ => none
    createdLedger := fun _ => none
    deposit := fun _ => none
    depositSettled := fun _ => false
    executedRecord := fun _ => false }
  ballots := {
    balanceCheckpoint := fun _ => none
    priorBalanceCheckpoint := fun _ => none
    voteWeightSnapshot := fun _ _ => none
    hasVoted := fun _ _ => false
    appliedVoteWeight := fun _ _ => none
    voteReceipt := fun _ _ => none }
  delegations :=
    { delegation := fun _ => none, delegatedToMe := fun _ => none, delegators := fun _ => [] }
  veto := {
    powerEnabled := none
    signers := none
    threshold := none
    state := fun _ => none
    approvals := fun _ => none
    approvalReceipt := fun _ _ => false
    disableRecord := none }
  balance := balance

/-- The world that a run reaches from an empty contract. -/
abbrev reach (clock : Clock) (balance : Balances) (actions : List (Action contract)) : World :=
  Transition.exec step (genesis clock balance) actions

theorem plainHost_metered : 1000 ≤ hostInstructionLimit := by decide

/-- A host whose governance token is a plain asset: a transfer returns when the amount is not
negative and the sender has it. Every dispatched call returns. -/
def plainHost (contract : Address) (signers : List Address) : Env contract where
  signed address := decide (address ∈ signers ∧ address ≠ contract)
  unsigned := by simp
  transferReturns balance token source _ amount :=
    decide (0 ≤ amount ∧ amount ≤ balance token source)
  invocationReturns _ := true
  budget := 1000
  metered := plainHost_metered

def signedBy (signers : List Nat) (call : Call) : Action ⟨0⟩ :=
  .invoke (plainHost ⟨0⟩ (signers.map Address.mk)) call

abbrev opening : Action ⟨0⟩ := signedBy [] (.initializeContract ⟨5⟩ ⟨6⟩ ⟨7⟩ ⟨10⟩ ⟨8⟩ 2000)

end IlnGovernance
