import Iln.Governance.Voting

/-! `execute_proposal`: closing the vote of an active proposal, then dispatching the action of a
passed one after its timelock. Missing quorum or majority ends in an error, so the rejection written
just before is rolled back. A failed dispatch returns normally and changes nothing. -/
namespace IlnGovernance

open Outcome FixedWidth Function
open InvoiceLiquidity (Address)

variable {contract : Address}

def dispatch (contract : Address) (parameters : Parameters) (ilnContract : Address) :
    ProposalAction → Result Invocation
  | .updateFeeRate rate => .ok ⟨ilnContract, .updateFeeRate, [.u32 rate]⟩
  | .addToken token decimals => .ok ⟨ilnContract, .addToken, [.address token, .u32 decimals]⟩
  | .removeToken token => .ok ⟨ilnContract, .removeToken, [.address token]⟩
  | .updateMaxDiscountRate rate => .ok ⟨ilnContract, .updateMaxDiscount, [.u32 rate]⟩
  | .updateDecayParams rateBps periodLedgers =>
    .ok ⟨ilnContract, .updateDecayParams, [.u32 rateBps, .u64 periodLedgers]⟩
  | .updateDistributionRewardParams halfToken hundredUsdcStroops lpMultiplier => do
    let distribution ← getDistributionContract parameters
    return ⟨distribution, .updateRewardParams, [.i128 halfToken, .i128 hundredUsdcStroops,
      .i128 lpMultiplier]⟩
  | .updateFeeTiers tiers => .ok ⟨ilnContract, .updateFeeTiers, [.tiers tiers]⟩
  | .upgrade newWasmHash => .ok ⟨ilnContract, .upgrade, [.bytes newWasmHash]⟩
  | .updateLpRewardRate rate => do
    let distribution ← getDistributionContract parameters
    return ⟨distribution, .setLpRewardRate, [.i128 rate]⟩
  | .updateFreelancerRewardRate rate => do
    let distribution ← getDistributionContract parameters
    return ⟨distribution, .setFreelancerRewardRate, [.i128 rate]⟩
  | .updatePayerRewardRate rate => do
    let distribution ← getDistributionContract parameters
    return ⟨distribution, .setPayerRewardRate, [.i128 rate]⟩
  -- the insurance calls go to the ILN contract's address as well
  | .updateInsuranceCoverageCap cap => .ok ⟨ilnContract, .setCoverageViaGovernance, [.i128 cap]⟩
  | .updateInsurancePremiumRate rate => .ok ⟨ilnContract, .setPremiumRateViaGovernance, [.u32 rate]⟩
  | .updateReputationBonusParams highRepThreshold bonusBps minDiscountRateBps => do
    let reputationBonus ← getReputationBonusContract parameters
    return ⟨reputationBonus, .updateConfig,
      [.address contract, .u32 highRepThreshold, .u32 bonusBps, .u32 minDiscountRateBps]⟩
  | .registerOracle feed oracle => .ok ⟨ilnContract, .registerOracle, [.feed feed, .address oracle]⟩
  | .removeOracle feed => .ok ⟨ilnContract, .removeOracle, [.feed feed]⟩
  | .registerTokenOracle feed token oracle =>
    .ok ⟨ilnContract, .registerTokenOracle, [.feed feed, .address token, .address oracle]⟩
  | .updateMaxInvoiceAmount cap => .ok ⟨ilnContract, .setMaxInvoiceAmount, [.i128 cap]⟩
  | .updateTokenVolumeCap token cap =>
    .ok ⟨ilnContract, .setTokenVolumeCap, [.address token, .i128 cap]⟩

/-- The quorum in votes; fails closed when its data is missing. -/
def quorumVotes (parameters : Parameters) : Result Int := do
  let minQuorumBps ← orFail parameters.minQuorumBps GovernanceError.quorumDataMissing
  let totalSupply := getGovTokenTotalSupply parameters
  require (¬ (totalSupply ≤ 0 ∨ minQuorumBps = 0 ∨ minQuorumBps > 10000))
    GovernanceError.quorumDataMissing
  return saturate i128 (totalSupply * minQuorumBps) / 10000

/-- The rejection written before an error is returned. -/
def rejectThenFail (env : Env contract) (world : World) (proposal : GovernanceProposal)
    (failure : GovernanceError) : Result World := do
  let (rejected, _) ← transitionStatus world proposal .rejected
  let _ ← forfeitProposalDeposit env rejected proposal.id
  .error failure

def closeVoting (env : Env contract) (world : World) (proposal : GovernanceProposal) :
    Result World := do
  require (¬ (proposal.votesFor < 0 ∨ proposal.votesAgainst < 0))
    GovernanceError.invalidVoteAccounting
  let totalVotes ← orFail (checked i128 (proposal.votesFor + proposal.votesAgainst))
    GovernanceError.invalidVoteAccounting
  let quorum ← quorumVotes world.parameters
  -- an error rolls the rejection back, so the proposal stays active
  if totalVotes < quorum then rejectThenFail env world proposal .quorumNotReached
  else if proposal.votesFor ≤ proposal.votesAgainst then
    rejectThenFail env world proposal .proposalRejected
  else do
    -- the stored delay, without the floor that holds once the veto is gone
    let eta := world.clock.sequence + world.parameters.executionDelay.getD 0
    require (eta ≤ u32Max) GovernanceError.invalidTimelock
    let (passed, _) ← transitionStatus world { proposal with etaLedger := eta } .passed
    refundProposalDeposit env passed proposal.id proposal.proposer

def executePassed (env : Env contract) (world : World) (proposal : GovernanceProposal) :
    Result World := do
  assertExecutable world.clock proposal
  let ilnContract ← getIlnContract world.parameters
  let invocation ← dispatch contract world.parameters ilnContract proposal.actionType
  if env.invocationReturns invocation then do
    let (executed, _) ← transitionStatus world proposal .executed
    let recorded := { executed with
      proposals := { executed.proposals with
        executedRecord := update executed.proposals.executedRecord proposal.id true }
      parameters := { executed.parameters with
        executionNonce := some (addCapped u64Max (executed.parameters.executionNonce.getD 0) 1) } }
    refundProposalDeposit env recorded proposal.id proposal.proposer
  else
    return world

def executeProposal (env : Env contract) (world : World) (id : Nat) : Result World := do
  let proposal ← loadProposal world id
  require (proposal.status ≠ .vetoed) GovernanceError.proposalCancelled
  require (proposal.status ≠ .executed) GovernanceError.proposalAlreadyExecuted
  require (¬ world.clock.timestamp < proposal.votingEnd) GovernanceError.votingOngoing
  match proposal.status with
  | .active => closeVoting env world proposal
  | .passed => executePassed env world proposal
  | .vetoed => .error GovernanceError.proposalCancelled
  | .rejected | .executed => .error GovernanceError.alreadyResolved

end IlnGovernance
