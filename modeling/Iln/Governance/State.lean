import Iln.Invoice.State

/-! Data and storage of the `iln_governance` contract (`iln_governance/src/lib.rs`). The storage
keys are grouped by what they serve. Temporary entries may be archived by the host at any time,
persistent ones are kept. The token balances around the contract are part of the world. -/
namespace IlnGovernance

open InvoiceLiquidity (Address Hash Clock Balances OracleFeedType)

inductive GovernanceError where
  | alreadyInitialized | proposalNotFound | votingEnded | proposalNotActive | noVotingPower
  | alreadyVoted | votingOngoing | quorumNotReached | proposalRejected | alreadyResolved
  | cannotDelegateToSelf | delegationCyclePrevented | timelockNotExpired | unauthorized
  | invalidQuorumBps | notAdmin | notVetoable | vetoPowerDisabled | insufficientProposerBalance
  | executionFailed | maxDelegationDepthExceeded | vetoMultisigNotConfigured | notVetoSigner
  | vetoAlreadyApproved | invalidVetoMultisigConfig | invalidProposalDeposit
  | depositAlreadySettled | notInitialized | invalidStateTransition | invalidTimelock
  | invalidExecutionDelay
  -- returned by the source although its enumeration does not list them
  | proposalStorageCorrupt | snapshotLedgerMissing | insufficientHoldingPeriod | consentRequired
  | invalidVetoTransition | vetoPowerAlreadyDisabled | proposalCancelled | proposalAlreadyExecuted
  | invalidVoteAccounting | quorumDataMissing | proposerIdentityMismatch | executionDelayOutOfBounds
  deriving DecidableEq, Repr

/-- Why a call was rolled back: a returned error, or a trap of the host. -/
inductive Failure where
  | returned (error : GovernanceError)
  | trap
  deriving DecidableEq, Repr

instance : Coe GovernanceError Failure := ⟨.returned⟩

abbrev Result := Except Failure

structure FeeTierConfig where
  minAmount : Int
  feeRateBps : Nat
  deriving DecidableEq, Repr

inductive ProposalAction where
  | updateFeeRate (rate : Nat)
  | addToken (token : Address) (decimals : Nat)
  | removeToken (token : Address)
  | updateMaxDiscountRate (rate : Nat)
  | updateDecayParams (rateBps periodLedgers : Nat)
  | updateDistributionRewardParams (halfToken hundredUsdcStroops lpMultiplier : Int)
  | updateFeeTiers (tiers : List FeeTierConfig)
  | upgrade (newWasmHash : Hash)
  | updateLpRewardRate (rate : Int)
  | updateFreelancerRewardRate (rate : Int)
  | updatePayerRewardRate (rate : Int)
  | updateInsuranceCoverageCap (cap : Int)
  | updateInsurancePremiumRate (rate : Nat)
  | registerOracle (feed : OracleFeedType) (oracle : Address)
  | removeOracle (feed : OracleFeedType)
  | registerTokenOracle (feed : OracleFeedType) (token oracle : Address)
  | updateReputationBonusParams (highRepThreshold bonusBps minDiscountRateBps : Nat)
  | updateMaxInvoiceAmount (cap : Int)
  | updateTokenVolumeCap (token : Address) (cap : Int)
  deriving DecidableEq, Repr

inductive ProposalStatus where
  | active | passed | rejected | executed | vetoed
  deriving DecidableEq, Repr

structure GovernanceProposal where
  id : Nat
  proposer : Address
  descriptionHash : Hash
  actionType : ProposalAction
  proposedValue : Int
  status : ProposalStatus
  votesFor : Int
  votesAgainst : Int
  createdAt : Nat
  votingEnd : Nat
  etaLedger : Nat
  deriving DecidableEq, Repr

structure BalanceCheckpoint where
  balance : Int
  ledger : Nat
  deriving DecidableEq, Repr

inductive VetoStatus where
  | uninitiated | pending | executed
  deriving DecidableEq, Repr

structure VetoState where
  status : VetoStatus
  approvalsCount : Nat
  threshold : Nat
  reasonHash : Hash
  deriving DecidableEq, Repr

structure VetoDisableRecord where
  authorizedBy : Address
  disabledAtLedger : Nat
  reasonHash : Hash
  deriving DecidableEq, Repr

/-- Instance storage. The deposit sink is an `Option` that is itself stored, so a stored `none`
differs from a missing entry. -/
structure Parameters where
  ilnContract : Option Address
  distributionContract : Option Address
  reputationBonusContract : Option Address
  govToken : Option Address
  admin : Option Address
  govTokenTotalSupply : Option Int
  minQuorumBps : Option Nat
  maxDelegationDepth : Option Nat
  executionDelay : Option Nat
  quadraticVotingEnabled : Option Bool
  minProposalBalance : Option Int
  minProposalDeposit : Option Int
  proposalDepositSink : Option (Option Address)
  proposalCount : Option Nat
  executionNonce : Option Nat

structure ProposalStore where
  proposal : Nat → Option GovernanceProposal
  proposer : Nat → Option Address
  createdLedger : Nat → Option Nat
  deposit : Nat → Option Int
  depositSettled : Nat → Bool
  executedRecord : Nat → Bool

/-- `hasVoted` and `appliedVoteWeight` are temporary entries. -/
structure BallotStore where
  balanceCheckpoint : Address → Option BalanceCheckpoint
  priorBalanceCheckpoint : Address → Option BalanceCheckpoint
  voteWeightSnapshot : Nat → Address → Option Int
  hasVoted : Nat → Address → Bool
  appliedVoteWeight : Nat → Address → Option Int
  voteReceipt : Nat → Address → Option Int

/-- A missing list of delegators is the empty list (`remove_delegator`). -/
structure DelegationStore where
  delegation : Address → Option Address
  delegatedToMe : Address → Option Int
  delegators : Address → List Address

/-- `approvals` is the temporary mirror of the receipts. -/
structure VetoStore where
  powerEnabled : Option Bool
  signers : Option (List Address)
  threshold : Option Nat
  state : Nat → Option VetoState
  approvals : Nat → Option (List Address)
  approvalReceipt : Nat → Address → Bool
  disableRecord : Option VetoDisableRecord

structure World where
  clock : Clock
  parameters : Parameters
  proposals : ProposalStore
  ballots : BallotStore
  delegations : DelegationStore
  veto : VetoStore
  balance : Balances

/-- Functions of other contracts that a proposal calls. -/
inductive TargetFunction where
  | updateFeeRate | addToken | removeToken | updateMaxDiscount | updateDecayParams
  | updateRewardParams | updateFeeTiers | upgrade | setLpRewardRate | setFreelancerRewardRate
  | setPayerRewardRate | setCoverageViaGovernance | setPremiumRateViaGovernance | updateConfig
  | registerOracle | removeOracle | registerTokenOracle | setMaxInvoiceAmount | setTokenVolumeCap
  deriving DecidableEq, Repr

/-- Arguments as the host encodes them. -/
inductive Val where
  | u32 (value : Nat)
  | u64 (value : Nat)
  | i128 (value : Int)
  | address (value : Address)
  | bytes (value : Hash)
  | feed (value : OracleFeedType)
  | tiers (value : List FeeTierConfig)
  deriving DecidableEq, Repr

structure Invocation where
  target : Address
  function : TargetFunction
  arguments : List Val
  deriving DecidableEq, Repr

def hostInstructionLimit : Nat := 400000000

/-- What one call takes from outside the contract deployed at `contract`. The host bounds the work
of a call; `budget` is the number of loop rounds it allows, each of which costs an instruction or
more. No top-level call carries the signature of `contract`, since the host refuses to re-enter
a running contract. -/
structure Env (contract : Address) where
  signed : Address → Bool
  unsigned : signed contract = false
  transferReturns : Balances → (token source target : Address) → Int → Bool
  invocationReturns : Invocation → Bool
  budget : Nat
  metered : budget ≤ hostInstructionLimit

end IlnGovernance
