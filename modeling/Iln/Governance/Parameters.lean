import Iln.Governance.State
import Iln.Invoice.TokenSafety

/-! Settings of the governance contract: the accessors with their defaults, `initialize`, the
setters that only the ILN contract may call, and the timelock delay, which the administrator
sets. -/
namespace IlnGovernance

open Outcome FixedWidth
open InvoiceLiquidity (Address Balances move)

def defaultMinQuorumBps : Nat := 1000
def votingPeriodSecs : Nat := 259200
def defaultMinProposalBalance : Int := 1000
def defaultProposalDeposit : Int := 0
def minVoteHoldLedgers : Nat := 10
def maxExecutionDelayLedgers : Nat := 518400
def defaultMaxDelegationDepth : Nat := 10
def minProductionExecutionDelayLedgers : Nat := 17280

variable {contract : Address}

def requireAuth (env : Env contract) (address : Address) : Result Unit :=
  require (env.signed address = true) .trap

def getIlnContract (parameters : Parameters) : Result Address :=
  orFail parameters.ilnContract GovernanceError.notInitialized

def getGovToken (parameters : Parameters) : Result Address :=
  orFail parameters.govToken GovernanceError.notInitialized

def getDistributionContract (parameters : Parameters) : Result Address :=
  orFail parameters.distributionContract GovernanceError.notInitialized

def getReputationBonusContract (parameters : Parameters) : Result Address :=
  orFail parameters.reputationBonusContract GovernanceError.notInitialized

def getMaxDelegationDepth (parameters : Parameters) : Nat :=
  parameters.maxDelegationDepth.getD defaultMaxDelegationDepth

def getGovTokenTotalSupply (parameters : Parameters) : Int := parameters.govTokenTotalSupply.getD 0

def getMinProposalBalance (parameters : Parameters) : Int :=
  parameters.minProposalBalance.getD defaultMinProposalBalance

def getMinProposalDeposit (parameters : Parameters) : Int :=
  parameters.minProposalDeposit.getD defaultProposalDeposit

def isQuadraticVotingEnabled (parameters : Parameters) : Bool :=
  parameters.quadraticVotingEnabled.getD false

def isVetoPowerEnabled (veto : VetoStore) : Bool := veto.powerEnabled.getD false

/-- Anyone may call `initialize`; it takes effect once. -/
def initializeContract (world : World)
    (ilnContract distributionContract reputationBonusContract govToken admin : Address)
    (govTokenTotalSupply : Int) : Result World := do
  require (world.parameters.ilnContract = none) GovernanceError.alreadyInitialized
  return { world with
    parameters := { world.parameters with
      ilnContract := some ilnContract
      distributionContract := some distributionContract
      reputationBonusContract := some reputationBonusContract
      govToken := some govToken
      admin := some admin
      minQuorumBps := some defaultMinQuorumBps
      maxDelegationDepth := some defaultMaxDelegationDepth
      proposalCount := some 0
      govTokenTotalSupply := some govTokenTotalSupply }
    veto := { world.veto with powerEnabled := some true } }

def setByIln (env : Env contract) (parameters changed : Parameters) : Result Parameters := do
  let ilnContract ← getIlnContract parameters
  requireAuth env ilnContract
  return changed

def setMaxDelegationDepth (env : Env contract) (parameters : Parameters) (maxDepth : Nat) :
    Result Parameters :=
  setByIln env parameters { parameters with maxDelegationDepth := some maxDepth }

def setGovTokenTotalSupply (env : Env contract) (parameters : Parameters) (totalSupply : Int) :
    Result Parameters :=
  setByIln env parameters { parameters with govTokenTotalSupply := some totalSupply }

def setMinQuorumBps (env : Env contract) (parameters : Parameters) (minQuorumBps : Nat) :
    Result Parameters := do
  require (¬ (minQuorumBps = 0 ∨ minQuorumBps > 10000)) GovernanceError.invalidQuorumBps
  setByIln env parameters { parameters with minQuorumBps := some minQuorumBps }

def setMinProposalDeposit (env : Env contract) (parameters : Parameters) (amount : Int) :
    Result Parameters := do
  require (¬ amount < 0) GovernanceError.invalidProposalDeposit
  setByIln env parameters { parameters with minProposalDeposit := some amount }

def setProposalDepositSink (env : Env contract) (parameters : Parameters) (sink : Option Address) :
    Result Parameters :=
  setByIln env parameters { parameters with proposalDepositSink := some sink }

def setQuadraticVotingEnabled (env : Env contract) (parameters : Parameters) (enabled : Bool) :
    Result Parameters :=
  setByIln env parameters { parameters with quadraticVotingEnabled := some enabled }

def setMinProposalBalance (env : Env contract) (parameters : Parameters) (minBalance : Int) :
    Result Parameters :=
  setByIln env parameters { parameters with minProposalBalance := some minBalance }

/-- The administrator sets the timelock. The upper bound is checked twice, with two errors; once the
veto is gone the delay may not be shorter than a day. -/
def setExecutionDelay (env : Env contract) (veto : VetoStore) (parameters : Parameters)
    (admin : Address) (delay : Nat) : Result Parameters := do
  requireAuth env admin
  let storedAdmin ← orFail parameters.admin GovernanceError.notInitialized
  require (admin = storedAdmin) GovernanceError.unauthorized
  require (¬ delay > maxExecutionDelayLedgers) GovernanceError.invalidExecutionDelay
  require (¬ delay > maxExecutionDelayLedgers) GovernanceError.executionDelayOutOfBounds
  require (¬ (isVetoPowerEnabled veto = false ∧ delay < minProductionExecutionDelayLedgers))
    GovernanceError.executionDelayOutOfBounds
  return { parameters with executionDelay := some delay }

/-- `token.transfer`: the tokens move when the token contract accepts the transfer. -/
def transferToken (env : Env contract) (balance : Balances) (token source target : Address)
    (amount : Int) :
    Result Balances := do
  require (env.transferReturns balance token source target amount = true) .trap
  return move balance token source target amount

end IlnGovernance
