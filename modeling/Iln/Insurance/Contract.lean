import Iln.Foundation.Transition
import Iln.Insurance.Pool

/-! The insurance pool as a machine. An action is a top-level call with its environment, a change of
what others hold, or the passing of time. A call that fails leaves the world as it was. -/
namespace InsurancePool

open Outcome FixedWidth Transition
open InvoiceLiquidity (Address Hash Balances Clock move)

inductive Call where
  | initializeContract (admin : Address) (coverage : Int) (token : Address)
  | setBasePremiumRateBps (rateBps : Nat)
  | setRiskMultiplier (numerator denominator : Int)
  | setReputationContract (contract : Address)
  | proposeRiskMultiplier (numerator denominator : Int)
  | executeRiskMultiplier
  | cancelRiskMultiplier
  | incrementDefaultCount (lp : Address)
  | proposeCoverageChange (newCoverage : Int)
  | executeCoverageChange
  | cancelCoverageChange
  | proposeAdminTransfer (newAdmin : Address)
  | executeAdminTransfer
  | cancelAdminTransfer
  | setCoverageViaGovernance (newCoverage : Int)
  | setPremiumRateViaGovernance (rateBps : Nat)
  | setBalanceCap (cap : Int)
  | setMinReserveRatioBps (bps : Nat)
  | resetSolvencyCircuit
  | setBackstopFundingBps (bps : Nat)
  | topUpBackstop (source : Address) (amount : Int)
  | submitClaimEvidence (invoiceId : Nat) (evidenceHash : Hash)
  | setReviewWindowSeconds (seconds : Nat)
  | recordPairDefault (lp payer : Address)
  | enroll (lp : Address)
  | depositPremium (lp : Address) (amount : Int)
  | claim (invoiceId : Nat) (lp : Address)
  deriving DecidableEq, Repr

def Call.wellTyped : Call → Bool
  | .initializeContract _ amount _ | .proposeCoverageChange amount
  | .setCoverageViaGovernance amount | .setBalanceCap amount | .topUpBackstop _ amount
  | .depositPremium _ amount => decide (Fits i128 amount)
  | .setRiskMultiplier numerator denominator | .proposeRiskMultiplier numerator denominator =>
    decide (Fits i128 numerator ∧ Fits i128 denominator)
  | .setBasePremiumRateBps bps | .setPremiumRateViaGovernance bps | .setMinReserveRatioBps bps
  | .setBackstopFundingBps bps => decide (bps ≤ u32Max)
  | .submitClaimEvidence invoiceId _ | .claim invoiceId _ => decide (invoiceId ≤ u64Max)
  | .setReviewWindowSeconds seconds => decide (seconds ≤ u64Max)
  | _ => true

variable {pool : Address}

def setVia (world : World) (settings : Result Settings) : Result World :=
  (fun settings => { world with settings }) <$> settings

def dispatch (env : Env pool) (world : World) : Call → Result World
  | .initializeContract admin coverage token => initializeContract env world admin coverage token
  | .setBasePremiumRateBps rateBps => setBasePremiumRateBps env world rateBps
  | .setRiskMultiplier numerator denominator => setRiskMultiplier env world numerator denominator
  | .setReputationContract contract => setReputationContract env world contract
  | .proposeRiskMultiplier numerator denominator =>
    proposeRiskMultiplier env world numerator denominator
  | .executeRiskMultiplier => executeRiskMultiplier world
  | .cancelRiskMultiplier => cancelRiskMultiplier env world
  | .incrementDefaultCount lp => incrementDefaultCount env world lp
  | .proposeCoverageChange newCoverage => proposeCoverageChange env world newCoverage
  | .executeCoverageChange => executeCoverageChange world
  | .cancelCoverageChange => cancelCoverageChange env world
  | .proposeAdminTransfer newAdmin => proposeAdminTransfer env world newAdmin
  | .executeAdminTransfer => executeAdminTransfer world
  | .cancelAdminTransfer => cancelAdminTransfer env world
  | .setCoverageViaGovernance newCoverage =>
    setVia world (setCoverageViaGovernance env.signed world.settings newCoverage)
  | .setPremiumRateViaGovernance rateBps =>
    setVia world (setPremiumRateViaGovernance env.signed world.settings rateBps)
  | .setBalanceCap cap => setBalanceCap env world cap
  | .setMinReserveRatioBps bps => setMinReserveRatioBps env world bps
  | .resetSolvencyCircuit => resetSolvencyCircuit world env
  | .setBackstopFundingBps bps => setBackstopFundingBps env world bps
  | .topUpBackstop source amount => topUpBackstop env world source amount
  | .submitClaimEvidence invoiceId evidenceHash =>
    submitClaimEvidence env world invoiceId evidenceHash
  | .setReviewWindowSeconds seconds => setReviewWindowSeconds env world seconds
  | .recordPairDefault lp payer => recordPairDefault env world lp payer
  | .enroll lp => enroll env world lp
  | .depositPremium lp amount => depositPremium env world lp amount
  | .claim invoiceId lp => Prod.fst <$> claim env world invoiceId lp

def invoke (env : Env pool) (world : World) (call : Call) : Result World := do
  require (call.wellTyped = true) .trap
  dispatch env world call

inductive Action (pool : Address) where
  | invoke (env : Env pool) (call : Call)
  | credit (token holder : Address) (amount : Int)
  | advance (seconds ledgers : Nat)

/-- Money elsewhere moves freely; the pool's own tokens leave only in its calls. -/
def creditHolder (pool : Address) (tokens : Balances) (token holder : Address) (amount : Int) :
    Balances :=
  if holder = pool ∧ amount < 0 then tokens else
    fun asset account => tokens asset account + (if asset = token ∧
      account = holder then amount else 0)

def step (world : World) : Action pool → World
  | .invoke env call =>
    match invoke env world call with
    | .ok next => next
    | .error _ => world
  | .credit token holder amount =>
    { world with tokens := creditHolder pool world.tokens token holder amount }
  | .advance seconds ledgers =>
    { world with clock := ⟨world.clock.timestamp + seconds, world.clock.sequence + ledgers⟩ }

def genesis (clock : Clock) (tokens : Balances) : World where
  clock := clock
  settings := { admin := none, coverage := none, basePremiumRateBps := none }
  tokenAddress := none
  funds := {
    balance := none
    backstopBalance := none
    enrolled := fun _ => false
    enrolledCount := none
    premiums := fun _ => none
    claimed := fun _ => false }
  timelocks := { coverage := .empty, admin := .empty, riskMultiplier := .empty }
  risk := {
    multiplier := none
    defaultCount := fun _ => none
    totalDefaultCount := none
    pairDefaultCount := fun _ _ => none
    reputationContract := none }
  guards := {
    balanceCap := none
    minReserveRatioBps := none
    solvencyCircuitOpen := false
    backstopFundingBps := none
    claimEvidence := fun _ => none
    reviewWindowSeconds := none }
  tokens := tokens

def succeeds (world : World) : Action pool → Bool
  | .invoke env call => (invoke env world call).isOk
  | _ => true

theorem never_signed (pool : Address) (signers : List Address) :
    decide (pool ∈ signers ∧ pool ≠ pool) = false := by
  simp

/-- A host whose token is a plain asset: a transfer returns when the amount is not negative and the
sender has it. -/
def plainHost (pool : Address) (signers : List Address) : Env pool where
  signed address := decide (address ∈ signers ∧ address ≠ pool)
  unsigned := never_signed pool signers
  transferReturns tokens token source _ amount := decide (0 ≤ amount ∧ amount ≤ tokens token source)

def signedBy (signers : List Nat) (call : Call) : Action ⟨0⟩ :=
  .invoke (plainHost ⟨0⟩ (signers.map Address.mk)) call

section Steps

variable {world : World} {env : Env pool} {call : Call}

theorem step_invoke : step world (.invoke env call) = settled world (invoke env world call) := by
  simp only [step]
  cases invoke env world call <;> rfl

theorem invoke_of_succeeds (finished : succeeds world (.invoke env call) = true) :
    invoke env world call = .ok (step world (.invoke env call)) := by
  rw [step_invoke]
  exact eq_ok_settled world finished

theorem step_of_failed {action : Action pool} (failed : succeeds world action = false) :
    step world action = world := by
  cases action with
  | invoke =>
    rw [step_invoke]
    exact settled_of_failed world failed
  | _ => cases failed

end Steps

end InsurancePool
