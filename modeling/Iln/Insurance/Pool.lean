import Iln.Insurance.State
import Iln.Invoice.TokenSafety

/-! The entry points of `insurance_pool`. Coverage, administrator and risk multiplier can be changed
behind a timelock; the first and the last also have setters that apply at once. A claim is paid from
the liquid balance first and from the backstop after it. The solvency breaker is a flag that a claim
sets after its payout. -/
namespace InsurancePool

open Outcome FixedWidth Function
open InvoiceLiquidity (Address Hash Balances Clock move)

def timelockDelaySeconds : Nat := 259200

variable {pool : Address}

def requireAdmin (env : Env pool) (world : World) : Result Unit := do
  let admin ← orFail world.settings.admin InsuranceError.notInitialized
  require (env.signed admin = true) .trap

def getTokenAddress (world : World) : Result Address :=
    orFail world.tokenAddress InsuranceError.notInitialized

def transferToken (env : Env pool) (tokens : Balances) (token source target : Address)
    (amount : Int) :
    Result Balances := do
  require (env.transferReturns tokens token source target amount = true) .trap
  return move tokens token source target amount

/-- Anyone may initialise the pool with an administrator that signs. -/
def initializeContract (env : Env pool) (world : World) (admin : Address) (coverage : Int)
    (token : Address) :
    Result World := do
  require (world.settings.admin = none) InsuranceError.alreadyInitialized
  require (¬ coverage ≤ 0) InsuranceError.invalidAmount
  require (env.signed admin = true) .trap
  return { world with
    settings := { world.settings with admin := some admin, coverage := some coverage }
    funds := { world.funds with balance := some 0 }
    tokenAddress := some token }

section Timelocks

variable {ν : Type}

def Timelock.empty : Timelock ν := ⟨none, none⟩

/-- A proposal replaces the one that was pending. -/
def propose (clock : Clock) (value : ν) : Timelock ν :=
  ⟨some value, some (addCapped u64Max clock.timestamp timelockDelaySeconds)⟩

/-- The value to be applied; anyone may execute once the time has come. -/
def executable (clock : Clock) (lock : Timelock ν) : Result ν := do
  let value ← orFail lock.pending InsuranceError.noPendingProposal
  let eta ← orFail lock.eta InsuranceError.noPendingProposal
  require (¬ clock.timestamp < eta) InsuranceError.timelockNotExpired
  return value

def cancel (lock : Timelock ν) : Result (Timelock ν) := do
  require (lock.pending.isSome = true) InsuranceError.noPendingProposal
  return .empty

variable (env : Env pool) (world : World)

def proposeCoverageChange (newCoverage : Int) : Result World := do
  requireAdmin env world
  require (¬ newCoverage ≤ 0) InsuranceError.invalidAmount
  return { world with timelocks := { world.timelocks with
    coverage := propose world.clock newCoverage } }

def executeCoverageChange : Result World := do
  let newCoverage ← executable world.clock world.timelocks.coverage
  return { world with
    settings := { world.settings with coverage := some newCoverage }
    timelocks := { world.timelocks with coverage := .empty } }

def cancelCoverageChange : Result World := do
  requireAdmin env world
  let coverage ← cancel world.timelocks.coverage
  return { world with timelocks := { world.timelocks with coverage } }

def proposeAdminTransfer (newAdmin : Address) : Result World := do
  requireAdmin env world
  return { world with timelocks := { world.timelocks with admin := propose world.clock newAdmin } }

def executeAdminTransfer : Result World := do
  let newAdmin ← executable world.clock world.timelocks.admin
  return { world with
    settings := { world.settings with admin := some newAdmin }
    timelocks := { world.timelocks with admin := .empty } }

def cancelAdminTransfer : Result World := do
  requireAdmin env world
  let admin ← cancel world.timelocks.admin
  return { world with timelocks := { world.timelocks with admin } }

def proposeRiskMultiplier (numerator denominator : Int) : Result World := do
  requireAdmin env world
  require (¬ (numerator < 0 ∨ denominator ≤ 0)) InsuranceError.invalidAmount
  return { world with
    timelocks := { world.timelocks with riskMultiplier := propose world.clock ⟨numerator,
      denominator⟩ } }

def executeRiskMultiplier : Result World := do
  let multiplier ← executable world.clock world.timelocks.riskMultiplier
  return { world with
    risk := { world.risk with multiplier := some multiplier }
    timelocks := { world.timelocks with riskMultiplier := .empty } }

def cancelRiskMultiplier : Result World := do
  requireAdmin env world
  let riskMultiplier ← cancel world.timelocks.riskMultiplier
  return { world with timelocks := { world.timelocks with riskMultiplier } }

end Timelocks

section Settings

variable (env : Env pool) (world : World)

/-- Applies at once, beside the timelocked way. -/
def setRiskMultiplier (numerator denominator : Int) : Result World := do
  requireAdmin env world
  require (¬ (numerator < 0 ∨ denominator ≤ 0)) InsuranceError.invalidAmount
  return { world with risk := { world.risk with multiplier := some ⟨numerator, denominator⟩ } }

def setBasePremiumRateBps (rateBps : Nat) : Result World := do
  requireAdmin env world
  require (¬ (rateBps = 0 ∨ rateBps > 10000)) InsuranceError.invalidAmount
  return { world with settings := { world.settings with basePremiumRateBps := some rateBps } }

def setReputationContract (contract : Address) : Result World := do
  requireAdmin env world
  return { world with risk := { world.risk with reputationContract := some contract } }

def setBalanceCap (cap : Int) : Result World := do
  requireAdmin env world
  require (¬ cap < 0) InsuranceError.invalidAmount
  return { world with guards := { world.guards with
    balanceCap := if cap = 0 then none else some cap } }

def setMinReserveRatioBps (bps : Nat) : Result World := do
  requireAdmin env world
  require (¬ bps > 10000) InsuranceError.invalidReserveRatio
  return { world with guards := { world.guards with minReserveRatioBps := some bps } }

def setBackstopFundingBps (bps : Nat) : Result World := do
  requireAdmin env world
  require (¬ bps > 10000) InsuranceError.invalidReserveRatio
  return { world with guards := { world.guards with backstopFundingBps := some bps } }

def submitClaimEvidence (invoiceId : Nat) (evidenceHash : Hash) : Result World := do
  requireAdmin env world
  let evidence : ClaimEvidence := ⟨evidenceHash, world.clock.timestamp⟩
  return { world with
    guards := { world.guards with
      claimEvidence := update world.guards.claimEvidence invoiceId (some evidence) } }

def setReviewWindowSeconds (seconds : Nat) : Result World := do
  requireAdmin env world
  return { world with guards := { world.guards with reviewWindowSeconds := some seconds } }

def incrementDefaultCount (lp : Address) : Result World := do
  requireAdmin env world
  let count := (world.risk.defaultCount lp).getD 0
  require (count + 1 ≤ u32Max) .trap
  let total := world.risk.totalDefaultCount.getD 0
  require (total + 1 ≤ u32Max) .trap
  return { world with
    risk := { world.risk with
      defaultCount := update world.risk.defaultCount lp (some (count + 1))
      totalDefaultCount := some (total + 1) } }

def recordPairDefault (lp payer : Address) : Result World := do
  requireAdmin env world
  let counted ← incrementDefaultCount env world lp
  let pairCount := (counted.risk.pairDefaultCount lp payer).getD 0
  return { counted with
    risk := { counted.risk with
      pairDefaultCount := update counted.risk.pairDefaultCount lp
        (update (counted.risk.pairDefaultCount lp) payer (some (addCapped u32Max pairCount 1))) } }

end Settings

section Reserve

variable (world : World)

def getPoolBalance : Int := world.funds.balance.getD 0
def getBackstopBalance : Int := world.funds.backstopBalance.getD 0
def getPremiumsPaid (lp : Address) : Int := (world.funds.premiums lp).getD 0
def getMinReserveRatioBps : Nat := world.guards.minReserveRatioBps.getD 0
def getBackstopFundingBps : Nat := world.guards.backstopFundingBps.getD 0

def getTotalReserve : Int := saturate i128 (getPoolBalance world + getBackstopBalance world)

/-- The cast to `u32` keeps the low bits. -/
def getReserveRatioBps : Nat :=
  let coverage := getCoverage world.settings
  if coverage ≤ 0 then 0
  else
    let ratio := (saturate i128 (getTotalReserve world * 10000)).tdiv coverage
    (min ratio u32Max % 4294967296).toNat

/-- Half, three quarters, all or one and a half of the coverage, by the premiums the provider has
paid. -/
def getTieredCoverage (lp : Address) : Int :=
  let premiumsPaid := getPremiumsPaid world lp
  let defaultCoverage := getCoverage world.settings
  if premiumsPaid ≥ defaultCoverage.tdiv 2 then (saturate i128 (defaultCoverage * 150)).tdiv 100
  else if premiumsPaid ≥ defaultCoverage.tdiv 4 then defaultCoverage
  else if premiumsPaid ≥ defaultCoverage.tdiv 10 then
    (saturate i128 (defaultCoverage * 75)).tdiv 100
  else (saturate i128 (defaultCoverage * 50)).tdiv 100

/-- Nothing is checked about the ratio when the breaker is reset. -/
def resetSolvencyCircuit (env : Env pool) : Result World := do
  requireAdmin env world
  return { world with guards := { world.guards with solvencyCircuitOpen := false } }

/-- The breaker opens when a configured minimum is not met. -/
def tripCircuitIfBreached : World :=
  let minBps := getMinReserveRatioBps world
  if minBps = 0 then world
  else if world.guards.solvencyCircuitOpen then world
  else if getReserveRatioBps world ≥ minBps then world
  else { world with guards := { world.guards with solvencyCircuitOpen := true } }

end Reserve

def markEnrolled (funds : Funds) (lp : Address) : Result Funds :=
  if funds.enrolled lp then .ok funds
  else do
    let count := funds.enrolledCount.getD 0
    require (count + 1 ≤ u32Max) .trap
    return { funds with
      enrolled := update funds.enrolled lp true
      enrolledCount := some (count + 1) }

def isEnrolled (world : World) (lp : Address) : Bool := world.funds.enrolled lp

def enroll (env : Env pool) (world : World) (lp : Address) : Result World := do
  require (env.signed lp = true) .trap
  let funds ← markEnrolled world.funds lp
  return { world with funds }

def topUpBackstop (env : Env pool) (world : World) (source : Address) (amount : Int) :
    Result World := do
  requireAdmin env world
  require (¬ amount ≤ 0) InsuranceError.invalidBackstopAmount
  require (env.signed source = true) .trap
  let newBackstop ← orFail (checked i128 (getBackstopBalance world + amount))
    InsuranceError.arithmeticOverflow
  let token ← getTokenAddress world
  let tokens ← transferToken env world.tokens token source pool amount
  return { world with funds := { world.funds with
    backstopBalance := some newBackstop }, tokens }

/-- The backstop entry is written only when it gets a share. -/
def creditBackstop (backstop : Option Int) (share : Int) : Result (Option Int) :=
  if share > 0 then some <$> orFail (checked i128 (backstop.getD 0 +
    share)) InsuranceError.arithmeticOverflow
  else .ok backstop

def depositPremium (env : Env pool) (world : World) (lp : Address) (amount : Int) :
    Result World := do
  require (env.signed lp = true) .trap
  require (¬ amount ≤ 0) InsuranceError.invalidAmount
  let enrolled ← markEnrolled world.funds lp
  let newPremium ← orFail (checked i128 ((enrolled.premiums lp).getD 0 + amount))
    InsuranceError.arithmeticOverflow
  let backstopShare := (saturate i128 (amount * getBackstopFundingBps world)).tdiv 10000
  let liquidShare := saturate i128 (amount - backstopShare)
  let newBalance ← orFail (checked i128 (enrolled.balance.getD 0 + liquidShare))
    InsuranceError.arithmeticOverflow
  -- the cap is for the liquid balance alone
  require (∀ cap ∈ world.guards.balanceCap, ¬ newBalance > cap) InsuranceError.balanceCapExceeded
  let newBackstop ← creditBackstop enrolled.backstopBalance backstopShare
  let token ← getTokenAddress world
  let tokens ← transferToken env world.tokens token lp pool amount
  return { world with
    funds := { enrolled with
      premiums := update enrolled.premiums lp (some newPremium)
      balance := some newBalance
      backstopBalance := newBackstop }
    tokens }

/-- The opt-in gate of a claim: evidence on record for the whole window. -/
def enforceClaimReviewGate (world : World) (invoiceId : Nat) : Result Unit :=
  let windowSeconds := world.guards.reviewWindowSeconds.getD 0
  if windowSeconds = 0 then .ok ()
  else do
    let evidence ← orFail (world.guards.claimEvidence invoiceId) InsuranceError.evidenceRequired
    require (¬ world.clock.timestamp < addCapped u64Max evidence.submittedAt windowSeconds)
      InsuranceError.reviewWindowNotElapsed

def payoutOf (world : World) (lp : Address) (available : Int) : Int :=
  if getTieredCoverage world lp < available then getTieredCoverage world lp else available

/-- The backstop entry is written only when it bears a part. -/
def debitBackstop (backstop : Option Int) (share : Int) : Result (Option Int) :=
  if share > 0 then some <$> orFail (checked i128 (backstop.getD 0 - share)) .trap
  else .ok backstop

/-- Nothing here asks whether `lp` is enrolled; the caller does. -/
def claim (env : Env pool) (world : World) (invoiceId : Nat) (lp : Address) :
    Result (World × Int) := do
  requireAdmin env world
  require (world.funds.claimed invoiceId = false) InsuranceError.alreadyClaimed
  require (world.guards.solvencyCircuitOpen = false) InsuranceError.solvencyCircuitOpen
  enforceClaimReviewGate world invoiceId
  let balance := getPoolBalance world
  let backstop := getBackstopBalance world
  let available := saturate i128 (balance + backstop)
  require (available > 0) InsuranceError.poolEmpty
  let payout := payoutOf world lp available
  let fromBalance := if payout < balance then payout else balance
  let fromBackstop := saturate i128 (payout - fromBalance)
  let newBalance ← orFail (checked i128 (balance - fromBalance)) .trap
  let newBackstop ← debitBackstop world.funds.backstopBalance fromBackstop
  let token ← getTokenAddress world
  let tokens ← transferToken env world.tokens token pool lp payout
  let paid := { world with
    funds := { world.funds with
      balance := some newBalance
      backstopBalance := newBackstop
      claimed := update world.funds.claimed invoiceId true }
    tokens }
  return (tripCircuitIfBreached paid, payout)

end InsurancePool
