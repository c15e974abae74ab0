import Iln.Distribution.Rates
import Iln.Foundation.Transition

/-! Accrual and claiming of rewards in `iln_distribution` as a machine. What a participant has
earned is computed from the accrued counts at the rates of the moment; what was claimed is stored
and only grows. A claim mints the difference. Every failure is a panic and changes nothing. -/
namespace IlnDistribution

open FixedWidth Function
open InvoiceLiquidity (Address Balances)

structure World where
  initialized : Bool
  rates : RateStore
  govToken : Option Address
  lpFundedVolume : Address → Option Int
  freelancerSettled : Address → Option Nat
  payerOnTimeSettled : Address → Option Nat
  claimed : Address → Option Int
  tokens : Balances

/-- What a call takes from outside: signatures, whether a token has this contract as its
administrator, and whether the token carries out a mint. -/
structure Env where
  signed : Address → Bool
  mintAuthority : (token : Address) → Bool
  mintReturns : Balances → (token holder : Address) → Int → Bool

section EntryPoints

def maxLpAccrualPerCall : Int := 10000000000000

def mint (tokens : Balances) (token holder : Address) (amount : Int) : Balances :=
  fun asset account => tokens asset account + (if asset = token ∧
    account = holder then amount else 0)

variable (env : Env) (world : World)

def initializeContract (ilnContract govToken : Address) : Option World := do
  guard (world.initialized = false)
  guard (env.mintAuthority govToken = true)
  return { world with
    initialized := true, rates := initialRates ilnContract, govToken := some govToken }

def requireIlnInvoker : Option Unit := requireGovernanceInvoker env.signed world.rates

def getLpFundedVolume (lp : Address) : Int := (world.lpFundedVolume lp).getD 0
def getFreelancerSettled (freelancer : Address) : Nat := (world.freelancerSettled freelancer).getD 0
def getPayerOnTimeSettled (payer : Address) : Nat := (world.payerOnTimeSettled payer).getD 0
def getClaimed (participant : Address) : Int := (world.claimed participant).getD 0

/-- An amount outside the sanity range is ignored. -/
def addLpVolume (lp : Address) (amount : Int) : World :=
  if amount ≤ 0 ∨ amount > maxLpAccrualPerCall then world
  else { world with
    lpFundedVolume := update world.lpFundedVolume lp
      (some (saturate i128 (getLpFundedVolume world lp + amount))) }

def accrueLp (lp : Address) (amount : Int) : Option World := do
  requireIlnInvoker env world
  return addLpVolume world lp amount

def addSettlement (freelancer payer : Address) (settledOnTime : Bool) : World :=
  { world with
    freelancerSettled := update world.freelancerSettled freelancer
      (some (addCapped u64Max (getFreelancerSettled world freelancer) 1))
    payerOnTimeSettled :=
      if settledOnTime then
        update world.payerOnTimeSettled payer
          (some (addCapped u64Max (getPayerOnTimeSettled world payer) 1))
      else world.payerOnTimeSettled }

def accrueSettlement (freelancer payer : Address) (settledOnTime : Bool) : Option World := do
  requireIlnInvoker env world
  return addSettlement world freelancer payer settledOnTime

/-- One LP reward for every full hundred USDC of the accrued volume. -/
def totalEarned (participant : Address) : Int :=
  let lpReward := saturate i128 ((getLpFundedVolume world participant).tdiv hundredUsdcStroops *
    world.rates.get .lp)
  let freelancerReward := saturate i128 (getFreelancerSettled world participant *
    world.rates.get .freelancer)
  let payerReward := saturate i128 (getPayerOnTimeSettled world participant *
    world.rates.get .payer)
  saturate i128 (saturate i128 (lpReward + freelancerReward) + payerReward)

def getAccrual (participant : Address) : Int := totalEarned world participant

/-- The amount minted is returned; when nothing is due nothing is asked of the token. -/
def claimTokens (claimer : Address) : Option (World × Int) := do
  guard (env.signed claimer = true)
  let claimable := saturate i128 (totalEarned world claimer - getClaimed world claimer)
  if claimable ≤ 0 then return (world, 0)
  else
    let govToken ← world.govToken
    guard (env.mintReturns world.tokens govToken claimer claimable = true)
    return ({ world with
      tokens := mint world.tokens govToken claimer claimable
      claimed := update world.claimed claimer
        (some (saturate i128 (getClaimed world claimer + claimable))) },
      claimable)

end EntryPoints

inductive Call where
  | initializeContract (ilnContract govToken : Address)
  | accrueLp (lp : Address) (amount : Int)
  | accrueSettlement (freelancer payer : Address) (settledOnTime : Bool)
  | claimTokens (claimer : Address)
  | setLpRewardRate (newRate : Int)
  | setFreelancerRewardRate (newRate : Int)
  | setPayerRewardRate (newRate : Int)
  deriving DecidableEq, Repr

def Call.wellTyped : Call → Bool
  | .accrueLp _ value | .setLpRewardRate value | .setFreelancerRewardRate value
  | .setPayerRewardRate value => decide (Fits i128 value)
  | _ => true

def setVia (world : World) (rates : Option RateStore) : Option World :=
  rates.map fun rates => { world with rates }

def dispatch (env : Env) (world : World) : Call → Option World
  | .initializeContract ilnContract govToken => initializeContract env world ilnContract govToken
  | .accrueLp lp amount => accrueLp env world lp amount
  | .accrueSettlement freelancer payer settledOnTime =>
    accrueSettlement env world freelancer payer settledOnTime
  | .claimTokens claimer => (claimTokens env world claimer).map Prod.fst
  | .setLpRewardRate newRate => setVia world (setLpRewardRate env.signed world.rates newRate)
  | .setFreelancerRewardRate newRate =>
    setVia world (setFreelancerRewardRate env.signed world.rates newRate)
  | .setPayerRewardRate newRate => setVia world (setPayerRewardRate env.signed world.rates newRate)

def invoke (env : Env) (world : World) (call : Call) : Option World := do
  guard (call.wellTyped = true)
  dispatch env world call

/-- A call, or a change of what somebody holds elsewhere. -/
inductive Action where
  | invoke (env : Env) (call : Call)
  | credit (token holder : Address) (amount : Int)

def step (world : World) : Action → World
  | .invoke env call => (invoke env world call).getD world
  | .credit token holder amount => { world with tokens := mint world.tokens token holder amount }

def genesis (tokens : Balances) : World where
  initialized := false
  rates := { ilnContract := none, rewardRate := fun _ => none }
  govToken := none
  lpFundedVolume _ := none
  freelancerSettled _ := none
  payerOnTimeSettled _ := none
  claimed _ := none
  tokens := tokens

def plainHost (signers : List Nat) : Env where
  signed address := decide (address.key ∈ signers)
  mintAuthority _ := true
  mintReturns _ _ _ _ := true

end IlnDistribution
