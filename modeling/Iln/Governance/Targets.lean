import Iln.Distribution.Rates
import Iln.Governance.ExecutionSafety
import Iln.Insurance.Settings
import Iln.Invoice.Contract
import Iln.ReputationBonus.Config

/-! The contracts that proposals call, and the host between them. An invocation reaches a setter
when the contract at its address exports the function and can decode the arguments. A contract
authorises the calls it makes itself; the calls its target makes in turn need an authorisation that
governance never gives. -/
namespace IlnGovernance

open Outcome FixedWidth Transition
open InvoiceLiquidity (Address Hash Clock OracleFeedType)
open IlnDistribution (RewardRate)

variable {contract : Address}

structure Site (contract : Address) where
  iln : Address
  distribution : Address
  insurance : Address
  reputationBonus : Address
  apart : [contract, iln, distribution, insurance, reputationBonus].Nodup

/-- An element of a stored list, as it was encoded by the caller: a tuple as a vector, a struct as a
map. -/
inductive TierVal where
  | tuple (minAmount : Int) (feeRateBps : Nat)
  | map (tier : FeeTierConfig)
  deriving DecidableEq, Repr

def TierVal.asTuple : TierVal → Option (Int × Nat)
  | .tuple minAmount feeRateBps => some (minAmount, feeRateBps)
  | .map _ => none

/-- The storage of the targets. `tierSlot` is what the ILN contract has stored as its fee tiers and
`code` the hash of the code it runs. -/
structure Targets where
  invoice : InvoiceLiquidity.World
  tierSlot : List TierVal
  code : Hash
  distribution : IlnDistribution.RateStore
  insurance : InsurancePool.Settings
  reputationBonus : ReputationBonus.ConfigStore

/-- The host decodes the elements of a list when they are read. -/
def Targets.feeTiers (targets : Targets) : Option (List (Int × Nat)) :=
    targets.tierSlot.mapM TierVal.asTuple

/-- `effective_fee_rate` on the stored list; it traps at an element that is no tuple. -/
def Targets.effectiveFeeRate (targets : Targets) (amount : Int) : Option Nat :=
  targets.feeTiers.map fun tiers =>
    InvoiceLiquidity.effectiveFeeRate { targets.invoice.control with feeTiers := tiers } amount

/-- What the targets take from outside: tokens and oracles, and the code uploaded to the ledger. -/
structure Host (site : Site contract) where
  outside : InvoiceLiquidity.Env site.iln
  uploaded : Hash → Bool

/-- Governance knows its targets and administers them. -/
structure Wired (site : Site contract) (parameters : Parameters) (targets : Targets) : Prop where
  iln : parameters.ilnContract = some site.iln
  distribution : parameters.distributionContract = some site.distribution
  reputationBonus : parameters.reputationBonusContract = some site.reputationBonus
  invoiceAdmin : targets.invoice.control.admin = some contract
  rewarder : targets.distribution.ilnContract = some contract
  insuranceAdmin : targets.insurance.admin = some contract
  bonusAdmin : targets.reputationBonus.admin = some contract

theorem Site.iln_ne (site : Site contract) : site.iln ≠ contract := by
  have apart := site.apart
  simp only [List.nodup_cons, List.mem_cons, not_or] at apart
  exact fun same => apart.1.1 same.symm

theorem Host.acting_unsigned {site : Site contract} (host : Host site) :
    (decide (site.iln = contract) || host.outside.signed site.iln) = false := by
  simp [site.iln_ne, host.outside.unsigned]

/-- The ILN contract's environment in a call by governance. With `deep` the authorisation of
governance covers the transfers that the call makes out of its account. -/
def Host.acting {site : Site contract} (host : Host site) (deep : Bool) :
    InvoiceLiquidity.Env site.iln :=
  { host.outside with
    signed := fun address => decide (address = contract) || host.outside.signed address
    unsigned := host.acting_unsigned
    transferReturns := fun balance token source target amount =>
      (deep || decide (source ≠ contract)) && host.outside.transferReturns balance token source
        target amount }

section Calls

inductive TargetCall where
  | invoice (call : InvoiceLiquidity.Call)
  | feeTiers (tiers : List TierVal)
  | upgrade (newWasmHash : Hash)
  | rewardRate (kind : RewardRate) (rate : Int)
  | coverage (cap : Int)
  | premiumRate (rateBps : Nat)
  | updateConfig (caller : Address) (config : ReputationBonus.Config)
  deriving DecidableEq, Repr

def ilnExports : TargetFunction → List Val → Option TargetCall
  | .updateFeeRate, [.u32 rate] => some (.invoice (.updateFeeRate rate))
  | .addToken, [.address token, .u32 decimals] => some (.invoice (.addToken token decimals))
  | .removeToken, [.address token] => some (.invoice (.removeToken token))
  | .updateMaxDiscount, [.u32 rate] => some (.invoice (.updateMaxDiscount rate))
  | .updateDecayParams, [.u32 rateBps, .u64 periodLedgers] =>
    some (.invoice (.updateDecayParams rateBps periodLedgers))
  | .updateFeeTiers, [.tiers tiers] => some (.feeTiers (tiers.map .map))
  | .upgrade, [.bytes newWasmHash] => some (.upgrade newWasmHash)
  | .registerOracle, [.feed feed, .address oracle] => some (.invoice (.registerOracle feed oracle))
  | .removeOracle, [.feed feed] => some (.invoice (.removeOracle feed))
  | .registerTokenOracle, [.feed feed, .address token, .address oracle] =>
    some (.invoice (.registerTokenOracle feed token oracle))
  | .setMaxInvoiceAmount, [.i128 cap] => some (.invoice (.setMaxInvoiceAmount cap))
  | .setTokenVolumeCap, [.address token, .i128 cap] =>
    some (.invoice (.setTokenVolumeCap token cap))
  | _, _ => none

def distributionExports : TargetFunction → List Val → Option TargetCall
  | .setLpRewardRate, [.i128 rate] => some (.rewardRate .lp rate)
  | .setFreelancerRewardRate, [.i128 rate] => some (.rewardRate .freelancer rate)
  | .setPayerRewardRate, [.i128 rate] => some (.rewardRate .payer rate)
  | _, _ => none

def insuranceExports : TargetFunction → List Val → Option TargetCall
  | .setCoverageViaGovernance, [.i128 cap] => some (.coverage cap)
  | .setPremiumRateViaGovernance, [.u32 rateBps] => some (.premiumRate rateBps)
  | _, _ => none

def reputationBonusExports : TargetFunction → List Val → Option TargetCall
  | .updateConfig,
    [.address caller, .u32 highRepThreshold, .u32 bonusBps, .u32 minDiscountRateBps] =>
    some (.updateConfig caller ⟨highRepThreshold, bonusBps, minDiscountRateBps⟩)
  | _, _ => none

/-- The setter that the contract at the invoked address exports, if there is one. -/
def decode (site : Site contract) (invocation : Invocation) : Option TargetCall :=
  if invocation.target = site.iln then ilnExports invocation.function invocation.arguments
  else if invocation.target = site.distribution then
    distributionExports invocation.function invocation.arguments
  else if invocation.target = site.insurance then
    insuranceExports invocation.function invocation.arguments
  else if invocation.target = site.reputationBonus then
    reputationBonusExports invocation.function invocation.arguments
  else none

variable {site : Site contract}

theorem decode_iln (function : TargetFunction) (arguments : List Val) :
    decode site ⟨site.iln, function, arguments⟩ = ilnExports function arguments := if_pos rfl

theorem decode_distribution (function : TargetFunction) (arguments : List Val) :
    decode site ⟨site.distribution, function, arguments⟩ =
      distributionExports function arguments := by
  have apart := site.apart
  simp only [List.nodup_cons, List.mem_cons, not_or] at apart
  have other : site.distribution ≠ site.iln := fun same => apart.2.1.1 same.symm
  rw [decode, if_neg other, if_pos rfl]

theorem decode_reputationBonus (function : TargetFunction) (arguments : List Val) :
    decode site ⟨site.reputationBonus, function, arguments⟩ =
      reputationBonusExports function arguments := by
  have apart := site.apart
  simp only [List.nodup_cons, List.mem_cons, not_or] at apart
  obtain ⟨_, ⟨_, _, iln, _⟩, ⟨_, distribution, _⟩, ⟨insurance, _⟩, _⟩ := apart
  rw [decode, if_neg (Ne.symm iln), if_neg (Ne.symm distribution), if_neg (Ne.symm insurance),
    if_pos rfl]

/-- The ILN contract is called in the ledger of the transaction. -/
def runInvoice (host : Host site) (deep : Bool) (clock : Clock) (targets : Targets)
    (call : InvoiceLiquidity.Call) : Option Targets :=
  (InvoiceLiquidity.invoke (host.acting deep) { targets.invoice with clock } call).toOption.map
    fun invoice => { targets with invoice }

/-- A setter called by governance; no result when it fails. -/
def TargetCall.run (host : Host site) (deep : Bool) (clock : Clock) (targets : Targets) :
    TargetCall → Option Targets
  | .invoice call => runInvoice host deep clock targets call
  -- of the list that it stores, `update_fee_tiers` reads nothing but the length
  | .feeTiers tiers =>
    (runInvoice host deep clock targets
      (.updateFeeTiers (tiers.map fun tier => tier.asTuple.getD (0, 0)))).map
      fun next => { next with tierSlot := tiers }
  | .upgrade newWasmHash => do
    let upgraded ← runInvoice host deep clock targets .upgrade
    guard (host.uploaded newWasmHash = true)
    return { upgraded with code := newWasmHash }
  | .rewardRate kind rate =>
    (IlnDistribution.setRewardRate (host.acting deep).signed targets.distribution kind rate).map
      fun distribution => { targets with distribution }
  | .coverage cap =>
    (InsurancePool.setCoverageViaGovernance (host.acting deep).signed targets.insurance
      cap).toOption.map
      fun insurance => { targets with insurance }
  | .premiumRate rateBps =>
    (InsurancePool.setPremiumRateViaGovernance (host.acting deep).signed targets.insurance
      rateBps).toOption.map
      fun insurance => { targets with insurance }
  | .updateConfig caller config =>
    (ReputationBonus.updateConfig (host.acting deep).signed targets.reputationBonus caller
      config).toOption.map
      fun reputationBonus => { targets with reputationBonus }

def answer (host : Host site) (clock : Clock) (targets : Targets) (invocation : Invocation) :
    Option Targets :=
  (decode site invocation).bind (TargetCall.run host false clock targets)

def Env.answering (env : Env contract) (returns : Invocation → Bool) : Env contract :=
  { env with invocationReturns := returns }

/-- `execute_proposal` together with its target: an error rolls both back, and a failed target call
leaves the targets alone. -/
def executeAcross (host : Host site) (env : Env contract) (world : World) (targets : Targets)
    (id : Nat) :
    Result (World × Targets) := do
  let answers := answer host world.clock targets
  let next ← invoke (env.answering fun invocation => (answers invocation).isSome) world
    (.executeProposal id)
  return (next, ((invocationOf contract world id).bind answers).getD targets)

end Calls

end IlnGovernance
