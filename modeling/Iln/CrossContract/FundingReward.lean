import Iln.Distribution.Rewards
import Iln.Invoice.Contract

/-! `invoice_liquidity` with the `iln_distribution` contract it notifies. The reports are plain
invocations, so one that traps takes the call down with it. Volume is accrued to the unit but
rewarded by the full hundred USDC, and a report above the sanity ceiling is ignored. -/
namespace FundingReward

open Outcome FixedWidth Transition
open InvoiceLiquidity (Address Balances Clock)
open IlnDistribution (getAccrual getLpFundedVolume getFreelancerSettled getPayerOnTimeSettled
  totalEarned addLpVolume hundredUsdcStroops maxLpAccrualPerCall)

structure Site where
  liquidity : Address
  distribution : Address

structure System where
  invoice : InvoiceLiquidity.World
  distribution : IlnDistribution.World

variable {site : Site}

structure Host (site : Site) where
  env : InvoiceLiquidity.Env site.liquidity
  mintAuthority : (token : Address) → Bool
  mintReturns : Balances → (token holder : Address) → Int → Bool

def Host.reporting (host : Host site) : InvoiceLiquidity.Env site.liquidity :=
  { host.env with
    distributionReturns := fun address => decide (address = site.distribution) ||
      host.env.distributionReturns address }

/-- The environment of the distribution contract in a call that the invoice contract makes. -/
def Host.acting (host : Host site) : IlnDistribution.Env where
  signed address := decide (address = site.liquidity) || host.env.signed address
  mintAuthority := host.mintAuthority
  mintReturns := host.mintReturns

structure DistributionHost (site : Site) where
  env : IlnDistribution.Env
  unsigned : env.signed site.liquidity = false

section Machine

variable (system : System)

def System.withInvoice (next : InvoiceLiquidity.World) : System :=
  ⟨next, { system.distribution with tokens := next.treasury.balance }⟩

def System.withDistribution (next : IlnDistribution.World) : System :=
  ⟨{ system.invoice with treasury := { system.invoice.treasury with balance := next.tokens } },
    next⟩

def report (after : InvoiceLiquidity.World) : InvoiceLiquidity.Call → Option IlnDistribution.Call
  | .fundInvoice funder _ fundAmount _ => some (.accrueLp funder fundAmount)
  | .markPaid id _ => do
    let invoice ← after.book.invoices id
    -- an instalment leaves the invoice funded and reports nothing
    guard (invoice.status = .paid)
    return .accrueSettlement invoice.freelancer invoice.payer
      (decide (after.clock.timestamp ≤ invoice.dueDate))
  | _ => none

def reported (site : Site) (before after : InvoiceLiquidity.World) (call : InvoiceLiquidity.Call) :
    Option IlnDistribution.Call := do
  guard (before.control.distributionContract = some site.distribution)
  report after call

def deliver (host : Host site) (call : IlnDistribution.Call) : InvoiceLiquidity.Result System := do
  let next ← orFail (IlnDistribution.invoke host.acting system.distribution call) .trap
  return system.withDistribution next

def invokeInvoice (host : Host site) (call : InvoiceLiquidity.Call) :
    InvoiceLiquidity.Result System := do
  let next ← InvoiceLiquidity.invoke host.reporting system.invoice call
  match reported site system.invoice next call with
  | some report => deliver (system.withInvoice next) host report
  | none => return system.withInvoice next

inductive Action (site : Site) where
  | invoice (host : Host site) (call : InvoiceLiquidity.Call)
  | distribution (host : DistributionHost site) (call : IlnDistribution.Call)
  | credit (token holder : Address) (amount : Int)
  | advance (seconds ledgers : Nat)

def step (system : System) : Action site → System
  | .invoice host call =>
    match invokeInvoice system host call with
    | .ok next => next
    | .error _ => system
  | .distribution host call =>
    system.withDistribution (IlnDistribution.step system.distribution (.invoke host.env call))
  | .credit token holder amount =>
    let credit : InvoiceLiquidity.Action site.liquidity := .credit token holder amount
    system.withInvoice (InvoiceLiquidity.step system.invoice credit)
  | .advance seconds ledgers =>
    let advance : InvoiceLiquidity.Action site.liquidity := .advance seconds ledgers
    ⟨InvoiceLiquidity.step system.invoice advance, system.distribution⟩

def genesis (clock : Clock) (balance : Balances) : System :=
  ⟨InvoiceLiquidity.genesis clock balance, IlnDistribution.genesis balance⟩

def succeeds : Action site → Bool
  | .invoice host call => (invokeInvoice system host call).isOk
  | .distribution host call => (IlnDistribution.invoke host.env system.distribution call).isSome
  | _ => true

end Machine

section Accrual

variable {world : IlnDistribution.World} {participant : Address}

def exactReward (world : IlnDistribution.World) (participant : Address) : Int :=
  (getLpFundedVolume world participant).tdiv hundredUsdcStroops * world.rates.get .lp +
    getFreelancerSettled world participant * world.rates.get .freelancer +
    getPayerOnTimeSettled world participant * world.rates.get .payer

structure Unsaturated (world : IlnDistribution.World) (participant : Address) : Prop where
  lp : Fits i128 ((getLpFundedVolume world participant).tdiv hundredUsdcStroops *
    world.rates.get .lp)
  freelancer : Fits i128 (getFreelancerSettled world participant * world.rates.get .freelancer)
  payer : Fits i128 (getPayerOnTimeSettled world participant * world.rates.get .payer)
  both : Fits i128 ((getLpFundedVolume world participant).tdiv hundredUsdcStroops *
    world.rates.get .lp + getFreelancerSettled world participant * world.rates.get .freelancer)
  all : Fits i128 (exactReward world participant)

theorem Unsaturated.accrual (unsaturated : Unsaturated world participant) :
    getAccrual world participant = exactReward world participant := by
  simp only [getAccrual, totalEarned, saturate_of_fits unsaturated.lp,
    saturate_of_fits unsaturated.freelancer, saturate_of_fits unsaturated.payer,
    saturate_of_fits unsaturated.both]
  exact saturate_of_fits unsaturated.all

theorem accrual_lt_iff (world : IlnDistribution.World) {amount : Int}
    (rate : 0 < world.rates.get .lp) (positive : 0 < amount)
    (fits : Fits i128 (getLpFundedVolume world participant + amount))
    (before : Unsaturated world participant)
    (after : Unsaturated (addLpVolume world participant amount) participant) :
    getAccrual world participant < getAccrual (addLpVolume world participant amount) participant ↔
      amount ≤ maxLpAccrualPerCall ∧ (getLpFundedVolume world participant).tdiv hundredUsdcStroops <
          (getLpFundedVolume world participant + amount).tdiv hundredUsdcStroops := by
  by_cases ceiling : amount ≤ maxLpAccrualPerCall
  · have within : ¬ (amount ≤ 0 ∨ amount > maxLpAccrualPerCall) := by omega
    have volume : getLpFundedVolume (addLpVolume world participant amount) participant =
        getLpFundedVolume world participant + amount := by
      simp only [addLpVolume, if_neg within]
      simp only [getLpFundedVolume, Function.update_self, Option.getD_some]
      exact saturate_of_fits fits
    have rest : exactReward (addLpVolume world participant amount) participant =
        (getLpFundedVolume world participant + amount).tdiv hundredUsdcStroops *
        world.rates.get .lp +
          getFreelancerSettled world participant * world.rates.get .freelancer +
          getPayerOnTimeSettled world participant * world.rates.get .payer := by
      simp only [exactReward, volume]
      simp [addLpVolume, within, getFreelancerSettled, getPayerOnTimeSettled]
    rw [before.accrual, after.accrual, rest, exactReward]
    simp only [add_lt_add_iff_right, mul_lt_mul_iff_of_pos_right rate, ceiling, true_and]
  · have ignored : addLpVolume world participant amount = world := if_pos (.inr (not_le.mp ceiling))
    rw [ignored]
    simp [ceiling]

end Accrual

section Funding

variable {system next : System} {host : Host site}

theorem funded_accrues {funder : Address} {id : Nat} {fundAmount : Int} {verify : Bool}
    (wired : system.invoice.control.distributionContract = some site.distribution)
    (ran : invokeInvoice system host (.fundInvoice funder id fundAmount verify) = .ok next) :
    ∃ tokens, next.distribution = addLpVolume { system.distribution with tokens } funder
      fundAmount := by
  obtain ⟨invoice, _, delivers⟩ := bind_eq_ok.mp ran
  have told : reported site system.invoice invoice (.fundInvoice funder id fundAmount verify) =
      some (.accrueLp funder fundAmount) := by
    simp [reported, report, wired, guard]
  simp only [told, deliver, ok_iff] at delivers
  obtain ⟨_, accrues, rfl⟩ := delivers
  simp only [IlnDistribution.invoke, IlnDistribution.dispatch, IlnDistribution.accrueLp,
    Option.bind_eq_bind, Option.bind_eq_some_iff, Option.pure_def, Option.some.injEq] at accrues
  obtain ⟨_, _, _, _, rfl⟩ := accrues
  exact ⟨invoice.treasury.balance, rfl⟩

/-- Of a funding that returns, with a positive amount and LP rate and nothing clamped: the accrual
of the provider is higher afterwards exactly when the amount is within the ceiling of one report and
takes the volume of the provider past another full hundred USDC. -/
theorem funding_rewarded_iff (system : System) (host : Host site) (funder : Address) (id : Nat)
    (fundAmount : Int) (verify : Bool)
    (wired : system.invoice.control.distributionContract = some site.distribution)
    (rate : 0 < system.distribution.rates.get .lp) (positive : 0 < fundAmount)
    (finished : succeeds system (.invoice host (.fundInvoice funder id fundAmount verify)) = true)
    (fits : Fits i128 (getLpFundedVolume system.distribution funder + fundAmount))
    (before : Unsaturated system.distribution funder)
    (after : Unsaturated (step system
      (.invoice host (.fundInvoice funder id fundAmount verify))).distribution funder) :
    getAccrual system.distribution funder < getAccrual (step system
        (.invoice host (.fundInvoice funder id fundAmount verify))).distribution funder ↔
      fundAmount ≤ maxLpAccrualPerCall ∧
        (getLpFundedVolume system.distribution funder).tdiv hundredUsdcStroops <
          (getLpFundedVolume system.distribution funder + fundAmount).tdiv hundredUsdcStroops := by
  cases ran : invokeInvoice system host (.fundInvoice funder id fundAmount verify) with
  | error =>
    simp only [succeeds, ran] at finished
    cases finished
  | ok next =>
    have same : step system (.invoice host (.fundInvoice funder id fundAmount verify)) = next := by
      simp only [step, ran]
    obtain ⟨tokens, accrued⟩ := funded_accrues wired ran
    rw [same, accrued] at after ⊢
    have unclamped : Unsaturated { system.distribution with tokens } funder :=
      ⟨before.lp, before.freelancer, before.payer, before.both, before.all⟩
    exact accrual_lt_iff { system.distribution with tokens } rate positive fits unclamped after

def plainSite : Site := ⟨⟨0⟩, ⟨60⟩⟩

def plainHost (signers : List Nat) : Host plainSite where
  env := InvoiceLiquidity.stellarHost ⟨0⟩ (signers.map Address.mk) []
  mintAuthority _ := true
  mintReturns _ _ _ _ := true

theorem nobody_signs : (IlnDistribution.plainHost []).signed ⟨0⟩ = false := by decide

def awaiting (amount : Int) : List (Action plainSite) :=
  [.invoice (plainHost []) (.initializeContract ⟨1⟩ ⟨10⟩ ⟨11⟩ ⟨12⟩),
    .distribution ⟨IlnDistribution.plainHost [], nobody_signs⟩ (.initializeContract ⟨0⟩ ⟨20⟩),
    .invoice (plainHost [1]) (.setDistributionContract ⟨60⟩), .credit ⟨10⟩ ⟨3⟩ amount,
    .invoice (plainHost [5]) (.submitInvoice (InvoiceLiquidity.bill amount 300))]

def awaitingSystem (amount : Int) : System :=
  exec step (genesis ⟨1000, 10⟩ InvoiceLiquidity.marketBalances) (awaiting amount)

def fundsInFull (amount : Int) : Action plainSite := .invoice (plainHost [3])
    (.fundInvoice ⟨3⟩ 1 amount false)

/-- Two hundred USDC earn twice the rate. -/
theorem funding_rewarded_iff_of_awaiting :
    let system := awaitingSystem 2000000000
    succeeds system (fundsInFull 2000000000) = true ∧
      getAccrual system.distribution ⟨3⟩ <
        getAccrual (step system (fundsInFull 2000000000)).distribution ⟨3⟩ ∧
      getAccrual (step system (fundsInFull 2000000000)).distribution ⟨3⟩ = 20000000 := by
  have finished : succeeds (awaitingSystem 2000000000) (fundsInFull 2000000000) =
    true := by decide +kernel
  refine ⟨finished, ?_, by decide +kernel⟩
  refine (funding_rewarded_iff (awaitingSystem 2000000000) (plainHost [3]) ⟨3⟩ 1 2000000000 false
    (by decide +kernel) (by decide +kernel) (by decide) finished (by decide +kernel) ?_ ?_).mpr
    (by decide +kernel)
  all_goals exact ⟨by decide +kernel, by decide +kernel, by decide +kernel, by decide +kernel,
    by decide +kernel⟩

/-- Ninety-nine USDC earn nothing, and neither does a funding of two million. -/
theorem funding_unrewarded :
    let small := awaitingSystem 990000000
    let large := awaitingSystem 20000000000000
    (small.invoice.control.distributionContract = some plainSite.distribution ∧
      0 < small.distribution.rates.get .lp ∧ succeeds small (fundsInFull 990000000) = true ∧
      getAccrual (step small (fundsInFull 990000000)).distribution ⟨3⟩ =
        getAccrual small.distribution ⟨3⟩) ∧
    large.invoice.control.distributionContract = some plainSite.distribution ∧
      0 < large.distribution.rates.get .lp ∧ succeeds large (fundsInFull 20000000000000) = true ∧
      getAccrual (step large (fundsInFull 20000000000000)).distribution ⟨3⟩ =
        getAccrual large.distribution ⟨3⟩ := by
  decide +kernel

end Funding

end FundingReward
