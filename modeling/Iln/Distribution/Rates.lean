import Iln.Invoice.State

/-! The reward rates of `iln_distribution` (`iln_distribution/src/lib.rs`). Each setter asks for the
authorisation of the stored `IlnContract` and accepts any value. Every failure is a panic. -/
namespace IlnDistribution

open InvoiceLiquidity (Address)

def halfToken : Int := 5000000
def hundredUsdcStroops : Int := 1000000000

inductive RewardRate where
  | lp | freelancer | payer
  deriving DecidableEq, Repr

def RewardRate.default : RewardRate → Int
  | .lp => 10000000
  | .freelancer | .payer => halfToken

/-- The stored addresses and rates; what participants have accrued is not read by the setters. -/
structure RateStore where
  ilnContract : Option Address
  rewardRate : RewardRate → Option Int

/-- What `initialize` stores of it, once the mint authority is verified. -/
def initialRates (ilnContract : Address) : RateStore where
  ilnContract := some ilnContract
  rewardRate kind := some kind.default

variable (signed : Address → Bool) (store : RateStore)

def requireGovernanceInvoker : Option Unit := do
  let ilnContract ← store.ilnContract
  guard (signed ilnContract = true)

def setRewardRate (kind : RewardRate) (newRate : Int) : Option RateStore := do
  requireGovernanceInvoker signed store
  return { store with rewardRate := Function.update store.rewardRate kind (some newRate) }

def setLpRewardRate (newRate : Int) : Option RateStore := setRewardRate signed store .lp newRate
def setFreelancerRewardRate (newRate : Int) : Option RateStore :=
    setRewardRate signed store .freelancer newRate
def setPayerRewardRate (newRate : Int) : Option RateStore :=
    setRewardRate signed store .payer newRate

def RateStore.get (store : RateStore) (kind : RewardRate) : Int :=
  (store.rewardRate kind).getD kind.default

variable {signed store}

theorem setRewardRate_get {kind : RewardRate} {newRate : Int} {next : RateStore}
    (ran : setRewardRate signed store kind newRate = some next) (other : RewardRate) :
    next.get other = if other = kind then newRate else store.get other := by
  simp only [setRewardRate, Option.bind_eq_bind, Option.bind_eq_some_iff, Option.pure_def,
    Option.some.injEq] at ran
  obtain ⟨_, _, rfl⟩ := ran
  by_cases here : other = kind
  · subst here
    simp [RateStore.get]
  · simp [RateStore.get, here]

end IlnDistribution
