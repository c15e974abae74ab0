import Iln.Insurance.PremiumRate
import Iln.ReputationBonus.Counters

/-! `insurance_pool` with `reputation_bonus` as the contract it asks for reputations.
`get_reputation` returns the whole `ReputationScore` and the pool reads the answer as a number, so
it always works with the score 0. The pool only reads, so every pair of runs is a state of the
system. -/
namespace ReputationDiscount

open FixedWidth Transition
open InvoiceLiquidity (Address Balances Clock)
open InsurancePool (Val ReputationAnswer calculatePremiumRateBps pricedRate pricedRate_mono
  pricedRate_between discountedDefaults discountedDefaults_zero getDefaultCount
  getBasePremiumRateBps getRiskMultiplierNumerator getRiskMultiplierDenominator RatesValid)
open ReputationBonus (ReputationScore readReputation)

/-- The structure as it is returned to another contract, its fields in order of their names. -/
def intoVal (reputation : ReputationScore) : Val :=
  .map [("invoices_defaulted", reputation.invoicesDefaulted),
    ("invoices_paid", reputation.invoicesPaid),
    ("invoices_submitted", reputation.invoicesSubmitted), ("score", reputation.score)]

def reputationAt (bonus : Address) (world : ReputationBonus.World) (elsewhere : ReputationAnswer) :
    ReputationAnswer :=
  fun contract lp => if contract = bonus then some (intoVal (readReputation world lp))
    else elsewhere contract lp

def formula (world : InsurancePool.World) (defaults score : Nat) : Int :=
  pricedRate (getBasePremiumRateBps world.settings) (getRiskMultiplierNumerator world)
    (getRiskMultiplierDenominator world) defaults score

def riskPart (world : InsurancePool.World) (defaults score : Nat) : Int :=
  discountedDefaults defaults score * getRiskMultiplierNumerator world * 10000 /
    getRiskMultiplierDenominator world

/-- A discount would not show: rounded down, the risk part is the one of all defaults, or the rate
is at its cap all the same. -/
def DiscountIdle (world : InsurancePool.World) (defaults score : Nat) : Prop :=
  (defaults * getRiskMultiplierNumerator world * 10000 ≤ i128.hi ∧
      riskPart world defaults score = riskPart world defaults 0) ∨
    formula world defaults score = 10000

instance (world : InsurancePool.World) (defaults score : Nat) :
    Decidable (DiscountIdle world defaults score) :=
  inferInstanceAs (Decidable (_ ∨ _))

section Undiscounted

variable {world : InsurancePool.World} {bonus : Address} (reputation : ReputationBonus.World)
  (elsewhere : ReputationAnswer)

theorem discount_unread (configured : world.risk.reputationContract = some bonus) (lp : Address)
    (defaults : Nat) :
    InsurancePool.applyReputationDiscount (reputationAt bonus reputation elsewhere) world
      lp defaults = discountedDefaults defaults 0 := by
  apply InsurancePool.applyReputationDiscount_unread
  intro contract stored val answered
  obtain rfl : bonus = contract := Option.some.inj (configured.symm.trans stored)
  rw [reputationAt, if_pos rfl] at answered
  cases answered
  rfl

theorem formula_mono (valid : RatesValid world) {defaults more score less : Nat}
    (fewer : defaults ≤ more) (lower : less ≤ score) (percent : score ≤ 100) :
    formula world defaults score ≤ formula world more less :=
  pricedRate_mono valid.inForce fewer lower percent

theorem formula_between (valid : RatesValid world) (defaults : Nat) {score : Nat}
    (percent : score ≤ 100) :
    getBasePremiumRateBps world.settings ≤ formula world defaults score ∧
      formula world defaults score ≤ 10000 :=
  pricedRate_between valid.inForce valid.base percent

theorem rate_undiscounted (valid : RatesValid world)
    (configured : world.risk.reputationContract = some bonus) (lp : Address) :
    getDefaultCount world lp * getRiskMultiplierNumerator world * 10000 ≤ i128.hi ∧
        calculatePremiumRateBps (reputationAt bonus reputation elsewhere) world lp =
          formula world (getDefaultCount world lp) 0 ∨
      i128.hi < getDefaultCount world lp * getRiskMultiplierNumerator world * 10000 ∧
        calculatePremiumRateBps (reputationAt bonus reputation elsewhere) world lp = 10000 := by
  have discount := discount_unread reputation elsewhere configured lp (getDefaultCount world lp)
  rcases lt_or_ge i128.hi (getDefaultCount world lp * getRiskMultiplierNumerator world * 10000) with
    overflow | fits
  · refine .inr ⟨overflow, ?_⟩
    rw [discountedDefaults_zero] at discount
    exact InsurancePool.calculatePremiumRateBps_of_overflow valid.inForce.2.ne' discount overflow
  · refine .inl ⟨fits, InsurancePool.calculatePremiumRateBps_eq valid (Nat.zero_le _) discount ?_⟩
    rwa [discountedDefaults_zero]

theorem formula_eq_iff {defaults score less : Nat} :
    formula world defaults less = formula world defaults score ↔
      riskPart world defaults score = riskPart world defaults less ∨
        formula world defaults less = 10000 ∧ formula world defaults score = 10000 := by
  simp only [formula, pricedRate, riskPart]
  omega

theorem rate_eq_iff (valid : RatesValid world)
    (configured : world.risk.reputationContract = some bonus) {lp : Address} {score : Nat}
    (percent : score ≤ 100) :
    (calculatePremiumRateBps (reputationAt bonus reputation elsewhere) world lp : Int) =
        formula world (getDefaultCount world lp) score ↔
      DiscountIdle world (getDefaultCount world lp) score := by
  unfold DiscountIdle
  rcases rate_undiscounted reputation elsewhere valid configured lp with
    ⟨fits, rate⟩ | ⟨overflow, rate⟩
  · rw [rate, formula_eq_iff, and_iff_right fits]
    refine or_congr_right (and_iff_right_of_imp fun capped => ?_)
    have top := (formula_between valid (getDefaultCount world lp) (Nat.zero_le 100)).2
    have above := formula_mono valid (le_refl (getDefaultCount world lp))
      (Nat.zero_le score) percent
    rw [capped] at above
    exact le_antisymm top above
  · rw [rate, or_iff_right fun same => absurd same.1 (not_le.mpr overflow)]
    exact eq_comm

end Undiscounted

/-- The rate follows the formula exactly when the discount is idle. It lies between the base rate
and the cap in any case, and so does the formula, which grows with the defaults and falls with the
score. -/
theorem premium_rate_priced_iff {pool : Address} (clock : Clock) (tokens : Balances)
    (poolActions : List (InsurancePool.Action pool)) (timestamp : Nat)
    (bonusActions : List ReputationBonus.Action) (bonus lp : Address)
    (elsewhere : ReputationAnswer) :
    let world := exec InsurancePool.step (InsurancePool.genesis clock tokens) poolActions
    let reputation := exec ReputationBonus.step (ReputationBonus.genesis timestamp) bonusActions
    let defaults := getDefaultCount world lp
    let score := (readReputation reputation lp).score
    let base : Int := getBasePremiumRateBps world.settings
    let rate : Int := calculatePremiumRateBps (reputationAt bonus reputation elsewhere) world lp
    world.risk.reputationContract = some bonus → score ≤ 100 ∧
      (rate = formula world defaults score ↔ DiscountIdle world defaults score) ∧
      (base ≤ rate ∧ rate ≤ 10000) ∧
      (base ≤ formula world defaults score ∧ formula world defaults score ≤ 10000) ∧
      ∀ fewer more less higher, fewer ≤ more → less ≤ higher → higher ≤ 100 →
        formula world fewer higher ≤ formula world more less := by
  intro world reputation defaults score base rate configured
  have valid : RatesValid world := InsurancePool.exec_ratesValid clock tokens poolActions
  have percent : score ≤ 100 := (ReputationBonus.exec_counters timestamp bonusActions).percent lp
  refine ⟨percent, rate_eq_iff reputation elsewhere valid configured percent, ?_,
    formula_between valid defaults percent, fun _ _ _ _ => formula_mono valid⟩
  rcases rate_undiscounted reputation elsewhere valid configured lp with
    ⟨_, undiscounted⟩ | ⟨_, capped⟩
  · have whole : rate = formula world defaults 0 := undiscounted
    rw [whole]
    exact formula_between valid defaults (Nat.zero_le _)
  · have top : rate = 10000 := congrArg Nat.cast capped
    have low : base ≤ 10000 := Int.ofNat_le.mpr valid.base
    rw [top]
    exact ⟨low, le_rfl⟩

def riskyPool (denominator : Int) : List (InsurancePool.Action ⟨0⟩) :=
  [InsurancePool.signedBy [1] (.initializeContract ⟨1⟩ 100 ⟨9⟩),
    InsurancePool.signedBy [1] (.setReputationContract ⟨70⟩),
    InsurancePool.signedBy [1] (.setRiskMultiplier 1 denominator),
    InsurancePool.signedBy [1] (.incrementDefaultCount ⟨3⟩),
    InsurancePool.signedBy [1] (.incrementDefaultCount ⟨3⟩)]

def riskyWorld (denominator : Int) : InsurancePool.World :=
  exec InsurancePool.step (InsurancePool.genesis ⟨1000, 10⟩ fun _ _ => 0) (riskyPool denominator)

def ratedBonus : ReputationBonus.World :=
  exec ReputationBonus.step (ReputationBonus.genesis 0) ReputationBonus.selfInvoice

-- with a multiplier this small, two defaults cost nothing, with or without a discount
theorem premium_rate_priced_iff_of_smallMultiplier :
    (readReputation ratedBonus ⟨3⟩).score = 66 ∧
      (calculatePremiumRateBps (reputationAt ⟨70⟩ ratedBonus fun _ _ => none) (riskyWorld 1000000)
        ⟨3⟩ : Int) = formula (riskyWorld 1000000) 2 66 :=
  ⟨by decide +kernel, (premium_rate_priced_iff ⟨1000, 10⟩ (fun _ _ => 0) (riskyPool 1000000) 0
    ReputationBonus.selfInvoice ⟨70⟩ ⟨3⟩ (fun _ _ => none) (by decide +kernel)).2.1.mpr
    (by decide +kernel)⟩

-- of the two defaults none would count
theorem reputation_unread :
    (riskyWorld 100).risk.reputationContract = some ⟨70⟩ ∧
      getDefaultCount (riskyWorld 100) ⟨3⟩ = 2 ∧
      (readReputation ratedBonus ⟨3⟩).score = 66 ∧ formula (riskyWorld 100) 2 66 = 500 ∧
      calculatePremiumRateBps (reputationAt ⟨70⟩ ratedBonus fun _ _ => none)
        (riskyWorld 100) ⟨3⟩ = 700 := by
  decide +kernel

end ReputationDiscount
