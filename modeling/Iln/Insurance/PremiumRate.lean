import Iln.Insurance.Effect

/-! The premium rate of an LP (`calculate_premium_rate_bps`): the base rate plus a risk part for the
recorded defaults, which the reputation contract is asked to discount. A score is taken from the
answer only when the answer is a plain number. -/
namespace InsurancePool

open Outcome FixedWidth Transition
open InvoiceLiquidity (Address Balances Clock)

/-- A value returned by another contract: a number, or a structure, which travels as a map from its
field names. -/
inductive Val where
  | u32 (value : Nat)
  | map (entries : List (String × Nat))
  deriving DecidableEq, Repr

def u32TryFromVal : Val → Option Nat
  | .u32 value => some value
  | .map _ => none

/-- The answer of the contract at an address to `get_reputation`, unless the call fails. -/
abbrev ReputationAnswer := (contract lp : Address) → Option Val

section Rate

variable (answer : ReputationAnswer) (world : World)

def getDefaultCount (lp : Address) : Nat := (world.risk.defaultCount lp).getD 0

def getRiskMultiplierNumerator : Int := (world.risk.multiplier.map RiskMultiplier.numerator).getD 1
def getRiskMultiplierDenominator : Int :=
  (world.risk.multiplier.map RiskMultiplier.denominator).getD 1

def checkedDiv (value divisor : Int) : Option Int :=
    if divisor = 0 then none else checked i128 (value.tdiv divisor)

def applyReputationDiscount (lp : Address) (defaultCount : Int) : Int :=
  match world.risk.reputationContract with
  | none => defaultCount
  | some contract =>
    match answer contract lp with
    | some val =>
      let score := (u32TryFromVal val).getD 0
      ((checked i128 (defaultCount * (100 - (score : Int)))).bind (checkedDiv · 100)).getD
        defaultCount
    | none => defaultCount

def calculatePremiumRateBps (lp : Address) : Nat :=
  let baseRate := getBasePremiumRateBps world.settings
  let numerator := getRiskMultiplierNumerator world
  let denominator := getRiskMultiplierDenominator world
  if denominator = 0 then baseRate
  else
    let effectiveDefaultCount := applyReputationDiscount answer world lp (getDefaultCount world lp)
    let riskAdjustment := (((checked i128 (effectiveDefaultCount * numerator)).bind fun value =>
      checked i128 (value * 10000)).bind (checkedDiv · denominator)).getD 10000
    let totalRate := saturate i128 ((baseRate : Int) + riskAdjustment)
    -- the last branch is the cast to `u32`
    if totalRate > 10000 then 10000 else (totalRate % 4294967296).toNat

end Rate

section Formula

def discountedDefaults (defaults score : Nat) : Int :=
  (defaults : Int) * (100 - (score : Int)) / 100

def pricedRate (base : Nat) (numerator denominator : Int) (defaults score : Nat) : Int :=
  min 10000 ((base : Int) + discountedDefaults defaults score * numerator * 10000 / denominator)

variable {numerator denominator : Int} {defaults more score less base : Nat}

theorem discountedDefaults_nonneg (percent : score ≤ 100) : 0 ≤ discountedDefaults defaults score :=
  Int.ediv_nonneg (mul_nonneg (Int.natCast_nonneg _) (by omega)) (by decide)

theorem discountedDefaults_zero : discountedDefaults defaults 0 = defaults := by
  unfold discountedDefaults
  omega

theorem discountedDefaults_mono (fewer : defaults ≤ more) (lower : less ≤ score)
    (percent : score ≤ 100) : discountedDefaults defaults score ≤ discountedDefaults more less := by
  apply Int.ediv_le_ediv (by decide)
  apply mul_le_mul (by omega) (by omega) (by omega) (Int.natCast_nonneg _)

theorem pricedRate_mono (valid : 0 ≤ numerator ∧ 0 < denominator) (fewer : defaults ≤ more)
    (lower : less ≤ score) (percent : score ≤ 100) :
    pricedRate base numerator denominator defaults score ≤
      pricedRate base numerator denominator more less := by
  apply min_le_min le_rfl
  apply add_le_add le_rfl
  apply Int.ediv_le_ediv valid.2
  apply mul_le_mul_of_nonneg_right _ (by decide)
  exact mul_le_mul_of_nonneg_right (discountedDefaults_mono fewer lower percent) valid.1

theorem pricedRate_between (valid : 0 ≤ numerator ∧ 0 < denominator) (bounded : base ≤ 10000)
    (percent : score ≤ 100) :
    (base : Int) ≤ pricedRate base numerator denominator defaults score ∧
      pricedRate base numerator denominator defaults score ≤ 10000 := by
  have risk : 0 ≤ discountedDefaults defaults score * numerator * 10000 / denominator :=
    Int.ediv_nonneg (mul_nonneg (mul_nonneg (discountedDefaults_nonneg percent) valid.1)
      (by decide)) valid.2.le
  exact ⟨le_min (by omega) (by omega), min_le_left _ _⟩

end Formula

section Validity

def RiskMultiplier.Valid (multiplier : RiskMultiplier) : Prop := 0 ≤ multiplier.numerator ∧
    0 < multiplier.denominator

/-- The rates in force, and those that a timelock may put in force, are in range. -/
structure RatesValid (world : World) : Prop where
  base : getBasePremiumRateBps world.settings ≤ 10000
  multiplier : ∀ multiplier ∈ world.risk.multiplier, multiplier.Valid
  pending : ∀ multiplier ∈ world.timelocks.riskMultiplier.pending, multiplier.Valid

def Call.RatesChecked : Call → Prop
  | .setBasePremiumRateBps rateBps | .setPremiumRateViaGovernance rateBps => rateBps ≤ 10000
  | .setRiskMultiplier numerator denominator | .proposeRiskMultiplier numerator denominator =>
    0 ≤ numerator ∧ 0 < denominator
  | _ => True

variable {pool : Address} {env : Env pool} {world next : World} {call : Call}

theorem dispatch_ratesChecked (ran : dispatch env world call = .ok next) : call.RatesChecked := by
  cases call with
  | setBasePremiumRateBps =>
    obtain ⟨_, inRange, _⟩ := administered_checked_eq_ok.mp ran
    exact not_lt.mp (not_or.mp inRange).2
  | setPremiumRateViaGovernance =>
    simp only [dispatch, setVia, setPremiumRateViaGovernance, ok_iff] at ran
    obtain ⟨_, ⟨_, _, _, _, _, inRange, _⟩, _⟩ := ran
    exact not_lt.mp (not_or.mp inRange).2
  | setRiskMultiplier numerator denominator | proposeRiskMultiplier numerator denominator =>
    obtain ⟨_, inRange, _⟩ := administered_checked_eq_ok.mp ran
    exact ⟨not_lt.mp (not_or.mp inRange).1, not_le.mp (not_or.mp inRange).2⟩
  | _ => trivial

theorem Change.ratesValid (change : Change env world call next) (checked : call.RatesChecked)
    (valid : RatesValid world) : RatesValid next := by
  obtain ⟨base, multiplier, pending⟩ := valid
  cases change with
  | rateSet | rateGoverned => exact ⟨checked, multiplier, pending⟩
  | multiplierSet =>
    refine ⟨base, ?_, pending⟩
    rintro _ ⟨⟩
    exact checked
  | multiplierProposed =>
    refine ⟨base, multiplier, ?_⟩
    rintro _ ⟨⟩
    exact checked
  | multiplierExecuted due =>
    refine ⟨base, ?_, (by rintro _ ⟨⟩)⟩
    rintro _ ⟨⟩
    exact pending _ (executable_eq_ok.mp due).1
  | multiplierCancelled => exact ⟨base, multiplier, (by rintro _ ⟨⟩)⟩
  | defaultCounted _ same | pairCounted _ same => exact ⟨base, same ▸ multiplier, pending⟩
  | paid =>
    rw [tripCircuitIfBreached_eq]
    exact ⟨base, multiplier, pending⟩
  | _ => exact ⟨base, multiplier, pending⟩

theorem genesis_ratesValid (clock : Clock) (tokens : Balances) :
    RatesValid (genesis clock tokens) :=
  ⟨show 500 ≤ 10000 by decide, (by rintro _ ⟨⟩), (by rintro _ ⟨⟩)⟩

theorem step_ratesValid (world : World) (action : Action pool) (valid : RatesValid world) :
    RatesValid (step world action) := by
  cases action with
  | invoke env call =>
    simp only [step]
    cases ran : invoke env world call with
    | error => exact valid
    | ok =>
      have change := (invoke_change ran).2
      simp only [invoke, ok_iff] at ran
      obtain ⟨_, _, runs⟩ := ran
      exact change.ratesValid (dispatch_ratesChecked runs) valid
  | credit token holder amount | advance seconds ledgers =>
    exact ⟨valid.base, valid.multiplier, valid.pending⟩

theorem exec_ratesValid (clock : Clock) (tokens : Balances) (actions : List (Action pool)) :
    RatesValid (exec step (genesis clock tokens) actions) :=
  invariant RatesValid step_ratesValid actions (genesis_ratesValid clock tokens)

theorem RatesValid.inForce (valid : RatesValid world) :
    0 ≤ getRiskMultiplierNumerator world ∧ 0 < getRiskMultiplierDenominator world := by
  unfold getRiskMultiplierNumerator getRiskMultiplierDenominator
  cases stored : world.risk.multiplier with
  | none => decide
  | some multiplier => exact valid.multiplier multiplier stored

end Validity

section Pricing

variable {answer : ReputationAnswer} {world : World} {lp : Address}

theorem checkedDiv_of_nonneg {value divisor : Int} (nonneg : 0 ≤ value) (fits : value ≤ i128.hi)
    (positive : 0 < divisor) : checkedDiv value divisor = some (value / divisor) := by
  unfold checkedDiv
  rw [if_neg positive.ne', Int.tdiv_eq_ediv_of_nonneg nonneg]
  apply checked_of_fits
  exact fits_of_nonneg_le ⟨i128.nonpos.trans nonneg, fits⟩ (Int.ediv_nonneg nonneg positive.le)
    (Int.ediv_le_self _ nonneg)

/-- Neither the clamping of the sum nor the cast of what is below the cap changes anything. -/
theorem capped_eq {total : Int} (nonneg : 0 ≤ total) :
    ((if saturate i128 total > 10000 then 10000 else (saturate i128 total % 4294967296).toNat :
      Nat) : Int) = min 10000 total := by
  have wide : 10000 < i128.hi := by decide
  rw [saturate_of_nonneg nonneg]
  split <;> omega

/-- As long as the products fit, the rate is the formula at the score of the discount. -/
theorem calculatePremiumRateBps_eq (valid : RatesValid world) {score : Nat} (percent : score ≤ 100)
    (discount : applyReputationDiscount answer world lp (getDefaultCount world lp) =
      discountedDefaults (getDefaultCount world lp) score)
    (fits : discountedDefaults (getDefaultCount world lp) score *
      getRiskMultiplierNumerator world * 10000 ≤ i128.hi) :
    (calculatePremiumRateBps answer world lp : Int) =
      pricedRate (getBasePremiumRateBps world.settings) (getRiskMultiplierNumerator world)
        (getRiskMultiplierDenominator world) (getDefaultCount world lp) score := by
  obtain ⟨numerator, denominator⟩ := valid.inForce
  have base := valid.base
  have low : 0 ≤ discountedDefaults (getDefaultCount world lp) score :=
    discountedDefaults_nonneg percent
  unfold calculatePremiumRateBps pricedRate
  rw [discount]
  generalize getRiskMultiplierNumerator world = scale at *
  generalize getRiskMultiplierDenominator world = unit at *
  generalize discountedDefaults (getDefaultCount world lp) score = effective at *
  have product : 0 ≤ effective * scale := mul_nonneg low numerator
  have bottom := i128.nonpos
  simp only [if_neg denominator.ne', checked_of_fits
    (show Fits i128 (effective * scale) from ⟨by omega, by omega⟩), Option.bind_some,
    checked_of_fits (show Fits i128 (effective * scale * 10000) from ⟨by omega, fits⟩),
    checkedDiv_of_nonneg (by omega) fits denominator, Option.getD_some]
  have risk : 0 ≤ effective * scale * 10000 / unit := Int.ediv_nonneg (by omega) denominator.le
  generalize effective * scale * 10000 / unit = part at *
  exact capped_eq (by omega)

theorem calculatePremiumRateBps_of_overflow (denominator : getRiskMultiplierDenominator world ≠ 0)
    {effective : Int}
    (discount : applyReputationDiscount answer world lp (getDefaultCount world lp) = effective)
    (overflow : i128.hi < effective * getRiskMultiplierNumerator world * 10000) :
    calculatePremiumRateBps answer world lp = 10000 := by
  have none : ((checked i128 (effective * getRiskMultiplierNumerator world)).bind fun value =>
      checked i128 (value * 10000)) = none := by
    by_cases first : Fits i128 (effective * getRiskMultiplierNumerator world)
    · rw [checked_of_fits first, Option.bind_some]
      exact checked_of_overflow fun fits => absurd fits.2 (not_le.mpr overflow)
    · rw [checked_of_overflow first, Option.bind_none]
  have capped := capped_eq (show 0 ≤ (getBasePremiumRateBps world.settings : Int) + 10000 by omega)
  rw [min_eq_left (by omega)] at capped
  unfold calculatePremiumRateBps
  simp only [discount, if_neg denominator, none, Option.bind_none, Option.getD_none]
  exact_mod_cast capped

/-- A structure or a failed call counts as the score 0, at which all defaults count. -/
theorem applyReputationDiscount_unread (unread : ∀ contract ∈ world.risk.reputationContract,
    ∀ val ∈ answer contract lp, u32TryFromVal val = none) (defaults : Nat) :
    applyReputationDiscount answer world lp defaults = discountedDefaults defaults 0 := by
  rw [discountedDefaults_zero]
  unfold applyReputationDiscount
  split
  · rfl
  · rename_i contract configured
    split
    · rename_i val answered
      simp only [unread contract configured val answered, Option.getD_none, Nat.cast_zero, sub_zero]
      by_cases fits : Fits i128 ((defaults : Int) * 100)
      · rw [checked_of_fits fits, Option.bind_some, checkedDiv_of_nonneg (by omega) fits.2
          (by decide), Option.getD_some]
        omega
      · rw [checked_of_overflow fits, Option.bind_none, Option.getD_none]
    · rfl

end Pricing

end InsurancePool
