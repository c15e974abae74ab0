import Mathlib.Algebra.BigOperators.Ring.List
import Mathlib.Data.List.Sort
import Iln.Foundation.Apportion
import Iln.Foundation.Drawdown
import Iln.Invoice.Types

/-! The order and the amounts of payouts when the claims exceed the pool
(`insurance_pool/src/claim_prioritization.rs`). The claims are sorted, stably, by time or by
premium, and each is paid out of what the claims before it have left. The proportional strategies
apply a claim's part of all premiums to that remainder, not to the pool. -/
namespace InsurancePool

open InvoiceLiquidity (Address)
open Outcome FixedWidth Drawdown

namespace ClaimPrioritization

inductive PayoutStrategy where
  | proRata | riskWeighted | fifo
  deriving DecidableEq, Repr

structure PendingClaim where
  lp : Address
  invoiceId : Nat
  claimTimestamp : Nat
  lpTotalPremiums : Int
  lpDefaultCount : Int
  coverageCap : Int
  deriving DecidableEq, Repr

inductive ClaimPrioritizationError where
  | invalidPoolBalance | payoutOverflow | noClaimsToPrioritize
  deriving DecidableEq, Repr

inductive PayoutFailure where
  | returned (error : ClaimPrioritizationError)
  | trap
  deriving DecidableEq, Repr

instance : Coe ClaimPrioritizationError PayoutFailure := ⟨.returned⟩

def calculateProRata (claim : PendingClaim) (basePayout totalLpPremiums : Int) : Int :=
  if totalLpPremiums ≤ 0 then 0
  else saturate i128 ((saturate i128 (basePayout * claim.lpTotalPremiums)).tdiv totalLpPremiums)

/-- Division by zero traps; it takes a default count of -100. -/
def calculateRiskWeighted (claim : PendingClaim) (basePayout totalLpPremiums : Int) :
    Except PayoutFailure Int := do
  let proRata := calculateProRata claim basePayout totalLpPremiums
  let divisor := saturate i128 (100 + claim.lpDefaultCount)
  require (divisor ≠ 0) .trap
  return saturate i128 ((saturate i128 (proRata * 100)).tdiv divisor)

def calculatePayout (claim : PendingClaim) (strategy : PayoutStrategy)
    (poolBalance _totalPendingClaims totalLpPremiums : Int) : Except PayoutFailure Int := do
  require (¬ poolBalance < 0) ClaimPrioritizationError.invalidPoolBalance
  let basePayout := min claim.coverageCap poolBalance
  if basePayout ≤ 0 then return 0
  else
    let payout ← match strategy with
      | .proRata => pure (calculateProRata claim basePayout totalLpPremiums)
      | .riskWeighted => calculateRiskWeighted claim basePayout totalLpPremiums
      | .fifo => pure basePayout
    return max payout 0

abbrev PendingClaim.Before (claim other : PendingClaim) : Prop :=
  claim.claimTimestamp ≤ other.claimTimestamp

abbrev PendingClaim.Outranks (claim other : PendingClaim) : Prop :=
  other.lpTotalPremiums ≤ claim.lpTotalPremiums

instance : Std.Total PendingClaim.Before :=
  ⟨fun claim other => le_total claim.claimTimestamp other.claimTimestamp⟩

instance : IsTrans PendingClaim PendingClaim.Before := ⟨fun _ _ _ => le_trans⟩

instance : Std.Total PendingClaim.Outranks :=
  ⟨fun claim other => le_total other.lpTotalPremiums claim.lpTotalPremiums⟩

instance : IsTrans PendingClaim PendingClaim.Outranks :=
  ⟨fun _ _ _ first second => le_trans second first⟩

/-- `sort_by_key` and `sort_by` are stable, as the insertion sort is. -/
def sortClaims (strategy : PayoutStrategy) (claims : List PendingClaim) : List PendingClaim :=
  match strategy with
  | .fifo => claims.insertionSort PendingClaim.Before
  | .proRata | .riskWeighted => claims.insertionSort PendingClaim.Outranks

def sumPremiums (claims : List PendingClaim) : Except PayoutFailure Int :=
  forEach (fun total claim => orFail (checked i128 (total + claim.lpTotalPremiums)) .trap) 0 claims

def allocateLoop (strategy : PayoutStrategy) (totalLpPremiums : Int) :
    List (Address × Int) → Int → List PendingClaim → Except PayoutFailure (List (Address × Int))
  | allocations, _, [] => .ok allocations
  | allocations, remainingBalance, claim :: rest =>
    if remainingBalance ≤ 0 then .ok allocations
    else do
      let payout ← calculatePayout claim strategy remainingBalance 0 totalLpPremiums
      let actualPayout := min payout remainingBalance
      if actualPayout > 0 then
        allocateLoop strategy totalLpPremiums (allocations ++ [(claim.lp, actualPayout)])
          (saturate i128 (remainingBalance - actualPayout)) rest
      else allocateLoop strategy totalLpPremiums allocations remainingBalance rest

def allocatePayouts (claims : List PendingClaim) (strategy : PayoutStrategy) (poolBalance : Int) :
    Except PayoutFailure (List (Address × Int)) := do
  require (¬ poolBalance < 0) ClaimPrioritizationError.invalidPoolBalance
  if claims.isEmpty then return []
  else
    let totalLpPremiums ← sumPremiums claims
    allocateLoop strategy totalLpPremiums [] poolBalance (sortClaims strategy claims)

/-- The premium and the cap are not negative, nor is the default count where the strategy reads
it. -/
structure PendingClaim.Sound (claim : PendingClaim) (strategy : PayoutStrategy) : Prop where
  premiums : 0 ≤ claim.lpTotalPremiums
  cap : 0 ≤ claim.coverageCap
  defaults : strategy = .riskWeighted → 0 ≤ claim.lpDefaultCount

def premiumTotal (claims : List PendingClaim) : Int := (claims.map PendingClaim.lpTotalPremiums).sum

def allocationsOf (payments : List (PendingClaim × Int)) : List (Address × Int) :=
  (payments.filter fun payment => 0 < payment.2).map fun payment => (payment.1.lp, payment.2)

def payoutFrom (strategy : PayoutStrategy) (totalLpPremiums remainingBalance : Int)
    (claim : PendingClaim) : Int :=
  match calculatePayout claim strategy remainingBalance 0 totalLpPremiums with
  | .ok payout => min payout remainingBalance
  | .error _ => 0

section Payout

variable {claim : PendingClaim} {strategy : PayoutStrategy} {basePayout balance total : Int}

theorem tdiv_le_of_le_mul {numerator divisor bound : Int} (positive : 0 < divisor)
    (nonneg : 0 ≤ numerator) (small : numerator ≤ bound * divisor) :
    0 ≤ numerator.tdiv divisor ∧ numerator.tdiv divisor ≤ bound := by
  rw [Int.tdiv_eq_ediv_of_nonneg nonneg]
  constructor
  · exact Int.ediv_nonneg nonneg positive.le
  · exact Int.ediv_le_of_le_mul positive small

theorem saturate_quotient {value bound : Int} (between : 0 ≤ value ∧ value ≤ bound) :
    0 ≤ saturate i128 value ∧ saturate i128 value ≤ bound :=
  ⟨saturate_nonneg between.1,
    saturate_le_of_le (i128.nonpos.trans (between.1.trans between.2)) between.2⟩

theorem calculateProRata_between (premiums : 0 ≤ claim.lpTotalPremiums)
    (counted : claim.lpTotalPremiums ≤ total) (nonneg : 0 ≤ basePayout) :
    0 ≤ calculateProRata claim basePayout total ∧ calculateProRata claim basePayout total ≤
      basePayout := by
  unfold calculateProRata
  split
  · exact ⟨le_rfl, nonneg⟩
  · rename_i positive
    have product : 0 ≤ basePayout * claim.lpTotalPremiums := mul_nonneg nonneg premiums
    apply saturate_quotient
    apply tdiv_le_of_le_mul (not_le.mp positive) (saturate_nonneg product)
    calc saturate i128 (basePayout * claim.lpTotalPremiums)
        ≤ basePayout * claim.lpTotalPremiums := saturate_le_of_le (i128.nonpos.trans product) le_rfl
      _ ≤ basePayout * total := mul_le_mul_of_nonneg_left counted nonneg

theorem calculateRiskWeighted_between (premiums : 0 ≤ claim.lpTotalPremiums)
    (defaults : 0 ≤ claim.lpDefaultCount) (counted : claim.lpTotalPremiums ≤ total)
    (nonneg : 0 ≤ basePayout) :
    ∃ payout, calculateRiskWeighted claim basePayout total = .ok payout ∧ 0 ≤ payout ∧
      payout ≤ basePayout := by
  obtain ⟨low, high⟩ := calculateProRata_between premiums counted nonneg
  have divisor : 100 ≤ saturate i128 (100 + claim.lpDefaultCount) := by
    rw [saturate_of_nonneg (by omega)]
    apply le_min
    · decide
    · omega
  refine ⟨saturate i128 ((saturate i128 (calculateProRata claim basePayout total * 100)).tdiv
    (saturate i128 (100 + claim.lpDefaultCount))), ?_, ?_⟩
  · unfold calculateRiskWeighted
    simp only [require_of_holds (show saturate i128 (100 + claim.lpDefaultCount) ≠ 0 by omega)]
    rfl
  · apply saturate_quotient
    apply tdiv_le_of_le_mul (by omega) (saturate_nonneg (by omega))
    calc saturate i128 (calculateProRata claim basePayout total * 100)
        ≤ calculateProRata claim basePayout total * 100 :=
        saturate_le_of_le (i128.nonpos.trans (by omega)) le_rfl
      _ ≤ basePayout * 100 := by omega
      _ ≤ basePayout * saturate i128 (100 + claim.lpDefaultCount) :=
        mul_le_mul_of_nonneg_left divisor nonneg

theorem calculatePayout_between (sound : claim.Sound strategy)
    (counted : claim.lpTotalPremiums ≤ total) (nonneg : 0 ≤ balance) :
    ∃ payout, calculatePayout claim strategy balance 0 total = .ok payout ∧ 0 ≤ payout ∧
      payout ≤ min claim.coverageCap balance := by
  have base : 0 ≤ min claim.coverageCap balance := le_min sound.cap nonneg
  unfold calculatePayout
  rw [require_of_holds (not_lt.mpr nonneg)]
  by_cases nothing : min claim.coverageCap balance ≤ 0
  · exact ⟨0, by simp only [if_pos nothing]; rfl, le_rfl, base⟩
  · simp only [if_neg nothing]
    cases strategy with
    | proRata =>
      obtain ⟨low, high⟩ := calculateProRata_between sound.premiums counted base
      exact ⟨max _ 0, rfl, le_max_right _ _, max_le high base⟩
    | riskWeighted =>
      obtain ⟨payout, computed, low, high⟩ := calculateRiskWeighted_between sound.premiums
        (sound.defaults rfl) counted base
      simp only [computed]
      exact ⟨max payout 0, rfl, le_max_right _ _, max_le high base⟩
    | fifo => exact ⟨max _ 0, rfl, le_max_right _ _, max_le le_rfl base⟩

theorem payoutFrom_between (sound : claim.Sound strategy) (counted : claim.lpTotalPremiums ≤ total)
    (nonneg : 0 ≤ balance) :
    0 ≤ payoutFrom strategy total balance claim ∧
      payoutFrom strategy total balance claim ≤ min claim.coverageCap balance := by
  obtain ⟨_, computed, low, high⟩ := calculatePayout_between sound counted nonneg
  unfold payoutFrom
  rw [computed]
  exact ⟨le_min low nonneg, (min_le_left _ _).trans high⟩

theorem payoutFrom_fifo (cap : 0 ≤ claim.coverageCap) (nonneg : 0 ≤ balance) :
    payoutFrom .fifo total balance claim = min claim.coverageCap balance := by
  have base : 0 ≤ min claim.coverageCap balance := le_min cap nonneg
  have computed : calculatePayout claim .fifo balance 0 total =
      .ok (min claim.coverageCap balance) := by
    unfold calculatePayout
    rw [require_of_holds (not_lt.mpr nonneg)]
    by_cases nothing : min claim.coverageCap balance ≤ 0
    · simp only [le_antisymm nothing base]
      rfl
    · simp only [if_neg nothing]
      exact congrArg Except.ok (max_eq_left base)
  unfold payoutFrom
  rw [computed]
  exact min_eq_left (min_le_right _ _)

end Payout

section Loop

variable {claims ordered : List PendingClaim} {strategy : PayoutStrategy} {balance total : Int}

@[simp] theorem allocationsOf_cons_of_pos {claim : PendingClaim} {amount : Int}
    {payments : List (PendingClaim × Int)} (positive : 0 < amount) :
    allocationsOf ((claim, amount) :: payments) = (claim.lp, amount) :: allocationsOf payments := by
  simp [allocationsOf, positive]

@[simp] theorem allocationsOf_cons_of_not_pos {claim : PendingClaim} {amount : Int}
    {payments : List (PendingClaim × Int)} (nothing : ¬ 0 < amount) :
    allocationsOf ((claim, amount) :: payments) = allocationsOf payments := by
  simp [allocationsOf, nothing]

theorem allocationsOf_eq_nil {payments : List (PendingClaim × Int)}
    (nothing : ∀ payment ∈ payments, payment.2 ≤ 0) : allocationsOf payments = [] := by
  rw [allocationsOf, List.map_eq_nil_iff, List.filter_eq_nil_iff]
  intro payment member
  simp [nothing payment member]

/-- The loop pays every claim out of what the ones before it left. The `break` at an empty pool only
skips claims that would be paid nothing. -/
theorem allocateLoop_eq (sound : ∀ claim ∈ ordered, claim.Sound strategy)
    (counted : ∀ claim ∈ ordered, claim.lpTotalPremiums ≤ total) (nonneg : 0 ≤ balance)
    (typed : balance ≤ i128.hi) (allocations : List (Address × Int)) :
    allocateLoop strategy total allocations balance ordered =
      .ok (allocations ++ allocationsOf (drawn (payoutFrom strategy total) balance ordered)) := by
  induction ordered generalizing balance allocations with
  | nil => rw [allocateLoop, drawn, allocationsOf, List.filter_nil, List.map_nil, List.append_nil]
  | cons claim rest ih =>
    have between : ∀ left, 0 ≤ left → ∀ other ∈ claim :: rest,
        0 ≤ payoutFrom strategy total left other ∧ payoutFrom strategy total left other ≤ left := by
      intro left nonneg other member
      obtain ⟨low, high⟩ := payoutFrom_between (sound other member) (counted other member) nonneg
      exact ⟨low, high.trans (min_le_right _ _)⟩
    have later := fun left => @ih left
      (fun other member => sound other (List.mem_cons_of_mem claim member))
      (fun other member => counted other (List.mem_cons_of_mem claim member))
    unfold allocateLoop
    split
    · rename_i exhausted
      obtain rfl : balance = 0 := le_antisymm exhausted nonneg
      rw [drawn_zero fun other member => le_antisymm (between 0 le_rfl other member).2
        (between 0 le_rfl other member).1]
      rw [allocationsOf_eq_nil, List.append_nil]
      intro payment member
      obtain ⟨_, _, rfl⟩ := List.mem_map.mp member
      exact le_rfl
    · obtain ⟨payout, computed, _⟩ :=
        calculatePayout_between (sound claim List.mem_cons_self)
        (counted claim List.mem_cons_self) nonneg
      have amount : min payout balance = payoutFrom strategy total balance claim := by
        rw [payoutFrom, computed]
      obtain ⟨low, high⟩ := between balance nonneg claim List.mem_cons_self
      simp only [computed, drawn]
      show (if min payout balance > 0 then _ else _) = _
      rw [amount]
      split
      · rename_i positive
        have exactly : saturate i128 (balance - payoutFrom strategy total balance claim) =
            balance - payoutFrom strategy total balance claim :=
          saturate_of_fits
            (fits_of_nonneg_le ⟨i128.nonpos.trans nonneg, typed⟩ (by omega) (by omega))
        rw [exactly, later _ (by omega) (by omega), allocationsOf_cons_of_pos positive,
          List.append_assoc]
        rfl
      · rename_i nothing
        rw [allocationsOf_cons_of_not_pos nothing, later _ nonneg typed]
        -- a claim that is paid nothing leaves the balance
        rw [show payoutFrom strategy total balance claim = 0 by omega, sub_zero]

theorem premiumTotal_cons {claim : PendingClaim} :
    premiumTotal (claim :: claims) = claim.lpTotalPremiums + premiumTotal claims := by
  simp [premiumTotal]

theorem premiumTotal_append {others : List PendingClaim} :
    premiumTotal (claims ++ others) = premiumTotal claims + premiumTotal others := by
  simp [premiumTotal]

section

variable (premiums : ∀ claim ∈ claims, 0 ≤ claim.lpTotalPremiums)
include premiums

theorem premiumTotal_nonneg : 0 ≤ premiumTotal claims := by
  apply List.sum_nonneg
  intro premium member
  obtain ⟨claim, there, rfl⟩ := List.mem_map.mp member
  exact premiums claim there

theorem le_premiumTotal {claim : PendingClaim} (member : claim ∈ claims) :
    claim.lpTotalPremiums ≤ premiumTotal claims := by
  apply List.single_le_sum
  · intro premium there
    obtain ⟨other, listed, rfl⟩ := List.mem_map.mp there
    exact premiums other listed
  · exact List.mem_map_of_mem member

theorem addPremiums_eq {start : Int} (nonneg : 0 ≤ start)
    (fits : start + premiumTotal claims ≤ i128.hi) :
    forEach (fun total (claim : PendingClaim) => orFail
      (checked i128 (total + claim.lpTotalPremiums)) PayoutFailure.trap)
      start claims = .ok (start + premiumTotal claims) := by
  induction claims generalizing start with
  | nil => exact congrArg Except.ok (add_zero start).symm
  | cons claim rest ih =>
    have first := premiums claim List.mem_cons_self
    have others := fun other member => premiums other (List.mem_cons_of_mem claim member)
    have later := premiumTotal_nonneg others
    have low := i128.nonpos
    rw [premiumTotal_cons] at fits ⊢
    rw [← add_assoc] at fits ⊢
    rw [← ih others (by omega) fits, forEach, checked_of_fits ⟨by omega, by omega⟩]
    rfl

theorem sumPremiums_eq (fits : premiumTotal claims ≤ i128.hi) :
    sumPremiums claims = .ok (premiumTotal claims) := by
  have added := addPremiums_eq premiums le_rfl (show 0 + premiumTotal claims ≤
    i128.hi by rwa [zero_add])
  rwa [zero_add] at added

end

theorem perm_sortClaims (strategy : PayoutStrategy) (claims : List PendingClaim) :
    (sortClaims strategy claims).Perm claims := by
  cases strategy with
  | fifo | proRata | riskWeighted => exact List.perm_insertionSort _ _

def payments (claims : List PendingClaim) (strategy : PayoutStrategy) (balance : Int) :
    List (PendingClaim × Int) :=
  drawn (payoutFrom strategy (premiumTotal claims)) balance (sortClaims strategy claims)

theorem allocatePayouts_eq (sound : ∀ claim ∈ claims, claim.Sound strategy)
    (fits : premiumTotal claims ≤ i128.hi) (nonneg : 0 ≤ balance) (typed : balance ≤ i128.hi) :
    allocatePayouts claims strategy balance =
      .ok (allocationsOf (payments claims strategy balance)) := by
  unfold allocatePayouts
  rw [require_of_holds (not_lt.mpr nonneg)]
  cases claims with
  | nil => cases strategy <;> rfl
  | cons claim rest =>
    have listed : ∀ {other}, other ∈ sortClaims strategy (claim :: rest) → other ∈ claim :: rest :=
      fun member => (perm_sortClaims strategy _).mem_iff.mp member
    have premiums := fun other member => (sound other member).premiums
    have loop := allocateLoop_eq (fun other member => sound other (listed member))
      (fun other member => le_premiumTotal premiums (listed member)) nonneg typed []
    simp only [sumPremiums_eq premiums fits]
    exact loop

end Loop

section Bounds

variable {claims : List PendingClaim} {strategy : PayoutStrategy} {balance : Int}

theorem payoutFrom_listed (sound : ∀ claim ∈ claims, claim.Sound strategy) :
    ∀ left, 0 ≤ left → ∀ claim ∈ sortClaims strategy claims,
      0 ≤ payoutFrom strategy (premiumTotal claims) left claim ∧
        payoutFrom strategy (premiumTotal claims) left claim ≤ min claim.coverageCap left := by
  intro left nonneg claim member
  have listed := (perm_sortClaims strategy claims).mem_iff.mp member
  exact payoutFrom_between (sound claim listed)
    (le_premiumTotal (fun other member => (sound other member).premiums) listed) nonneg

theorem filter_sortClaims_fifo (claims : List PendingClaim) (time : Nat) :
    (sortClaims .fifo claims).filter (fun claim => claim.claimTimestamp = time) =
      claims.filter (fun claim => claim.claimTimestamp = time) := by
  have tied : (claims.filter fun claim => claim.claimTimestamp = time).Pairwise
      PendingClaim.Before := by
    apply List.pairwise_of_forall_mem_list
    intro claim first other second
    have left := of_decide_eq_true (List.mem_filter.mp first).2
    have right := of_decide_eq_true (List.mem_filter.mp second).2
    exact (left.trans right.symm).le
  have kept := (List.sublist_insertionSort tied List.filter_sublist).filter fun claim =>
    claim.claimTimestamp = time
  rw [List.filter_filter] at kept
  simp only [Bool.and_self] at kept
  refine (kept.eq_of_length ?_).symm
  exact ((perm_sortClaims .fifo claims).symm.filter _).length_eq

/-- Under every strategy each claim is paid at most its cap, all together at most the pool, and only
what is positive is listed. First in, first out pays the claims in order of time, ties in the order
of the list, each its cap or what is left of the pool. -/
theorem allocatePayouts_bounded (claims : List PendingClaim) (strategy : PayoutStrategy)
    (balance : Int) (sound : ∀ claim ∈ claims, claim.Sound strategy)
    (fits : premiumTotal claims ≤ i128.hi) (nonneg : 0 ≤ balance) (typed : balance ≤ i128.hi) :
    ∃ paid : List (PendingClaim × Int),
      allocatePayouts claims strategy balance = .ok (allocationsOf paid) ∧
      (paid.map Prod.fst).Perm claims ∧
      (∀ payment ∈ paid, 0 ≤ payment.2 ∧ payment.2 ≤ payment.1.coverageCap) ∧ taken paid ≤ balance ∧
      (strategy = .fifo → (paid.map Prod.fst).Pairwise PendingClaim.Before ∧
        (∀ time, (paid.map Prod.fst).filter (fun claim => claim.claimTimestamp = time) =
          claims.filter (fun claim => claim.claimTimestamp = time)) ∧
        ∀ earlier payment later, paid = earlier ++ payment :: later →
          payment.2 = min payment.1.coverageCap (balance - taken earlier) ∧
            (payment.2 < payment.1.coverageCap → taken earlier + payment.2 = balance)) := by
  have between := payoutFrom_listed sound
  have within := fun left nonneg claim member => (between left nonneg claim member).2.trans
    (min_le_right _ _)
  have order : (payments claims strategy balance).map Prod.fst = sortClaims strategy claims :=
    map_fst_drawn _ _
  refine ⟨payments claims strategy balance, allocatePayouts_eq sound fits nonneg typed, ?_, ?_,
    taken_le_of_split within nonneg (List.append_nil _).symm, ?_⟩
  · rw [order]
    exact perm_sortClaims strategy claims
  · refine drawn_all (fun (claim : PendingClaim) amount => 0 ≤ amount ∧ amount ≤ claim.coverageCap)
      ?_ ?_ nonneg le_rfl
    · intro left nonneg _ claim member
      exact ⟨(between left nonneg claim member).1, within left nonneg claim member⟩
    · intro left nonneg _ claim member
      obtain ⟨low, high⟩ := between left nonneg claim member
      exact ⟨low, high.trans (min_le_left _ _)⟩
  · rintro rfl
    rw [order]
    refine ⟨List.pairwise_insertionSort _ _, filter_sortClaims_fifo claims, ?_⟩
    intro earlier payment later split
    have left : 0 ≤ balance - taken earlier :=
      sub_nonneg.mpr (taken_le_of_split within nonneg split)
    have listed : payment.1 ∈ claims := by
      rw [← (perm_sortClaims .fifo claims).mem_iff, ← order, split]
      exact List.mem_map_of_mem (List.mem_append_right earlier List.mem_cons_self)
    have amount : payment.2 = min payment.1.coverageCap (balance - taken earlier) :=
      (drawn_split split).trans (payoutFrom_fifo (sound _ listed).cap left)
    refine ⟨amount, fun less => ?_⟩
    rw [amount, min_lt_iff, or_iff_right (lt_irrefl _)] at less
    rw [amount, min_eq_right less.le]
    omega

def rivalClaims : List PendingClaim := [⟨⟨1⟩, 1, 10, 1000, 0, 10000⟩, ⟨⟨2⟩, 2, 5, 1000, 0, 10000⟩]

theorem rivalClaims_sound (strategy : PayoutStrategy) :
    ∀ claim ∈ rivalClaims, claim.Sound strategy := by
  intro claim member
  rcases List.mem_pair.mp member with rfl | rfl
  · exact ⟨by decide, by decide, fun _ => (by decide)⟩
  · exact ⟨by decide, by decide, fun _ => (by decide)⟩

theorem allocatePayouts_bounded_of_rivalClaims :
    allocatePayouts rivalClaims .fifo 15000 = .ok [(⟨2⟩, 10000), (⟨1⟩, 5000)] ∧
    ∃ paid : List (PendingClaim × Int),
      allocatePayouts rivalClaims .fifo 15000 = .ok (allocationsOf paid) ∧
      (paid.map Prod.fst).Perm rivalClaims ∧
      (∀ payment ∈ paid, 0 ≤ payment.2 ∧ payment.2 ≤ payment.1.coverageCap) ∧
      taken paid ≤ 15000 := by
  refine ⟨rfl, ?_⟩
  obtain ⟨paid, allocated, all, each, total, _⟩ := allocatePayouts_bounded rivalClaims .fifo 15000
    (rivalClaims_sound .fifo) (by decide) (by decide) (by decide)
  exact ⟨paid, allocated, all, each, total⟩

end Bounds

section Shares

def share (balance total premium : Int) : Int := balance * premium / total

/-- In this order of the premiums, what the claims before a claim take out of the balance changes
its share by less than the rounding does. -/
def Undisturbed (balance total : Int) (premiums : List Int) : Prop :=
  ∀ earlier premium later, premiums = earlier ++ premium :: later →
    share (balance - (earlier.map (share balance total)).sum) total premium =
      share balance total premium

abbrev shares (balance total : Int) (claims : List PendingClaim) : List (PendingClaim × Int) :=
  claims.map fun claim => (claim, share balance total claim.lpTotalPremiums)

/-- The premiums are not negative nor all zero, no cap binds, and nothing saturates. -/
structure Unbounded (balance : Int) (claims : List PendingClaim) : Prop where
  nonneg : 0 ≤ balance
  typed : balance ≤ i128.hi
  positive : 0 < premiumTotal claims
  fits : premiumTotal claims ≤ i128.hi
  premiums : ∀ claim ∈ claims, 0 ≤ claim.lpTotalPremiums
  covered : ∀ claim ∈ claims, balance ≤ claim.coverageCap
  products : ∀ claim ∈ claims, balance * claim.lpTotalPremiums ≤ i128.hi

variable {claims listed : List PendingClaim} {claim : PendingClaim} {balance total left : Int}

theorem share_nonneg {premium : Int} (positive : 0 < total) (nonneg : 0 ≤ balance)
    (premiums : 0 ≤ premium) : 0 ≤ share balance total premium :=
  Int.ediv_nonneg (mul_nonneg nonneg premiums) positive.le

theorem sum_share_le (positive : 0 < total) (nonneg : 0 ≤ balance) {premiums : List Int}
    (counted : premiums.sum ≤ total) : (premiums.map (share balance total)).sum ≤ balance := by
  have floors := Apportion.floors_le positive (premiums.map (balance * ·))
  rw [Apportion.floors, List.map_map, List.sum_map_mul_left] at floors
  apply floors.trans
  apply Int.ediv_le_of_le_mul positive
  rw [List.map_id']
  exact mul_le_mul_of_nonneg_left counted nonneg

theorem premiumTotal_perm (reordered : listed.Perm claims) :
    premiumTotal listed = premiumTotal claims :=
  (reordered.map _).sum_eq

theorem map_premiums_sortClaims (reordered : listed.Perm claims) :
    (sortClaims .proRata listed).map PendingClaim.lpTotalPremiums =
      (claims.map PendingClaim.lpTotalPremiums).insertionSort (· ≥ ·) := by
  have same := ((perm_sortClaims .proRata listed).trans reordered).map PendingClaim.lpTotalPremiums
  apply (same.trans (List.perm_insertionSort _ _).symm).eq_of_pairwise' (r := (· ≥ ·))
  · exact List.pairwise_map.mpr (List.pairwise_insertionSort PendingClaim.Outranks listed)
  · exact List.pairwise_insertionSort _ _

theorem sum_allocationsOf {payments : List (PendingClaim × Int)}
    (nonneg : ∀ payment ∈ payments, 0 ≤ payment.2) :
    ((allocationsOf payments).map Prod.snd).sum = taken payments := by
  induction payments with
  | nil => rfl
  | cons payment rest ih =>
    have later := ih fun other member => nonneg other (List.mem_cons_of_mem payment member)
    obtain ⟨_, amount⟩ := payment
    by_cases positive : 0 < amount
    · rw [allocationsOf_cons_of_pos positive, List.map_cons, List.sum_cons, later, taken_cons]
    · have zero : amount = 0 := le_antisymm (not_lt.mp positive) (nonneg _ List.mem_cons_self)
      rw [allocationsOf_cons_of_not_pos positive, later, taken_cons, zero, zero_add]

namespace Unbounded

variable (unbounded : Unbounded balance claims)

include unbounded

theorem sound : ∀ claim ∈ claims, claim.Sound .proRata := fun claim member =>
  ⟨unbounded.premiums claim member, unbounded.nonneg.trans (unbounded.covered claim member),
    (by rintro ⟨⟩)⟩

theorem perm (reordered : listed.Perm claims) : Unbounded balance listed where
  nonneg := unbounded.nonneg
  typed := unbounded.typed
  positive := premiumTotal_perm reordered ▸ unbounded.positive
  fits := premiumTotal_perm reordered ▸ unbounded.fits
  premiums := fun claim member => unbounded.premiums claim (reordered.mem_iff.mp member)
  covered := fun claim member => unbounded.covered claim (reordered.mem_iff.mp member)
  products := fun claim member => unbounded.products claim (reordered.mem_iff.mp member)

/-- Out of any part of the balance a claim is paid its share of that part. -/
theorem payoutFrom_proRata (nonneg : 0 ≤ left) (part : left ≤ balance) (member : claim ∈ claims) :
    payoutFrom .proRata (premiumTotal claims) left claim =
      share left (premiumTotal claims) claim.lpTotalPremiums := by
  have premiums := unbounded.premiums claim member
  have product : 0 ≤ left * claim.lpTotalPremiums := mul_nonneg nonneg premiums
  have fits := (mul_le_mul_of_nonneg_right part premiums).trans (unbounded.products claim member)
  obtain ⟨low, high⟩ := tdiv_le_of_le_mul unbounded.positive product
    (mul_le_mul_of_nonneg_left (le_premiumTotal unbounded.premiums member) nonneg)
  have computed : calculatePayout claim .proRata left 0 (premiumTotal claims) =
      .ok ((left * claim.lpTotalPremiums).tdiv (premiumTotal claims)) := by
    unfold calculatePayout
    rw [require_of_holds (not_lt.mpr nonneg),
      min_eq_right (part.trans (unbounded.covered claim member))]
    by_cases nothing : left ≤ 0
    · simp only [le_antisymm nothing nonneg, zero_mul, Int.zero_tdiv]
      rfl
    · simp only [if_neg nothing, calculateProRata, if_neg (not_le.mpr unbounded.positive),
        saturate_of_fits ⟨i128.nonpos.trans product, fits⟩]
      rw [saturate_of_fits ⟨i128.nonpos.trans low, high.trans (part.trans unbounded.typed)⟩]
      exact congrArg Except.ok (max_eq_left low)
  unfold payoutFrom share
  rw [computed]
  exact (min_eq_left high).trans (Int.tdiv_eq_ediv_of_nonneg product)

theorem drawn_proRata_iff :
    drawn (payoutFrom .proRata (premiumTotal claims)) balance claims =
        shares balance (premiumTotal claims) claims ↔
      Undisturbed balance (premiumTotal claims) (claims.map PendingClaim.lpTotalPremiums) := by
  -- the shares of the claims before a claim are all there is to subtract, and they do not exceed
  -- the balance
  have remainder : ∀ earlier claim later, claims = earlier ++ claim :: later →
      payoutFrom .proRata (premiumTotal claims) (balance - (earlier.map fun claim =>
        share balance (premiumTotal claims) claim.lpTotalPremiums).sum) claim =
      share (balance - ((earlier.map PendingClaim.lpTotalPremiums).map
        (share balance (premiumTotal claims))).sum) (premiumTotal claims)
        claim.lpTotalPremiums := by
    intro earlier claim later split
    obtain ⟨before, after⟩ := List.forall_mem_append.mp (split ▸ unbounded.premiums)
    have few : (earlier.map PendingClaim.lpTotalPremiums).sum ≤ premiumTotal claims := by
      rw [split, premiumTotal_append]
      exact le_add_of_nonneg_right (premiumTotal_nonneg after)
    have most := sum_share_le unbounded.positive unbounded.nonneg few
    have least : 0 ≤ ((earlier.map PendingClaim.lpTotalPremiums).map
        (share balance (premiumTotal claims))).sum := by
      apply List.sum_nonneg
      simp only [List.map_map, List.forall_mem_map]
      exact fun other there => share_nonneg unbounded.positive unbounded.nonneg (before other there)
    rw [List.map_map] at most least ⊢
    exact unbounded.payoutFrom_proRata (sub_nonneg.mpr most) (sub_le_self _ least)
      (split ▸ List.mem_append_right earlier List.mem_cons_self)
  refine drawn_eq_map_iff.trans ⟨fun alone earlier premium later split => ?_,
    fun undisturbed earlier claim later split => ?_⟩
  · obtain ⟨before, after, listing, rfl, rest⟩ := List.map_eq_append_iff.mp split
    obtain ⟨claim, further, rfl, rfl, rfl⟩ := List.map_eq_cons_iff.mp rest
    exact (remainder before claim further listing).symm.trans (alone before claim further listing)
  · refine (remainder earlier claim later split).trans (undisturbed _ _
      (later.map PendingClaim.lpTotalPremiums) ?_)
    rw [split, List.map_append, List.map_cons]

theorem drawn_proRata_le :
    ∀ payment ∈ drawn (payoutFrom .proRata (premiumTotal claims)) balance claims,
      0 ≤ payment.2 ∧
        payment.2 ≤ share balance (premiumTotal claims) payment.1.lpTotalPremiums := by
  have some : ∀ left, 0 ≤ left → ∀ claim ∈ claims,
      0 ≤ share left (premiumTotal claims) claim.lpTotalPremiums := fun left low claim there =>
    share_nonneg unbounded.positive low (unbounded.premiums claim there)
  refine drawn_all (fun (claim : PendingClaim) amount => 0 ≤ amount ∧
    amount ≤ share balance (premiumTotal claims) claim.lpTotalPremiums)
    ?_ ?_ unbounded.nonneg le_rfl
  · intro left low part claim there
    rw [unbounded.payoutFrom_proRata low part there]
    refine ⟨some left low claim there, Int.ediv_le_of_le_mul unbounded.positive ?_⟩
    exact mul_le_mul_of_nonneg_left (le_premiumTotal unbounded.premiums there) low
  · intro left low part claim there
    rw [unbounded.payoutFrom_proRata low part there]
    refine ⟨some left low claim there, Int.ediv_le_ediv unbounded.positive ?_⟩
    exact mul_le_mul_of_nonneg_right part (unbounded.premiums claim there)

end Unbounded

/-- Each claim is paid its part of the whole pool, rounded down, exactly if none is disturbed by the
ones before it. The order in which the claims are listed then makes no difference. -/
theorem proRata_shares_iff (claims listed : List PendingClaim) (balance : Int)
    (unbounded : Unbounded balance claims) (reordered : listed.Perm claims) :
    (∃ allocations, allocatePayouts listed .proRata balance = .ok allocations ∧
      allocations.Perm (allocationsOf (shares balance (premiumTotal claims) claims))) ↔
      Undisturbed balance (premiumTotal claims)
        ((claims.map PendingClaim.lpTotalPremiums).insertionSort (· ≥ ·)) := by
  have sorted := (perm_sortClaims .proRata listed).trans reordered
  have exactly := (unbounded.perm sorted).drawn_proRata_iff
  have most := (unbounded.perm sorted).drawn_proRata_le
  rw [premiumTotal_perm sorted] at exactly most
  rw [← map_premiums_sortClaims reordered, ← exactly]
  have same := sorted.map fun claim =>
    (claim, share balance (premiumTotal claims) claim.lpTotalPremiums)
  have allocated := allocatePayouts_eq (unbounded.perm reordered).sound
    (unbounded.perm reordered).fits unbounded.nonneg unbounded.typed
  rw [payments, premiumTotal_perm reordered] at allocated
  constructor
  · rintro ⟨_, returned, permuted⟩
    cases allocated.symm.trans returned
    refine drawn_eq_map_of_taken (fun payment there => (most payment there).2) ?_
    have each : ∀ payment ∈ shares balance (premiumTotal claims) claims, 0 ≤ payment.2 := by
      simp only [shares, List.forall_mem_map]
      exact fun claim there =>
        share_nonneg unbounded.positive unbounded.nonneg (unbounded.premiums claim there)
    rw [← sum_allocationsOf fun payment there => (most payment there).1,
      (permuted.map Prod.snd).sum_eq, sum_allocationsOf each, ← taken_map]
    exact (same.map Prod.snd).sum_eq.symm
  · intro paid
    refine ⟨_, allocated, ?_⟩
    rw [paid]
    exact (same.filter _).map _

-- With a pool of three each rival has a share of one, and one less in the pool leaves the second
-- its one.
theorem proRata_shares_iff_of_rivalClaims :
    ∃ allocations, allocatePayouts rivalClaims.reverse .proRata 3 = .ok allocations ∧
      allocations.Perm (allocationsOf (shares 3 (premiumTotal rivalClaims) rivalClaims)) := by
  have premiums := fun claim member => (rivalClaims_sound .proRata claim member).premiums
  apply (proRata_shares_iff rivalClaims rivalClaims.reverse 3 ⟨by decide, by decide, by decide,
    by decide, premiums, by decide, by decide⟩ (List.reverse_perm _)).mpr
  intro earlier premium later split
  rcases earlier with _ | ⟨_, _ | ⟨_, _⟩⟩
  · obtain ⟨rfl, _⟩ := List.cons.inj split
    rfl
  · obtain ⟨rfl, further⟩ := List.cons.inj split
    obtain ⟨rfl, _⟩ := List.cons.inj further
    rfl
  · exact absurd (congrArg List.length split) (by simp [rivalClaims])

/-- Out of a pool of 1000 both have a share of 500, but whoever is listed second is paid half of the
rest. -/
theorem proRata_disfavours_later : share 1000 (premiumTotal rivalClaims) 1000 = 500 ∧
      allocatePayouts rivalClaims .proRata 1000 = .ok [(⟨1⟩, 500), (⟨2⟩, 250)] ∧
      allocatePayouts rivalClaims.reverse .proRata 1000 = .ok [(⟨2⟩, 500), (⟨1⟩, 250)] :=
  ⟨rfl, rfl, rfl⟩

end Shares

end ClaimPrioritization

end InsurancePool
