import Mathlib.Algebra.Order.BigOperators.Ring.Finset
import Iln.Insurance.PremiumRate

/-! Defaults are counted for a provider and, when the payer is named, for the pair of both. The
collusion flag compares the two counters; what it means rests on the pairs never exceeding the
provider. -/
namespace InsurancePool

open Outcome FixedWidth Transition
open InvoiceLiquidity (Address Balances Clock)

variable {pool : Address} {env : Env pool} {world next : World} {call : Call}

def minPairDefaultsToFlag : Nat := 3
def collusionPairShareFlagBps : Nat := 5000

def getPairDefaultCount (world : World) (lp payer : Address) : Nat :=
  (world.risk.pairDefaultCount lp payer).getD 0

def getPairCollusionFlag (world : World) (lp payer : Address) : Bool :=
  let pairCount := getPairDefaultCount world lp payer
  let lpDefaults := getDefaultCount world lp
  if pairCount < minPairDefaultsToFlag then false
  else if lpDefaults = 0 then false
  else decide (min u64Max (pairCount * 10000) / lpDefaults ≥ collusionPairShareFlagBps)

/-- The defaults of a provider cover those of any set of its payers, and fit their type. -/
def CoversPairs (providers : Address → Option Nat) (pairs : Address → Address → Option Nat) :
    Prop :=
  ∀ lp, (providers lp).getD 0 ≤ u32Max ∧
    ∀ payers : Finset Address, ∑ payer ∈ payers, (pairs lp payer).getD 0 ≤ (providers lp).getD 0

def World.coversPairs (world : World) : Prop :=
  CoversPairs world.risk.defaultCount world.risk.pairDefaultCount

/-- Counting a default leaves room for one more default of a pair. -/
theorem incrementDefaultCount_covers {lp : Address} (covers : world.coversPairs)
    (ran : incrementDefaultCount env world lp = .ok next) (other : Address) :
    (next.risk.defaultCount other).getD 0 ≤ u32Max ∧ ∀ payers : Finset Address,
      (∑ payer ∈ payers, (next.risk.pairDefaultCount other payer).getD 0) +
        (if other = lp then 1 else 0) ≤ (next.risk.defaultCount other).getD 0 := by
  simp only [incrementDefaultCount, ok_iff] at ran
  obtain ⟨_, _, _, room, _, _, rfl⟩ := ran
  by_cases here : other = lp
  · subst here
    simpa using ⟨room, (covers other).2⟩
  · simpa [here] using covers other

theorem Change.coversPairs (change : Change env world call next)
    (ran : dispatch env world call = .ok next) (covers : world.coversPairs) : next.coversPairs := by
  cases change with
  | defaultCounted =>
    intro other
    obtain ⟨fits, pairs⟩ := incrementDefaultCount_covers covers ran other
    exact ⟨fits, fun payers => le_of_add_le_left (pairs payers)⟩
  | @pairCounted lp payer =>
    simp only [dispatch, recordPairDefault, ok_iff] at ran
    obtain ⟨_, _, between, increments, same⟩ := ran
    rw [← same]
    intro other
    obtain ⟨fits, pairs⟩ := incrementDefaultCount_covers covers increments other
    refine ⟨fits, fun payers => le_trans ?_ (pairs payers)⟩
    by_cases here : other = lp
    · subst here
      calc _ ≤ ∑ who ∈ payers, ((between.risk.pairDefaultCount other who).getD 0 +
          if who = payer then 1 else 0) := by
            refine Finset.sum_le_sum fun who _ => ?_
            by_cases named : who = payer
            · simp [addCapped, named]
            · simp [named]
        _ ≤ _ := by
            rw [Finset.sum_add_distrib, Finset.sum_ite_eq', if_pos rfl]
            split <;> omega
    · simp [here]
  | paid =>
    rw [tripCircuitIfBreached_eq]
    exact covers
  | _ => exact covers

theorem step_coversPairs (world : World) (action : Action pool) (covers : world.coversPairs) :
    (step world action).coversPairs := by
  cases action with
  | credit | advance => exact covers
  | invoke env call =>
    cases finished : succeeds world (.invoke env call) with
    | false => rwa [step_of_failed finished]
    | true =>
      have ran := invoke_of_succeeds finished
      have change := (invoke_change ran).2
      simp only [invoke, ok_iff] at ran
      obtain ⟨_, _, runs⟩ := ran
      exact change.coversPairs runs covers

theorem pair_le_provider (covers : world.coversPairs) (lp payer : Address) :
    getPairDefaultCount world lp payer ≤ getDefaultCount world lp := by
  have single := (covers lp).2 {payer}
  rwa [Finset.sum_singleton] at single

theorem getPairCollusionFlag_iff (covers : world.coversPairs) (lp payer : Address) :
    getPairCollusionFlag world lp payer = true ↔
      3 ≤ getPairDefaultCount world lp payer ∧ getDefaultCount world lp ≤
        2 * getPairDefaultCount world lp payer := by
  have within := pair_le_provider covers lp payer
  have small : getDefaultCount world lp ≤ u32Max := (covers lp).1
  have unclamped : min u64Max (getPairDefaultCount world lp payer * 10000) =
      getPairDefaultCount world lp payer * 10000 := by
    simp only [u32Max, u64Max] at *
    omega
  simp only [getPairCollusionFlag, unclamped, minPairDefaultsToFlag]
  split
  · simp only [Bool.false_eq_true, false_iff]
    omega
  · split
    · simp only [Bool.false_eq_true, false_iff]
      omega
    · rw [decide_eq_true_iff, ge_iff_le, Nat.le_div_iff_mul_le (by omega),
        collusionPairShareFlagBps]
      omega

/-- In every reachable state the defaults of pairs never add up to more than those of the provider,
and the collusion flag marks the payers with three defaults or more that make at least half of the
provider's. So it never marks more than two payers of one provider. -/
theorem collusion_flag_sound (clock : Clock) (tokens : Balances) (actions : List (Action pool))
    (lp : Address) :
    let world := exec step (genesis clock tokens) actions
    (∀ payers : Finset Address, ∑ payer ∈ payers, getPairDefaultCount world lp payer ≤
        getDefaultCount world lp) ∧
      (∀ payer, getPairCollusionFlag world lp payer = true ↔
        3 ≤ getPairDefaultCount world lp payer ∧
          getDefaultCount world lp ≤ 2 * getPairDefaultCount world lp payer) ∧
      ∀ payers : Finset Address, (∀ payer ∈ payers, getPairCollusionFlag world lp payer = true) →
        payers.card ≤ 2 := by
  intro world
  have covers : world.coversPairs := invariant World.coversPairs step_coversPairs actions
    fun _ => by simp [genesis]
  refine ⟨(covers lp).2, getPairCollusionFlag_iff covers lp, ?_⟩
  intro payers flagged
  have halves := Finset.sum_le_sum fun payer member =>
    ((getPairCollusionFlag_iff covers lp payer).mp (flagged payer member)).2
  rw [Finset.sum_const, ← Finset.mul_sum, nsmul_eq_mul, Nat.cast_id] at halves
  obtain rfl | ⟨payer, member⟩ := payers.eq_empty_or_nonempty
  · simp
  · have several := ((getPairCollusionFlag_iff covers lp payer).mp (flagged payer member)).1
    have within := pair_le_provider covers lp payer
    exact Nat.le_of_mul_le_mul_right (halves.trans (Nat.mul_le_mul_left 2 ((covers lp).2 payers)))
      (by omega)

end InsurancePool
