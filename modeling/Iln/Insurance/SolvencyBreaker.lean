import Iln.Insurance.Accounting

/-! The solvency breaker. A claim looks at the flag alone, and the flag is set by the claim whose
payout misses the minimum. So a world where the minimum is missed with the breaker closed pays out;
what can lead there is a change of the coverage, a change of the minimum or a reset of the
breaker. -/
namespace InsurancePool

open Outcome FixedWidth Transition
open InvoiceLiquidity (Address Balances Clock move)

variable {pool : Address}

def Guarded (world : World) : Prop :=
  getMinReserveRatioBps world = 0 ∨ world.guards.solvencyCircuitOpen = true ∨
    getMinReserveRatioBps world ≤ getReserveRatioBps world

instance (world : World) : Decidable (Guarded world) := inferInstanceAs (Decidable (_ ∨ _))

/-- The calls that can leave a closed breaker below the minimum. -/
def Call.unguards : Call → Bool
  | .executeCoverageChange | .setCoverageViaGovernance _ | .setMinReserveRatioBps _
  | .resetSolvencyCircuit => true
  | _ => false

def StaysGuarded (world : World) : Action pool → Prop
  | .invoke env call => call.unguards = true → Guarded (step world (.invoke env call))
  | _ => True

instance (world : World) : (action : Action pool) → Decidable (StaysGuarded world action)
  | .invoke _ _ => inferInstanceAs (Decidable (_ → _))
  | .credit _ _ _ => isTrue trivial
  | .advance _ _ => isTrue trivial

section Ratio

variable {world : World}

/-- In a sound world neither the clamping nor the cast to `u32` can turn the order of two ratios
round. -/
theorem Sound.ratio_eq (sound : Sound pool world) (positive : 0 < getCoverage world.settings) :
    (getReserveRatioBps world : Int) =
      min (saturate i128 (getTotalReserve world * 10000) / getCoverage world.settings) u32Max := by
  have total : 0 ≤ getTotalReserve world := saturate_nonneg sound.reserve_nonneg
  have scaled : 0 ≤ saturate i128 (getTotalReserve world * 10000) := saturate_nonneg (by omega)
  have quotient : 0 ≤ saturate i128 (getTotalReserve world * 10000) / getCoverage world.settings :=
    Int.ediv_nonneg scaled positive.le
  have cap : ((u32Max : Nat) : Int) = 4294967295 := rfl
  simp only [getReserveRatioBps, if_neg (not_le.mpr positive), Int.tdiv_eq_ediv_of_nonneg scaled]
  rw [Int.emod_eq_of_lt (by omega) (by omega), Int.toNat_of_nonneg (by omega)]

theorem ratio_mono {after : World} (sound : Sound pool world) (soundAfter : Sound pool after)
    (coverage : getCoverage after.settings = getCoverage world.settings)
    (more : world.reserve ≤ after.reserve) :
    getReserveRatioBps world ≤ getReserveRatioBps after := by
  by_cases positive : 0 < getCoverage world.settings
  · have before := sound.ratio_eq positive
    have now := soundAfter.ratio_eq (coverage.symm ▸ positive)
    rw [coverage] at now
    have totals : getTotalReserve world ≤ getTotalReserve after := saturate_mono more
    have scaled : saturate i128 (getTotalReserve world * 10000) ≤
      saturate i128 (getTotalReserve after * 10000) := saturate_mono (by omega)
    have quotients := Int.ediv_le_ediv positive scaled
    have ordered : (getReserveRatioBps world : Int) ≤ getReserveRatioBps after := by
      rw [before, now]
      exact min_le_min_right _ quotients
    exact_mod_cast ordered
  · have none : getReserveRatioBps world = 0 := by simp only [getReserveRatioBps,
      if_pos (not_lt.mp positive)]
    rw [none]
    exact Nat.zero_le _

end Ratio

section Steps

variable {env : Env pool} {world next : World} {call : Call}

theorem guarded_trip (world : World) : Guarded (tripCircuitIfBreached world) := by
  rw [tripCircuitIfBreached_eq]
  by_cases breached : getMinReserveRatioBps world ≠ 0 ∧ getReserveRatioBps world <
    getMinReserveRatioBps world
  · exact .inr (.inl (by simp [breached]))
  · by_cases armed : getMinReserveRatioBps world = 0
    · exact .inl armed
    · have met : getMinReserveRatioBps world ≤ getReserveRatioBps world := not_lt.mp fun missed =>
        breached ⟨armed, missed⟩
      exact .inr (.inr met)

theorem Guarded.of_more (guarded : Guarded world) (sound : Sound pool world)
    (soundNext : Sound pool next) (settings : next.settings = world.settings)
    (guards : next.guards = world.guards) (more : world.reserve ≤ next.reserve) : Guarded next := by
  have minimum : getMinReserveRatioBps next = getMinReserveRatioBps world := by
    simp only [getMinReserveRatioBps, guards]
  unfold Guarded
  rw [minimum, guards]
  have ratios := ratio_mono sound soundNext (congrArg getCoverage settings) more
  exact guarded.imp_right (Or.imp_right fun met => met.trans ratios)

def Armed (world : World) : Prop := world.settings.admin = none →
    world.guards.minReserveRatioBps = none

theorem Change.armed (change : Change env world call next) (armed : Armed world) : Armed next := by
  cases change with
  | opened | adminExecuted => exact nofun
  | minimumSet signed =>
    obtain ⟨admin, stored, _⟩ := signed
    intro missing
    have absurd : some admin = none := stored.symm.trans missing
    cases absurd
  | paid =>
    rw [tripCircuitIfBreached_eq]
    exact armed
  | _ => exact armed

theorem Change.guarded (change : Change env world call next) (typed : call.wellTyped = true)
    (sound : Sound pool world) (armed : Armed world) (guarded : Guarded world)
    (stays : call.unguards = true → Guarded next) : Guarded next := by
  have soundNext := change.sound typed sound
  cases change with
  | opened uninitialised =>
    have unset := armed uninitialised
    exact .inl (by simp only [getMinReserveRatioBps, unset]; rfl)
  | coverageExecuted | coverageSet | minimumSet | circuitReset => exact stays rfl
  | toppedUp =>
    refine guarded.of_more sound soundNext rfl rfl ?_
    simp only [World.reserve, getPoolBalance, getBackstopBalance, Option.getD_some]
    omega
  | @deposited lp amount enrolled token depositing =>
    refine guarded.of_more sound soundNext rfl rfl ?_
    obtain ⟨liquid, backstop⟩ := depositing.books sound (of_decide_eq_true typed)
    have positive := depositing.positive
    simp only [World.reserve, getPoolBalance, getBackstopBalance] at liquid backstop ⊢
    omega
  | enrolled _ marked =>
    rw [markEnrolled_spec marked]
    exact guarded
  | paid => exact guarded_trip _
  | _ => exact guarded

structure Protected (pool : Address) (world : World) : Prop where
  sound : Sound pool world
  armed : Armed world
  guarded : Guarded world

theorem step_protected (world : World) (action : Action pool) (held : Protected pool world)
    (stays : StaysGuarded world action) : Protected pool (step world action) := by
  have sound := step_sound world action held.sound
  have armed := step_keeps Armed (fun _ change armed => change.armed armed)
    (fun _ _ _ _ armed => armed) (fun _ _ armed => armed) world action held.armed
  refine ⟨sound, armed, ?_⟩
  cases action with
  | invoke env call =>
    cases ran : invoke env world call with
    | error =>
      have same : step world (.invoke env call) = world := by simp only [step, ran]
      rw [same]
      exact held.guarded
    | ok next =>
      have after : step world (.invoke env call) = next := by simp only [step, ran]
      obtain ⟨typed, change⟩ := invoke_change ran
      simp only [StaysGuarded, after] at stays
      rw [after]
      exact change.guarded typed held.sound held.armed held.guarded stays
  | credit | advance => exact held.guarded

theorem Protected.pays (held : Protected pool world) {action : Action pool} {payout : Payout}
    (paid : paidBy world action = some payout) :
    getMinReserveRatioBps world ≤ getReserveRatioBps world ∧
      world.guards.solvencyCircuitOpen = false := by
  obtain ⟨_, _, _, paying, _⟩ := paidBy_spec paid
  refine ⟨?_, paying.closed⟩
  rcases held.guarded with unset | tripped | met
  · rw [unset]
    exact Nat.zero_le _
  · rw [paying.closed] at tripped
    cases tripped
  · exact met

end Steps

/-- In a run where no change of the coverage or the minimum and no reset leaves a closed breaker
below the minimum, every claim that pays out does so with the reserve ratio at the minimum or above
and the breaker closed. -/
theorem payouts_meet_minimum (clock : Clock) (tokens : Balances)
    (solvent : ∀ token, 0 ≤ tokens token pool) (actions : List (Action pool))
    (stays : Along step StaysGuarded (genesis clock tokens) actions) :
    Along step (fun world action => ∀ payout ∈ paidBy world action,
      getMinReserveRatioBps world ≤ getReserveRatioBps world ∧
      world.guards.solvencyCircuitOpen = false)
      (genesis clock tokens) actions := by
  have start : Protected pool (genesis clock tokens) :=
    ⟨genesis_sound clock solvent, fun _ => rfl, .inl rfl⟩
  have throughout := throughout_along (Protected pool)
    (fun world action held stays => step_protected world action held stays) start stays
  exact throughout.along.mono fun world action held payout paid => held.pays paid

def armedPool : List (Action ⟨0⟩) :=
  [signedBy [1] (.initializeContract ⟨1⟩ 100 ⟨9⟩), signedBy [2] (.depositPremium ⟨2⟩ 9),
    signedBy [1] (.topUpBackstop ⟨1⟩ 81), signedBy [1] (.setMinReserveRatioBps 6000)]

theorem payouts_meet_minimum_of_armedPool :
    let world := exec step (genesis ⟨1000, 10⟩ endowment) armedPool
    paidBy world (signedBy [1] (.claim 7 ⟨2⟩)) = some ⟨7, ⟨2⟩, 50⟩ ∧
      getMinReserveRatioBps world ≤ getReserveRatioBps world ∧
      paidBy (step world (signedBy [1] (.claim 7 ⟨2⟩))) (signedBy [1] (.claim 8 ⟨2⟩)) = none := by
  have along := payouts_meet_minimum ⟨1000, 10⟩ endowment (fun token => endowment_nonneg token ⟨0⟩)
    (armedPool ++ [signedBy [1] (.claim 7 ⟨2⟩)]) (by decide +kernel)
  have paid : paidBy (exec step (genesis ⟨1000, 10⟩ endowment) armedPool)
      (signedBy [1] (.claim 7 ⟨2⟩)) = some ⟨7, ⟨2⟩, 50⟩ := by decide +kernel
  have met := (along_append.mp along).2.1 _ paid
  exact ⟨paid, met.1, by decide +kernel⟩

def unguarding : List (List (Action ⟨0⟩)) :=
  [[signedBy [1] (.setMinReserveRatioBps 9500)], [signedBy [1] (.setCoverageViaGovernance 200)],
    [signedBy [1] (.claim 8 ⟨2⟩), signedBy [1] .resetSolvencyCircuit]]

/-- After each of them, the ratio, the minimum above it, and the claim that is paid all the same. -/
theorem payout_below_minimum : unguarding.map (fun changes =>
      let world := exec step (genesis ⟨1000, 10⟩ endowment) (armedPool ++ changes)
      (getReserveRatioBps world, getMinReserveRatioBps world,
        paidBy world (signedBy [1] (.claim 7 ⟨2⟩)))) =
    [(9000, 9500, some ⟨7, ⟨2⟩, 50⟩), (4500, 6000, some ⟨7, ⟨2⟩, 90⟩),
      (4000, 6000, some ⟨7, ⟨2⟩, 40⟩)] := by
  decide +kernel

end InsurancePool
