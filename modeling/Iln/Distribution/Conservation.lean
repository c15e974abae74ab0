import Iln.Distribution.Rewards

/-! Rewards are minted once. What has been minted to a participant is what is stored as claimed; it
grows only by a claim that finds more earned than claimed, so it stays below the highest accrual the
participant has had. -/
namespace IlnDistribution

open FixedWidth Transition
open InvoiceLiquidity (Address Balances)

variable {world next : World}

def minted (participant : Address) (world : World) : Action → Int
  | .invoke env (.claimTokens claimer) =>
    if claimer = participant then ((claimTokens env world claimer).map Prod.snd).getD 0 else 0
  | _ => 0

def notePeak (participant : Address) (world : World) (action : Action) (peak : Int) : Int :=
  max peak (getAccrual (step world action) participant)

def Bounded (world : World) : Prop := ∀ participant, 0 ≤ getClaimed world participant ∧
    getClaimed world participant ≤ i128.hi

inductive Claiming (env : Env) (world : World) (claimer : Address) : World → Int → Prop where
  | nothing (due : totalEarned world claimer ≤ getClaimed world claimer) :
      Claiming env world claimer world 0
  | minting (govToken : Address) (initialised : world.govToken = some govToken)
      (due : getClaimed world claimer < totalEarned world claimer) :
      Claiming env world claimer
        { world with
          tokens := mint world.tokens govToken claimer
            (totalEarned world claimer - getClaimed world claimer)
          claimed := Function.update world.claimed claimer (some (totalEarned world claimer)) }
        (totalEarned world claimer - getClaimed world claimer)

theorem totalEarned_le_hi (world : World) (participant : Address) :
    totalEarned world participant ≤ i128.hi :=
  saturate_le_hi _

theorem claimTokens_spec {env : Env} {claimer : Address} {amount : Int} (bounded : Bounded world)
    (ran : claimTokens env world claimer = some (next, amount)) :
    Claiming env world claimer next amount := by
  obtain ⟨nonneg, below⟩ := bounded claimer
  have earned := totalEarned_le_hi world claimer
  simp only [claimTokens, Option.bind_eq_bind, Option.bind_eq_some_iff,
    Option.guard_eq_some'] at ran
  obtain ⟨_, _, ran⟩ := ran
  split at ran
  · rename_i small
    cases ran
    refine .nothing (not_lt.mp fun due => ?_)
    have reached : totalEarned world claimer - getClaimed world claimer ≤
        saturate i128 (totalEarned world claimer - getClaimed world claimer) :=
        le_saturate (by omega)
    omega
  · rename_i due
    simp only [Option.bind_eq_some_iff, Option.guard_eq_some'] at ran
    obtain ⟨govToken, initialised, _, _, same⟩ := ran
    have exceeds : getClaimed world claimer < totalEarned world claimer := by
      refine not_le.mp fun covered => due ?_
      exact saturate_le_of_le i128.nonpos (by omega)
    have fits : Fits i128 (totalEarned world claimer - getClaimed world claimer) :=
      ⟨i128.nonpos.trans (by omega), by omega⟩
    have total : saturate i128 (getClaimed world claimer +
      (totalEarned world claimer - getClaimed world claimer)) =
        totalEarned world claimer := by
      rw [add_sub_cancel]
      exact saturate_of_fits ⟨i128.nonpos.trans (by omega), earned⟩
    rw [saturate_of_fits fits, total] at same
    cases same
    exact .minting govToken initialised exceeds

theorem invoke_claimTokens (env : Env) (world : World) (claimer : Address) :
    invoke env world (.claimTokens claimer) = (claimTokens env world claimer).map Prod.fst := rfl

theorem invoke_keepsClaimed {env : Env} {call : Call}
    (other : ∀ claimer, call ≠ .claimTokens claimer) (ran : invoke env world call = some next) :
    next.claimed = world.claimed := by
  simp only [invoke, Option.bind_eq_bind, Option.bind_eq_some_iff] at ran
  obtain ⟨_, _, runs⟩ := ran
  cases call with
  | claimTokens claimer => exact absurd rfl (other claimer)
  | initializeContract =>
    simp only [dispatch, initializeContract, Option.bind_eq_bind, Option.bind_eq_some_iff,
      Option.pure_def, Option.some.injEq] at runs
    obtain ⟨_, _, _, _, rfl⟩ := runs
    rfl
  | accrueLp =>
    simp only [dispatch, accrueLp, Option.bind_eq_bind, Option.bind_eq_some_iff, Option.pure_def,
      Option.some.injEq] at runs
    obtain ⟨_, _, rfl⟩ := runs
    unfold addLpVolume
    split <;> rfl
  | accrueSettlement =>
    simp only [dispatch, accrueSettlement, Option.bind_eq_bind, Option.bind_eq_some_iff,
      Option.pure_def, Option.some.injEq] at runs
    obtain ⟨_, _, rfl⟩ := runs
    rfl
  | setLpRewardRate | setFreelancerRewardRate | setPayerRewardRate =>
    obtain ⟨_, _, rfl⟩ := Option.map_eq_some_iff.mp runs
    rfl

structure Collected (participant : Address) (world : World) (action : Action) : Prop where
  positive : 0 < minted participant world action
  raised : getClaimed (step world action) participant = getClaimed world participant +
    minted participant world action
  level : getClaimed (step world action) participant = getAccrual (step world action) participant
  delivered : ∃ govToken, world.govToken = some govToken ∧
    (step world action).tokens = mint world.tokens govToken participant
      (minted participant world action)

theorem claim_collects (bounded : Bounded world) (env : Env) (claimer participant : Address) :
    minted participant world (.invoke env (.claimTokens claimer)) = 0 ∧
      getClaimed (step world (.invoke env (.claimTokens claimer))) participant =
        getClaimed world participant ∨
    Collected participant world (.invoke env (.claimTokens claimer)) := by
  cases ran : claimTokens env world claimer with
  | none => exact .inl (by simp [minted, step, invoke_claimTokens, ran])
  | some result =>
    obtain ⟨next, amount⟩ := result
    have after : step world (.invoke env (.claimTokens claimer)) = next := by
      simp [step, invoke_claimTokens, ran]
    have mints : minted participant world (.invoke env (.claimTokens claimer)) =
        if claimer = participant then amount else 0 := by simp [minted, ran]
    cases claimTokens_spec bounded ran with
    | nothing =>
      rw [mints, after, ite_self]
      exact .inl ⟨rfl, rfl⟩
    | minting govToken initialised =>
      by_cases own : claimer = participant
      · subst own
        rw [if_pos rfl] at mints
        refine .inr ⟨by omega, ?_, ?_, govToken, initialised, by rw [after, mints]⟩
        · rw [after, mints]
          simp [getClaimed]
        · rw [after]
          simp only [getClaimed, Function.update_self, Option.getD_some]
          rfl
      · rw [mints, after, if_neg own]
        exact .inl ⟨rfl, by simp [getClaimed, Ne.symm own]⟩

theorem step_claimed (bounded : Bounded world) (action : Action) (participant : Address) :
    minted participant world action = 0 ∧
      getClaimed (step world action) participant = getClaimed world participant ∨
    Collected participant world action := by
  cases action with
  | credit => exact .inl ⟨rfl, rfl⟩
  | invoke env call =>
    by_cases claims : ∃ claimer, call = .claimTokens claimer
    · obtain ⟨claimer, rfl⟩ := claims
      exact claim_collects bounded env claimer participant
    · have other : ∀ claimer, call ≠ .claimTokens claimer := fun claimer same =>
        claims ⟨claimer, same⟩
      refine .inl ⟨?_, ?_⟩
      · cases call with
        | claimTokens claimer => exact absurd rfl (other claimer)
        | _ => rfl
      · cases ran : invoke env world call with
        | none => simp [step, ran]
        | some => simp [step, ran, getClaimed, invoke_keepsClaimed other ran]

theorem step_bounded (world : World) (action : Action) (bounded : Bounded world) :
    Bounded (step world action) := by
  intro participant
  obtain ⟨nonneg, below⟩ := bounded participant
  rcases step_claimed bounded action participant with ⟨_, same⟩ | collected
  · rw [same]
    exact ⟨nonneg, below⟩
  · refine ⟨?_, ?_⟩
    · rw [collected.raised]
      have positive := collected.positive
      omega
    · rw [collected.level]
      exact totalEarned_le_hi _ _

theorem genesis_bounded (tokens : Balances) : Bounded (genesis tokens) := fun _ =>
    ⟨le_rfl, i128.pos.le⟩

theorem exec_bounded (tokens : Balances) (actions : List Action) :
    Bounded (exec step (genesis tokens) actions) :=
  invariant Bounded step_bounded actions (genesis_bounded tokens)

theorem tally_minted (tokens : Balances) (actions : List Action) (participant : Address) :
    tally step (minted participant) (genesis tokens) actions =
      getClaimed (exec step (genesis tokens) actions) participant := by
  refine history_induct (fun past world => tally step (minted participant) (genesis tokens) past =
    getClaimed world participant) ?_ rfl actions
  intro past action before
  rw [tally_snoc, before]
  rcases step_claimed (exec_bounded tokens past) action participant with ⟨none, same⟩ | collected
  · rw [none, same, add_zero]
  · exact collected.raised.symm

theorem claimed_le_peak (tokens : Balances) (actions : List Action) (participant : Address) :
    getClaimed (exec step (genesis tokens) actions) participant ≤
      noted step (notePeak participant) 0 (genesis tokens) actions := by
  have along : Along step (fun _ _ => True) (genesis tokens) actions := Along.always
  have keeps : ∀ peak world action, Bounded world ∧ getClaimed world participant ≤ peak → True →
      Bounded (step world action) ∧
        getClaimed (step world action) participant ≤ notePeak participant world action peak := by
    rintro peak world action ⟨bounded, below⟩ _
    refine ⟨step_bounded world action bounded, ?_⟩
    rcases step_claimed bounded action participant with ⟨_, same⟩ | collected
    · rw [same]
      exact below.trans (le_max_left _ _)
    · rw [collected.level]
      exact le_max_right _ _
  exact (noted_induct (fun peak world => Bounded world ∧ getClaimed world participant ≤ peak) keeps
    ⟨genesis_bounded tokens, le_rfl⟩ along).2

/-- In every reachable state the total minted to a participant is the claimed amount, which no
action lowers and which has never been above the highest accrual so far. A claim that mints delivers
the tokens and leaves the claimed amount equal to the accrual. -/
theorem reward_conservation (tokens : Balances) (actions : List Action) (participant : Address) :
    let world := exec step (genesis tokens) actions
    tally step (minted participant) (genesis tokens) actions = getClaimed world participant ∧
    (∀ action, getClaimed world participant ≤ getClaimed (step world action) participant) ∧
    getClaimed world participant ≤ noted step (notePeak participant) 0 (genesis tokens) actions ∧
    ∀ action, minted participant world action ≠ 0 →
      getClaimed (step world action) participant = getAccrual (step world action) participant ∧
      ∃ govToken, world.govToken = some govToken ∧
        (step world action).tokens = mint world.tokens govToken participant
          (minted participant world action) := by
  have bounded := exec_bounded tokens actions
  refine ⟨tally_minted tokens actions participant, fun action => ?_,
    claimed_le_peak tokens actions participant, fun action mints => ?_⟩
  · rcases step_claimed bounded action participant with ⟨_, same⟩ | collected
    · exact same.ge
    · rw [collected.raised]
      have positive := collected.positive
      omega
  · rcases step_claimed bounded action participant with ⟨none, _⟩ | collected
    · exact absurd none mints
    · exact ⟨collected.level, collected.delivered⟩

end IlnDistribution
