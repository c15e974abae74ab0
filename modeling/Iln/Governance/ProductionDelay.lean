import Iln.Governance.VetoConsent

/-! The execution delay after the veto is gone. A proposal that passes is stamped with the stored
delay. The floor of a day is checked when a delay is set without the veto power, and never for the
delay that was stored before. -/
namespace IlnGovernance

open Outcome FixedWidth Transition
open InvoiceLiquidity (Address Hash Balances Clock)

variable {contract : Address}

def World.delay (world : World) : Nat := world.parameters.executionDelay.getD 0

def retiresVeto (world : World) : Action contract → Bool
  | .invoke env call => call.retiresVeto && (invoke env world call).isOk
  | _ => false

section Steps

variable {env : Env contract} {world next : World} {id : Nat} {call : Call}

theorem setExecutionDelay_floor {admin : Address} {delay : Nat}
    (ran : invoke env world (.setExecutionDelay admin delay) = .ok next)
    (disabled : isVetoPowerEnabled world.veto = false) :
    minProductionExecutionDelayLedgers ≤ delay := by
  simp only [invoke, invokeParameters, ok_iff, setExecutionDelay] at ran
  obtain ⟨_, _, _, ⟨_, _, _, _, _, _, _, _, _, _, _, floor, _⟩, _⟩ := ran
  exact not_lt.mp fun short => floor ⟨disabled, short⟩

/-- The delay is written by its setter alone, which knows the floor once the veto is gone. -/
theorem invoke_delay (ran : invoke env world call = .ok next) : next.delay = world.delay ∨
      (isVetoPowerEnabled world.veto = false → minProductionExecutionDelayLedgers ≤
        next.delay) := by
  rcases invoke_cases ran with ⟨_, changed, _, rfl⟩ | called
  · cases call with
    | setExecutionDelay =>
      cases changed
      exact .inr (setExecutionDelay_floor ran)
    | setMaxDelegationDepth | setGovTokenTotalSupply | setMinQuorumBps | setMinProposalDeposit
    | setProposalDepositSink | setQuadraticVotingEnabled | setMinProposalBalance =>
      cases changed
      exact .inl rfl
    | _ => cases changed
  · exact .inl (congrArg (Option.getD · 0) (invokeWorld_controls called).2)

def Retired (world : World) : Prop := world.veto.powerEnabled = some false ∧
    world.parameters.ilnContract ≠ none

theorem Retired.disabled (retired : Retired world) : isVetoPowerEnabled world.veto = false := by
  rw [isVetoPowerEnabled, retired.1]
  rfl

theorem invoke_iln (ran : invoke env world call = .ok next)
    (initialised : world.parameters.ilnContract ≠ none) : next.parameters.ilnContract ≠ none := by
  rcases (invoke_effect ran).settings with ⟨iln, _⟩ | ⟨uninitialised, _⟩ | ⟨_, _, counting⟩
  · have same : next.parameters.ilnContract = world.parameters.ilnContract := iln
    rwa [same]
  · exact absurd uninitialised initialised
  · have same : next.parameters.ilnContract = world.parameters.ilnContract :=
      congrArg Counting.iln counting
    rwa [same]

theorem invoke_retired (ran : invoke env world call = .ok next) (retired : Retired world) :
    Retired next := by
  refine ⟨?_, invoke_iln ran retired.2⟩
  have write := invoke_vetoWrite ran
  generalize next.veto = veto at write
  cases write with
  | opened uninitialised => exact absurd uninitialised retired.2
  | retired => rfl
  | kept | configured | pending | executed => exact retired.1

theorem invoke_retires (ran : invoke env world call = .ok next)
    (retires : call.retiresVeto = true) : Retired next := by
  have called := invokeWorld_of_invoke ran (by cases call <;> first | rfl | cases retires)
  obtain ⟨_, disabled⟩ := invokeWorld_retires retires called
  obtain ⟨_, located, rfl⟩ := internalDisableVetoPower_spec disabled
  exact ⟨rfl, by simp [located]⟩

theorem step_retired (action : Action contract)
    (retired : Retired world ∨ retiresVeto world action = true) : Retired (step world action) := by
  cases finished : succeeds world action with
  | false =>
    rw [step_of_failed finished]
    refine retired.resolve_right fun retires => ?_
    cases action with
    | invoke =>
      simp only [retiresVeto, Bool.and_eq_true] at retires
      exact absurd retires.2 (by simpa [succeeds] using finished)
    | _ => cases retires
  | true =>
    cases action with
    | invoke =>
      have ran := invoke_of_succeeds finished
      rcases retired with retired | retires
      · exact invoke_retired ran retired
      · simp only [retiresVeto, Bool.and_eq_true] at retires
        exact invoke_retires ran retires.1
    | transfer | advance | archiveVote | archiveApprovals =>
      exact retired.resolve_right (by simp [retiresVeto])

/-- A delay that reached the floor when the veto power went stays there. -/
def Floored (world : World) : Prop :=
  world.veto.powerEnabled = some false →
    world.parameters.ilnContract ≠ none ∧ minProductionExecutionDelayLedgers ≤ world.delay

theorem invoke_floored (ran : invoke env world call = .ok next) (floored : Floored world)
    (retires : call.retiresVeto = true → minProductionExecutionDelayLedgers ≤ world.delay) :
    Floored next := by
  intro gone
  -- a call that leaves the power alone meets the floor or does not touch the delay
  have later : world.veto.powerEnabled = some false →
      next.parameters.ilnContract ≠ none ∧ minProductionExecutionDelayLedgers ≤ next.delay := by
    intro before
    obtain ⟨initialised, floor⟩ := floored before
    refine ⟨invoke_iln ran initialised, ?_⟩
    rcases invoke_delay ran with same | set
    · rw [same]
      exact floor
    · exact set (Retired.disabled ⟨before, initialised⟩)
  have write := invoke_vetoWrite ran
  generalize next.veto = veto at write gone
  cases write with
  | opened => cases gone
  | kept | configured | pending | executed => exact later gone
  | retired disables located =>
    refine ⟨invoke_iln ran (by simp [located]), ?_⟩
    have called := invokeWorld_of_invoke ran (by cases call <;> first | rfl | cases disables)
    have same : next.delay = world.delay := congrArg (Option.getD · 0)
      (invokeWorld_controls called).2
    rw [same]
    exact retires disables

theorem step_floored (action : Action contract) (floored : Floored world)
    (retires : retiresVeto world action = true → minProductionExecutionDelayLedgers ≤ world.delay) :
    Floored (step world action) := by
  cases finished : succeeds world action with
  | false =>
    rw [step_of_failed finished]
    exact floored
  | true =>
    cases action with
    | invoke =>
      refine invoke_floored (invoke_of_succeeds finished) floored fun disables => retires ?_
      simp only [retiresVeto, disables, Bool.true_and]
      exact finished
    | transfer | advance | archiveVote | archiveApprovals => exact floored

theorem step_passes {proposal : GovernanceProposal} (action : Action contract)
    (numbered : Numbered world) (before : world.statusOf id ≠ some .passed)
    (stored : (step world action).proposals.proposal id = some proposal)
    (passed : proposal.status = .passed) : proposal.etaLedger =
      world.clock.sequence + world.delay := by
  rcases step_closes action numbered stored passed with held | ⟨_, _, _, _, _, _, _, _, _, _, rfl⟩
  · refine absurd ?_ before
    rw [World.statusOf, held, Option.map_some, passed]
  · rfl

end Steps

theorem exec_retired (clock : Clock) (balance : Balances) (actions : List (Action contract))
    (happened : Happened step (fun world action => retiresVeto world action = true)
      (genesis clock balance) actions) :
    Retired (reach clock balance actions) := by
  refine history_induct (fun past world =>
    Happened step (fun world action => retiresVeto world action = true)
      (genesis clock balance) past → Retired world)
    ?_ (fun never => never.elim) actions happened
  intro past action earlier happened
  exact step_retired action ((happened_snoc.mp happened).imp_left earlier)

theorem exec_floored (clock : Clock) (balance : Balances) {actions : List (Action contract)}
    (floors : Along step (fun world action => retiresVeto world action = true →
      minProductionExecutionDelayLedgers ≤ world.delay) (genesis clock balance) actions) :
    Floored (reach clock balance actions) :=
  invariant_along Floored (fun _ action floored met => step_floored action floored met)
  (fun gone => by cases gone) floors

/-- After the veto power was disabled, a proposal that passes waits a day if and only if the stored
delay is a day or more at that moment, and it always is when it was at the moment the power was
disabled. -/
theorem production_delay_iff (clock : Clock) (balance : Balances) (actions : List (Action contract))
    (action : Action contract) (id : Nat) (proposal : GovernanceProposal)
    (retired : Happened step (fun world action => retiresVeto world action = true)
      (genesis clock balance) actions)
    (before : (reach clock balance actions).statusOf id ≠ some .passed)
    (stored : (step (reach clock balance actions) action).proposals.proposal id = some proposal)
    (passed : proposal.status = .passed) :
    let world := reach clock balance actions
    (world.clock.sequence + minProductionExecutionDelayLedgers ≤ proposal.etaLedger ↔
      minProductionExecutionDelayLedgers ≤ world.delay) ∧
    (Along step (fun world action => retiresVeto world action = true →
        minProductionExecutionDelayLedgers ≤ world.delay) (genesis clock balance) actions →
      world.clock.sequence + minProductionExecutionDelayLedgers ≤ proposal.etaLedger) := by
  have eta := step_passes action (exec_numbered clock balance actions) before stored passed
  have waits : (reach clock balance actions).clock.sequence + minProductionExecutionDelayLedgers ≤
      proposal.etaLedger ↔
      minProductionExecutionDelayLedgers ≤ (reach clock balance actions).delay := by
    rw [eta, Nat.add_le_add_iff_left]
  refine ⟨waits, fun floors => waits.mpr ?_⟩
  exact (exec_floored clock balance floors (exec_retired clock balance actions retired).1).2

def retiredBallot (delay : Nat) : List (Action ⟨0⟩) :=
  [opening, signedBy [8] (.setExecutionDelay ⟨8⟩ delay), signedBy [5] .disableVetoPower,
    signedBy [1] (.createProposal ⟨1⟩ (.updateFeeRate 100) 1 100),
    signedBy [1] (.castVote ⟨1⟩ 1 true), .advance 300000 50]

theorem production_delay_iff_of_retiredBallot :
    let world := exec step (genesis ⟨1000, 10⟩ fun _ _ => 2000) (retiredBallot 17280)
    ∃ proposal, (step world (signedBy [] (.executeProposal 1))).proposals.proposal 1 =
      some proposal ∧
      world.clock.sequence + minProductionExecutionDelayLedgers ≤ proposal.etaLedger := by
  have passed := Option.some_get
    (x := (step (exec step (genesis ⟨1000, 10⟩ fun _ _ => 2000) (retiredBallot 17280))
      (signedBy [] (.executeProposal 1))).proposals.proposal 1) (by decide +kernel)
  refine ⟨_, passed.symm, ?_⟩
  exact (production_delay_iff ⟨1000, 10⟩ (fun _ _ => 2000) (retiredBallot 17280)
    (signedBy [] (.executeProposal 1)) 1 _ (.inr (.inr (.inl (by decide +kernel))))
    (by decide +kernel) passed.symm (by decide +kernel)).2 (by decide +kernel)

/-- With a delay of zero stored before, a proposal that passes after the veto power is disabled may
be executed at once. -/
theorem no_delay_after_veto :
    let world := exec step (genesis ⟨1000, 10⟩ fun _ _ => 2000) (retiredBallot 0)
    let passed := step world (signedBy [] (.executeProposal 1))
    world.veto.powerEnabled = some false ∧ world.statusOf 1 = some .active ∧
      passed.statusOf 1 = some .passed ∧
      (passed.proposals.proposal 1).map (·.etaLedger) = some 60 ∧ world.clock.sequence = 60 ∧
      (step passed (signedBy [] (.executeProposal 1))).statusOf 1 = some .executed := by
  decide +kernel

end IlnGovernance
