import Iln.Governance.Lifecycle

/-! Proposal deposits over whole runs. A step leaves the deposits alone, takes one from a proposer
or settles one, to the proposer of a passed proposal or to the sink; `Handled` says so once. Once
the timelock of a passed proposal is over, only its target can keep it from being executed. -/
namespace IlnGovernance

open Outcome FixedWidth Transition Function
open InvoiceLiquidity (Address Hash Balances Clock move)

variable {contract : Address} {recipient : Option Address} {action : ProposalAction}
  {descriptionHash : Hash}

structure Vault where
  token : Option Address
  deposit : Nat → Option Int
  settled : Nat → Bool
  balance : Balances

def World.vault (world : World) : Vault :=
  ⟨world.parameters.govToken, world.proposals.deposit, world.proposals.depositSettled,
    world.balance⟩

def ProposalStatus.concluded : ProposalStatus → Bool
  | .passed | .executed | .vetoed => true
  | .active | .rejected => false

def World.Concluded (world : World) (id : Nat) : Prop :=
  ∃ proposal, world.proposals.proposal id = some proposal ∧ proposal.status.concluded = true

inductive Owed (parameters : Parameters) (proposal : GovernanceProposal) :
    Option Address → Prop where
  | proposer (passed : proposal.status = .passed ∨ proposal.status = .executed) :
      Owed parameters proposal (some proposal.proposer)
  | sink (ended : proposal.status = .vetoed ∨ proposal.status = .rejected) :
      Owed parameters proposal parameters.proposalDepositSink.join

inductive Handled (contract : Address) (world next : World) : Prop where
  | received (vault : next.vault = { world.vault with balance := next.balance })
      (gains : ∀ token, world.balance token contract ≤ next.balance token contract)
      (concludes : ∀ id, next.Concluded id → world.Concluded id)
  | tokened {token : Address} (untokened : world.vault.token = none)
      (vault : next.vault = { world.vault with token := some token })
      (concludes : ∀ id, next.Concluded id → world.Concluded id)
  | taken {id : Nat} {token proposer : Address} {amount : Int}
      (initialised : world.vault.token = some token)
      (apart : proposer ≠ contract) (positive : 0 < amount)
      (vault : next.vault = { world.vault with
        deposit := update world.vault.deposit id (some amount)
        balance := move world.balance token proposer contract amount })
      (concludes : ∀ id, next.Concluded id → world.Concluded id)
  | settled {id : Nat} {env : Env contract} {middle : World} {recipient : Option Address}
      {proposal : GovernanceProposal} (before : middle.vault = world.vault)
      (settled : Settled env middle id recipient next)
      (record : next.proposals.proposal id = some proposal)
      (owed : Owed world.parameters proposal recipient)
      (concludes : ∀ other, other ≠ id → next.Concluded other → world.Concluded other)

section Calls

variable {env : Env contract} {world next : World} {id : Nat}

theorem Handled.of_same (vault : next.vault = world.vault)
    (records : next.proposals.proposal = world.proposals.proposal) :
    Handled contract world next := by
  have balance : next.balance = world.balance := congrArg Vault.balance vault
  refine .received ?_ (fun token => by rw [balance]) fun id concluded => ?_
  · rw [vault, balance]
    rfl
  · simpa only [World.Concluded, records] using concluded

theorem concluded_saveProposal {proposal : GovernanceProposal} {other : Nat}
    (concluded : (saveProposal world proposal).Concluded other) :
    world.Concluded other ∨ other = proposal.id ∧ proposal.status.concluded = true := by
  obtain ⟨record, stored, status⟩ := concluded
  by_cases here : other = proposal.id
  · subst here
    simp only [saveProposal, update_self, Option.some.injEq] at stored
    exact .inr ⟨rfl, stored ▸ status⟩
  · simp only [saveProposal, update_of_ne here] at stored
    exact .inl ⟨record, stored, status⟩

theorem Settled.records (settled : Settled env world id recipient next) :
    next.proposals.proposal = world.proposals.proposal := by
  cases settled with
  | before | unpaid | paid => rfl

theorem Handled.of_settled {middle : World} (record : GovernanceProposal)
    (settled : Settled env middle id recipient next) (owed : Owed world.parameters record recipient)
    (named : record.id = id)
    (saved : middle.proposals.proposal = (saveProposal world record).proposals.proposal)
    (before : middle.vault = world.vault) : Handled contract world next := by
  have records : next.proposals.proposal = (saveProposal world record).proposals.proposal :=
    settled.records.trans saved
  refine .settled before settled ?_ owed fun other apart concluded => ?_
  · rw [records, ← named]
    exact update_self _ _ _
  · have saves : (saveProposal world record).Concluded other := by
      simpa only [World.Concluded, records] using concluded
    rcases concluded_saveProposal saves with old | ⟨here, _⟩
    · exact old
    · exact absurd (here.trans named) apart

theorem executeProposal_handled (ran : executeProposal env world id = .ok next) :
    Handled contract world next := by
  obtain ⟨proposal, stored, _, ⟨_, closes⟩ | ⟨_, executes⟩⟩ := executeProposal_eq_ok.mp ran
  all_goals obtain rfl := (loadProposal_eq_ok.mp stored).2.2
  · obtain ⟨_, _, _, _, settled⟩ := closeVoting_spec closes
    exact .of_settled { proposal with etaLedger := _, status := .passed } settled
      (.proposer (.inl rfl)) rfl rfl rfl
  · obtain ⟨_, _, _, _, _, ⟨_, rfl⟩ | ⟨_, settled⟩⟩ := executePassed_spec executes
    · exact .of_same rfl rfl
    · exact .of_settled { proposal with status := .executed } settled
        (.proposer (.inr rfl)) rfl rfl rfl

theorem vetoProposal_handled {signer : Address} {reasonHash : Hash}
    (ran : vetoProposal env world signer id reasonHash = .ok next) :
    Handled contract world next := by
  obtain ⟨proposal, _, _, stored, _, rfl | settled⟩ := vetoProposal_spec ran
  · exact .of_same rfl rfl
  · obtain rfl := (loadProposal_eq_ok.mp stored).2.2
    exact .of_settled { proposal with status := .vetoed } settled (.sink (.inl rfl)) rfl rfl rfl

variable {proposer : Address} {proposedValue : Int}

theorem concluded_opening (token : Address) {other : Nat}
    (concluded : (world.opening token proposer action descriptionHash proposedValue).Concluded
      other) :
    world.Concluded other := by
  have saved : (saveProposal world (openingProposal world.clock (addCapped u64Max world.count 1)
      proposer action descriptionHash proposedValue)).Concluded other := concluded
  rcases concluded_saveProposal saved with old | ⟨_, closed⟩
  · exact old
  · cases closed

theorem createProposal_handled {result : World × Nat}
    (ran : createProposal env world proposer action descriptionHash proposedValue = .ok result) :
    Handled contract world result.1 := by
  obtain ⟨signed, token, initialised, opened | ⟨_, _, positive, _, opened⟩⟩ :=
    createProposal_spec ran
  · rw [opened]
    exact .received rfl (fun _ => le_rfl) fun id concluded => concluded_opening token concluded
  · have apart : proposer ≠ contract := by
      rintro rfl
      rw [env.unsigned] at signed
      cases signed
    rw [opened]
    exact .taken initialised apart positive rfl fun id concluded =>
      concluded_opening token concluded

theorem castVote_handled {voter : Address} {support : Bool}
    (ran : castVote env world voter id support = .ok next) : Handled contract world next := by
  obtain ⟨_, proposal, _, _, _, weight, _, _, active, _, _, _, _, _, rfl⟩ := castVote_spec ran
  refine .received rfl (fun token => le_rfl) fun other concluded => ?_
  rcases concluded_saveProposal concluded with old | ⟨_, closed⟩
  · exact old
  · have still : (addVote proposal support weight).status = .active := by
      simp only [addVote]
      split <;> exact active
    rw [still] at closed
    cases closed

theorem invokeWorld_handled {call : Call} (numbered : Numbered world)
    (ran : invokeWorld env world call = .ok next) : Handled contract world next := by
  cases call with
  | initializeContract =>
    simp only [invokeWorld, initializeContract, ok_iff] at ran
    obtain ⟨_, uninitialised, rfl⟩ := ran
    exact .tokened (numbered.uninitialised uninitialised).1 rfl fun id concluded => concluded
  | createProposal =>
    simp only [invokeWorld, ok_iff] at ran
    obtain ⟨_, created, rfl⟩ := ran
    exact createProposal_handled created
  | castVote => exact castVote_handled ran
  | delegateVotes =>
    obtain ⟨_, _, _, _, _, _, _, _, rfl⟩ := delegateVotes_spec ran
    exact .of_same rfl rfl
  | undelegateVotes =>
    obtain ⟨_, ⟨_, rfl⟩ | ⟨_, _, _, _, _, _, rfl⟩⟩ := undelegateVotes_spec ran
    all_goals exact .of_same rfl rfl
  | checkpointBalance =>
    simp only [invokeWorld, checkpointBalance, ok_iff] at ran
    obtain ⟨_, _, _, _, rfl⟩ := ran
    exact .of_same rfl rfl
  | executeProposal => exact executeProposal_handled ran
  | vetoProposal => exact vetoProposal_handled ran
  | configureVetoMultisig | disableVetoPower | disableVetoPowerWithReason =>
    obtain ⟨_, rfl⟩ := invokeWorld_veto ran (by simp [Call.retiresVeto])
    exact .of_same rfl rfl
  | _ => cases ran

theorem setting_govToken {call : Call} {parameters after : Parameters}
    (changed : call.setting parameters = some after) : after.govToken = parameters.govToken := by
  cases call with
  | setMaxDelegationDepth | setGovTokenTotalSupply | setMinQuorumBps | setMinProposalDeposit
  | setProposalDepositSink | setQuadraticVotingEnabled | setMinProposalBalance
  | setExecutionDelay =>
    cases changed
    rfl
  | _ => cases changed

theorem transferBetween_gains (balance : Balances) (token source target : Address) (amount : Int)
    (asset : Address) :
    balance asset contract ≤ transferBetween contract balance token source target amount asset
      contract := by
  unfold transferBetween
  split
  · rename_i allowed
    obtain ⟨apart, nonneg, _⟩ := allowed
    have unsent : ¬ (asset = token ∧ contract = source) := fun sent => apart sent.2.symm
    simp only [move, if_neg unsent]
    split <;> omega
  · exact le_rfl

theorem step_handled (action : Action contract) (numbered : Numbered world) :
    Handled contract world (step world action) := by
  cases finished : succeeds world action with
  | false =>
    rw [step_of_failed finished]
    exact .of_same rfl rfl
  | true =>
    cases action with
    | invoke =>
      rcases invoke_cases (invoke_of_succeeds finished) with ⟨_, changed, _, same⟩ | ran
      · rw [same]
        refine .of_same ?_ rfl
        simp only [World.vault, setting_govToken changed]
      · exact invokeWorld_handled numbered ran
    | transfer token source target amount =>
      exact .received rfl (transferBetween_gains world.balance token source target amount)
        fun id concluded => concluded
    | advance | archiveVote | archiveApprovals => exact .of_same rfl rfl

end Calls

section Settlement

def KeepsSettled (world next : World) : Prop :=
  ∀ id, world.proposals.depositSettled id = true → next.proposals.depositSettled id = true

variable {env : Env contract} {world next : World} {id : Nat}

theorem KeepsSettled.of_same
    (same : next.proposals.depositSettled = world.proposals.depositSettled) :
    KeepsSettled world next := fun id settled => (congrFun same id).trans settled

theorem settleDeposit_keeps (world : World) (id : Nat) :
    KeepsSettled world (settleDeposit world id) := by
  intro other settled
  by_cases here : other = id
  · simp [settleDeposit, here]
  · simpa [settleDeposit, update_of_ne here] using settled

theorem Settled.settles (settled : Settled env world id recipient next) :
    KeepsSettled world next ∧ next.proposals.depositSettled id = true := by
  have closed : (settleDeposit world id).proposals.depositSettled id =
    true := by simp [settleDeposit]
  cases settled with
  | before already => exact ⟨.of_same rfl, already⟩
  | unpaid | paid => exact ⟨settleDeposit_keeps world id, closed⟩

theorem Handled.keepsSettled (handled : Handled contract world next) : KeepsSettled world next := by
  cases handled with
  | received vault | tokened _ vault | taken _ _ _ vault =>
    exact .of_same (congrArg Vault.settled vault)
  | settled before settled =>
    intro other already
    exact settled.settles.1 other ((congrFun (congrArg Vault.settled before) other).trans already)

def ConcludedSettled (world : World) : Prop := ∀ id, world.Concluded id →
    world.proposals.depositSettled id = true

theorem Handled.concludedSettled (handled : Handled contract world next)
    (sound : ConcludedSettled world) : ConcludedSettled next := by
  intro other concluded
  have keeps := handled.keepsSettled other
  cases handled with
  | received _ _ concludes | tokened _ _ concludes | taken _ _ _ _ concludes =>
    exact keeps (sound other (concludes other concluded))
  | @settled id _ _ _ _ _ settled _ _ concludes =>
    by_cases here : other = id
    · rw [here]
      exact settled.settles.2
    · exact keeps (sound other (concludes other here concluded))

end Settlement

section Runs

variable {world : World}

theorem step_timestamp (action : Action contract) (numbered : Numbered world) :
    world.clock.timestamp ≤ (step world action).clock.timestamp := by
  cases finished : succeeds world action with
  | false => rw [step_of_failed finished]
  | true =>
    cases action with
    | invoke => rw [(invoke_slots numbered (invoke_of_succeeds finished)).2]
    | advance => exact Nat.le_add_right _ _
    | _ => exact le_rfl

theorem exec_concludedSettled (clock : Clock) (balance : Balances)
    (actions : List (Action contract)) :
    ConcludedSettled (reach clock balance actions) := by
  have kept : Numbered (reach clock balance actions) ∧
      ConcludedSettled (reach clock balance actions) := by
    refine invariant (fun world : World => Numbered world ∧ ConcludedSettled world) ?_ actions
      ⟨genesis_numbered clock balance, ?_⟩
    · rintro world action ⟨numbered, sound⟩
      exact ⟨step_numbered action numbered, (step_handled action numbered).concludedSettled sound⟩
    · rintro id ⟨proposal, stored, _⟩
      cases stored
  exact kept.2

def PassedEnded (world : World) : Prop :=
  ∀ id, ∀ proposal ∈ world.proposals.proposal id, proposal.status = .passed →
    proposal.votingEnd ≤ world.clock.timestamp

theorem step_passedEnded (action : Action contract) (numbered : Numbered world)
    (sound : PassedEnded world) : PassedEnded (step world action) := by
  intro id proposal stored passed
  have later := step_timestamp action numbered
  rcases step_closes action numbered stored passed with before | ⟨_, _, _, _, _, _, ended,
    _, _, _, rfl⟩
  · exact (sound id proposal before passed).trans later
  · exact ended.trans later

def PassedSettled (world : World) : Prop :=
  ∀ id, ∀ proposal ∈ world.proposals.proposal id, proposal.status = .passed →
    proposal.votingEnd ≤ world.clock.timestamp ∧ world.proposals.depositSettled id = true

theorem exec_passedSettled (clock : Clock) (balance : Balances) (actions : List (Action contract)) :
    PassedSettled (reach clock balance actions) := by
  have ended : Numbered (reach clock balance actions) ∧
      PassedEnded (reach clock balance actions) := by
    refine invariant (fun world : World => Numbered world ∧ PassedEnded world) ?_ actions
      ⟨genesis_numbered clock balance, fun id proposal stored => by cases stored⟩
    rintro world action ⟨numbered, sound⟩
    exact ⟨step_numbered action numbered, step_passedEnded action numbered sound⟩
  intro id proposal stored passed
  exact ⟨ended.2 id proposal stored passed,
    exec_concludedSettled clock balance actions id ⟨proposal, stored, by rw [passed]; rfl⟩⟩

end Runs

end IlnGovernance
