import Iln.Governance.Effect

/-! The life of one proposal. A `Docket` is what the contract stores about it: the record, the
ledger of its creation, the snapshots and the receipts of its votes. A step leaves a docket alone or
moves it in one of five ways. Beside the dockets stand the two checkpoint slots of each voter. -/
namespace IlnGovernance

open Outcome FixedWidth Transition Function
open InvoiceLiquidity (Address Hash Balances Clock)

variable {contract : Address} {action : ProposalAction} {descriptionHash : Hash} {call : Call}
variable {proposal : GovernanceProposal} {env : Env contract}

structure Docket where
  proposal : Option GovernanceProposal
  createdLedger : Option Nat
  snapshot : Address → Option Int
  receipt : Address → Option Int

def Docket.blank : Docket := ⟨none, none, fun _ => none, fun _ => none⟩

def World.docket (world : World) (id : Nat) : Docket :=
  ⟨world.proposals.proposal id, world.proposals.createdLedger id,
    world.ballots.voteWeightSnapshot id, world.ballots.voteReceipt id⟩

structure Slots where
  latest : Option BalanceCheckpoint
  prior : Option BalanceCheckpoint

def World.slots (world : World) (voter : Address) : Slots :=
  ⟨world.ballots.balanceCheckpoint voter, world.ballots.priorBalanceCheckpoint voter⟩

def Slots.refresh (slots : Slots) (checkpoint : BalanceCheckpoint) : Slots where
  latest := some checkpoint
  prior :=
    match slots.latest with
    | some old => if old.ledger < checkpoint.ledger then some old else slots.prior
    | none => slots.prior

def Call.records (world : World) : Call → Option Address
  | .checkpointBalance voter => some voter
  | .createProposal proposer _ _ _ =>
    if (world.ballots.balanceCheckpoint proposer).isNone then some proposer else none
  | _ => none

def slotsAfter (world : World) (call : Call) : Address → Slots :=
  match call.records world with
  | none => world.slots
  | some voter =>
    match world.parameters.govToken with
    | none => world.slots
    | some token =>
      update world.slots voter ((world.slots voter).refresh ⟨world.balance token voter,
        world.clock.sequence⟩)

def World.statusOf (world : World) (id : Nat) : Option ProposalStatus :=
    (world.proposals.proposal id).map (·.status)

def succeeds (world : World) : Action contract → Bool
  | .invoke env call => (invoke env world call).isOk
  | _ => true

section Moves

/-- What a successful call did to the docket of one identifier, and the checks it passed. -/
inductive Motion (env : Env contract) (world : World) (id : Nat) : Call → Docket → Prop where
  | opened {proposer : Address} {action : ProposalAction} {descriptionHash : Hash}
      {proposedValue : Int} {token : Address} (initialised : world.parameters.govToken = some token)
      (numbered : addCapped u64Max world.count 1 = id) :
      Motion env world id (.createProposal proposer action descriptionHash proposedValue)
        { world.docket id with
          proposal := some (openingProposal world.clock id proposer action descriptionHash
            proposedValue)
          createdLedger := some world.clock.sequence
          snapshot := update (world.docket id).snapshot proposer
            (some (world.balance token proposer)) }
  | voted {voter : Address} {support : Bool} {proposal : GovernanceProposal} {token : Address}
      {ballots : BallotStore} {own weight : Int} (stored : loadProposal world id = .ok proposal)
      (ongoing : world.clock.timestamp < proposal.votingEnd) (active : proposal.status = .active)
      (unvoted : world.ballots.voteReceipt id voter = none)
      (initialised : world.parameters.govToken = some token)
      (owned : ownWeight world token voter id = .ok (ballots, own))
      (weighed : countedWeight world.parameters
        (saturate i128 (own + (world.delegations.delegatedToMe voter).getD 0)) = .ok weight)
      (nonzero : weight ≠ 0) :
      Motion env world id (.castVote voter id support)
        { world.docket id with
          proposal := some (addVote proposal support weight)
          snapshot := ballots.voteWeightSnapshot id
          receipt := update (world.docket id).receipt voter (some weight) }
  | closed {proposal : GovernanceProposal} {quorum : Int}
      (stored : loadProposal world id = .ok proposal)
      (active : proposal.status = .active) (ended : proposal.votingEnd ≤ world.clock.timestamp)
      (required : quorumVotes world.parameters = .ok quorum)
      (reached : quorum ≤ proposal.votesFor + proposal.votesAgainst)
      (majority : proposal.votesAgainst < proposal.votesFor) :
      Motion env world id (.executeProposal id)
        { world.docket id with
          proposal := some { proposal with
            etaLedger := world.clock.sequence + world.parameters.executionDelay.getD 0
            status := .passed } }
  | executed {proposal : GovernanceProposal} {iln : Address} {invocation : Invocation}
      (stored : loadProposal world id = .ok proposal) (passed : proposal.status = .passed)
      (ended : proposal.votingEnd ≤ world.clock.timestamp)
      (matured : proposal.etaLedger ≤ world.clock.sequence)
      (located : getIlnContract world.parameters = .ok iln)
      (dispatched : dispatch contract world.parameters iln proposal.actionType = .ok invocation)
      (returned : env.invocationReturns invocation = true) :
      Motion env world id (.executeProposal id)
        { world.docket id with proposal := some { proposal with status := .executed } }
  | vetoed {signer : Address} {reasonHash : Hash} {proposal : GovernanceProposal}
      (stored : loadProposal world id = .ok proposal)
      (vetoable : proposal.status = .active ∨ proposal.status = .passed) :
      Motion env world id (.vetoProposal signer id reasonHash)
        { world.docket id with proposal := some { proposal with status := .vetoed } }

variable {world : World} {id : Nat} {docket : Docket}

theorem Motion.named (motion : Motion env world id call docket) :
    0 < id ∧ ∀ proposal ∈ docket.proposal, proposal.id = id := by
  cases motion with
  | opened _ numbered =>
    refine ⟨?_, fun proposal here => by cases here; rfl⟩
    have capacity : 0 < u64Max := by decide
    simp only [addCapped] at numbered
    omega
  | voted stored =>
    obtain ⟨known, _, named⟩ := loadProposal_eq_ok.mp stored
    refine ⟨known.1, fun proposal here => ?_⟩
    cases here
    simp only [addVote]
    split <;> exact named
  | closed stored | executed stored | vetoed stored =>
    obtain ⟨known, _, named⟩ := loadProposal_eq_ok.mp stored
    exact ⟨known.1, fun proposal here => by cases here; exact named⟩

end Moves

section Calls

structure Still (world next : World) : Prop where
  dockets : next.docket = world.docket
  count : next.count = world.count
  slots : next.slots = world.slots
  clock : next.clock = world.clock

structure Moved (env : Env contract) (world : World) (call : Call) (next : World) (id : Nat)
    (docket : Docket) :
    Prop where
  motion : Motion env world id call docket
  dockets : next.docket = update world.docket id docket
  count : next.count = max world.count id
  slots : next.slots = slotsAfter world call
  clock : next.clock = world.clock

structure Checkpointed (world : World) (call : Call) (next : World) : Prop where
  dockets : next.docket = world.docket
  count : next.count = world.count
  slots : next.slots = slotsAfter world call
  clock : next.clock = world.clock

variable {world next : World} {id : Nat}

theorem Still.of_same (proposals : next.proposals = world.proposals)
    (ballots : next.ballots = world.ballots) (count : next.count = world.count)
    (clock : next.clock = world.clock) : Still world next :=
  ⟨by funext id; simp only [World.docket, proposals, ballots], count,
    by funext voter; simp only [World.slots, ballots], clock⟩

theorem docket_saveProposal (world : World) (proposal : GovernanceProposal) :
    (saveProposal world proposal).docket =
      update world.docket proposal.id
        { world.docket proposal.id with proposal := some proposal } := by
  funext other
  by_cases here : other = proposal.id
  · subst here
    simp [World.docket, saveProposal]
  · simp [World.docket, saveProposal, update_of_ne here]

theorem Settled.still {recipient : Option Address} (settled : Settled env world id recipient next) :
    Still world next := by
  cases settled with
  | before | unpaid | paid => exact ⟨rfl, rfl, rfl, rfl⟩

theorem Moved.of_saved {saved : World} {proposal record : GovernanceProposal}
    (motion : Motion env world id call { world.docket id with proposal := some record })
    (stored : loadProposal world id = .ok proposal) (later : Still saved next)
    (count : saved.count = world.count) (slots : saved.slots = slotsAfter world call)
    (clock : saved.clock = world.clock)
    (saves : saved.docket = update world.docket id
      { world.docket id with proposal := some record }) :
    Moved env world call next id { world.docket id with proposal := some record } := by
  obtain ⟨known, _, _⟩ := loadProposal_eq_ok.mp stored
  refine ⟨motion, later.dockets.trans saves, ?_, later.slots.trans slots, later.clock.trans clock⟩
  rw [later.count, count, max_eq_left known.2]

theorem closeVoting_moved (stored : loadProposal world id = .ok proposal)
    (active : proposal.status = .active) (ended : proposal.votingEnd ≤ world.clock.timestamp)
    (ran : closeVoting env world proposal = .ok next) :
    ∃ docket, Moved env world (.executeProposal id) next id docket := by
  obtain rfl := (loadProposal_eq_ok.mp stored).2.2
  obtain ⟨_, required, reached, majority, settled⟩ := closeVoting_spec ran
  exact ⟨_, .of_saved (.closed stored active ended required reached majority) stored
    settled.still rfl rfl rfl (docket_saveProposal world _)⟩

theorem executePassed_moved (stored : loadProposal world id = .ok proposal)
    (passed : proposal.status = .passed) (ended : proposal.votingEnd ≤ world.clock.timestamp)
    (ran : executePassed env world proposal = .ok next) :
    ∃ iln invocation, getIlnContract world.parameters = .ok iln ∧
      dispatch contract world.parameters iln proposal.actionType = .ok invocation ∧
      (env.invocationReturns invocation = false ∧ next = world ∨
        env.invocationReturns invocation = true ∧ Moved env world (.executeProposal id) next id
          { world.docket id with proposal := some { proposal with status := .executed } }) := by
  obtain rfl := (loadProposal_eq_ok.mp stored).2.2
  obtain ⟨matured, iln, invocation, located, dispatched, outcome⟩ := executePassed_spec ran
  refine ⟨iln, invocation, located, dispatched, outcome.imp_right ?_⟩
  rintro ⟨answered, settled⟩
  exact ⟨answered, .of_saved (.executed stored passed ended matured located dispatched answered)
    stored settled.still rfl rfl rfl (docket_saveProposal world _)⟩

theorem executeProposal_moved (ran : executeProposal env world id = .ok next) :
    next = world ∨ ∃ docket, Moved env world (.executeProposal id) next id docket := by
  obtain ⟨_, stored, ended, ⟨active, closes⟩ | ⟨passed, executes⟩⟩ :=
    executeProposal_eq_ok.mp ran
  · exact .inr (closeVoting_moved stored active ended closes)
  · obtain ⟨_, _, _, _, ⟨_, same⟩ | ⟨_, moved⟩⟩ := executePassed_moved stored passed ended executes
    · exact .inl same
    · exact .inr ⟨_, moved⟩

theorem vetoProposal_moved {signer : Address} {reasonHash : Hash}
    (ran : vetoProposal env world signer id reasonHash = .ok next) :
    Still world next ∨ ∃ docket, Moved env world (.vetoProposal signer id reasonHash) next id
      docket := by
  obtain ⟨_, _, _, stored, vetoable, rfl | settled⟩ := vetoProposal_spec ran
  · exact .inl ⟨rfl, rfl, rfl, rfl⟩
  · obtain rfl := (loadProposal_eq_ok.mp stored).2.2
    exact .inr ⟨_, .of_saved (.vetoed stored vetoable) stored settled.still rfl rfl rfl
      (docket_saveProposal world _)⟩

theorem recordProposal_slots {proposer token : Address} {proposedValue : Int}
    (made : proposal.proposer = proposer) (initialised : world.parameters.govToken = some token) :
    (recordProposal world proposal (world.balance token proposer)).slots =
      slotsAfter world (.createProposal proposer action descriptionHash proposedValue) := by
  subst made
  cases first : world.ballots.balanceCheckpoint proposal.proposer with
  | some =>
    funext voter
    simp [slotsAfter, Call.records, first, World.slots, recordProposal]
  | none =>
    funext voter
    by_cases here : voter = proposal.proposer
    · subst here
      simp [slotsAfter, Call.records, first, initialised, World.slots, recordProposal,
        Slots.refresh]
    · simp [slotsAfter, Call.records, first, initialised, World.slots, recordProposal,
        update_of_ne here]

theorem docket_opening (world : World) (token proposer : Address) (action : ProposalAction)
    (descriptionHash : Hash) (proposedValue : Int) :
    (world.opening token proposer action descriptionHash proposedValue).docket =
      update world.docket (addCapped u64Max world.count 1)
        { world.docket (addCapped u64Max world.count 1) with
          proposal := some (openingProposal world.clock (addCapped u64Max world.count 1) proposer
            action descriptionHash proposedValue)
          createdLedger := some world.clock.sequence
          snapshot := update (world.docket (addCapped u64Max world.count 1)).snapshot proposer
            (some (world.balance token proposer)) } := by
  funext other
  by_cases here : other = addCapped u64Max world.count 1
  · subst here
    simp [World.docket, World.opening, recordProposal, openingProposal]
  · simp [World.docket, World.opening, recordProposal, openingProposal, update_of_ne here]

theorem createProposal_moved {proposer : Address}
    {proposedValue : Int} {result : World × Nat} (capped : world.count ≤ u64Max)
    (ran : createProposal env world proposer action descriptionHash proposedValue = .ok result) :
    ∃ id docket, Moved env world (.createProposal proposer action descriptionHash proposedValue)
      result.1 id docket := by
  obtain ⟨_, token, initialised, taken⟩ := createProposal_spec ran
  have counted : (world.opening token proposer action descriptionHash proposedValue).count =
      max world.count (addCapped u64Max world.count 1) := by
    simp only [World.opening, World.count, recordProposal, openingProposal, addCapped,
      Option.getD_some]
    simp only [World.count] at capped
    omega
  have motion : Motion env world _ (.createProposal proposer action descriptionHash proposedValue)
    _ := .opened initialised rfl
  -- taking the deposit is no matter of the docket
  rcases taken with opened | ⟨_, _, _, _, opened⟩
  all_goals
    rw [opened]
    exact ⟨_, _, motion, docket_opening .., counted, recordProposal_slots rfl initialised, rfl⟩

theorem castVote_moved {voter : Address} {support : Bool}
    (ran : castVote env world voter id support = .ok next) :
    ∃ docket, Moved env world (.castVote voter id support) next id docket := by
  obtain ⟨_, proposal, _, _, _, weight, stored, ongoing, active, unvoted, initialised,
    owned, weighed, nonzero, rfl⟩ := castVote_spec ran
  obtain ⟨known, _, named⟩ := loadProposal_eq_ok.mp stored
  have same : (addVote proposal support weight).id = id := by
    simp only [addVote]
    split <;> exact named
  refine ⟨_, .voted stored ongoing active unvoted initialised owned weighed nonzero, ?_,
    (max_eq_left known.2).symm, ?_, rfl⟩
  · rw [docket_saveProposal, same]
    funext other
    rcases ownWeight_spec owned with ⟨_, kept⟩ | ⟨_, kept⟩
    all_goals
      cases kept
      by_cases here : other = id
      · subst here
        simp [World.docket, recordVote]
      · simp [World.docket, recordVote, update_of_ne here]
  · funext other
    rcases ownWeight_spec owned with ⟨_, kept⟩ | ⟨_, kept⟩
    all_goals
      cases kept
      rfl

theorem checkpointBalance_checkpointed {voter : Address}
    (ran : checkpointBalance env world voter = .ok next) :
    Checkpointed world (.checkpointBalance voter) next := by
  simp only [checkpointBalance, ok_iff, getGovToken] at ran
  obtain ⟨_, _, _, initialised, rfl⟩ := ran
  refine ⟨rfl, rfl, ?_, rfl⟩
  funext other
  by_cases here : other = voter
  · subst here
    cases first : world.ballots.balanceCheckpoint other with
    | none => simp [slotsAfter, Call.records, initialised, World.slots, Slots.refresh, first]
    | some old =>
      by_cases older : old.ledger < world.clock.sequence
      · simp [slotsAfter, Call.records, initialised, World.slots, Slots.refresh, first, older]
      · simp [slotsAfter, Call.records, initialised, World.slots, Slots.refresh, first, older]
  · simp only [slotsAfter, Call.records, initialised, World.slots, update_of_ne here,
      Slots.mk.injEq, true_and]
    cases world.ballots.balanceCheckpoint voter with
    | none => rfl
    | some =>
      dsimp only
      split
      · exact update_of_ne here _ _
      · rfl

structure Numbered (world : World) : Prop where
  named : ∀ id, ∀ proposal ∈ world.proposals.proposal id, proposal.id = id
  beyond : ∀ id, id = 0 ∨ world.count < id → world.docket id = .blank
  capped : world.count ≤ u64Max
  uninitialised : world.parameters.ilnContract = none → world.parameters.govToken = none ∧
    world.count = 0

theorem Still.of_setting {after : Parameters}
    (changed : call.setting world.parameters = some after) :
    Still world { world with parameters := after } ∧ call.records world = none := by
  cases call with
  | setMaxDelegationDepth | setGovTokenTotalSupply | setMinQuorumBps | setMinProposalDeposit
  | setProposalDepositSink | setQuadraticVotingEnabled | setMinProposalBalance
  | setExecutionDelay =>
    cases changed
    exact ⟨⟨rfl, rfl, rfl, rfl⟩, rfl⟩
  | _ => cases changed

theorem invokeWorld_moves (numbered : Numbered world)
    (ran : invokeWorld env world call = .ok next) :
    Still world next ∧ call.records world = none ∨ Checkpointed world call next ∨
      ∃ id docket, Moved env world call next id docket := by
  cases call with
  | initializeContract =>
    simp only [invokeWorld, initializeContract, ok_iff] at ran
    obtain ⟨_, uninitialised, rfl⟩ := ran
    exact .inl ⟨.of_same rfl rfl (numbered.uninitialised uninitialised).2.symm rfl, rfl⟩
  | createProposal =>
    simp only [invokeWorld, ok_iff] at ran
    obtain ⟨_, created, rfl⟩ := ran
    exact .inr (.inr (createProposal_moved numbered.capped created))
  | castVote voter id => exact .inr (.inr ⟨id, castVote_moved ran⟩)
  | executeProposal id =>
    rcases executeProposal_moved ran with rfl | moved
    · exact .inl ⟨⟨rfl, rfl, rfl, rfl⟩, rfl⟩
    · exact .inr (.inr ⟨id, moved⟩)
  | vetoProposal signer id =>
    exact (vetoProposal_moved ran).imp (fun still => ⟨still, rfl⟩) fun moved => .inr ⟨id, moved⟩
  | delegateVotes =>
    obtain ⟨_, _, _, _, _, _, _, _, rfl⟩ := delegateVotes_spec ran
    exact .inl ⟨⟨rfl, rfl, rfl, rfl⟩, rfl⟩
  | undelegateVotes =>
    obtain ⟨_, ⟨_, rfl⟩ | ⟨_, _, _, _, _, _, rfl⟩⟩ := undelegateVotes_spec ran
    · exact .inl ⟨⟨rfl, rfl, rfl, rfl⟩, rfl⟩
    · exact .inl ⟨⟨rfl, rfl, rfl, rfl⟩, rfl⟩
  | checkpointBalance => exact .inr (.inl (checkpointBalance_checkpointed ran))
  | configureVetoMultisig | disableVetoPower | disableVetoPowerWithReason =>
    obtain ⟨_, rfl⟩ := invokeWorld_veto ran (by simp [Call.retiresVeto])
    exact .inl ⟨⟨rfl, rfl, rfl, rfl⟩, rfl⟩
  | _ => cases ran

theorem invoke_moves (numbered : Numbered world) (ran : invoke env world call = .ok next) :
    Still world next ∧ call.records world = none ∨ Checkpointed world call next ∨
      ∃ id docket, Moved env world call next id docket := by
  rcases invoke_cases ran with ⟨_, changed, _, rfl⟩ | ran
  · exact .inl (Still.of_setting changed)
  · exact invokeWorld_moves numbered ran

end Calls

section Steps

variable {world : World} {id : Nat}

theorem step_invoke : step world (.invoke env call) = settled world (invoke env world call) := by
  simp only [step]
  cases invoke env world call <;> rfl

theorem invoke_of_succeeds (finished : succeeds world (.invoke env call) = true) :
    invoke env world call = .ok (step world (.invoke env call)) := by
  rw [step_invoke]
  exact eq_ok_settled world finished

theorem step_of_failed {action : Action contract} (failed : succeeds world action = false) :
    step world action = world := by
  cases action with
  | invoke =>
    rw [step_invoke]
    exact settled_of_failed world failed
  | _ => cases failed

theorem step_moves (action : Action contract) (numbered : Numbered world) :
    ((step world action).docket = world.docket ∧ (step world action).count = world.count) ∨
      ∃ env call id docket, action = .invoke env call ∧
        succeeds world action = true ∧ Moved env world call (step world action) id docket := by
  cases finished : succeeds world action with
  | false =>
    rw [step_of_failed finished]
    exact .inl ⟨rfl, rfl⟩
  | true =>
    cases action with
    | invoke env call =>
      rcases invoke_moves numbered (invoke_of_succeeds finished) with
        ⟨still, _⟩ | written | ⟨id, docket, moved⟩
      · exact .inl ⟨still.dockets, still.count⟩
      · exact .inl ⟨written.dockets, written.count⟩
      · exact .inr ⟨env, call, id, docket, rfl, rfl, moved⟩
    | _ => exact .inl ⟨rfl, rfl⟩

theorem invoke_slots {next : World} (numbered : Numbered world)
    (ran : invoke env world call = .ok next) : next.slots = slotsAfter world call ∧
      next.clock = world.clock := by
  rcases invoke_moves numbered ran with ⟨still, unrecorded⟩ | written | ⟨_, _, moved⟩
  · refine ⟨?_, still.clock⟩
    rw [still.slots, slotsAfter, unrecorded]
  · exact ⟨written.slots, written.clock⟩
  · exact ⟨moved.slots, moved.clock⟩

theorem step_uninitialised (action : Action contract)
    (unset : (step world action).parameters.ilnContract = none) :
    world.parameters.ilnContract = none ∧ (step world action).parameters.govToken =
      world.parameters.govToken := by
  cases finished : succeeds world action with
  | false =>
    rw [step_of_failed finished] at unset ⊢
    exact ⟨unset, rfl⟩
  | true =>
    cases action with
    | invoke =>
      rcases (invoke_effect (invoke_of_succeeds finished)).settings with
        ⟨iln, token, _⟩ | ⟨_, set, _⟩ | ⟨_, _, counting⟩
      · exact ⟨iln.symm.trans unset, token⟩
      · exact absurd unset set
      · exact ⟨(congrArg Counting.iln counting).symm.trans unset, congrArg Counting.token counting⟩
    | _ => exact ⟨unset, rfl⟩

theorem Motion.initialised {docket : Docket} (numbered : Numbered world)
    (motion : Motion env world id call docket) : world.parameters.ilnContract ≠ none := by
  intro unset
  obtain ⟨untokened, none⟩ := numbered.uninitialised unset
  have empty : ∀ proposal, loadProposal world id ≠ .ok proposal := by
    intro proposal stored
    have known := (loadProposal_eq_ok.mp stored).1
    omega
  cases motion with
  | opened initialised =>
    rw [untokened] at initialised
    cases initialised
  | voted stored | closed stored | executed stored | vetoed stored => exact empty _ stored

theorem step_numbered (action : Action contract) (numbered : Numbered world) :
    Numbered (step world action) := by
  have unset : (step world action).parameters.ilnContract = none →
      (step world action).parameters.govToken = none ∧ world.count = 0 := by
    intro unset
    obtain ⟨before, token⟩ := step_uninitialised action unset
    exact ⟨token.trans (numbered.uninitialised before).1, (numbered.uninitialised before).2⟩
  rcases step_moves action numbered with ⟨dockets, count⟩ | ⟨env, call, id, docket, rfl, _, moved⟩
  · have records : (step world action).proposals.proposal = world.proposals.proposal :=
      funext fun id => congrArg Docket.proposal (congrFun dockets id)
    refine ⟨?_, ?_, ?_, ?_⟩
    · rw [records]
      exact numbered.named
    · rw [dockets, count]
      exact numbered.beyond
    · rw [count]
      exact numbered.capped
    · rw [count]
      exact unset
  · obtain ⟨positive, named⟩ := moved.motion.named
    have capped : id ≤ u64Max := by
      cases moved.motion with
      | opened _ number =>
        rw [← number]
        exact min_le_left _ _
      | voted stored | closed stored | executed stored | vetoed stored =>
        exact (loadProposal_eq_ok.mp stored).1.2.trans numbered.capped
    refine ⟨?_, ?_, ?_, ?_⟩
    · intro other proposal stored
      have here : ((step world (.invoke env call)).docket other).proposal = some proposal := stored
      rw [moved.dockets] at here
      by_cases same : other = id
      · subst same
        rw [update_self] at here
        exact named proposal here
      · rw [update_of_ne same] at here
        exact numbered.named other proposal here
    · intro other outside
      rw [moved.count] at outside
      rw [moved.dockets, update_of_ne (by omega)]
      exact numbered.beyond other (by omega)
    · rw [moved.count]
      exact max_le numbered.capped capped
    · intro none
      exact absurd (step_uninitialised _ none).1 (moved.motion.initialised numbered)

theorem genesis_numbered (clock : Clock) (balance : Balances) : Numbered (genesis clock balance) :=
  ⟨(by rintro _ _ ⟨⟩), fun _ _ => rfl, Nat.zero_le _, fun _ => ⟨rfl, rfl⟩⟩

theorem exec_numbered (clock : Clock) (balance : Balances) (actions : List (Action contract)) :
    Numbered (reach clock balance actions) :=
  invariant Numbered (fun _ action numbered => step_numbered action numbered) actions
  (genesis_numbered clock balance)

theorem step_docket (action : Action contract) (numbered : Numbered world) (id : Nat) :
    (step world action).docket id = world.docket id ∨
      ∃ env call, action = .invoke env call ∧ succeeds world action = true ∧
        Motion env world id call ((step world action).docket id) := by
  rcases step_moves action numbered with ⟨dockets, _⟩ | ⟨env, call, other, _, invoked,
    finished, moved⟩
  · exact .inl (by rw [dockets])
  · by_cases here : id = other
    · subst here
      refine .inr ⟨env, call, invoked, finished, ?_⟩
      rw [moved.dockets, update_self]
      exact moved.motion
    · exact .inl (by rw [moved.dockets, update_of_ne here])

theorem step_closes {proposal : GovernanceProposal} (action : Action contract)
    (numbered : Numbered world) (stored : (step world action).proposals.proposal id = some proposal)
    (passed : proposal.status = .passed) :
    world.proposals.proposal id = some proposal ∨
      ∃ env voted quorum, action = .invoke env (.executeProposal id) ∧
        succeeds world action = true ∧ world.proposals.proposal id = some voted ∧
        voted.votingEnd ≤ world.clock.timestamp ∧
        quorumVotes world.parameters = .ok quorum ∧ quorum ≤ voted.votesFor + voted.votesAgainst ∧
        voted.votesAgainst < voted.votesFor ∧ { voted with
          etaLedger := world.clock.sequence + world.parameters.executionDelay.getD 0
          status := .passed } = proposal := by
  rcases step_docket action numbered id with same | ⟨env, call, rfl, finished, motion⟩
  · exact .inl ((congrArg Docket.proposal same).symm.trans stored)
  · generalize found : (step world (.invoke env call)).docket id = docket at motion
    have record : docket.proposal = some proposal :=
      (congrArg Docket.proposal found).symm.trans stored
    cases motion with
    | closed held _ ended required reached majority =>
      cases record
      exact .inr ⟨env, _, _, rfl, finished, (loadProposal_eq_ok.mp held).2.1, ended, required,
        reached, majority, rfl⟩
    | voted _ _ active =>
      cases record
      simp only [addVote] at passed
      split at passed <;> simp [active] at passed
    | opened | executed | vetoed =>
      cases record
      cases passed

theorem Numbered.fresh (numbered : Numbered world) (below : id < u64Max)
    (number : addCapped u64Max world.count 1 = id) : world.docket id = .blank := by
  apply numbered.beyond
  simp only [addCapped] at number
  omega

theorem Numbered.loaded (numbered : Numbered world)
    (stored : world.proposals.proposal id = some proposal) :
    loadProposal world id = .ok proposal := by
  have known : 0 < id ∧ id ≤ world.count := by
    by_contra unknown
    have blank := congrArg Docket.proposal (numbered.beyond id (by omega))
    cases stored.symm.trans blank
  exact loadProposal_eq_ok.mpr ⟨known, stored, numbered.named id proposal stored⟩

theorem docket_throughout (holds : Docket → Prop) {condition : World → Action contract → Prop}
    (blank : holds .blank)
    (keeps : ∀ env world call docket, Numbered world → condition world (.invoke env call) →
      Motion env world id call docket → holds (world.docket id) → holds docket)
    (clock : Clock) (balance : Balances) {actions : List (Action contract)}
    (along : Along step condition (genesis clock balance) actions) :
    Throughout step (fun world => Numbered world ∧ holds (world.docket id))
    (genesis clock balance) actions := by
  refine throughout_along _ ?_ ⟨genesis_numbered clock balance, blank⟩ along
  rintro world action ⟨numbered, held⟩ met
  refine ⟨step_numbered action numbered, ?_⟩
  rcases step_docket action numbered id with same | ⟨env, call, rfl, _, motion⟩
  · rw [same]
    exact held
  · exact keeps env world call _ numbered met motion held

end Steps

end IlnGovernance
