import Iln.Governance.EntryPoints

/-! What a successful call can do to the counting of votes. `Counting` is the part of the storage
that decides weights; a call leaves it alone, changes one setting, counts one vote or rewrites the
delegations of one address. Apart from that it makes at most one token transfer. -/
namespace IlnGovernance

open Outcome FixedWidth Function
open InvoiceLiquidity (Address Balances move)

variable {contract : Address} {env : Env contract} {world next : World} {call : Call}

structure Counting where
  iln : Option Address
  token : Option Address
  supply : Option Int
  depth : Nat
  quadratic : Bool
  receipt : Nat → Address → Option Int
  delegations : DelegationStore

def World.counting (world : World) : Counting where
  iln := world.parameters.ilnContract
  token := world.parameters.govToken
  supply := world.parameters.govTokenTotalSupply
  depth := getMaxDelegationDepth world.parameters
  quadratic := isQuadraticVotingEnabled world.parameters
  receipt := world.ballots.voteReceipt
  delegations := world.delegations

/-- Nothing moved, or one transfer out of `source` that the token accepted. -/
inductive Paid (env : Env contract) (source : Address) (balance : Balances) : Balances → Prop where
  | nothing : Paid env source balance balance
  | moved (token target : Address) (amount : Int)
      (returned : env.transferReturns balance token source target amount = true) :
      Paid env source balance (move balance token source target amount)

structure Quiet (env : Env contract) (world next : World) : Prop where
  counting : next.counting = world.counting
  paid : Paid env contract world.balance next.balance

theorem Quiet.of_same (counting : next.counting = world.counting)
    (balance : next.balance = world.balance) : Quiet env world next :=
  ⟨counting, balance ▸ .nothing⟩

theorem Quiet.after {world middle next : World} (quiet : Quiet env middle next)
    (counting : middle.counting = world.counting) (balance : middle.balance = world.balance) :
    Quiet env world next :=
  ⟨quiet.counting.trans counting, balance ▸ quiet.paid⟩

section Calls

variable {id : Nat}

theorem Settled.quiet {recipient : Option Address} (settled : Settled env world id recipient next) :
    Quiet env world next := by
  cases settled with
  | before | unpaid => exact .of_same rfl rfl
  | paid _ _ _ _ accepted => exact ⟨rfl, .moved _ _ _ accepted⟩

theorem executeProposal_quiet (ran : executeProposal env world id = .ok next) :
    Quiet env world next := by
  obtain ⟨_, _, _, ⟨_, closes⟩ | ⟨_, executes⟩⟩ := executeProposal_eq_ok.mp ran
  · obtain ⟨_, _, _, _, settled⟩ := closeVoting_spec closes
    exact settled.quiet.after rfl rfl
  · obtain ⟨_, _, _, _, _, ⟨_, rfl⟩ | ⟨_, settled⟩⟩ := executePassed_spec executes
    · exact .of_same rfl rfl
    · exact settled.quiet.after rfl rfl

theorem vetoProposal_quiet {signer : Address} {reasonHash : InvoiceLiquidity.Hash}
    (ran : vetoProposal env world signer id reasonHash = .ok next) : Quiet env world next := by
  obtain ⟨_, _, _, _, _, rfl | settled⟩ := vetoProposal_spec ran
  · exact .of_same rfl rfl
  · exact settled.quiet.after rfl rfl

theorem checkpointBalance_quiet {voter : Address}
    (ran : checkpointBalance env world voter = .ok next) : Quiet env world next := by
  simp only [checkpointBalance, ok_iff] at ran
  obtain ⟨_, _, _, _, rfl⟩ := ran
  exact .of_same rfl rfl

theorem createProposal_counting {proposer : Address} {action : ProposalAction}
    {descriptionHash : InvoiceLiquidity.Hash} {proposedValue : Int} {result : World × Nat}
    (ran : createProposal env world proposer action descriptionHash proposedValue = .ok result) :
    result.1.counting = world.counting ∧
      (getMinProposalDeposit world.parameters > 0 ∧
        Paid env proposer world.balance result.1.balance ∨ result.1.balance = world.balance) := by
  obtain ⟨_, token, _, opened | ⟨_, rfl, positive, accepted, opened⟩⟩ :=
    createProposal_spec ran
  · rw [opened]
    exact ⟨rfl, .inr rfl⟩
  · rw [opened]
    exact ⟨rfl, .inl ⟨positive, .moved token contract _ accepted⟩⟩

structure Voted (world next : World) (voter : Address) (id : Nat) (token : Address)
    (own weight : Int) : Prop where
  counting : next.counting =
    { world.counting with
      receipt := update world.counting.receipt id
        (update (world.counting.receipt id) voter (some weight)) }
  balance : next.balance = world.balance
  initialised : world.parameters.govToken = some token
  bounded : world.ballots.voteWeightSnapshot id voter = some own ∨ own ≤ world.balance token voter
  weighed : countedWeight world.parameters
    (saturate i128 (own + (world.delegations.delegatedToMe voter).getD 0)) = .ok weight

theorem castVote_voted {voter : Address} {support : Bool}
    (ran : castVote env world voter id support = .ok next) :
    env.signed voter = true ∧ ∃ token own weight, Voted world next voter id token own weight := by
  obtain ⟨signed, _, token, _, own, weight, _, _, _, _, initialised, owned,
    weighed, _, rfl⟩ :=
    castVote_spec ran
  refine ⟨signed, token, own, weight, ?_⟩
  rcases ownWeight_spec owned with ⟨stored, kept⟩ | ⟨bounded, kept⟩
  · cases kept
    exact ⟨rfl, rfl, initialised, .inl stored, weighed⟩
  · cases kept
    exact ⟨rfl, rfl, initialised, .inr bounded, weighed⟩

end Calls

inductive Effect (env : Env contract) (world : World) : Call → World → Prop where
  | quiet {call : Call} {next : World} (quiet : Quiet env world next) : Effect env world call next
  | opened {iln distribution reputationBonus token admin : Address} {supply : Int} {next : World}
      (uninitialised : world.counting.iln = none)
      (counting : next.counting =
        { world.counting with
          iln := some iln, token := some token, supply := some supply, depth :=
            defaultMaxDelegationDepth })
      (balance : next.balance = world.balance) :
      Effect env world (.initializeContract iln distribution reputationBonus token admin supply)
        next
  | deepened {depth : Nat} {next : World} (initialised : world.counting.iln ≠ none)
      (counting : next.counting = { world.counting with depth })
      (balance : next.balance = world.balance) : Effect env world
        (.setMaxDelegationDepth depth) next
  | supplied {supply : Int} {next : World}
      (counting : next.counting = { world.counting with supply := some supply })
      (balance : next.balance = world.balance) : Effect env world
        (.setGovTokenTotalSupply supply) next
  | switched {enabled : Bool} {next : World}
      (counting : next.counting = { world.counting with quadratic := enabled })
      (balance : next.balance = world.balance) : Effect env world
        (.setQuadraticVotingEnabled enabled) next
  | created {proposer : Address} {action : ProposalAction} {descriptionHash : InvoiceLiquidity.Hash}
      {proposedValue : Int} {next : World} (counting : next.counting = world.counting)
      (deposit : getMinProposalDeposit world.parameters > 0)
      (paid : Paid env proposer world.balance next.balance) :
      Effect env world (.createProposal proposer action descriptionHash proposedValue) next
  | voted {voter : Address} {id : Nat} {support : Bool} {next : World} {token : Address}
      {own weight : Int}
      (signed : env.signed voter = true) (voted : Voted world next voter id token own weight) :
      Effect env world (.castVote voter id support) next
  | delegated {delegator delegate : Address} {next : World}
      (returned : delegateVotes env world delegator delegate = .ok next) :
      Effect env world (.delegateVotes delegator delegate) next
  | undelegated {delegator : Address} {next : World}
      (returned : undelegateVotes env world delegator = .ok next) :
      Effect env world (.undelegateVotes delegator) next

theorem Effect.of_setting {world : World} {after : Parameters}
    (changed : call.setting world.parameters = some after)
    (authorised : Authorised env world.parameters call) :
    Effect env world call { world with parameters := after } := by
  cases call with
  | setMaxDelegationDepth =>
    cases changed
    cases authorised with
    | byIln stored => exact .deepened (by simp [World.counting, stored]) rfl rfl
  | setGovTokenTotalSupply =>
    cases changed
    exact .supplied rfl rfl
  | setQuadraticVotingEnabled =>
    cases changed
    exact .switched rfl rfl
  | setMinQuorumBps | setMinProposalDeposit | setProposalDepositSink | setMinProposalBalance
  | setExecutionDelay =>
    cases changed
    exact .quiet (.of_same rfl rfl)
  | _ => cases changed

theorem invokeWorld_effect
    (ran : invokeWorld env world call = .ok next) : Effect env world call next := by
  cases call with
  | initializeContract =>
    simp only [invokeWorld, initializeContract, ok_iff] at ran
    obtain ⟨_, uninitialised, rfl⟩ := ran
    exact .opened uninitialised rfl rfl
  | createProposal =>
    simp only [invokeWorld, ok_iff] at ran
    obtain ⟨_, created, rfl⟩ := ran
    obtain ⟨counting, ⟨deposit, paid⟩ | balance⟩ := createProposal_counting created
    · exact .created counting deposit paid
    · exact .quiet (.of_same counting balance)
  | castVote =>
    obtain ⟨signed, _, _, _, voted⟩ := castVote_voted ran
    exact .voted signed voted
  | delegateVotes => exact .delegated ran
  | undelegateVotes => exact .undelegated ran
  | checkpointBalance => exact .quiet (checkpointBalance_quiet ran)
  | executeProposal => exact .quiet (executeProposal_quiet ran)
  | vetoProposal => exact .quiet (vetoProposal_quiet ran)
  | configureVetoMultisig | disableVetoPower | disableVetoPowerWithReason =>
    obtain ⟨_, rfl⟩ := invokeWorld_veto ran (by simp [Call.retiresVeto])
    exact .quiet (.of_same rfl rfl)
  | _ => cases ran

theorem invoke_effect (ran : invoke env world call = .ok next) : Effect env world call next := by
  rcases invoke_cases ran with ⟨_, changed, authorised, rfl⟩ | ran
  · exact .of_setting changed authorised
  · exact invokeWorld_effect ran

theorem Effect.paid (effect : Effect env world call next) :
    ∃ source, Paid env source world.balance next.balance := by
  cases effect with
  | quiet quiet => exact ⟨contract, quiet.paid⟩
  | created _ _ paid => exact ⟨_, paid⟩
  | opened _ _ balance | deepened _ _ balance | supplied _ balance | switched _ balance =>
    exact ⟨contract, balance ▸ .nothing⟩
  | voted _ voted => exact ⟨contract, voted.balance ▸ .nothing⟩
  | delegated ran =>
    obtain ⟨_, _, _, _, _, _, _, _, rfl⟩ := delegateVotes_spec ran
    exact ⟨contract, .nothing⟩
  | undelegated ran =>
    obtain ⟨_, ⟨_, rfl⟩ | ⟨_, _, _, _, _, _, rfl⟩⟩ := undelegateVotes_spec ran
    all_goals exact ⟨contract, .nothing⟩

theorem Effect.delegations (effect : Effect env world call next) :
    next.delegations = world.delegations ∨
      (∃ delegator delegate, call = .delegateVotes delegator delegate ∧
        delegateVotes env world delegator delegate = .ok next) ∨
      ∃ delegator, call = .undelegateVotes delegator ∧ undelegateVotes env world delegator =
        .ok next := by
  cases effect with
  | quiet quiet => exact .inl (congrArg Counting.delegations quiet.counting)
  | opened _ counting | deepened _ counting | supplied counting | switched counting
  | created counting => exact .inl (congrArg Counting.delegations counting :)
  | voted _ voted => exact .inl (congrArg Counting.delegations voted.counting :)
  | delegated ran => exact .inr (.inl ⟨_, _, rfl, ran⟩)
  | undelegated ran => exact .inr (.inr ⟨_, rfl, ran⟩)

theorem Effect.settings (effect : Effect env world call next) :
    (next.counting.iln = world.counting.iln ∧ next.counting.token = world.counting.token ∧
        next.counting.depth = world.counting.depth) ∨
      (world.counting.iln = none ∧ next.counting.iln ≠ none ∧
        next.counting.depth = defaultMaxDelegationDepth) ∨
      ∃ depth, call = .setMaxDelegationDepth depth ∧ next.counting =
        { world.counting with depth } := by
  cases effect with
  | quiet quiet => simp [quiet.counting]
  | opened uninitialised counting => simp [counting, uninitialised]
  | deepened _ counting => exact .inr (.inr ⟨_, rfl, counting⟩)
  | supplied counting | switched counting | created counting => simp [counting]
  | voted _ voted => simp [voted.counting]
  | delegated ran =>
    obtain ⟨_, _, _, _, _, _, _, _, rfl⟩ := delegateVotes_spec ran
    exact .inl ⟨rfl, rfl, rfl⟩
  | undelegated ran =>
    obtain ⟨_, ⟨_, rfl⟩ | ⟨_, _, _, _, _, _, rfl⟩⟩ := undelegateVotes_spec ran
    all_goals exact .inl ⟨rfl, rfl, rfl⟩

end IlnGovernance
