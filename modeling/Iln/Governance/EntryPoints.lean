import Iln.Governance.Contract

/-! What a successful call has checked and written, with one statement for each entry point. -/
namespace IlnGovernance

open Outcome FixedWidth Function
open InvoiceLiquidity (Address Hash Balances Clock move)

variable {contract : Address} {proposal : GovernanceProposal} {call : Call} {reasonHash : Hash}

variable {env : Env contract} {world next : World} {id : Nat}

theorem transferToken_eq_ok {balance after : Balances} {token source target : Address}
    {amount : Int} :
    transferToken env balance token source target amount = .ok after ↔
      env.transferReturns balance token source target amount = true ∧
        move balance token source target amount = after := by
  simp [transferToken]

def Call.setting (parameters : Parameters) : Call → Option Parameters
  | .setMaxDelegationDepth maxDepth => some { parameters with maxDelegationDepth := some maxDepth }
  | .setGovTokenTotalSupply totalSupply =>
    some { parameters with govTokenTotalSupply := some totalSupply }
  | .setMinQuorumBps minQuorumBps => some { parameters with minQuorumBps := some minQuorumBps }
  | .setMinProposalDeposit amount => some { parameters with minProposalDeposit := some amount }
  | .setProposalDepositSink sink => some { parameters with proposalDepositSink := some sink }
  | .setQuadraticVotingEnabled enabled =>
    some { parameters with quadraticVotingEnabled := some enabled }
  | .setMinProposalBalance minBalance =>
    some { parameters with minProposalBalance := some minBalance }
  | .setExecutionDelay _ delay => some { parameters with executionDelay := some delay }
  | _ => none

inductive Authorised (env : Env contract) (parameters : Parameters) : Call → Prop where
  | byAdmin {admin : Address} {delay : Nat} (stored : parameters.admin = some admin)
      (signed : env.signed admin = true) : Authorised env parameters
        (.setExecutionDelay admin delay)
  | byIln {call : Call} {iln : Address} (stored : parameters.ilnContract = some iln)
      (signed : env.signed iln = true) : Authorised env parameters call

theorem setByIln_eq_ok {parameters changed after : Parameters} :
    setByIln env parameters changed = .ok after ↔
      ∃ iln, parameters.ilnContract = some iln ∧ env.signed iln = true ∧ changed = after := by
  simp [setByIln, getIlnContract, requireAuth]

theorem invokeParameters_spec {result : Result Parameters} {after : Parameters}
    (routed : invokeParameters env world call = some result) (ran : result = .ok after) :
    call.setting world.parameters = some after ∧ Authorised env world.parameters call := by
  subst ran
  cases call with
  | setExecutionDelay =>
    simp only [invokeParameters, Option.some.injEq, setExecutionDelay, ok_iff,
      requireAuth] at routed
    obtain ⟨_, signed, _, stored, _, rfl, _, _, _, _, _, _, rfl⟩ := routed
    exact ⟨rfl, .byAdmin stored signed⟩
  | setMinQuorumBps | setMinProposalDeposit =>
    simp only [invokeParameters, Option.some.injEq, setMinQuorumBps, setMinProposalDeposit, ok_iff,
      setByIln_eq_ok] at routed
    obtain ⟨_, _, iln, stored, signed, rfl⟩ := routed
    exact ⟨rfl, .byIln stored signed⟩
  | setMaxDelegationDepth | setGovTokenTotalSupply | setQuadraticVotingEnabled
  | setProposalDepositSink | setMinProposalBalance =>
    simp only [invokeParameters, Option.some.injEq, setMaxDelegationDepth, setGovTokenTotalSupply,
      setQuadraticVotingEnabled, setProposalDepositSink, setMinProposalBalance,
      setByIln_eq_ok] at routed
    obtain ⟨iln, stored, signed, rfl⟩ := routed
    exact ⟨rfl, .byIln stored signed⟩
  | _ => cases routed

theorem invoke_cases (ran : invoke env world call = .ok next) :
    (∃ after, call.setting world.parameters = some after ∧ Authorised env world.parameters call ∧
        next = { world with parameters := after }) ∨
      invokeWorld env world call = .ok next := by
  simp only [invoke, ok_iff] at ran
  obtain ⟨_, _, ran⟩ := ran
  split at ran
  · rename_i result routed
    simp only [ok_iff] at ran
    obtain ⟨after, ran, rfl⟩ := ran
    obtain ⟨changed, authorised⟩ := invokeParameters_spec routed ran
    exact .inl ⟨after, changed, authorised, rfl⟩
  · exact .inr ran

theorem invokeWorld_of_invoke (ran : invoke env world call = .ok next)
    (apart : call.setting world.parameters = none) : invokeWorld env world call = .ok next := by
  rcases invoke_cases ran with ⟨_, changed, _⟩ | ran
  · rw [apart] at changed
    cases changed
  · exact ran

def World.count (world : World) : Nat := world.parameters.proposalCount.getD 0

theorem loadProposal_eq_ok : loadProposal world id = .ok proposal ↔
      (0 < id ∧ id ≤ world.count) ∧ world.proposals.proposal id = some proposal ∧
      proposal.id = id := by
  simp only [loadProposal, ok_iff, World.count]
  constructor
  · rintro ⟨_, known, found, stored, _, named, rfl⟩
    exact ⟨⟨by omega, by omega⟩, stored, named⟩
  · rintro ⟨known, stored, named⟩
    exact ⟨(), by omega, proposal, stored, (), named, rfl⟩

def openingProposal (clock : Clock) (id : Nat) (proposer : Address) (action : ProposalAction)
    (descriptionHash : Hash) (proposedValue : Int) : GovernanceProposal where
  id := id
  proposer := proposer
  descriptionHash := descriptionHash
  actionType := action
  proposedValue := proposedValue
  status := .active
  votesFor := 0
  votesAgainst := 0
  createdAt := clock.timestamp
  votingEnd := addCapped u64Max clock.timestamp votingPeriodSecs
  etaLedger := 0

def World.opening (world : World) (token proposer : Address) (action : ProposalAction)
    (descriptionHash : Hash) (proposedValue : Int) : World :=
  recordProposal world
    (openingProposal world.clock (addCapped u64Max world.count 1) proposer action descriptionHash
      proposedValue)
    (world.balance token proposer)

variable {proposer delegator : Address}

theorem createProposal_spec {action : ProposalAction} {descriptionHash : Hash}
    {proposedValue : Int} {result : World × Nat}
    (ran : createProposal env world proposer action descriptionHash proposedValue = .ok result) :
    env.signed proposer = true ∧ ∃ token, world.parameters.govToken = some token ∧
        (result.1 = world.opening token proposer action descriptionHash proposedValue ∨
          ∃ deposit, getMinProposalDeposit world.parameters = deposit ∧ 0 < deposit ∧
            env.transferReturns world.balance token proposer contract deposit = true ∧
            result.1 = { world.opening token proposer action descriptionHash proposedValue with
              balance := move world.balance token proposer contract deposit
              proposals :=
                { (world.opening token proposer action descriptionHash proposedValue).proposals with
                  deposit := update world.proposals.deposit (addCapped u64Max world.count 1)
                    (some deposit) } }) := by
  simp only [createProposal, ok_iff, getGovToken, requireAuth] at ran
  obtain ⟨_, signed, token, initialised, _, _, _, _, _, _, ran⟩ := ran
  refine ⟨signed, token, initialised, ?_⟩
  split at ran
  · rename_i positive
    simp only [ok_iff, transferToken_eq_ok] at ran
    obtain ⟨_, ⟨accepted, rfl⟩, rfl⟩ := ran
    exact .inr ⟨_, rfl, positive, accepted, rfl⟩
  · cases ran
    exact .inl rfl

theorem castVote_spec {voter : Address} {support : Bool}
    (ran : castVote env world voter id support = .ok next) :
    env.signed voter = true ∧
      ∃ proposal token ballots own weight, loadProposal world id = .ok proposal ∧
        world.clock.timestamp < proposal.votingEnd ∧ proposal.status = .active ∧
        world.ballots.voteReceipt id voter = none ∧ world.parameters.govToken = some token ∧
        ownWeight world token voter id = .ok (ballots, own) ∧
        countedWeight world.parameters
          (saturate i128 (own + (world.delegations.delegatedToMe voter).getD 0)) = .ok weight ∧
        weight ≠ 0 ∧
        next = saveProposal { world with ballots := recordVote ballots id voter weight }
          (addVote proposal support weight) := by
  simp only [castVote, ok_iff, requireAuth, getGovToken] at ran
  obtain ⟨_, signed, proposal, loaded, _, ongoing, _, active, _, unvoted, token, initialised,
    ⟨ballots, own⟩, owned, weight, weighed, _, nonzero, rfl⟩ := ran
  have fresh : world.ballots.voteReceipt id voter = none :=
    Option.not_isSome_iff_eq_none.mp fun already => unvoted (.inr already)
  exact ⟨signed, proposal, token, ballots, own, weight, loaded, not_le.mp ongoing, active, fresh,
    initialised, owned, weighed, nonzero, rfl⟩

theorem ownWeight_spec {token voter : Address} {ballots : BallotStore} {own : Int}
    (ran : ownWeight world token voter id = .ok (ballots, own)) :
    (world.ballots.voteWeightSnapshot id voter = some own ∧ ballots = world.ballots) ∨
      (own ≤ world.balance token voter ∧ ballots = { world.ballots with
          voteWeightSnapshot := update world.ballots.voteWeightSnapshot id
            (update (world.ballots.voteWeightSnapshot id) voter (some own)) }) := by
  simp only [ownWeight] at ran
  split at ran
  · rename_i own stored
    cases ran
    exact .inl ⟨stored, rfl⟩
  · simp only [ok_iff, provenOwnBalance] at ran
    obtain ⟨_, _, _, ⟨_, _, rfl⟩, same⟩ := ran
    cases same
    exact .inr ⟨min_le_right _ _, rfl⟩

inductive Settled (env : Env contract) (world : World) (id : Nat) (recipient : Option Address) :
    World → Prop where
  | before (settled : world.proposals.depositSettled id = true) :
      Settled env world id recipient world
  | unpaid (unsettled : world.proposals.depositSettled id = false)
      (free : (world.proposals.deposit id).getD 0 ≤ 0 ∨ recipient = none) :
      Settled env world id recipient (settleDeposit world id)
  | paid {token payee : Address} {amount : Int}
      (unsettled : world.proposals.depositSettled id = false)
      (escrowed : world.proposals.deposit id = some amount) (named : recipient = some payee)
      (initialised : world.parameters.govToken = some token)
      (accepted : env.transferReturns world.balance token contract payee amount = true) :
      Settled env world id recipient
        { settleDeposit world id with balance := move world.balance token contract payee amount }

theorem payFromEscrow_settled {payee : Address} {recipient : Option Address}
    (unsettled : world.proposals.depositSettled id = false)
    (positive : ¬ (world.proposals.deposit id).getD 0 ≤ 0) (named : recipient = some payee)
    (ran : payFromEscrow env (settleDeposit world id) payee ((world.proposals.deposit id).getD 0) =
      .ok next) :
    Settled env world id recipient next := by
  simp only [payFromEscrow, ok_iff, transferToken_eq_ok] at ran
  obtain ⟨_, initialised, _, ⟨accepted, rfl⟩, rfl⟩ := ran
  cases escrowed : world.proposals.deposit id with
  | none => simp [escrowed] at positive
  | some =>
    simp only [escrowed, Option.getD_some] at accepted ⊢
    exact .paid unsettled escrowed named initialised accepted

theorem refundProposalDeposit_settled
    (ran : refundProposalDeposit env world id proposer = .ok next) :
    Settled env world id (some proposer) next := by
  simp only [refundProposalDeposit] at ran
  split at ran
  · rename_i settled
    cases ran
    exact .before settled
  · rename_i unsettled
    have unsettled := Bool.eq_false_iff.mpr unsettled
    split at ran
    · rename_i free
      cases ran
      exact .unpaid unsettled (.inl free)
    · rename_i positive
      exact payFromEscrow_settled unsettled positive rfl ran

/-- Without a sink a forfeited deposit stays where it is. -/
theorem forfeitProposalDeposit_settled (ran : forfeitProposalDeposit env world id = .ok next) :
    Settled env world id world.parameters.proposalDepositSink.join next := by
  simp only [forfeitProposalDeposit] at ran
  split at ran
  · rename_i settled
    cases ran
    exact .before settled
  · rename_i unsettled
    have unsettled := Bool.eq_false_iff.mpr unsettled
    split at ran
    · rename_i free
      cases ran
      exact .unpaid unsettled (.inl free)
    · rename_i positive
      split at ran
      · rename_i sinkless
        cases ran
        exact .unpaid unsettled (.inr (by rw [sinkless]; rfl))
      · cases ran
      · rename_i sink configured
        exact payFromEscrow_settled unsettled positive (by rw [configured]; rfl) ran

theorem transitionStatus_eq_ok {status : ProposalStatus} {result : World × GovernanceProposal} :
    transitionStatus world proposal status = .ok result ↔
      isLegalTransition proposal.status status = true ∧
        (saveProposal world { proposal with status }, { proposal with status }) = result := by
  simp [transitionStatus]

theorem rejectThenFail_ne_ok {failure : GovernanceError} :
    rejectThenFail env world proposal failure ≠ .ok next := by
  simp [rejectThenFail]

theorem closeVoting_spec (ran : closeVoting env world proposal = .ok next) :
    ∃ quorum, quorumVotes world.parameters = .ok quorum ∧
      quorum ≤ proposal.votesFor + proposal.votesAgainst ∧
      proposal.votesAgainst < proposal.votesFor ∧
      Settled env (saveProposal world { proposal with
          etaLedger := world.clock.sequence + world.parameters.executionDelay.getD 0
          status := .passed })
        proposal.id (some proposal.proposer) next := by
  simp only [closeVoting, ok_iff, checked_eq_some] at ran
  obtain ⟨_, _, _, ⟨_, rfl⟩, quorum, required, ran⟩ := ran
  refine ⟨quorum, required, ?_⟩
  split at ran
  · exact absurd ran rejectThenFail_ne_ok
  · rename_i reached
    split at ran
    · exact absurd ran rejectThenFail_ne_ok
    · rename_i majority
      simp only [ok_iff, transitionStatus_eq_ok] at ran
      obtain ⟨_, _, _, ⟨_, rfl⟩, refunded⟩ := ran
      exact ⟨not_lt.mp reached, not_le.mp majority, refundProposalDeposit_settled refunded⟩

def World.executing (world : World) (proposal : GovernanceProposal) : World :=
  { saveProposal world { proposal with status := .executed } with
    proposals := { (saveProposal world { proposal with status := .executed }).proposals with
      executedRecord := update world.proposals.executedRecord proposal.id true }
    parameters := { world.parameters with
      executionNonce := some (addCapped u64Max (world.parameters.executionNonce.getD 0) 1) } }

theorem assertExecutable_eq_ok {clock : Clock} {result : Unit} :
    assertExecutable clock proposal = .ok result ↔
      proposal.status = .passed ∧ proposal.votingEnd ≤ clock.timestamp ∧
      proposal.etaLedger ≤ clock.sequence := by
  simp [assertExecutable]

theorem executePassed_spec (ran : executePassed env world proposal = .ok next) :
    proposal.etaLedger ≤ world.clock.sequence ∧
      ∃ iln invocation, getIlnContract world.parameters = .ok iln ∧
        dispatch contract world.parameters iln proposal.actionType = .ok invocation ∧
        (env.invocationReturns invocation = false ∧ next = world ∨
          env.invocationReturns invocation = true ∧
            Settled env (world.executing proposal) proposal.id (some proposal.proposer) next) := by
  simp only [executePassed, ok_iff, assertExecutable_eq_ok] at ran
  obtain ⟨_, ⟨_, _, matured⟩, iln, located, invocation, dispatched, ran⟩ := ran
  refine ⟨matured, iln, invocation, located, dispatched, ?_⟩
  split at ran
  · rename_i answered
    simp only [ok_iff, transitionStatus_eq_ok] at ran
    obtain ⟨_, ⟨_, rfl⟩, refunded⟩ := ran
    exact .inr ⟨answered, refundProposalDeposit_settled refunded⟩
  · rename_i unanswered
    cases ran
    exact .inl ⟨Bool.eq_false_iff.mpr unanswered, rfl⟩

theorem executeProposal_eq_ok : executeProposal env world id = .ok next ↔
      ∃ proposal, loadProposal world id = .ok proposal ∧
        proposal.votingEnd ≤ world.clock.timestamp ∧
        (proposal.status = .active ∧ closeVoting env world proposal = .ok next ∨
          proposal.status = .passed ∧ executePassed env world proposal = .ok next) := by
  simp only [executeProposal, ok_iff, not_lt]
  constructor
  · rintro ⟨proposal, stored, _, _, _, _, _, ended, ran⟩
    refine ⟨proposal, stored, ended, ?_⟩
    split at ran
    · rename_i active
      exact .inl ⟨active, ran⟩
    · rename_i passed
      exact .inr ⟨passed, ran⟩
    all_goals cases ran
  · rintro ⟨proposal, stored, ended, ⟨status, ran⟩ | ⟨status, ran⟩⟩
    all_goals
      refine ⟨proposal, stored, (), by simp [status], (), by simp [status], (), ended, ?_⟩
      simpa only [status] using ran

theorem invoke_executeProposal_cases (stored : loadProposal world id = .ok proposal)
    (ran : invoke env world (.executeProposal id) = .ok next) :
    proposal.status = .active ∧ closeVoting env world proposal = .ok next ∨
      proposal.status = .passed ∧ executePassed env world proposal = .ok next := by
  obtain ⟨_, loaded, _, outcome⟩ := executeProposal_eq_ok.mp (invokeWorld_of_invoke ran rfl)
  cases stored.symm.trans loaded
  exact outcome

theorem configureVetoMultisig_spec {signers : List Address} {threshold : Nat}
    (ran : configureVetoMultisig env world signers threshold = .ok next) :
    signers.Nodup ∧
      next =
        { world with veto := { world.veto with
          signers := some signers, threshold := some threshold } } := by
  simp only [configureVetoMultisig, ok_iff] at ran
  obtain ⟨_, _, _, distinct, ran⟩ := ran
  refine ⟨distinct, ?_⟩
  split at ran
  all_goals
    simp only [ok_iff] at ran
    obtain ⟨_, _, _, _, rfl⟩ := ran
    rfl

theorem internalDisableVetoPower_spec
    (ran : internalDisableVetoPower env world reasonHash = .ok next) :
    ∃ iln, world.parameters.ilnContract = some iln ∧ next = { world with
        veto := { world.veto with
          powerEnabled := some false
          disableRecord := some ⟨iln, world.clock.sequence, reasonHash⟩ } } := by
  simp only [internalDisableVetoPower, ok_iff, getIlnContract] at ran
  obtain ⟨iln, located, _, _, _, _, rfl⟩ := ran
  exact ⟨iln, located, rfl⟩

def Call.retiresVeto : Call → Bool
  | .disableVetoPower | .disableVetoPowerWithReason _ => true
  | _ => false

theorem invokeWorld_retires (retires : call.retiresVeto = true)
    (ran : invokeWorld env world call = .ok next) :
    ∃ reasonHash, internalDisableVetoPower env world reasonHash = .ok next := by
  cases call with
  | disableVetoPower => exact ⟨emptyHash, ran⟩
  | disableVetoPowerWithReason reasonHash =>
    simp only [invokeWorld, disableVetoPowerWithReason, ok_iff] at ran
    obtain ⟨_, _, ran⟩ := ran
    exact ⟨reasonHash, ran⟩
  | _ => cases retires

theorem invokeWorld_veto (ran : invokeWorld env world call = .ok next)
    (settings : (∃ signers threshold, call = .configureVetoMultisig signers threshold) ∨
      call.retiresVeto = true) :
    ∃ veto, next = { world with veto } := by
  rcases settings with ⟨signers, threshold, rfl⟩ | retires
  · exact ⟨_, (configureVetoMultisig_spec ran).2⟩
  · obtain ⟨_, disabled⟩ := invokeWorld_retires retires ran
    obtain ⟨_, _, rfl⟩ := internalDisableVetoPower_spec disabled
    exact ⟨_, rfl⟩

theorem verifiedProposer_spec (ran : verifiedProposer world proposal = .ok next) :
    ∃ proposers, next =
      { world with proposals := { world.proposals with proposer := proposers } } := by
  simp only [verifiedProposer] at ran
  split at ran
  · split at ran
    all_goals cases ran
    exact ⟨_, rfl⟩
  · cases ran
    exact ⟨_, rfl⟩

structure Approving (env : Env contract) (world : World) (signer : Address) (id : Nat)
    (reasonHash : Hash) (proposal : GovernanceProposal) : Prop where
  signed : env.signed signer = true
  reasoned : reasonHash ≠ emptyHash
  enabled : isVetoPowerEnabled world.veto = true
  listed : signer ∈ world.veto.signers.getD []
  stored : loadProposal world id = .ok proposal
  vetoable : proposal.status = .active ∨ proposal.status = .passed
  first : world.veto.approvalReceipt id signer = false

def World.approvals (world : World) (id : Nat) (signer : Address) : List Address :=
  vetoApprovalsFromPersistent (recordApproval world.veto id signer) id

def World.pendingVeto (world : World) (id : Nat) (signer : Address) (reasonHash : Hash) :
    VetoStore :=
  setVetoState (recordApproval world.veto id signer) id
    ⟨.pending, (world.approvals id signer).length, world.veto.threshold.getD 0, reasonHash⟩

def World.executedVeto (world : World) (id : Nat) (signer : Address) (reasonHash : Hash) :
    VetoStore :=
  setVetoState (clearApprovals (recordApproval world.veto id signer) id (world.approvals id signer))
    id ⟨.executed, (world.approvals id signer).length, world.veto.threshold.getD 0, reasonHash⟩

theorem vetoProposal_cases {signer : Address}
    (ran : vetoProposal env world signer id reasonHash = .ok next) :
    ∃ proposal proposers, Approving env world signer id reasonHash proposal ∧ (next = { world with
          proposals := { world.proposals with proposer := proposers }, veto :=
            world.pendingVeto id signer reasonHash } ∨
        world.veto.threshold.getD 0 ≤ (world.approvals id signer).length ∧ Settled env
            { saveProposal { world with proposals := { world.proposals with
              proposer := proposers } }
                { proposal with status := .vetoed } with
              veto := world.executedVeto id signer reasonHash }
            id world.parameters.proposalDepositSink.join next) := by
  simp only [vetoProposal, ok_iff, requireAuth] at ran
  obtain ⟨_, signed, _, reasoned, _, enabled, _, configured, _, listed, proposal, stored,
    bound, verified, _, vetoable, _, _, _, first, ran⟩ := ran
  obtain ⟨proposers, rfl⟩ := verifiedProposer_spec verified
  refine ⟨proposal, proposers, ⟨signed, reasoned, enabled, by rw [configured]; exact listed, stored,
    vetoable, first⟩, ?_⟩
  split at ran
  · cases ran
    exact .inl rfl
  · rename_i reached
    simp only [ok_iff, transitionStatus_eq_ok] at ran
    obtain ⟨_, ⟨_, rfl⟩, forfeited⟩ := ran
    have settled := forfeitProposalDeposit_settled forfeited
    exact .inr ⟨not_lt.mp reached, settled⟩

theorem vetoProposal_spec {signer : Address}
    (ran : vetoProposal env world signer id reasonHash = .ok next) :
    ∃ proposal proposers veto, loadProposal world id = .ok proposal ∧
      (proposal.status = .active ∨ proposal.status = .passed) ∧
      (next = { world with proposals := { world.proposals with
        proposer := proposers }, veto } ∨
        Settled env
          { saveProposal { world with proposals := { world.proposals with proposer := proposers } }
              { proposal with status := .vetoed } with
            veto }
          id world.parameters.proposalDepositSink.join next) := by
  obtain ⟨proposal, proposers, approving, pending | ⟨_, settled⟩⟩ := vetoProposal_cases ran
  · exact ⟨proposal, proposers, _, approving.stored, approving.vetoable, .inl pending⟩
  · exact ⟨proposal, proposers, _, approving.stored, approving.vetoable, .inr settled⟩

theorem withdrawFrom_eq_ok {depth : Nat} {delegations result : DelegationStore}
    {oldDelegate : Address} {weight : Int} :
    withdrawFrom depth delegations delegator oldDelegate weight = .ok result ↔
      Fits i128 (-weight) ∧ removeDelegator (adjustDelegatedToMe delegations
        (resolveTerminal delegations.delegation depth oldDelegate) (-weight)) oldDelegate
          delegator = result := by
  simp only [withdrawFrom, ok_iff, checked_eq_some]
  constructor
  · rintro ⟨_, ⟨fits, rfl⟩, rfl⟩
    exact ⟨fits, rfl⟩
  · rintro ⟨fits, rfl⟩
    exact ⟨_, ⟨fits, rfl⟩, rfl⟩

theorem addDelegator_delegation (delegations : DelegationStore) (delegate delegator : Address) :
    (addDelegator delegations delegate delegator).delegation = delegations.delegation := by
  unfold addDelegator
  split <;> rfl

theorem addDelegator_delegators (delegations : DelegationStore) (delegate delegator : Address) :
    (addDelegator delegations delegate delegator).delegators =
      if delegator ∈ delegations.delegators delegate then delegations.delegators
      else update delegations.delegators delegate
        (delegations.delegators delegate ++ [delegator]) := by
  unfold addDelegator
  split <;> rfl

theorem addDelegator_delegatedToMe (delegations : DelegationStore) (delegate delegator : Address) :
    (addDelegator delegations delegate delegator).delegatedToMe = delegations.delegatedToMe := by
  unfold addDelegator
  split <;> rfl

theorem delegateVotes_spec {delegate : Address}
    (ran : delegateVotes env world delegator delegate = .ok next) :
    env.signed delegator = true ∧ delegator ≠ delegate ∧
      ∃ token checkpoint withdrawn, world.parameters.govToken = some token ∧
        eligibleCheckpoint world.ballots delegator world.clock.sequence = some checkpoint ∧
        withdrawStanding (getMaxDelegationDepth world.parameters) world.delegations delegator
          (min checkpoint.balance (world.balance token delegator)) = .ok withdrawn ∧
        next = { world with
          delegations := adjustDelegatedToMe
            (addDelegator { withdrawn with
              delegation := update withdrawn.delegation delegator (some delegate) }
              delegate delegator)
            (resolveTerminal world.delegations.delegation (getMaxDelegationDepth world.parameters)
              delegate)
            (min checkpoint.balance (world.balance token delegator)) } := by
  simp only [delegateVotes, ok_iff, requireAuth, getGovToken, provenOwnBalance] at ran
  obtain ⟨_, signed, _, distinct, token, initialised, _, ⟨checkpoint, eligible, rfl⟩, _, _, _, _,
    upstream, _, _, _, withdrawn, withdrew, rfl⟩ := ran
  exact ⟨signed, distinct, token, checkpoint, withdrawn, initialised, eligible, withdrew, rfl⟩

theorem undelegateVotes_spec (ran : undelegateVotes env world delegator = .ok next) :
    env.signed delegator = true ∧ ((world.delegations.delegation delegator = none ∧ next = world) ∨
        ∃ old token withdrawn, world.delegations.delegation delegator = some old ∧
          world.parameters.govToken = some token ∧
          withdrawFrom (getMaxDelegationDepth world.parameters) world.delegations delegator old
            (world.balance token delegator) = .ok withdrawn ∧
          next = { world with
            delegations :=
              { withdrawn with delegation := update withdrawn.delegation delegator none } }) := by
  simp only [undelegateVotes, ok_iff, requireAuth] at ran
  obtain ⟨_, signed, ran⟩ := ran
  refine ⟨signed, ?_⟩
  split at ran
  · rename_i old points
    simp only [ok_iff, getGovToken] at ran
    obtain ⟨token, initialised, withdrawn, withdrew, rfl⟩ := ran
    exact .inr ⟨old, token, withdrawn, points, initialised, withdrew, rfl⟩
  · rename_i apart
    cases ran
    exact .inl ⟨apart, rfl⟩

end IlnGovernance
