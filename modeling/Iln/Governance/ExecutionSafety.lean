import Iln.Governance.Lifecycle
import Iln.Governance.VoteWeight

/-! Execution of proposals over whole runs. An action takes effect when its target call returns
inside a call of `execute_proposal` that is committed: once, after the vote has ended, and at least
the stored delay after the call that found quorum and majority. -/
namespace IlnGovernance

open Outcome FixedWidth Transition Function
open InvoiceLiquidity (Address Hash Balances Clock)

variable {contract : Address} {world : World} {action : Action contract}
  {proposal : GovernanceProposal}

section Effects

def invocationOf (contract : Address) (world : World) (id : Nat) : Option Invocation :=
  Except.toOption do
    let proposal ← loadProposal world id
    assertExecutable world.clock proposal
    let ilnContract ← getIlnContract world.parameters
    dispatch contract world.parameters ilnContract proposal.actionType

def takesEffect (id : Nat) (world : World) : Action contract → Bool
  | .invoke env (.executeProposal other) =>
    decide (other = id) && succeeds world (.invoke env (.executeProposal other)) &&
      (invocationOf contract world id).any env.invocationReturns
  | _ => false

def dispatchFails (id : Nat) (world : World) : Action contract → Bool
  | .invoke env (.executeProposal other) =>
    decide (other = id) && (invocationOf contract world id).any fun invocation =>
      !env.invocationReturns invocation
  | _ => false

def effects (id : Nat) (world : World) (action : Action contract) : Nat :=
  if takesEffect id world action then 1 else 0

variable {env : Env contract} {id : Nat} {invocation : Invocation}

theorem invocationOf_eq_some : invocationOf contract world id = some invocation ↔
      ∃ proposal iln, loadProposal world id = .ok proposal ∧ proposal.status = .passed ∧
        proposal.votingEnd ≤ world.clock.timestamp ∧ proposal.etaLedger ≤ world.clock.sequence ∧
        getIlnContract world.parameters = .ok iln ∧
        dispatch contract world.parameters iln proposal.actionType = .ok invocation := by
  simp only [invocationOf, toOption_eq_some, ok_iff, assertExecutable_eq_ok]
  constructor
  · rintro ⟨proposal, stored, _, ⟨passed, ended, matured⟩, iln, located, dispatched⟩
    exact ⟨proposal, iln, stored, passed, ended, matured, located, dispatched⟩
  · rintro ⟨proposal, iln, stored, passed, ended, matured, located, dispatched⟩
    exact ⟨proposal, stored, (), ⟨passed, ended, matured⟩, iln, located, dispatched⟩

theorem executeProposal_of_invocation {next : World}
    (found : invocationOf contract world id = some invocation)
    (ran : invoke env world (.executeProposal id) = .ok next) :
    env.invocationReturns invocation = false ∧ next = world ∨
      env.invocationReturns invocation = true ∧ ∃ proposal :
    GovernanceProposal, Moved env world (.executeProposal id) next id
        { world.docket id with proposal := some { proposal with status := .executed } } := by
  obtain ⟨proposal, _, stored, passed, ended, _, located, dispatched⟩ :=
    invocationOf_eq_some.mp found
  have executes : executePassed env world proposal = .ok next := by
    rcases invoke_executeProposal_cases stored ran with ⟨active, _⟩ | ⟨_, executes⟩
    · cases passed.symm.trans active
    · exact executes
  obtain ⟨_, _, located', dispatched', outcome⟩ := executePassed_moved stored passed ended executes
  cases located.symm.trans located'
  cases dispatched.symm.trans dispatched'
  exact outcome.imp_right fun moved => ⟨moved.1, proposal, moved.2⟩

theorem takesEffect_spec (effective : takesEffect id world action = true) :
    ∃ proposal, loadProposal world id = .ok proposal ∧ proposal.status = .passed ∧
      proposal.votingEnd ≤ world.clock.timestamp ∧ proposal.etaLedger ≤ world.clock.sequence ∧
      (step world action).statusOf id = some .executed := by
  unfold takesEffect at effective
  split at effective
  · rename_i env other
    simp only [Bool.and_eq_true, decide_eq_true_eq, Option.any_eq_true] at effective
    obtain ⟨⟨rfl, finished⟩, _, found, answered⟩ := effective
    obtain ⟨proposal, _, stored, passed, ended, matured, _⟩ := invocationOf_eq_some.mp found
    refine ⟨proposal, stored, passed, ended, matured, ?_⟩
    rcases executeProposal_of_invocation found (invoke_of_succeeds finished) with
      ⟨unanswered, _⟩ | ⟨_, _, moved⟩
    · rw [answered] at unanswered
      cases unanswered
    · have record := congrArg Docket.proposal (congrFun moved.dockets other)
      rw [update_self] at record
      exact congrArg (Option.map _) record
  · cases effective

theorem step_of_dispatchFails (fails : dispatchFails id world action = true) :
    step world action = world ∧ world.statusOf id = some .passed := by
  unfold dispatchFails at fails
  split at fails
  · rename_i env other
    simp only [Bool.and_eq_true, decide_eq_true_eq, Option.any_eq_true, Bool.not_eq_true'] at fails
    obtain ⟨rfl, _, found, unanswered⟩ := fails
    obtain ⟨_, _, stored, passed, _⟩ := invocationOf_eq_some.mp found
    refine ⟨?_, ?_⟩
    · cases finished : succeeds world (.invoke env (.executeProposal other)) with
      | false => exact step_of_failed finished
      | true =>
        rcases executeProposal_of_invocation found (invoke_of_succeeds finished) with
          ⟨_, same⟩ | ⟨answered, _⟩
        · exact same
        · rw [answered] at unanswered
          cases unanswered
    · simp [World.statusOf, (loadProposal_eq_ok.mp stored).2.1, passed]
  · cases fails

end Effects

section Statuses

variable {env : Env contract} {id : Nat} {call : Call} {docket : Docket}

/-- A motion of a stored proposal keeps the terms of its vote, and its status or takes an edge of
`is_legal_transition`. -/
theorem Motion.legal (motion : Motion env world id call docket) (numbered : Numbered world)
    (below : id < u64Max) (stored : world.proposals.proposal id = some proposal) :
    ∃ after, docket.proposal = some after ∧
      (after.status = proposal.status ∨ isLegalTransition proposal.status after.status = true) := by
  have same : ∀ {other}, loadProposal world id = .ok other → other = proposal := fun found =>
    Option.some.inj ((loadProposal_eq_ok.mp found).2.1.symm.trans stored)
  cases motion with
  | opened _ number =>
    have blank : world.proposals.proposal id = none :=
      congrArg Docket.proposal (numbered.fresh below number)
    rw [blank] at stored
    cases stored
  | voted found =>
    cases same found
    refine ⟨_, rfl, .inl ?_⟩
    simp only [addVote]
    split <;> rfl
  | closed found active =>
    cases same found
    exact ⟨_, rfl, .inr (by rw [active]; rfl)⟩
  | executed found passed =>
    cases same found
    exact ⟨_, rfl, .inr (by rw [passed]; rfl)⟩
  | vetoed found vetoable =>
    cases same found
    refine ⟨_, rfl, .inr ?_⟩
    rcases vetoable with active | passed
    · rw [active]
      rfl
    · rw [passed]
      rfl

theorem step_legal (action : Action contract) (numbered : Numbered world) (below : id < u64Max)
    {before : ProposalStatus} (stored : world.statusOf id = some before) :
    ∃ after, (step world action).statusOf id = some after ∧
      (after = before ∨ isLegalTransition before after = true) := by
  obtain ⟨proposal, found, rfl⟩ := Option.map_eq_some_iff.mp stored
  rcases step_docket action numbered id with same | ⟨_, _, rfl, _, motion⟩
  · have record : (step world action).proposals.proposal id = some proposal :=
      (congrArg Docket.proposal same).trans found
    exact ⟨proposal.status, by simp [World.statusOf, record], .inl rfl⟩
  · obtain ⟨after, now, legal⟩ := motion.legal numbered below found
    exact ⟨after.status, congrArg (Option.map _) now, legal⟩

theorem exec_final {status : ProposalStatus} (final : ∀ next, isLegalTransition status next = false)
    (numbered : Numbered world) (below : id < u64Max) (stored : world.statusOf id = some status)
    (actions : List (Action contract)) : (exec step world actions).statusOf id = some status := by
  have kept : Numbered (exec step world actions) ∧ (exec step world actions).statusOf id =
      some status := by
    refine invariant (fun world : World => Numbered world ∧ world.statusOf id = some status) ?_
      actions ⟨numbered, stored⟩
    rintro world action ⟨numbered, stored⟩
    obtain ⟨_, now, same | legal⟩ := step_legal action numbered below stored
    · exact ⟨step_numbered action numbered, same ▸ now⟩
    · rw [final] at legal
      cases legal
  exact kept.2

end Statuses

section Runs

variable {id : Nat}

def Approved (id : Nat) (ledger : Nat) (world : World) : Prop :=
  ∃ proposal bps, world.proposals.proposal id = some proposal ∧
    proposal.votingEnd ≤ world.clock.timestamp ∧ world.parameters.minQuorumBps = some bps ∧
    getGovTokenTotalSupply world.parameters * (bps : Int) / 10000 ≤
      proposal.votesFor + proposal.votesAgainst ∧
    proposal.votesAgainst < proposal.votesFor ∧
    world.clock.sequence + world.parameters.executionDelay.getD 0 ≤ ledger

def executes (id : Nat) (world : World) : Action contract → Bool
  | .invoke env (.executeProposal other) =>
    decide (other = id) && succeeds world (.invoke env (.executeProposal other))
  | _ => false

def SupplyBounded (world : World) : Prop := getGovTokenTotalSupply world.parameters ≤ 10 ^ 34

instance : DecidablePred SupplyBounded := fun world =>
  inferInstanceAs (Decidable (getGovTokenTotalSupply world.parameters ≤ 10 ^ 34))

theorem quorumVotes_exact {quorum : Int} (bounded : SupplyBounded world)
    (required : quorumVotes world.parameters = .ok quorum) :
    ∃ bps : Nat, world.parameters.minQuorumBps = some bps ∧
      quorum = getGovTokenTotalSupply world.parameters * (bps : Int) / 10000 := by
  simp only [quorumVotes, ok_iff, not_or, not_le, not_lt] at required
  obtain ⟨bps, stored, _, ⟨positive, _, high⟩, rfl⟩ := required
  refine ⟨bps, stored, ?_⟩
  have fits : Fits i128 (getGovTokenTotalSupply world.parameters * (bps : Int)) := by
    have product : getGovTokenTotalSupply world.parameters * (bps : Int) ≤ 10 ^ 34 * 10000 :=
      mul_le_mul bounded (by omega) (by omega) (by decide)
    have low : 0 ≤ getGovTokenTotalSupply world.parameters * (bps : Int) :=
      mul_nonneg positive.le (by omega)
    have top : Fits i128 (10 ^ 34 * 10000) := by decide
    exact fits_of_nonneg_le top low product
  rw [saturate_of_fits fits]

def Closes (id eta : Nat) (world : World) (action : Action contract) : Prop :=
  executes id world action = true ∧ ∃ proposal quorum, world.proposals.proposal id = some proposal ∧
    proposal.votingEnd ≤ world.clock.timestamp ∧ quorumVotes world.parameters = .ok quorum ∧
    quorum ≤ proposal.votesFor + proposal.votesAgainst ∧ proposal.votesAgainst < proposal.votesFor ∧
    world.clock.sequence + world.parameters.executionDelay.getD 0 = eta

theorem Closes.approved {id eta ledger : Nat} (closes : Closes id eta world action)
    (bounded : SupplyBounded world) (matured : eta ≤ ledger) : Approved id ledger world := by
  obtain ⟨_, proposal, _, stored, ended, required, reached, majority, stamped⟩ := closes
  obtain ⟨bps, set, rfl⟩ := quorumVotes_exact bounded required
  exact ⟨proposal, bps, stored, ended, set, reached, majority, stamped.le.trans matured⟩

theorem step_passed (action : Action contract) (numbered : Numbered world)
    (stored : (step world action).proposals.proposal id = some proposal)
    (passed : proposal.status = .passed) :
    world.proposals.proposal id = some proposal ∨ Closes id proposal.etaLedger world action := by
  refine (step_closes action numbered stored passed).imp_right ?_
  rintro ⟨env, voted, quorum, rfl, finished, held, ended, required, reached, majority, rfl⟩
  exact ⟨by simp [executes, finished], voted, quorum, held, ended, required, reached, majority, rfl⟩

theorem passed_was_closed (clock : Clock) (balance : Balances) (past : List (Action contract)) :
    ∀ proposal ∈ (reach clock balance past).proposals.proposal id, proposal.status =
      .passed → Happened step (Closes id proposal.etaLedger) (genesis clock balance) past := by
  refine history_induct (fun past (world : World) => ∀ proposal ∈ world.proposals.proposal id,
    proposal.status = .passed → Happened step (Closes id proposal.etaLedger)
    (genesis clock balance) past) ?_ ?_ past
  · intro past action held proposal stored passed
    rw [happened_snoc]
    exact (step_passed action (exec_numbered clock balance past) stored passed).imp_left
      fun before => held proposal before passed
  · intro proposal stored
    cases stored

theorem effects_le_one (clock : Clock) (balance : Balances) (below : id < u64Max)
    (actions : List (Action contract)) :
    tally step (effects id) (genesis clock balance) actions ≤ 1 := by
  refine tally_le_one Numbered (fun world => world.statusOf id = some .executed)
    (fun _ action numbered => step_numbered action numbered) ?_ ?_ actions
    (genesis_numbered clock balance)
  · intro world action numbered executed
    exact exec_final (fun next => by cases next <;> rfl) numbered below executed [action]
  · intro world action numbered
    unfold effects
    split
    · rename_i effective
      obtain ⟨_, stored, passed, _, _, executed⟩ := takesEffect_spec effective
      refine .inr ⟨rfl, fun before => ?_, executed⟩
      simp [World.statusOf, (loadProposal_eq_ok.mp stored).2.1, passed] at before
    · exact .inl rfl

theorem never_vetoed (numbered : Numbered world) (below : id < u64Max)
    {past : List (Action contract)} (unvetoed : (exec step world past).statusOf id ≠ some .vetoed) :
    Throughout step (fun world => world.statusOf id ≠ some .vetoed) world past := by
  induction past generalizing world with
  | nil => exact unvetoed
  | cons action rest ih =>
    refine ⟨fun vetoed => unvetoed ?_, ih (step_numbered action numbered) unvetoed⟩
    exact exec_final (fun next => by cases next <;> rfl) numbered below vetoed (action :: rest)

/-- The proposal takes effect at most once. When it does, the vote has ended, the proposal has never
been vetoed, and a committed call found quorum and majority at least the delay stored then earlier.
A target call that fails leaves the proposal passed with its timelock, and every status change is
legal. The counter of proposals saturates at `u64Max`, so below it an identifier names one
proposal. -/
theorem execution_safe (clock : Clock) (balance : Balances) (actions : List (Action contract))
    (id : Nat) (below : id < u64Max)
    (bounded : Throughout step SupplyBounded (genesis clock balance) actions) :
    tally step (effects id) (genesis clock balance) actions ≤ 1 ∧
    ∀ past action rest, actions = past ++ action :: rest →
      let world := reach clock balance past
      (takesEffect id world action = true →
        (∃ proposal ∈ world.proposals.proposal id, proposal.votingEnd ≤ world.clock.timestamp) ∧
        Throughout step (fun world => world.statusOf id ≠ some .vetoed)
        (genesis clock balance) past ∧
        Happened step (fun earlier call => executes id earlier call = true ∧
          Approved id world.clock.sequence earlier)
          (genesis clock balance) past) ∧
      (dispatchFails id world action = true →
        (step world action).proposals.proposal id = world.proposals.proposal id ∧
        (step world action).statusOf id = some .passed) ∧
      ∀ before after, world.statusOf id = some before → (step world action).statusOf id =
        some after → before = after ∨ isLegalTransition before after = true := by
  refine ⟨effects_le_one clock balance below actions, ?_⟩
  rintro past action rest rfl
  have numbered := exec_numbered clock balance past
  refine ⟨?_, ?_, ?_⟩
  · intro effective
    obtain ⟨proposal, stored, passed, ended, matured, _⟩ := takesEffect_spec effective
    have found := (loadProposal_eq_ok.mp stored).2.1
    refine ⟨⟨proposal, found, ended⟩, never_vetoed (genesis_numbered clock balance) below ?_, ?_⟩
    · simp [World.statusOf, found, passed]
    · have closed := passed_was_closed clock balance past proposal found passed
      refine (closed.along bounded.append.along).mono ?_
      rintro earlier call ⟨closes, supply⟩
      exact ⟨closes.1, closes.approved supply matured⟩
  · intro fails
    obtain ⟨same, passed⟩ := step_of_dispatchFails fails
    rw [same]
    exact ⟨rfl, passed⟩
  · intro before after stored now
    obtain ⟨_, reached, legal⟩ := step_legal action numbered below stored
    cases reached.symm.trans now
    exact legal.imp_left Eq.symm

end Runs

def executedBallot : List (Action ⟨0⟩) :=
  openedBallot ++
    [signedBy [8] (.setExecutionDelay ⟨8⟩ 100), signedBy [1] (.castVote ⟨1⟩ 1 true),
      .advance 300000 50, signedBy [] (.executeProposal 1), .advance 600 100,
      signedBy [] (.executeProposal 1)]

theorem execution_safe_of_executedBallot :
    tally step (effects 1) council executedBallot = 1 ∧
      Happened step (fun earlier call => executes 1 earlier call = true ∧ Approved 1 170 earlier)
        council (executedBallot.take 12) := by
  refine ⟨by decide +kernel, ?_⟩
  have safe := execution_safe ⟨1000, 10⟩ holdings executedBallot 1 (by decide) (by decide +kernel)
  exact ((safe.2 (executedBallot.take 12) (signedBy [] (.executeProposal 1)) [] rfl).1
    (by decide +kernel)).2.2

/-- What closing a failed vote should come to: the proposal is rejected, its deposit settled and
sent to the sink if there is one, and it never passes afterwards. -/
def ClosesFailed (env : Env contract) (world : World) (id : Nat) : Prop :=
  let after := step world (.invoke env (.executeProposal id))
  after.statusOf id = some .rejected ∧ after.proposals.depositSettled id = true ∧
    after.proposals.deposit id = none ∧
    (∀ sink token deposit, world.parameters.proposalDepositSink = some (some sink) →
      world.parameters.govToken = some token → world.proposals.depositSettled id = false →
      world.proposals.deposit id = some deposit → 0 < deposit →
      after.balance = InvoiceLiquidity.move world.balance token contract sink deposit) ∧
    ∀ continuation : List (Action contract),
      (exec step after continuation).statusOf id ≠ some .passed ∧
      (exec step after continuation).statusOf id ≠ some .executed

theorem closeVoting_ne_ok {env : Env contract} {world next : World} {quorum : Int}
    (required : quorumVotes world.parameters = .ok quorum)
    (missed : proposal.votesFor + proposal.votesAgainst < quorum ∨
      proposal.votesFor ≤ proposal.votesAgainst) :
    closeVoting env world proposal ≠ .ok next := by
  intro ran
  obtain ⟨needed, same, reached, majority, _⟩ := closeVoting_spec ran
  cases required.symm.trans same
  omega

/-- The call on a failed vote, during it or after its end, returns an error, so the host rolls the
rejection and the forfeit back: the state is as before, with the proposal active. -/
theorem failed_proposal_unclosed (env : Env contract) (world : World) (id : Nat)
    (proposal : GovernanceProposal) (quorum : Int) (stored : loadProposal world id = .ok proposal)
    (active : proposal.status = .active) (required : quorumVotes world.parameters = .ok quorum)
    (missed : proposal.votesFor + proposal.votesAgainst < quorum ∨
      proposal.votesFor ≤ proposal.votesAgainst) :
    step world (.invoke env (.executeProposal id)) = world ∧ world.statusOf id = some .active ∧
      ¬ ClosesFailed env world id := by
  have unchanged : step world (.invoke env (.executeProposal id)) = world := by
    cases finished : succeeds world (.invoke env (.executeProposal id)) with
    | false => exact step_of_failed finished
    | true =>
      rcases invoke_executeProposal_cases stored (invoke_of_succeeds finished) with
        ⟨_, closes⟩ | ⟨passed, _⟩
      · exact absurd closes (closeVoting_ne_ok required missed)
      · cases active.symm.trans passed
  have still : world.statusOf id = some .active := by
    simp [World.statusOf, (loadProposal_eq_ok.mp stored).2.1, active]
  refine ⟨unchanged, still, fun closes => ?_⟩
  have rejected := closes.1
  rw [unchanged, still] at rejected
  cases rejected

def failedBallot : List (Action ⟨0⟩) :=
  openedBallot.take 5 ++
    [signedBy [5] (.setMinProposalDeposit 50), signedBy [5] (.setProposalDepositSink (some ⟨9⟩)),
      signedBy [1] (.createProposal ⟨1⟩ (.updateFeeRate 100) 1 100),
      signedBy [1] (.castVote ⟨1⟩ 1 true),
      signedBy [5] (.setMinQuorumBps 10000), .advance 300000 50]

theorem failed_proposal_unclosed_of_failedBallot :
    (convened failedBallot).proposals.deposit 1 = some 50 ∧
      ¬ ClosesFailed (plainHost ⟨0⟩ []) (convened failedBallot)
        1 := by
  refine ⟨by decide +kernel, ?_⟩
  obtain ⟨proposal, stored, active, _, missed⟩ : ∃ proposal ∈ (convened
      failedBallot).proposals.proposal 1, proposal.status = .active ∧
      proposal.votingEnd ≤ (convened failedBallot).clock.timestamp ∧
      proposal.votesFor + proposal.votesAgainst < 2000 := by decide +kernel
  have numbered : Numbered (convened failedBallot) := exec_numbered _ _ _
  have named := numbered.named 1 proposal stored
  exact (failed_proposal_unclosed (plainHost ⟨0⟩ []) _ 1 proposal 2000
    (loadProposal_eq_ok.mpr ⟨by decide +kernel, stored, named⟩) active (by decide +kernel)
    (.inl missed)).2.2

/-- The call leaves the failed proposal active with its deposit in the contract. Once the quorum is
lowered, the same proposal passes and is executed. -/
theorem failedBallot_executes_later :
    let world := convened failedBallot
    let after := step world (signedBy [] (.executeProposal 1))
    let revived := exec step after
      [signedBy [5] (.setMinQuorumBps 1), signedBy [] (.executeProposal 1),
        signedBy [] (.executeProposal 1)]
    after.statusOf 1 = some .active ∧ after.proposals.deposit 1 = some 50 ∧
      after.balance ⟨10⟩ ⟨9⟩ = 0 ∧ revived.statusOf 1 = some .executed := by
  decide +kernel

section Terms

variable {env : Env contract} {id : Nat} {call : Call}

/-- The later record of a proposal. Votes are counted, and the timelock is set, only while it is
active. -/
structure ProposedAs (proposal after : GovernanceProposal) : Prop where
  kept : after = { proposal with
    status := after.status, votesFor := after.votesFor, votesAgainst := after.votesAgainst,
      etaLedger := after.etaLedger }
  decided : proposal.status ≠ .active → after.status ≠ .active ∧
    after = { proposal with status := after.status }

theorem Motion.proposedAs {docket : Docket} {before : GovernanceProposal}
    (motion : Motion env world id call docket) (numbered : Numbered world) (below : id < u64Max)
    (stored : world.proposals.proposal id = some before) (proposed : ProposedAs proposal before) :
    ∃ after ∈ docket.proposal, ProposedAs proposal after := by
  obtain ⟨kept, decided⟩ := proposed
  have same : ∀ {other}, loadProposal world id = .ok other → other = before := fun found =>
    Option.some.inj ((loadProposal_eq_ok.mp found).2.1.symm.trans stored)
  cases motion with
  | opened _ number =>
    cases (congrArg Docket.proposal (numbered.fresh below number)).symm.trans stored
  | voted found _ active =>
    cases same found
    refine ⟨_, rfl, ?_, fun settled => absurd active (decided settled).1⟩
    unfold addVote
    split <;> rw [kept]
  | closed found active =>
    cases same found
    exact ⟨_, rfl, by rw [kept], fun settled => absurd active (decided settled).1⟩
  | executed found | vetoed found =>
    cases same found
    refine ⟨_, rfl, by rw [kept], fun settled => ⟨by simp, ?_⟩⟩
    rw [(decided settled).2]

/-- What is voted on and executed is what was proposed. From its creation on, a proposal changes in
its tallies, its timelock and its status only, and once it is no longer active in its status
only. -/
theorem proposal_terms_final (clock : Clock) (balance : Balances)
    (past future : List (Action contract))
    (stored : (reach clock balance past).proposals.proposal id = some proposal)
    (below : id < u64Max) :
    ∃ after ∈ (reach clock balance (past ++ future)).proposals.proposal id,
      ProposedAs proposal after := by
  rw [reach, exec_append]
  refine (invariant (fun world : World => Numbered world ∧
      ∃ after ∈ world.proposals.proposal id, ProposedAs proposal after) ?_ future
    ⟨exec_numbered clock balance past, proposal, stored, rfl, fun settled => ⟨settled, rfl⟩⟩).2
  rintro world action ⟨numbered, before, found, proposed⟩
  refine ⟨step_numbered action numbered, ?_⟩
  rcases step_docket action numbered id with same | ⟨_, _, rfl, _, motion⟩
  · exact ⟨before, (congrArg Docket.proposal same).trans found, proposed⟩
  · exact motion.proposedAs numbered below found proposed

theorem proposal_terms_final_of_openedBallot :
    ∃ proposal ∈ (convened openedBallot).proposals.proposal 1,
      ∃ after ∈ (convened (openedBallot ++
          [signedBy [2] (.castVote ⟨2⟩ 1 true)])).proposals.proposal 1,
        ProposedAs proposal after := by
  have stored := (Option.some_get
    (show ((convened openedBallot).proposals.proposal 1).isSome = true by decide +kernel)).symm
  exact ⟨_, stored, proposal_terms_final ⟨1000, 10⟩ holdings openedBallot _ stored (by decide)⟩

end Terms

end IlnGovernance
