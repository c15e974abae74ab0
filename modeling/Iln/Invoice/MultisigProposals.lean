import Iln.Invoice.MultisigChanges

/-! Proposals of the multisig over whole runs. An identifier is given out once, its proposal is
executed at most once and in time, and nobody approves twice. The index from actions to proposals
may be stale, but it names the open proposal for an action if there is one. -/
namespace InvoiceLiquidity

open Outcome Transition Function

variable {contract : Address} {action : AdminAction} {proposal : MultisigProposal}

def MultisigProposal.Open (proposal : MultisigProposal) (clock : Clock) : Prop :=
  proposal.state = .pending ∧ clock.sequence < proposal.expiresAt

structure ProposalSound (clock : Clock) (store : MultisigStore) (id : Nat)
    (proposal : MultisigProposal) : Prop where
  named : proposal.id = id
  unswept : proposal.state ≠ .expired
  distinct : proposal.signersApproved.Nodup
  indexed : proposal.Open clock → store.pendingAction proposal.action = some id

structure ProposalsSound (clock : Clock) (store : MultisigStore) : Prop where
  unset : store.admin = none → ∀ id, store.proposal id = none
  fresh : ∀ id, store.nextProposalId ≤ id → store.proposal id = none
  sound : ∀ id proposal, store.proposal id = some proposal → ProposalSound clock store id proposal

section Store

variable {clock : Clock} {store next : MultisigStore} {id : Nat}

theorem openProposal_proposal (proposer : Address) (action : AdminAction) :
    (store.openProposal clock proposer action).proposal id = if id = store.nextProposalId then
      some ⟨store.nextProposalId, action, [proposer], .pending,
        clock.sequence + multisigWindowLedgers⟩
      else store.proposal id :=
  update_apply _ _ _ _

theorem approve_proposal (approver : Address) :
    (store.approve proposal approver).proposal id = if id = proposal.id then
      some { proposal with signersApproved := proposal.signersApproved ++ [approver] }
        else store.proposal id :=
  update_apply _ _ _ _

theorem close_proposal : (store.close proposal).proposal id = if id = proposal.id then
      some { proposal with state := .executed } else store.proposal id :=
  update_apply _ _ _ _

theorem LiveProposal.isOpen (live : LiveProposal clock store id proposal)
    (sound : ProposalsSound clock store) : proposal.Open clock := by
  have unswept := (sound.sound id proposal live.found).unswept
  have unexecuted := live.unexecuted
  refine ⟨?_, live.unexpired⟩
  cases state : proposal.state with
  | pending => rfl
  | executed => exact absurd state unexecuted
  | expired => exact absurd state unswept

section

theorem ActionApplied.table (applied : ActionApplied clock store action next) :
    next.proposal = store.proposal := by
  cases applied <;> rfl

variable (sound : ProposalsSound clock store)
include sound

theorem ProposalsSound.later {after : Clock}
    (later : clock.sequence ≤ after.sequence) : ProposalsSound after store where
  unset := sound.unset
  fresh := sound.fresh
  sound := by
    intro id proposal stored
    have held := sound.sound id proposal stored
    exact { held with indexed := fun ⟨pending, unexpired⟩ => held.indexed ⟨pending,
      later.trans_lt unexpired⟩ }

theorem ProposalsSound.unique {other : Nat} {twin : MultisigProposal}
    (stored : store.proposal id = some proposal) (also : store.proposal other = some twin)
    (isOpen : proposal.Open clock) (twinOpen : twin.Open clock)
    (same : proposal.action = twin.action) : id = other := by
  have here := (sound.sound id proposal stored).indexed isOpen
  have there := (sound.sound other twin also).indexed twinOpen
  rw [same, there] at here
  exact (Option.some.inj here).symm

theorem ProposalsSound.opened {proposer : Address} {config : MultisigAdmin}
    (configured : store.admin = some config) (free : hasLiveProposal clock store action = false) :
    ProposalsSound clock (store.openProposal clock proposer action) where
  unset := by
    intro absent
    rw [MultisigStore.openProposal, saveProposal, configured] at absent
    cases absent
  fresh := by
    intro id beyond
    have above : store.nextProposalId < id := beyond
    rw [openProposal_proposal, if_neg above.ne']
    exact sound.fresh id above.le
  sound := by
    intro id proposal stored
    rw [openProposal_proposal] at stored
    split at stored
    · cases stored
      rename_i here
      subst here
      exact ⟨rfl, by simp, by simp, fun _ => update_self _ _ _⟩
    · have held := sound.sound id proposal stored
      refine { held with indexed := fun isOpen => ?_ }
      have indexed := held.indexed isOpen
      -- an open proposal for the same action would have been found
      have different : proposal.action ≠ action := by
        rintro rfl
        simp only [hasLiveProposal, indexed, Option.bind_some, stored, Option.any_some,
          Bool.and_eq_false_imp, beq_iff_eq, Bool.not_eq_false', isExpired,
          decide_eq_true_eq] at free
        exact absurd (free isOpen.1) (not_le.mpr isOpen.2)
      exact (update_of_ne different _ _).trans indexed

theorem ProposalsSound.replaced (stored : store.proposal id = some proposal)
    {record : MultisigProposal} (admin : next.admin = store.admin)
    (ids : next.nextProposalId = store.nextProposalId)
    (table : ∀ other, next.proposal other = if other = proposal.id then some record
      else store.proposal other) (here : ProposalSound clock next id record)
    (elsewhere : ∀ other kept, other ≠ id → store.proposal other = some kept →
      ProposalSound clock next other kept) :
    ProposalsSound clock next := by
  have named := (sound.sound id proposal stored).named
  refine ⟨fun absent => ?_, fun other beyond => ?_, fun other kept found => ?_⟩
  · have missing := sound.unset (admin.symm.trans absent) id
    rw [stored] at missing
    cases missing
  · have missing := sound.fresh other (ids ▸ beyond)
    rw [table, if_neg]
    · exact missing
    · rintro rfl
      rw [named, stored] at missing
      cases missing
  · rw [table, named] at found
    split at found
    · rename_i same
      cases found
      exact same ▸ here
    · rename_i different
      exact elsewhere other kept different found

theorem ProposalsSound.approved {approver : Address}
    (live : LiveProposal clock store id proposal) (first : approver ∉ proposal.signersApproved) :
    ProposalsSound clock (store.approve proposal approver) := by
  have held := sound.sound id proposal live.found
  refine sound.replaced live.found rfl rfl (fun _ => approve_proposal approver) ?_
    fun other kept _ found => ?_
  · refine { held with distinct := List.nodup_append.mpr ⟨held.distinct, List.nodup_singleton _,
      ?_⟩ }
    rintro signer listed _ last rfl
    rw [List.mem_singleton.mp last] at listed
    exact first listed
  · exact { sound.sound other kept found with }

theorem ProposalsSound.closed (live : LiveProposal clock store id proposal) :
    ProposalsSound clock (store.close proposal) := by
  have held := sound.sound id proposal live.found
  refine sound.replaced live.found rfl rfl (fun _ => close_proposal) ?_
    fun other stored different found => ?_
  · exact ⟨held.named, by simp, held.distinct, fun isOpen => (by cases isOpen.1)⟩
  · have kept := sound.sound other stored found
    refine { kept with indexed := fun isOpen => ?_ }
    -- the index of this action is cleared, and no other open proposal used it
    have elsewhere : stored.action ≠ proposal.action := fun same =>
      different (sound.unique found live.found isOpen (live.isOpen sound) same)
    exact (update_of_ne elsewhere _ _).trans (kept.indexed isOpen)

theorem ProposalsSound.applied
    (applied : ActionApplied clock store action next) : ProposalsSound clock next := by
  cases applied with
  | elsewhere => exact sound
  | updated => exact ⟨(by rintro ⟨⟩), sound.fresh, fun id proposal stored =>
    { sound.sound id proposal stored with }⟩
  | scheduled => exact ⟨sound.unset, sound.fresh,
      fun id proposal stored => { sound.sound id proposal stored with }⟩

end

theorem MultisigChange.proposals {env : Env contract} {call : Call}
    (change : MultisigChange env clock store call next) (sound : ProposalsSound clock store) :
    ProposalsSound clock next := by
  cases change with
  | kept => exact sound
  | initialised unset =>
    have empty := sound.unset unset
    exact ⟨fun _ => empty, fun id _ => empty id, fun id proposal stored => by
      rw [empty id] at stored
      cases stored⟩
  | proposed signer free => exact sound.opened signer.stored free
  | approved _ live first => exact sound.approved live first
  | executed _ live _ applied => exact (sound.closed live).applied applied
  | rotated => exact ⟨(by rintro ⟨⟩), sound.fresh, fun id proposal stored =>
    { sound.sound id proposal stored with }⟩
  | cancelled => exact ⟨sound.unset, sound.fresh,
      fun id proposal stored => { sound.sound id proposal stored with }⟩

end Store

section Runs

variable {world : World}

theorem step_proposals (action : Action contract)
    (sound : ProposalsSound world.clock world.control.multisig) :
    ProposalsSound (step world action).clock (step world action).control.multisig := by
  refine ProposalsSound.later ?_ (step_sequence world action)
  have change := step_multisig world action
  generalize (step world action).control.multisig = next at change ⊢
  cases change with
  | idle => exact sound
  | called _ change => exact change.proposals sound

theorem genesis_proposals (clock : Clock) (balance : Balances) :
    ProposalsSound (genesis clock balance).clock (genesis clock balance).control.multisig :=
  ⟨fun _ _ => rfl, fun _ _ => rfl, fun _ _ stored => by cases stored⟩

def createdId (world : World) : Action contract → Option Nat
  | .invoke env (.propose proposer action) =>
    if succeeds world (.invoke env (.propose proposer action)) = true then
      some world.control.multisig.nextProposalId
    else none
  | _ => none

def creations (id : Nat) (world : World) (action : Action contract) : Nat :=
  if createdId world action = some id then 1 else 0

def executions (id : Nat) (world : World) (action : Action contract) : Nat :=
  if (executedProposal world action).map MultisigProposal.id = some id then 1 else 0

theorem step_lasts (action : Action contract)
    (sound : ProposalsSound world.clock world.control.multisig) {id : Nat}
    (stored : world.control.multisig.proposal id = some proposal) :
    ∃ after, (step world action).control.multisig.proposal id = some after ∧
      (proposal.state = .executed → after.state = .executed) := by
  have change := step_multisig world action
  generalize (step world action).control.multisig = next at change ⊢
  cases change with
  | idle => exact ⟨proposal, stored, fun executed => executed⟩
  | called _ change =>
    cases change with
    | kept | rotated | cancelled => exact ⟨proposal, stored, fun executed => executed⟩
    | initialised unset =>
      rw [sound.unset unset id] at stored
      cases stored
    | proposed =>
      have taken : id ≠ world.control.multisig.nextProposalId := by
        rintro rfl
        rw [sound.fresh _ le_rfl] at stored
        cases stored
      exact ⟨proposal, by rw [openProposal_proposal, if_neg taken, stored],
        fun executed => executed⟩
    | approved _ live =>
      rw [approve_proposal, (sound.sound _ _ live.found).named]
      split
      · rename_i same
        rw [same, live.found] at stored
        cases stored
        exact ⟨_, rfl, fun executed => executed⟩
      · exact ⟨proposal, stored, fun executed => executed⟩
    | executed _ live _ applied =>
      rw [applied.table, close_proposal]
      split
      · exact ⟨_, rfl, fun _ => rfl⟩
      · exact ⟨proposal, stored, fun executed => executed⟩

theorem createdId_spec {action : Action contract} {id : Nat}
    (created : createdId world action = some id)
    (sound : ProposalsSound world.clock world.control.multisig) :
    world.control.multisig.proposal id = none ∧
      ∃ proposal, (step world action).control.multisig.proposal id = some proposal := by
  unfold createdId at created
  split at created
  · rename_i env proposer action
    split at created
    · rename_i finished
      cases created
      refine ⟨sound.fresh _ le_rfl, ?_⟩
      have change := invoke_multisig (invoke_of_succeeds finished)
      generalize (step world (.invoke env (.propose proposer action))).control.multisig =
        next at change ⊢
      cases change with
      | kept other => cases other
      | proposed => exact ⟨_, by rw [openProposal_proposal, if_pos rfl]⟩
    · cases created
  · cases created

theorem executedProposal_spec {action : Action contract}
    (executes : executedProposal world action = some proposal)
    (sound : ProposalsSound world.clock world.control.multisig) :
    LiveProposal world.clock world.control.multisig proposal.id proposal ∧
      (∃ config, world.control.multisig.admin = some config ∧
        config.threshold ≤ proposal.signersApproved.length) ∧
      ∃ after, (step world action).control.multisig.proposal proposal.id = some after ∧
      after.state = .executed := by
  unfold executedProposal at executes
  split at executes
  · rename_i env caller id
    split at executes
    · rename_i finished
      have named := (sound.sound id proposal executes).named
      have change := invoke_multisig (invoke_of_succeeds finished)
      generalize (step world (.invoke env (.executeProposal caller id))).control.multisig =
        next at change ⊢
      cases change with
      | kept other => cases other
      | executed signer live reached applied =>
        rw [live.found] at executes
        cases executes
        refine ⟨named ▸ live, ⟨_, signer.stored, reached⟩, ?_⟩
        rw [applied.table, close_proposal, if_pos rfl]
        exact ⟨_, rfl, rfl⟩
    · cases executes
  · cases executes

theorem creations_le_one (id : Nat) (actions : List (Action contract))
    (sound : ProposalsSound world.clock world.control.multisig) :
    tally step (creations id) world actions ≤ 1 := by
  refine tally_le_one (fun world => ProposalsSound world.clock world.control.multisig)
    (fun world => ∃ proposal, world.control.multisig.proposal id = some proposal)
    (fun world action held => step_proposals action held) ?_ ?_ actions sound
  · rintro world action held ⟨proposal, stored⟩
    obtain ⟨after, kept, _⟩ := step_lasts action held stored
    exact ⟨after, kept⟩
  · intro world action held
    unfold creations
    split
    · rename_i created
      obtain ⟨unused, stored⟩ := createdId_spec created held
      exact .inr ⟨rfl, by simp [unused], stored⟩
    · exact .inl rfl

theorem executions_le_one (id : Nat) (actions : List (Action contract))
    (sound : ProposalsSound world.clock world.control.multisig) :
    tally step (executions id) world actions ≤ 1 := by
  refine tally_le_one (fun world => ProposalsSound world.clock world.control.multisig)
    (fun world => ∃ proposal, world.control.multisig.proposal id = some proposal ∧
      proposal.state = .executed)
    (fun world action held => step_proposals action held) ?_ ?_ actions sound
  · rintro world action held ⟨proposal, stored, executed⟩
    obtain ⟨after, kept, lasts⟩ := step_lasts action held stored
    exact ⟨after, kept, lasts executed⟩
  · intro world action held
    unfold executions
    split
    · rename_i executes
      obtain ⟨proposal, found, rfl⟩ := Option.map_eq_some_iff.mp executes
      obtain ⟨live, _, done⟩ := executedProposal_spec found held
      refine .inr ⟨rfl, ?_, done⟩
      rintro ⟨stored, same, executed⟩
      rw [live.found] at same
      cases same
      exact live.unexecuted executed
    · exact .inl rfl

/-- In every run an identifier is given out at most once and its proposal executed at most once,
before it expires. In every reachable state nobody has approved a proposal twice, and an action has
at most one open proposal. -/
theorem proposals_single_use (clock : Clock) (balance : Balances)
    (actions : List (Action contract)) :
    let world := reach clock balance actions
    (∀ id, tally step (executions id) (genesis clock balance) actions ≤ 1) ∧
    Along step (fun world action => ∀ proposal ∈ executedProposal world action,
      world.clock.sequence < proposal.expiresAt) (genesis clock balance) actions ∧
    (∀ id, tally step (creations id) (genesis clock balance) actions ≤ 1) ∧
    (∀ id proposal, world.control.multisig.proposal id = some proposal →
      proposal.signersApproved.Nodup) ∧
    ∀ id other proposal twin, world.control.multisig.proposal id = some proposal →
      world.control.multisig.proposal other = some twin → proposal.Open world.clock →
      twin.Open world.clock → proposal.action = twin.action → id = other := by
  have start := genesis_proposals clock balance
  have throughout : Throughout step (fun world : World => ProposalsSound world.clock
    world.control.multisig)
      (genesis clock balance) actions :=
    throughout_along _ (fun _ action held _ => step_proposals action held) start Along.always
  have reached := throughout.last
  refine ⟨fun id => executions_le_one id actions start, ?_,
    fun id => creations_le_one id actions start, ?_, ?_⟩
  · exact throughout.along.mono fun world action held proposal executes =>
      (executedProposal_spec executes held).1.unexpired
  · exact fun id proposal stored => (reached.sound id proposal stored).distinct
  · exact fun id other proposal twin stored also isOpen twinOpen same =>
      reached.unique stored also isOpen twinOpen same

end Runs

end InvoiceLiquidity
