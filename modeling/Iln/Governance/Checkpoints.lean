import Iln.Governance.Lifecycle
import Iln.Governance.VoteWeight

/-! What a checkpoint proves. A voter's own weight is the live balance capped by a balance recorded
well before the proposal, unless a snapshot is stored. Of the checkpoints of a voter two are kept,
so the proof for a proposal survives one refresh in a later ledger, not two. -/
namespace IlnGovernance

open Outcome FixedWidth Transition Function
open InvoiceLiquidity (Address Hash Balances Clock)

variable {contract : Address} {now : Nat} {slots : Slots} {own : Int} {latest : BalanceCheckpoint}
variable {ballots : BallotStore}

section Slots

def BalanceCheckpoint.Aged (checkpoint : BalanceCheckpoint) (ref : Nat) : Prop :=
  addCapped u32Max checkpoint.ledger minVoteHoldLedgers ≤ ref

instance (checkpoint : BalanceCheckpoint) (ref : Nat) : Decidable (checkpoint.Aged ref) :=
  inferInstanceAs (Decidable (_ ≤ _))

theorem BalanceCheckpoint.Aged.held {checkpoint : BalanceCheckpoint} {ref : Nat}
    (aged : checkpoint.Aged ref) (below : ref < u32Max) :
    checkpoint.ledger + minVoteHoldLedgers ≤ ref := by
  simp only [Aged, addCapped] at aged
  omega

/-- The slots were filled in order, the latest not after `now`. -/
structure Slots.InOrder (slots : Slots) (now : Nat) : Prop where
  latest : ∀ latest ∈ slots.latest, latest.ledger ≤ now
  prior : ∀ prior ∈ slots.prior, ∃ latest ∈ slots.latest, prior.ledger < latest.ledger

variable {world : World} {voter : Address} {ref : Nat} {checkpoint : BalanceCheckpoint}

theorem eligibleCheckpoint_mem
    (eligible : eligibleCheckpoint world.ballots voter ref = some checkpoint) :
    (world.ballots.balanceCheckpoint voter = some checkpoint ∨
      world.ballots.priorBalanceCheckpoint voter = some checkpoint) ∧ checkpoint.Aged ref := by
  simp only [eligibleCheckpoint] at eligible
  split at eligible
  · rename_i latest prior first second
    obtain ⟨first, young⟩ := Option.filter_eq_some_iff.mp first
    obtain ⟨second, old⟩ := Option.filter_eq_some_iff.mp second
    split at eligible
    · cases eligible
      exact ⟨.inr second, of_decide_eq_true old⟩
    · cases eligible
      exact ⟨.inl first, of_decide_eq_true young⟩
  · rename_i latest first _
    obtain ⟨first, young⟩ := Option.filter_eq_some_iff.mp first
    cases eligible
    exact ⟨.inl first, of_decide_eq_true young⟩
  · obtain ⟨second, old⟩ := Option.filter_eq_some_iff.mp eligible
    exact ⟨.inr second, of_decide_eq_true old⟩

theorem eligibleCheckpoint_latest (ordered : (world.slots voter).InOrder now)
    (latest : world.ballots.balanceCheckpoint voter = some checkpoint)
    (aged : checkpoint.Aged ref) :
    eligibleCheckpoint world.ballots voter ref = some checkpoint := by
  have first : Option.filter (fun checkpoint : BalanceCheckpoint =>
      decide (addCapped u32Max checkpoint.ledger minVoteHoldLedgers ≤ ref)) (some checkpoint) =
        some checkpoint :=
    Option.filter_eq_some_iff.mpr ⟨rfl, decide_eq_true aged⟩
  simp only [eligibleCheckpoint, latest, first]
  split
  · rename_i latest' prior same second
    cases same
    obtain ⟨stored, _⟩ := Option.filter_eq_some_iff.mp second
    obtain ⟨last, here, older⟩ := ordered.prior prior stored
    cases latest.symm.trans here
    rw [if_neg (by omega)]
  · rename_i latest' same _
    exact same.symm
  · rename_i missing
    cases missing

theorem eligibleCheckpoint_prior
    (first : world.ballots.balanceCheckpoint voter = some latest) (young : ¬ latest.Aged ref)
    (prior : world.ballots.priorBalanceCheckpoint voter = some checkpoint)
    (aged : checkpoint.Aged ref) :
    eligibleCheckpoint world.ballots voter ref = some checkpoint := by
  have skipped : Option.filter (fun checkpoint : BalanceCheckpoint =>
      decide (addCapped u32Max checkpoint.ledger minVoteHoldLedgers ≤ ref)) (some latest) = none :=
    Option.filter_eq_none_iff.mpr fun _ same =>
    (Option.some.inj same) ▸ (by simpa using not_le.mp young)
  simp only [eligibleCheckpoint, first, skipped, prior]
  exact Option.filter_eq_some_iff.mpr ⟨rfl, decide_eq_true aged⟩

end Slots

section Steps

variable {world : World} {voter : Address}

inductive SlotChange (world : World) (voter : Address) (action : Action contract) : Prop where
  | kept (slots : (step world action).slots voter = world.slots voter)
      (later : world.clock.sequence ≤ (step world action).clock.sequence) :
        SlotChange world voter action
  | refreshed (env : Env contract) (call : Call) (token : Address)
      (invoked : action = .invoke env call)
      (finished : succeeds world action = true) (records : call.records world = some voter)
      (initialised : world.parameters.govToken = some token)
      (slots : (step world action).slots voter =
        (world.slots voter).refresh ⟨world.balance token voter, world.clock.sequence⟩)
      (clock : (step world action).clock = world.clock) : SlotChange world voter action

theorem step_slots (action : Action contract) (numbered : Numbered world) (voter : Address) :
    SlotChange world voter action := by
  cases finished : succeeds world action with
  | false =>
    refine .kept ?_ ?_
    · rw [step_of_failed finished]
    · rw [step_of_failed finished]
  | true =>
    cases action with
    | invoke env call =>
      obtain ⟨slots, clock⟩ := invoke_slots numbered (invoke_of_succeeds finished)
      have later : world.clock.sequence ≤ (step world (.invoke env call)).clock.sequence := by
        rw [clock]
      simp only [slotsAfter] at slots
      split at slots
      · exact .kept (by rw [slots]) later
      · rename_i other records
        split at slots
        · exact .kept (by rw [slots]) later
        · rename_i token initialised
          by_cases here : voter = other
          · subst here
            refine .refreshed env call token rfl finished records initialised ?_ clock
            rw [slots, update_self]
          · exact .kept (by rw [slots, update_of_ne here]) later
    | advance => exact .kept rfl (Nat.le_add_right _ _)
    | _ => exact .kept rfl le_rfl

theorem Slots.refresh_mem {recorded checkpoint : BalanceCheckpoint}
    (stored : (slots.refresh recorded).latest = some checkpoint ∨
      (slots.refresh recorded).prior = some checkpoint) :
    checkpoint = recorded ∨ slots.latest = some checkpoint ∨ slots.prior = some checkpoint := by
  rcases stored with latest | prior
  · cases latest
    exact .inl rfl
  · simp only [Slots.refresh] at prior
    split at prior
    · rename_i old found
      split at prior
      · exact .inr (.inl (found.trans prior))
      · exact .inr (.inr prior)
    · exact .inr (.inr prior)

theorem Slots.InOrder.refresh (ordered : slots.InOrder now) (balance : Int) :
    (slots.refresh ⟨balance, now⟩).InOrder now := by
  refine ⟨fun latest same => by cases same; exact le_rfl, fun prior stored => ⟨_, rfl, ?_⟩⟩
  simp only [Slots.refresh] at stored
  split at stored
  · rename_i old found
    split at stored
    · rename_i older
      cases stored
      exact older
    · obtain ⟨latest, here, older⟩ := ordered.prior prior stored
      cases found.symm.trans here
      exact lt_of_lt_of_le older (ordered.latest old found)
  · rename_i missing
    obtain ⟨latest, here, _⟩ := ordered.prior prior stored
    cases missing.symm.trans here

theorem Slots.InOrder.later {now after : Nat} (ordered : slots.InOrder now) (passed : now ≤ after) :
    slots.InOrder after :=
  ⟨fun latest stored => (ordered.latest latest stored).trans passed, ordered.prior⟩

theorem step_inOrder (action : Action contract) (numbered : Numbered world)
    (ordered : (world.slots voter).InOrder world.clock.sequence) :
    ((step world action).slots voter).InOrder (step world action).clock.sequence := by
  cases step_slots action numbered voter with
  | kept slots later =>
    rw [slots]
    exact ordered.later later
  | refreshed _ _ _ _ _ _ _ slots clock =>
    rw [slots, clock]
    exact ordered.refresh _

theorem exec_inOrder (clock : Clock) (balance : Balances) (actions : List (Action contract))
    (voter : Address) :
    ((reach clock balance actions).slots voter).InOrder
      (reach clock balance actions).clock.sequence := by
  have kept : Numbered (reach clock balance actions) ∧
      ((reach clock balance actions).slots voter).InOrder
        (reach clock balance actions).clock.sequence := by
    refine invariant (fun world : World => Numbered world ∧
      (world.slots voter).InOrder world.clock.sequence) ?_ actions
      ⟨genesis_numbered clock balance, ⟨(by rintro _ ⟨⟩), (by rintro _ ⟨⟩)⟩⟩
    rintro world action ⟨numbered, ordered⟩
    exact ⟨step_numbered action numbered, step_inOrder action numbered ordered⟩
  exact kept.2

end Steps

section Refreshes

variable {world : World} {voter : Address} {created : Nat} {checkpoint : BalanceCheckpoint}

/-- The checkpoint is aged at the ledger `created` and stands in the latest slot, or in the prior
one behind a checkpoint that is too young. -/
def Proves (created : Nat) (checkpoint : BalanceCheckpoint) (slots : Slots) : Prop :=
  checkpoint.Aged created ∧ (slots.latest = some checkpoint ∨
    slots.prior = some checkpoint ∧ ∃ latest ∈ slots.latest, ¬ latest.Aged created)

theorem eligibleCheckpoint_iff (ordered : (world.slots voter).InOrder now) :
    eligibleCheckpoint world.ballots voter created = some checkpoint ↔
      Proves created checkpoint (world.slots voter) := by
  constructor
  · intro eligible
    obtain ⟨stored | stored, aged⟩ := eligibleCheckpoint_mem eligible
    · exact ⟨aged, .inl stored⟩
    · obtain ⟨latest, first, older⟩ := ordered.prior checkpoint stored
      refine ⟨aged, .inr ⟨stored, latest, first, fun also => ?_⟩⟩
      -- an aged latest checkpoint would be the eligible one
      cases (eligibleCheckpoint_latest ordered first also).symm.trans eligible
      exact lt_irrefl _ older
  · rintro ⟨aged, latest | ⟨prior, latest, first, young⟩⟩
    · exact eligibleCheckpoint_latest ordered latest aged
    · exact eligibleCheckpoint_prior first young prior aged

theorem young_of_later (below : created < u32Max) (later : created ≤ latest.ledger) :
    ¬ latest.Aged created := by
  intro aged
  have held := aged.held below
  simp only [minVoteHoldLedgers] at held
  omega

def SparesProof (voter : Address) (created : Nat) (world : World) : Action contract → Prop
  | .invoke _ (.checkpointBalance other) =>
    other = voter → ∀ latest ∈ world.ballots.balanceCheckpoint voter,
      latest.Aged created ∨ latest.ledger = world.clock.sequence
  | _ => True

def Action.refreshes : Action contract → Option Address
  | .invoke _ (.checkpointBalance voter) => some voter
  | _ => none

theorem sparesProof_iff {voter : Address} {created : Nat} {world : World}
    {action : Action contract} :
    SparesProof voter created world action ↔ (action.refreshes = some voter →
      ∀ latest ∈ world.ballots.balanceCheckpoint voter, latest.Aged created ∨
      latest.ledger = world.clock.sequence) := by
  cases action with
  | invoke env call => cases call <;> simp [SparesProof, Action.refreshes]
  | _ => simp [SparesProof, Action.refreshes]

instance decidableSparesProof (voter : Address) (created : Nat) (world : World)
    (action : Action contract) :
    Decidable (SparesProof voter created world action) := decidable_of_iff' _ sparesProof_iff

theorem Proves.refresh (proves : Proves created checkpoint slots) (below : created < u32Max)
    (later : created ≤ now) (balance : Int)
    (spares : ∀ latest ∈ slots.latest, latest.Aged created ∨ latest.ledger = now) :
    Proves created checkpoint (slots.refresh ⟨balance, now⟩) := by
  obtain ⟨aged, latest | ⟨prior, latest, first, young⟩⟩ := proves
  · -- the proof moves to the prior slot
    have held := aged.held below
    have older : checkpoint.ledger < now := by
      simp only [minVoteHoldLedgers] at held
      omega
    refine ⟨aged, .inr ⟨?_, _, rfl, young_of_later below later⟩⟩
    simp [Slots.refresh, latest, older]
  · -- the proof stays in the prior slot: the latest checkpoint is overwritten in its own ledger
    have same := (spares latest first).resolve_left young
    refine ⟨aged, .inr ⟨?_, _, rfl, young_of_later below later⟩⟩
    have found : slots.latest = some latest := first
    simp [Slots.refresh, found, same, prior]

theorem step_proves (action : Action contract) (numbered : Numbered world)
    (proves : Proves created checkpoint (world.slots voter)) (below : created < u32Max)
    (later : created ≤ world.clock.sequence) (spares : SparesProof voter created world action) :
    Proves created checkpoint ((step world action).slots voter) ∧
      created ≤ (step world action).clock.sequence := by
  cases step_slots action numbered voter with
  | kept slots passed =>
    rw [slots]
    exact ⟨proves, later.trans passed⟩
  | refreshed env call token invoked _ records _ slots clock =>
    subst invoked
    rw [slots, clock]
    refine ⟨proves.refresh below later _ ?_, later⟩
    cases call with
    | checkpointBalance =>
      cases records
      exact spares rfl
    | createProposal =>
      -- a proposer's first checkpoint is written only when there is none
      simp only [Call.records] at records
      split at records
      · rename_i first
        cases records
        intro latest stored
        have found : world.ballots.balanceCheckpoint voter = some latest := stored
        rw [found] at first
        cases first
      · cases records
    | _ => cases records

theorem step_createdLedger {id : Nat} (action : Action contract) (numbered : Numbered world)
    (known : id < u64Max) (opened : world.proposals.createdLedger id = some created) :
    (step world action).proposals.createdLedger id = some created := by
  rcases step_docket action numbered id with same | ⟨env, call, rfl, _, motion⟩
  · exact (congrArg Docket.createdLedger same).trans opened
  · generalize found : (step world (.invoke env call)).docket id = docket at motion
    refine (congrArg Docket.createdLedger found).trans ?_
    cases motion with
    | opened _ number =>
      have blank : world.proposals.createdLedger id = none :=
        congrArg Docket.createdLedger (numbered.fresh known number)
      rw [blank] at opened
      cases opened
    | voted | closed | executed | vetoed => exact opened

/-- From the ledger in which a proposal was created on, a voter whose refreshes spare it keeps the
checkpoint that was eligible then. -/
theorem checkpoint_survives (clock : Clock) (balance : Balances)
    (past later : List (Action contract)) (id : Nat) (known : id < u64Max) (voter : Address)
    (created : Nat) (checkpoint : BalanceCheckpoint)
    (opened : (reach clock balance past).proposals.createdLedger id = some created)
    (now : (reach clock balance past).clock.sequence = created) (below : created < u32Max)
    (eligible : eligibleCheckpoint (reach clock balance past).ballots voter created =
      some checkpoint)
    (spares : Along step (SparesProof voter created) (reach clock balance past) later) :
    Throughout step (fun world => world.proposals.createdLedger id = some created ∧
        eligibleCheckpoint world.ballots voter created = some checkpoint)
      (reach clock balance past) later := by
  have ordered := exec_inOrder clock balance past voter
  have kept : Throughout step (fun world : World => (Numbered world ∧
    (world.slots voter).InOrder world.clock.sequence) ∧
      world.proposals.createdLedger id = some created ∧
      Proves created checkpoint (world.slots voter) ∧ created ≤ world.clock.sequence)
      (reach clock balance past) later := by
    refine throughout_along _ ?_ ⟨⟨exec_numbered clock balance past, ordered⟩, opened,
      (eligibleCheckpoint_iff ordered).mp eligible, now.ge⟩ spares
    rintro world action ⟨⟨numbered, ordered⟩, opened, proves, later⟩ spares
    exact ⟨⟨step_numbered action numbered, step_inOrder action numbered ordered⟩,
      step_createdLedger action numbered known opened,
      step_proves action numbered proves below later spares⟩
  refine kept.mono ?_
  rintro world ⟨⟨_, ordered⟩, opened, proves, _⟩
  exact ⟨opened, (eligibleCheckpoint_iff ordered).mpr proves⟩

def refreshedOnce : List (Action ⟨0⟩) := [.advance 5 1, signedBy [2] (.checkpointBalance ⟨2⟩)]

theorem checkpoint_survives_refreshedOnce :
    (convened (openedBallot ++ refreshedOnce)).ballots.balanceCheckpoint ⟨2⟩ = some ⟨400, 21⟩ ∧
      Throughout step (fun world => world.proposals.createdLedger 1 = some 20 ∧
          eligibleCheckpoint world.ballots ⟨2⟩ 20 = some ⟨400, 10⟩)
        (convened openedBallot) refreshedOnce :=
  ⟨by decide +kernel, checkpoint_survives ⟨1000, 10⟩ holdings openedBallot refreshedOnce 1
    (by decide) ⟨2⟩ 20 ⟨400, 10⟩ (by decide +kernel) (by decide +kernel) (by decide)
    (by decide +kernel) (by decide +kernel)⟩

/-- A second refresh in a later ledger loses the proof, and with it the vote. -/
theorem refreshedTwice_disenfranchised :
    let opened := convened openedBallot
    let refreshed := exec step opened (refreshedOnce ++ refreshedOnce)
    eligibleCheckpoint opened.ballots ⟨2⟩ 20 = some ⟨400, 10⟩ ∧
      eligibleCheckpoint refreshed.ballots ⟨2⟩ 20 = none ∧ refreshed.statusOf 1 = some .active ∧
      succeeds opened (signedBy [2] (.castVote ⟨2⟩ 1 true)) = true ∧
      succeeds refreshed (signedBy [2] (.castVote ⟨2⟩ 1 true)) = false := by
  decide +kernel

end Refreshes

section Holding

variable {world : World} {id : Nat} {voter : Address}

def RecordsBalance (voter : Address) (checkpoint : BalanceCheckpoint) (world : World)
    (action : Action contract) : Prop :=
  ∃ env call token, action = .invoke env call ∧ succeeds world action = true ∧
    call.records world = some voter ∧
    world.parameters.govToken = some token ∧ checkpoint =
      ⟨world.balance token voter, world.clock.sequence⟩

theorem slots_recorded (clock : Clock) (balance : Balances) (past : List (Action contract))
    (voter : Address) (checkpoint : BalanceCheckpoint)
    (stored : ((reach clock balance past).slots voter).latest = some checkpoint ∨
      ((reach clock balance past).slots voter).prior = some checkpoint) :
    Happened step (RecordsBalance voter checkpoint) (genesis clock balance) past := by
  refine history_induct (fun past (world : World) => (world.slots voter).latest = some checkpoint ∨
    (world.slots voter).prior = some checkpoint →
      Happened step (RecordsBalance voter checkpoint) (genesis clock balance) past) ?_
      ?_ past stored
  · intro past action held stored
    rw [happened_snoc]
    cases step_slots action (exec_numbered clock balance past) voter with
    | kept slots =>
      rw [slots] at stored
      exact .inl (held stored)
    | refreshed env call token invoked finished records initialised slots =>
      rw [slots] at stored
      rcases Slots.refresh_mem stored with rfl | before
      · exact .inr ⟨env, call, token, invoked, finished, records, initialised, rfl⟩
      · exact .inl (held before)
  · rintro (none | none) <;> cases none

def SnapshotsVoted (docket : Docket) : Prop :=
  ∀ proposal ∈ docket.proposal, ∀ voter, voter ≠ proposal.proposer →
    (docket.snapshot voter).isSome = true → (docket.receipt voter).isSome = true

theorem addVote_proposer (proposal : GovernanceProposal) (support : Bool) (weight : Int) :
    (addVote proposal support weight).proposer = proposal.proposer := by
  unfold addVote
  split <;> rfl

theorem ownWeight_snapshot {token : Address}
    (ran : ownWeight world token voter id = .ok (ballots, own)) {other : Address}
    (different : other ≠ voter) :
    ballots.voteWeightSnapshot id other = world.ballots.voteWeightSnapshot id other := by
  simp only [ownWeight] at ran
  split at ran
  · cases ran
    rfl
  · simp only [ok_iff] at ran
    obtain ⟨_, _, _, _, same⟩ := ran
    cases same
    simp [update_of_ne different]

theorem Motion.snapshotsVoted {env : Env contract} {call : Call} {docket : Docket}
    (numbered : Numbered world) (known : id < u64Max) (motion : Motion env world id call docket)
    (held : SnapshotsVoted (world.docket id)) : SnapshotsVoted docket := by
  have kept : ∀ {before}, loadProposal world id = .ok before → ∀ voter, voter ≠ before.proposer →
      (world.ballots.voteWeightSnapshot id voter).isSome = true →
      (world.ballots.voteReceipt id voter).isSome = true :=
    fun stored => held _ (loadProposal_eq_ok.mp stored).2.1
  cases motion with
  | @opened proposer _ _ _ _ _ number =>
    rintro proposal same voter different snapped
    cases same
    have other : voter ≠ proposer := different
    have blank : world.ballots.voteWeightSnapshot id voter = none :=
      congrFun (congrArg Docket.snapshot (numbered.fresh known number)) voter
    simp [World.docket, update_of_ne other, blank] at snapped
  | @voted voter support before token ballots own weight stored _ _ _ _ owned =>
    rintro proposal same other different snapped
    cases same
    rw [addVote_proposer] at different
    by_cases here : other = voter
    · simp [here]
    · have before : (ballots.voteWeightSnapshot id other).isSome = true := snapped
      rw [ownWeight_snapshot owned here] at before
      simp only [update_of_ne here]
      exact kept stored other different before
  | closed stored | executed stored | vetoed stored =>
    rintro proposal same voter different
    cases same
    exact kept stored voter different

def Proposes (id : Nat) (proposer : Address) (own : Int) (world : World)
    (action : Action contract) : Prop :=
  ∃ env call descriptionHash value token,
    action = .invoke env (.createProposal proposer call descriptionHash value) ∧
    succeeds world action = true ∧ addCapped u64Max world.count 1 = id ∧
    world.parameters.govToken = some token ∧ own = world.balance token proposer

theorem ownWeight_keeps {token : Address}
    (ran : ownWeight world token voter id = .ok (ballots, own)) {other : Address} {snapped : Int}
    (stored : world.ballots.voteWeightSnapshot id other = some snapped) :
    ballots.voteWeightSnapshot id other = some snapped := by
  by_cases here : other = voter
  · subst here
    simp only [ownWeight, stored] at ran
    cases ran
    exact stored
  · exact (ownWeight_snapshot ran here).trans stored

theorem step_proposer_snapshot (action : Action contract) (numbered : Numbered world)
    {proposal : GovernanceProposal}
    (stored : (step world action).proposals.proposal id = some proposal) :
    (∃ earlier ∈ world.proposals.proposal id, earlier.proposer = proposal.proposer ∧
        ∀ own, world.ballots.voteWeightSnapshot id proposal.proposer = some own →
          (step world action).ballots.voteWeightSnapshot id proposal.proposer = some own) ∨
      ∃ own, (step world action).ballots.voteWeightSnapshot id proposal.proposer = some own ∧
        Proposes id proposal.proposer own world action := by
  rcases step_docket action numbered id with same | ⟨env, call, rfl, finished, motion⟩
  · refine .inl ⟨proposal, (congrArg Docket.proposal same).symm.trans stored, rfl,
      fun own snapped => ?_⟩
    exact (congrFun (congrArg Docket.snapshot same) _).trans snapped
  · generalize found : (step world (.invoke env call)).docket id = docket at motion
    have record : docket.proposal = some proposal :=
      (congrArg Docket.proposal found).symm.trans stored
    have snapshots : (step world (.invoke env call)).ballots.voteWeightSnapshot id =
      docket.snapshot := congrArg Docket.snapshot found
    rw [snapshots]
    cases motion with
    | @opened proposer action descriptionHash value token initialised number =>
      cases record
      exact .inr ⟨_, update_self _ _ _, env, action, descriptionHash, value, token, rfl, finished,
        number, initialised, rfl⟩
    | voted held _ _ _ _ owned =>
      cases record
      exact .inl ⟨_, (loadProposal_eq_ok.mp held).2.1, (addVote_proposer _ _ _).symm,
        fun own snapped => ownWeight_keeps owned snapped⟩
    | closed held | executed held | vetoed held =>
      cases record
      exact .inl ⟨_, (loadProposal_eq_ok.mp held).2.1, rfl, fun own snapped => snapped⟩

theorem proposer_snapshot (clock : Clock) (balance : Balances) (past : List (Action contract)) :
    ∀ proposal ∈ (reach clock balance past).proposals.proposal id,
      ∃ own, (reach clock balance past).ballots.voteWeightSnapshot id
        proposal.proposer = some own ∧
        Happened step (Proposes id proposal.proposer own) (genesis clock balance) past := by
  refine history_induct (fun past (world : World) => ∀ proposal ∈ world.proposals.proposal id,
    ∃ own, world.ballots.voteWeightSnapshot id proposal.proposer = some own ∧
      Happened step (Proposes id proposal.proposer own) (genesis clock balance) past) ?_ ?_ past
  · intro past action held proposal stored
    rcases step_proposer_snapshot action (exec_numbered clock balance past) stored with
      ⟨earlier, found, same, kept⟩ | ⟨own, snapped, proposes⟩
    · obtain ⟨own, snapped, happened⟩ := held earlier found
      rw [same] at snapped happened
      exact ⟨own, kept own snapped, happened_snoc.mpr (.inl happened)⟩
    · exact ⟨own, snapped, happened_snoc.mpr (.inr proposes)⟩
  · intro proposal stored
    cases stored

def OwnPart (world : World) (id : Nat) (voter : Address) (own : Int) : Prop :=
  ∃ token ballots, world.parameters.govToken = some token ∧ ownWeight world token voter id =
    .ok (ballots, own)

theorem exec_snapshotsVoted (clock : Clock) (balance : Balances) (past : List (Action contract))
    (known : id < u64Max) :
    SnapshotsVoted ((reach clock balance past).docket id) := by
  have throughout : Throughout step (fun world => Numbered world ∧ SnapshotsVoted (world.docket id))
      (genesis clock balance) past := by
    refine docket_throughout SnapshotsVoted (fun _ none => by cases none) ?_ clock balance
      Along.always
    intro env world call docket numbered _ motion held
    exact motion.snapshotsVoted numbered known held
  exact throughout.last.2

theorem OwnPart.proven {created : Nat} (part : OwnPart world id voter own)
    (unsnapped : world.ballots.voteWeightSnapshot id voter = none)
    (opened : world.proposals.createdLedger id = some created) :
    ∃ token ∈ world.parameters.govToken, ∃ checkpoint,
      eligibleCheckpoint world.ballots voter created = some checkpoint ∧
        own = min checkpoint.balance (world.balance token voter) := by
  obtain ⟨token, _, initialised, owned⟩ := part
  simp only [ownWeight, unsnapped, opened, provenOwnBalance, ok_iff] at owned
  obtain ⟨_, same, _, ⟨checkpoint, eligible, rfl⟩, rest⟩ := owned
  cases same
  cases rest
  exact ⟨token, initialised, checkpoint, eligible, rfl⟩

theorem unvoted_of_succeeds {env : Env contract} {support : Bool}
    (counted : succeeds world (.invoke env (.castVote voter id support)) = true) :
    world.ballots.voteReceipt id voter = none := by
  obtain ⟨_, _, _, _, _, _, _, _, _, unvoted, _⟩ :=
    castVote_spec (invokeWorld_of_invoke (invoke_of_succeeds counted) rfl)
  exact unvoted

/-- The own part of a counted vote, of a voter other than the proposer, is at most the live balance
and at most a balance that the voter recorded the holding period before the proposal was created.
The proposer's own part is its balance at the creation. -/
theorem own_weight_held (clock : Clock) (balance : Balances) (past : List (Action contract))
    (id : Nat) (known : id < u64Max) (env : Env contract) (voter : Address) (support : Bool)
    (counted : succeeds (reach clock balance past)
      (.invoke env (.castVote voter id support)) = true)
    (proposal : GovernanceProposal) (created : Nat) (own : Int)
    (stored : (reach clock balance past).proposals.proposal id = some proposal)
    (opened : (reach clock balance past).proposals.createdLedger id = some created)
    (below : created < u32Max) (part : OwnPart (reach clock balance past) id voter own) :
    (voter ≠ proposal.proposer →
      ∃ token ∈ (reach clock balance past).parameters.govToken,
      ∃ checkpoint : BalanceCheckpoint,
        own ≤ min ((reach clock balance past).balance token voter) checkpoint.balance ∧
        checkpoint.ledger + minVoteHoldLedgers ≤ created ∧
        Happened step (RecordsBalance voter checkpoint) (genesis clock balance) past) ∧
    (voter = proposal.proposer →
      Happened step (Proposes id voter own) (genesis clock balance) past) := by
  refine ⟨fun other => ?_, fun same => ?_⟩
  · have unvoted := unvoted_of_succeeds counted
    have unsnapped : (reach clock balance past).ballots.voteWeightSnapshot id voter = none := by
      refine Option.not_isSome_iff_eq_none.mp fun snapped => ?_
      have receipted : ((reach clock balance past).ballots.voteReceipt id voter).isSome = true :=
        exec_snapshotsVoted clock balance past known proposal stored voter other snapped
      rw [unvoted] at receipted
      cases receipted
    obtain ⟨token, initialised, checkpoint, eligible, rfl⟩ := part.proven unsnapped opened
    obtain ⟨kept, aged⟩ := eligibleCheckpoint_mem eligible
    exact ⟨token, initialised, checkpoint, le_of_eq (min_comm _ _), aged.held below,
      slots_recorded clock balance past voter checkpoint kept⟩
  · obtain ⟨snapped, found, happened⟩ := proposer_snapshot clock balance past proposal stored
    obtain ⟨token, _, _, owned⟩ := part
    rw [← same] at found happened
    simp only [ownWeight, found] at owned
    cases owned
    exact happened

/-- Address 2 votes with its 400 units, recorded ten ledgers before the proposal. -/
theorem own_weight_held_of_openedBallot :
    ∃ token ∈ (convened openedBallot).parameters.govToken,
      ∃ checkpoint : BalanceCheckpoint,
      400 ≤ min ((convened openedBallot).balance token ⟨2⟩)
      checkpoint.balance ∧ checkpoint.ledger + minVoteHoldLedgers ≤ 20 ∧
      Happened step (RecordsBalance ⟨2⟩ checkpoint) council openedBallot := by
  obtain ⟨proposal, stored, other⟩ : ∃ proposal ∈ (convened
      openedBallot).proposals.proposal 1, (⟨2⟩ : Address) ≠ proposal.proposer := by decide +kernel
  have part : OwnPart (convened openedBallot) 1 ⟨2⟩ 400 := ⟨⟨10⟩, _, rfl, rfl⟩
  exact (own_weight_held ⟨1000, 10⟩ holdings openedBallot 1 (by decide) (plainHost ⟨0⟩ [⟨2⟩]) ⟨2⟩
    true (by decide +kernel) proposal 20 400 stored (by decide +kernel) (by decide) part).1 other

def borrowedProposal : List (Action ⟨0⟩) :=
  openedBallot.take 1 ++
    [.transfer ⟨10⟩ ⟨1⟩ ⟨4⟩ 1500, signedBy [4] (.createProposal ⟨4⟩ (.updateFeeRate 100) 1 100),
      .transfer ⟨10⟩ ⟨4⟩ ⟨1⟩ 1500]

/-- The vote on its own proposal counts the 1500 units that address 4 no longer has. -/
theorem borrowedProposal_votes :
    let world := convened borrowedProposal
    world.parameters.govToken = some ⟨10⟩ ∧ world.balance ⟨10⟩ ⟨4⟩ = 0 ∧ OwnPart world 1 ⟨4⟩ 1500 ∧
      (step world (signedBy [4] (.castVote ⟨4⟩ 1 true))).ballots.voteReceipt 1 ⟨4⟩ = some 1500 :=
  ⟨by decide +kernel, by decide +kernel, ⟨⟨10⟩, _, rfl, rfl⟩, by decide +kernel⟩

end Holding

end IlnGovernance
