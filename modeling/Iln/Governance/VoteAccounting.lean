import Iln.Governance.Checkpoints

/-! The tallies of a proposal against its receipts. Every receipt is positive, and each tally is the
sum of the receipts on its side, clamped to `i128`. A receipt is written once, and no tally moves
after the vote. -/
namespace IlnGovernance

open Outcome FixedWidth Transition Function
open InvoiceLiquidity (Address Hash Balances Clock move)

variable {contract : Address} {actions : List (Action contract)} {voters : Finset Address}
variable {proposal : GovernanceProposal} {world : World} {balance : Balances} {env : Env contract}

theorem isqrtLoop_ge {n root : Int} {rounds : Nat} {lo hi : Int} (typed : lo ≤ i128.hi)
    (ran : isqrtLoop n rounds lo hi = some root) : lo ≤ root := by
  induction rounds generalizing lo hi with
  | zero =>
    simp only [isqrtLoop] at ran
    split at ran
    · cases ran
    · cases ran
      exact le_rfl
  | succ rounds ih =>
    simp only [isqrtLoop] at ran
    split at ran
    · rename_i wide
      have half : 0 ≤ saturate i128 (saturate i128 (hi - lo) + 1) / 2 := by
        have gap : 0 ≤ saturate i128 (hi - lo) := saturate_nonneg (by omega)
        have rounded : 0 ≤ saturate i128 (saturate i128 (hi - lo) + 1) := saturate_nonneg (by omega)
        omega
      -- the middle is at least the lower end and within the type
      have above : lo ≤ saturate i128 (lo + saturate i128 (saturate i128 (hi - lo) + 1) / 2) :=
        le_max_of_le_right (le_min typed (by omega))
      have within : saturate i128 (lo + saturate i128 (saturate i128 (hi - lo) + 1) / 2) ≤
        i128.hi := max_le (by decide) (min_le_left _ _)
      split at ran
      · split at ran
        · exact above.trans (ih within ran)
        · exact ih typed ran
      · exact ih typed ran
    · cases ran
      exact le_rfl

theorem countedWeight_nonneg {parameters : Parameters} {raw weight : Int} (nonneg : 0 ≤ raw)
    (weighed : countedWeight parameters raw = .ok weight) : 0 ≤ weight := by
  simp only [countedWeight] at weighed
  split at weighed
  · simp only [ok_iff, isqrt] at weighed
    split at weighed
    · cases weighed
      exact le_max_right _ _
    · exact isqrtLoop_ge (by decide) weighed
  · cases weighed
    exact nonneg

/-- The token moves no more than the sender has. -/
def Action.Lawful : Action contract → Prop
  | .invoke env _ => env.Lawful
  | _ => True

@[simp] theorem signedBy_lawful (signers : List Nat) (call : Call) :
    (signedBy signers call).Lawful :=
  plainHost_lawful _ _

@[simp] theorem transfer_lawful (token source target : Address) (amount : Int) :
    (Action.transfer token source target amount : Action contract).Lawful := trivial

@[simp] theorem advance_lawful (seconds ledgers : Nat) :
    (Action.advance seconds ledgers : Action contract).Lawful :=
  trivial

structure NonNegative (world : World) : Prop where
  balance : ∀ token holder, 0 ≤ world.balance token holder
  slots : ∀ voter checkpoint, (world.slots voter).latest = some checkpoint ∨
    (world.slots voter).prior = some checkpoint → 0 ≤ checkpoint.balance
  snapshot : ∀ id voter own, world.ballots.voteWeightSnapshot id voter = some own → 0 ≤ own
  delegated : ∀ address tally, world.delegations.delegatedToMe address = some tally → 0 ≤ tally

theorem move_nonneg (nonneg : ∀ token holder, 0 ≤ balance token holder)
    {token source target : Address} {amount : Int} (positive : 0 ≤ amount)
    (held : amount ≤ balance token source) :
    ∀ asset holder, 0 ≤ move balance token source target amount asset holder := by
  intro asset holder
  have before := nonneg asset holder
  simp only [move]
  by_cases spends : asset = token ∧ holder = source
  · obtain ⟨rfl, rfl⟩ := spends
    simp only [and_self, if_true]
    split_ifs <;> omega
  · simp only [spends, if_false]
    split_ifs <;> omega

theorem step_balance_nonneg (action : Action contract) (lawful : action.Lawful)
    (nonneg : NonNegative world) :
    ∀ token holder, 0 ≤ (step world action).balance token holder := by
  cases action with
  | transfer =>
    simp only [step, transferBetween]
    split
    · rename_i allowed
      exact move_nonneg nonneg.balance allowed.2.1 allowed.2.2
    · exact nonneg.balance
  | invoke env call =>
    cases finished : succeeds world (.invoke env call) with
    | false =>
      rw [step_of_failed finished]
      exact nonneg.balance
    | true =>
      obtain ⟨_, paid⟩ := (invoke_effect (invoke_of_succeeds finished)).paid
      generalize (step world (.invoke env call)).balance = after at paid ⊢
      cases paid with
      | nothing => exact nonneg.balance
      | moved token target amount ran =>
        obtain ⟨positive, held⟩ := lawful _ _ _ _ _ ran
        exact move_nonneg nonneg.balance positive held
  | _ => exact nonneg.balance

theorem adjustDelegatedToMe_nonneg {delegations : DelegationStore} {address : Address} {delta : Int}
    (nonneg : ∀ other tally, delegations.delegatedToMe other = some tally → 0 ≤ tally) :
    ∀ other tally, (adjustDelegatedToMe delegations address delta).delegatedToMe other =
      some tally → 0 ≤ tally := by
  intro other tally stored
  by_cases here : other = address
  · subst here
    simp only [adjustDelegatedToMe, update_self] at stored
    split at stored
    · cases stored
    · cases stored
      omega
  · rw [adjustDelegatedToMe_other _ _ here] at stored
    exact nonneg other tally stored

theorem withdrawFrom_nonneg {depth : Nat} {delegations after : DelegationStore}
    {delegator old : Address} {weight : Int}
    (withdrew : withdrawFrom depth delegations delegator old weight = .ok after)
    (nonneg : ∀ other tally, delegations.delegatedToMe other = some tally → 0 ≤ tally) :
    ∀ other tally, after.delegatedToMe other = some tally → 0 ≤ tally := by
  obtain ⟨_, rfl⟩ := withdrawFrom_eq_ok.mp withdrew
  exact adjustDelegatedToMe_nonneg nonneg

theorem step_delegated_nonneg (action : Action contract) (nonneg : NonNegative world) :
    ∀ address tally, (step world action).delegations.delegatedToMe address = some tally →
      0 ≤ tally := by
  cases finished : succeeds world action with
  | false =>
    rw [step_of_failed finished]
    exact nonneg.delegated
  | true =>
    cases action with
    | invoke =>
      rcases (invoke_effect (invoke_of_succeeds finished)).delegations with
        same | ⟨delegator, _, _, ran⟩ | ⟨delegator, _, ran⟩
      · rw [same]
        exact nonneg.delegated
      · obtain ⟨_, _, _, _, _, _, _, withdrew, same⟩ := delegateVotes_spec ran
        rw [same]
        refine adjustDelegatedToMe_nonneg ?_
        rw [addDelegator_delegatedToMe]
        simp only [withdrawStanding] at withdrew
        split at withdrew
        · have kept := withdrawFrom_nonneg withdrew nonneg.delegated
          exact kept
        · cases withdrew
          exact nonneg.delegated
      · obtain ⟨_, ⟨_, same⟩ | ⟨_, _, _, _, _, withdrew, same⟩⟩ := undelegateVotes_spec ran
        · rw [same]
          exact nonneg.delegated
        · rw [same]
          have kept := withdrawFrom_nonneg withdrew nonneg.delegated
          exact kept
    | _ => exact nonneg.delegated

theorem ownWeight_nonneg {token voter : Address} {id : Nat} {ballots : BallotStore} {own : Int}
    (nonneg : NonNegative world) (ran : ownWeight world token voter id = .ok (ballots, own)) :
    0 ≤ own ∧ ∀ other snapped, ballots.voteWeightSnapshot id other = some snapped →
      0 ≤ snapped := by
  simp only [ownWeight] at ran
  split at ran
  · rename_i stored
    cases ran
    exact ⟨nonneg.snapshot _ _ _ stored, nonneg.snapshot id⟩
  · simp only [ok_iff, provenOwnBalance] at ran
    obtain ⟨_, _, _, ⟨checkpoint, eligible, rfl⟩, same⟩ := ran
    cases same
    have recorded := nonneg.slots voter checkpoint (eligibleCheckpoint_mem eligible).1
    have least : 0 ≤ min checkpoint.balance (world.balance token voter) :=
      le_min recorded (nonneg.balance token voter)
    refine ⟨least, fun other snapped stored => ?_⟩
    by_cases here : other = voter
    · subst here
      simp only [update_self, Option.some.injEq] at stored
      exact stored ▸ least
    · simp only [update_self, update_of_ne here] at stored
      exact nonneg.snapshot _ _ _ stored

theorem Motion.snapshot_nonneg {id : Nat} {call : Call} {docket : Docket}
    (motion : Motion env world id call docket) (nonneg : NonNegative world) :
    ∀ voter own, docket.snapshot voter = some own → 0 ≤ own := by
  cases motion with
  | @opened proposer _ _ _ token =>
    intro voter own stored
    by_cases here : voter = proposer
    · subst here
      simp only [update_self, Option.some.injEq] at stored
      exact stored ▸ nonneg.balance token voter
    · simp only [update_of_ne here] at stored
      exact nonneg.snapshot id voter own stored
  | voted _ _ _ _ _ owned => exact (ownWeight_nonneg nonneg owned).2
  | closed | executed | vetoed => exact nonneg.snapshot id

theorem step_nonNegative (action : Action contract) (lawful : action.Lawful)
    (numbered : Numbered world) (nonneg : NonNegative world) : NonNegative (step world action) := by
  refine ⟨step_balance_nonneg action lawful nonneg, ?_, ?_, step_delegated_nonneg action nonneg⟩
  · intro voter checkpoint stored
    cases step_slots action numbered voter with
    | kept slots =>
      rw [slots] at stored
      exact nonneg.slots voter checkpoint stored
    | refreshed _ _ token _ _ _ _ slots =>
      rw [slots] at stored
      rcases Slots.refresh_mem stored with rfl | before
      · exact nonneg.balance token voter
      · exact nonneg.slots voter checkpoint before
  · intro id voter own stored
    have snapped : ((step world action).docket id).snapshot voter = some own := stored
    rcases step_docket action numbered id with same | ⟨_, _, _, _, motion⟩
    · rw [same] at snapped
      exact nonneg.snapshot id voter own snapped
    · exact motion.snapshot_nonneg nonneg voter own snapped

theorem throughout_nonNegative (clock : Clock) (start : ∀ token holder, 0 ≤ balance token holder)
    (lawful : ∀ action ∈ actions, action.Lawful) :
    Throughout step NonNegative (genesis clock balance) actions := by
  have both : Throughout step (fun world => Numbered world ∧ NonNegative world)
      (genesis clock balance) actions := by
    refine throughout_along _ ?_ ⟨genesis_numbered clock balance, ⟨start, ?_, ?_, ?_⟩⟩
      (Along.of_forall lawful)
    · rintro world action ⟨numbered, nonneg⟩ lawful
      exact ⟨step_numbered action numbered, step_nonNegative action lawful numbered nonneg⟩
    · rintro voter checkpoint (none | none) <;> cases none
    · intro id voter own none
      cases none
    · intro address tally none
      cases none
  exact both.mono fun _ held => held.2

section Tallies

def Docket.weightOf (docket : Docket) (voters : Finset Address) : Int :=
  ∑ voter ∈ voters, (docket.receipt voter).getD 0

def Balanced (docket : Docket) : Prop :=
  ∀ proposal ∈ docket.proposal, ∃ supporters opponents : Finset Address,
    Disjoint supporters opponents ∧
    (∀ voter, voter ∈ supporters ∪ opponents ↔ (docket.receipt voter).isSome = true) ∧
    proposal.votesFor = min i128.hi (docket.weightOf supporters) ∧
    proposal.votesAgainst = min i128.hi (docket.weightOf opponents)

structure Tallied (docket : Docket) : Prop where
  positive : ∀ voter weight, docket.receipt voter = some weight → 0 < weight
  balanced : Balanced docket

theorem saturate_min_add {sum weight : Int} (nonneg : 0 ≤ sum) (positive : 0 < weight) :
    saturate i128 (min i128.hi sum + weight) = min i128.hi (sum + weight) := by
  have low : i128.lo ≤ 0 := i128.nonpos
  have high : 0 < i128.hi := i128.pos
  simp only [saturate]
  omega

theorem Docket.weightOf_nonneg {docket : Docket}
    (positive : ∀ voter weight, docket.receipt voter = some weight → 0 < weight)
    (voters : Finset Address) : 0 ≤ docket.weightOf voters := by
  refine Finset.sum_nonneg fun voter _ => ?_
  cases found : docket.receipt voter with
  | none => exact le_rfl
  | some weight => exact (positive voter weight found).le

variable {docket after : Docket} {voter : Address} {weight : Int}

theorem Docket.weightOf_other (receipt : after.receipt = update docket.receipt voter (some weight))
    (absent : voter ∉ voters) : after.weightOf voters = docket.weightOf voters := by
  refine Finset.sum_congr rfl fun other listed => ?_
  have different : other ≠ voter := fun same => absent (same ▸ listed)
  rw [receipt, update_of_ne different]

theorem Docket.weightOf_insert (receipt : after.receipt = update docket.receipt voter (some weight))
    (absent : voter ∉ voters) : after.weightOf (insert voter voters) =
      docket.weightOf voters + weight := by
  rw [Docket.weightOf, Finset.sum_insert absent]
  have rest := Docket.weightOf_other receipt absent
  simp only [Docket.weightOf] at rest ⊢
  rw [rest, receipt, update_self]
  simp only [Option.getD_some]
  omega

theorem Tallied.vote {support : Bool} (tallied : Tallied docket)
    (stored : docket.proposal = some proposal) (unvoted : docket.receipt voter = none)
    (positive : 0 < weight) (receipt : after.receipt = update docket.receipt voter (some weight))
    (record : after.proposal = some (addVote proposal support weight)) : Tallied after := by
  refine ⟨?_, ?_⟩
  · intro other applied found
    rw [receipt] at found
    by_cases here : other = voter
    · subst here
      rw [update_self] at found
      cases found
      exact positive
    · rw [update_of_ne here] at found
      exact tallied.positive other applied found
  · intro proposal' found
    cases record.symm.trans found
    obtain ⟨supporters, opponents, disjoint, exactly, for_, against⟩ :=
      tallied.balanced proposal stored
    have absent : voter ∉ supporters ∪ opponents := by
      rw [exactly, unvoted]
      simp
    rw [Finset.mem_union, not_or] at absent
    have listed : ∀ other, other = voter ∨ (other ∈ supporters ∨ other ∈ opponents) ↔
        (after.receipt other).isSome = true := by
      intro other
      rw [receipt, ← Finset.mem_union, exactly]
      by_cases here : other = voter
      · simp [here]
      · simp [here]
    cases support with
    | true =>
      refine ⟨insert voter supporters, opponents, ?_, fun other => ?_, ?_, ?_⟩
      · exact Finset.disjoint_insert_left.mpr ⟨absent.2, disjoint⟩
      · rw [← listed, Finset.mem_union, Finset.mem_insert, or_assoc]
      · simp only [addVote, if_true, for_]
        rw [Docket.weightOf_insert receipt absent.1]
        exact saturate_min_add (docket.weightOf_nonneg tallied.positive supporters) positive
      · simp only [addVote, if_true, against]
        rw [Docket.weightOf_other receipt absent.2]
    | false =>
      refine ⟨supporters, insert voter opponents, ?_, fun other => ?_, ?_, ?_⟩
      · exact Finset.disjoint_insert_right.mpr ⟨absent.1, disjoint⟩
      · rw [← listed, Finset.mem_union, Finset.mem_insert, or_left_comm]
      · simp only [addVote, Bool.false_eq_true, if_false, for_]
        rw [Docket.weightOf_other receipt absent.1]
      · simp only [addVote, Bool.false_eq_true, if_false, against]
        rw [Docket.weightOf_insert receipt absent.2]
        exact saturate_min_add (docket.weightOf_nonneg tallied.positive opponents) positive

theorem Motion.tallied {id : Nat} {call : Call}
    (motion : Motion env world id call docket) (numbered : Numbered world) (known : id < u64Max)
    (nonneg : NonNegative world) (tallied : Tallied (world.docket id)) : Tallied docket := by
  have kept : ∀ {proposal changed : GovernanceProposal}, loadProposal world id = .ok proposal →
      changed.votesFor = proposal.votesFor → changed.votesAgainst = proposal.votesAgainst →
      Tallied { world.docket id with proposal := some changed } := by
    intro proposal changed stored for_ against
    refine ⟨tallied.positive, ?_⟩
    rintro _ same
    cases same
    rw [for_, against]
    exact tallied.balanced proposal (loadProposal_eq_ok.mp stored).2.1
  cases motion with
  | opened _ number =>
    have blank := numbered.fresh known number
    refine ⟨tallied.positive, ?_⟩
    rintro _ same
    cases same
    refine ⟨∅, ∅, disjoint_bot_left, fun voter => ?_, ?_, ?_⟩
    · simp [blank, Docket.blank]
    all_goals
      simp only [openingProposal, Docket.weightOf, Finset.sum_empty]
      decide
  | voted stored _ _ unvoted _ owned weighed nonzero =>
    have delegated : ∀ address, 0 ≤ (world.delegations.delegatedToMe address).getD 0 := by
      intro address
      cases found : world.delegations.delegatedToMe address with
      | none => exact le_rfl
      | some tally => exact nonneg.delegated address tally found
    have own := (ownWeight_nonneg nonneg owned).1
    have counted := countedWeight_nonneg (saturate_nonneg (Int.add_nonneg own (delegated _)))
      weighed
    exact tallied.vote (loadProposal_eq_ok.mp stored).2.1 unvoted
      (lt_of_le_of_ne counted nonzero.symm) rfl rfl
  | closed stored | executed stored | vetoed stored => exact kept stored rfl rfl

end Tallies

section Runs

variable {id : Nat}

def votesCast (id : Nat) (voter : Address) (world : World) : Action contract → Nat
  | .invoke env (.castVote other proposal support) =>
    if other = voter ∧ proposal = id ∧
      succeeds world (.invoke env (.castVote other proposal support)) = true then 1
    else 0
  | _ => 0

theorem step_receipt (action : Action contract) (numbered : Numbered world)
    {voter : Address} {weight : Int} (stored : world.ballots.voteReceipt id voter = some weight) :
    (step world action).ballots.voteReceipt id voter = some weight := by
  rcases step_docket action numbered id with same | ⟨env, call, rfl, _, motion⟩
  · exact (congrFun (congrArg Docket.receipt same) voter).trans stored
  · generalize found : (step world (.invoke env call)).docket id = docket at motion
    refine (congrFun (congrArg Docket.receipt found) voter).trans ?_
    cases motion with
    | @voted other _ _ _ _ _ _ _ _ _ unvoted =>
      have different : voter ≠ other := by
        rintro rfl
        cases unvoted.symm.trans stored
      exact (update_of_ne different _ _).trans stored
    | opened | closed | executed | vetoed => exact stored

theorem receipt_of_cast {voter : Address} {support : Bool}
    (counted : succeeds world (.invoke env (.castVote voter id support)) = true) :
    ((step world (.invoke env (.castVote voter id support))).ballots.voteReceipt id voter).isSome =
      true := by
  obtain ⟨docket, moved⟩ := castVote_moved (invokeWorld_of_invoke (invoke_of_succeeds counted) rfl)
  have receipts := congrArg Docket.receipt (congrFun moved.dockets id)
  rw [update_self] at receipts
  have written : (step world (.invoke env (.castVote voter id support))).ballots.voteReceipt id =
    docket.receipt := receipts
  rw [written]
  cases moved.motion with
  | voted => simp

theorem step_frozen (action : Action contract) (numbered : Numbered world) (known : id < u64Max)
    (stored : world.proposals.proposal id = some proposal)
    (over_ : proposal.votingEnd ≤ world.clock.timestamp ∨ proposal.status ≠ .active) :
    ∃ after ∈ (step world action).proposals.proposal id,
      after.votesFor = proposal.votesFor ∧ after.votesAgainst = proposal.votesAgainst := by
  rcases step_docket action numbered id with same | ⟨env, call, rfl, _, motion⟩
  · exact ⟨proposal, (congrArg Docket.proposal same).trans stored, rfl, rfl⟩
  · have same : ∀ {other}, loadProposal world id = .ok other → other = proposal := fun found =>
      Option.some.inj ((loadProposal_eq_ok.mp found).2.1.symm.trans stored)
    generalize found : (step world (.invoke env call)).docket id = docket at motion
    have record : (step world (.invoke env call)).proposals.proposal id = docket.proposal :=
      congrArg Docket.proposal found
    rw [record]
    cases motion with
    | opened _ number =>
      have blank : world.proposals.proposal id = none :=
        congrArg Docket.proposal (numbered.fresh known number)
      rw [blank] at stored
      cases stored
    | voted held ongoing active =>
      cases same held
      rcases over_ with ended | closed
      · omega
      · exact absurd active closed
    | closed held | executed held | vetoed held =>
      cases same held
      exact ⟨_, rfl, rfl, rfl⟩

theorem votesCast_le_one (clock : Clock) (balance : Balances) (voter : Address)
    (actions : List (Action contract)) : tally step (votesCast id voter)
    (genesis clock balance) actions ≤ 1 := by
  refine tally_le_one Numbered (fun world => (world.ballots.voteReceipt id voter).isSome = true)
    (fun _ action numbered => step_numbered action numbered) ?_ ?_ actions
    (genesis_numbered clock balance)
  · intro world action numbered receipted
    obtain ⟨_, stored⟩ := Option.isSome_iff_exists.mp receipted
    rw [step_receipt action numbered stored]
    rfl
  · intro world action numbered
    unfold votesCast
    split
    · split
      · rename_i cast
        obtain ⟨rfl, rfl, finished⟩ := cast
        refine .inr ⟨rfl, fun receipted => ?_, receipt_of_cast finished⟩
        rw [unvoted_of_succeeds finished] at receipted
        cases receipted
      · exact .inl rfl
    · exact .inl rfl

theorem exec_tallied (clock : Clock) (start : ∀ token holder, 0 ≤ balance token holder)
    (lawful : ∀ action ∈ actions, action.Lawful) (known : id < u64Max) :
    Tallied ((reach clock balance actions).docket id) := by
  have throughout : Throughout step (fun world => Numbered world ∧ Tallied (world.docket id))
      (genesis clock balance) actions := by
    refine docket_throughout Tallied ⟨(by rintro _ _ ⟨⟩),
      (by rintro _ ⟨⟩)⟩ ?_ clock balance
      (throughout_nonNegative clock start lawful).along
    intro env world call docket numbered nonneg motion tallied
    exact motion.tallied numbered known nonneg tallied
  exact throughout.last.2

/-- In every reachable state, over a token without negative balances: the tallies of a proposal add
up to the receipts of its voters unless one of them saturates, every receipt is positive, no voter
was counted twice, and a further step changes neither a receipt nor, once the vote is over, a
tally. -/
theorem votes_accounted (clock : Clock) (balance : Balances)
    (start : ∀ token holder, 0 ≤ balance token holder) (actions : List (Action contract))
    (lawful : ∀ action ∈ actions, action.Lawful) (id : Nat) (known : id < u64Max) :
    let world := reach clock balance actions
    (∀ proposal ∈ world.proposals.proposal id, ∃ supporters opponents : Finset Address,
      Disjoint supporters opponents ∧
      (∀ voter, voter ∈ supporters ∪ opponents ↔
        (world.ballots.voteReceipt id voter).isSome = true) ∧
      ((world.docket id).weightOf supporters ≤ i128.hi →
        (world.docket id).weightOf opponents ≤ i128.hi → proposal.votesFor + proposal.votesAgainst =
          ∑ voter ∈ supporters ∪ opponents, (world.ballots.voteReceipt id voter).getD 0)) ∧
    (∀ voter weight, world.ballots.voteReceipt id voter = some weight → 0 < weight) ∧
    (∀ voter, tally step (votesCast id voter) (genesis clock balance) actions ≤ 1) ∧
    ∀ action : Action contract, (∀ voter weight, world.ballots.voteReceipt id voter = some weight →
        (step world action).ballots.voteReceipt id voter = some weight) ∧
      ∀ proposal ∈ world.proposals.proposal id,
        proposal.votingEnd ≤ world.clock.timestamp ∨ proposal.status ≠ .active →
        ∃ after ∈ (step world action).proposals.proposal id,
          after.votesFor = proposal.votesFor ∧ after.votesAgainst = proposal.votesAgainst := by
  have numbered := exec_numbered clock balance actions
  have tallied := exec_tallied clock start lawful known
  refine ⟨?_, tallied.positive, fun voter => votesCast_le_one clock balance voter actions,
    fun action => ⟨?_, ?_⟩⟩
  · intro proposal stored
    obtain ⟨supporters, opponents, disjoint, exactly, for_, against⟩ :=
      tallied.balanced proposal stored
    refine ⟨supporters, opponents, disjoint, exactly, fun left right => ?_⟩
    rw [for_, against, min_eq_right left, min_eq_right right, Finset.sum_union disjoint]
    rfl
  · exact fun voter weight stored => step_receipt action numbered stored
  · exact fun proposal stored ended => step_frozen action numbered known stored ended

theorem sharedVote_receipts :
    (convened sharedVote).ballots.voteReceipt 1 =
      update (update (fun _ => none) ⟨2⟩ (some 1900)) ⟨3⟩ (some 40) := by
  rfl

theorem votes_accounted_of_sharedVote :
    let world := convened sharedVote
    (∃ proposal ∈ world.proposals.proposal 1, proposal.votesFor + proposal.votesAgainst =
      1900 + 40) ∧
      tally step (votesCast 1 ⟨3⟩) council sharedVote ≤ 1 := by
  intro world
  obtain ⟨sums, _, counts, _⟩ := votes_accounted ⟨1000, 10⟩ holdings holdings_nonneg sharedVote
    (by simp [sharedVote, openedBallot]) 1 (by decide)
  obtain ⟨proposal, stored⟩ : ∃ proposal, world.proposals.proposal 1 = some proposal :=
    Option.isSome_iff_exists.mp (by decide +kernel)
  obtain ⟨supporters, opponents, _, voters, sum⟩ := sums proposal stored
  have both : supporters ∪ opponents = {⟨2⟩, ⟨3⟩} := by
    ext voter
    rw [voters, sharedVote_receipts, Finset.mem_insert, Finset.mem_singleton, update_apply,
      update_apply]
    split_ifs <;> simp [*]
  have bounded : ∀ side ⊆ supporters ∪ opponents, (world.docket 1).weightOf side ≤ i128.hi := by
    intro side part
    rw [both] at part
    refine (Finset.sum_le_sum_of_subset_of_nonneg part fun voter _ _ => ?_).trans
      (by decide +kernel)
    change 0 ≤ (world.ballots.voteReceipt 1 voter).getD 0
    rw [sharedVote_receipts, update_apply, update_apply]
    split_ifs <;> decide
  refine ⟨⟨proposal, stored, ?_⟩, counts ⟨3⟩⟩
  rw [sum (bounded _ Finset.subset_union_left) (bounded _ Finset.subset_union_right), both]
  decide +kernel

end Runs

end IlnGovernance
