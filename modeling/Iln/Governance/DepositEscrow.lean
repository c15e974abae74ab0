import Iln.Governance.Deposits
import Iln.Governance.VoteWeight

/-! The escrow of proposal deposits. What the contract holds covers the deposits that are not
settled, a deposit leaves the escrow once, and where it goes is decided by what became of the
proposal. -/
namespace IlnGovernance

open Outcome FixedWidth Transition Function
open InvoiceLiquidity (Address Hash Balances Clock move move_target le_move_source)

variable {contract : Address} {amount : Int} {recipient : Option Address}

section Escrow

open Finset

def World.escrow (world : World) (id : Nat) : Option Int :=
  if world.proposals.depositSettled id then none else world.proposals.deposit id

structure Covered (contract : Address) (world : World) : Prop where
  positive : ∀ id, ∀ amount ∈ world.vault.deposit id, 0 < amount
  held : ∀ token, world.vault.token.getD token = token →
    ∀ ids : Finset Nat, ∑ id ∈ ids, (world.escrow id).getD 0 ≤ world.balance token contract

variable {env : Env contract} {world next : World} {id : Nat}

theorem escrow_of_vault (deposit : next.vault.deposit = world.vault.deposit)
    (settled : next.vault.settled = world.vault.settled) : next.escrow = world.escrow := by
  funext id
  have deposits : next.proposals.deposit id = world.proposals.deposit id := congrFun deposit id
  have flags : next.proposals.depositSettled id = world.proposals.depositSettled id :=
    congrFun settled id
  simp only [World.escrow, deposits, flags]

theorem escrow_settleDeposit (world : World) (id : Nat) :
    (settleDeposit world id).escrow = update world.escrow id none := by
  funext other
  by_cases here : other = id
  · simp [World.escrow, settleDeposit, here]
  · simp [World.escrow, settleDeposit, update_of_ne here]

theorem sum_update (table : Nat → Option Int) (id : Nat) (entry : Option Int) (ids : Finset Nat) :
    ∑ other ∈ ids, (update table id entry other).getD 0 =
      ∑ other ∈ ids.erase id, (table other).getD 0 + if id ∈ ids then entry.getD 0 else 0 := by
  have elsewhere : ∑ other ∈ ids.erase id, (update table id entry other).getD 0 =
      ∑ other ∈ ids.erase id, (table other).getD 0 :=
    sum_congr rfl fun other member => by rw [update_of_ne (ne_of_mem_erase member)]
  by_cases member : id ∈ ids
  · rw [← sum_erase_add _ _ member, elsewhere, update_self, if_pos member]
  · rw [← elsewhere, erase_eq_of_notMem member, if_neg member, add_zero]

theorem escrow_taken (deposit : next.vault.deposit = update world.vault.deposit id (some amount))
    (settled : next.vault.settled = world.vault.settled) :
    next.escrow = if world.vault.settled id then world.escrow else update world.escrow id
      (some amount) := by
  funext other
  have deposits : next.proposals.deposit other = update world.proposals.deposit id
    (some amount) other := congrFun deposit other
  have flags : next.proposals.depositSettled other = world.proposals.depositSettled other :=
    congrFun settled other
  by_cases here : other = id
  · subst here
    cases closed : world.proposals.depositSettled other <;> simp [World.escrow, World.vault,
      deposits, flags, closed]
  · cases closed : world.proposals.depositSettled id <;>
      simp [World.escrow, World.vault, deposits, flags, closed, update_of_ne here]

theorem Settled.covered (settled : Settled env world id recipient next)
    (covered : Covered contract world) : Covered contract next := by
  have positive : ∀ other, ∀ amount ∈ (settleDeposit world id).vault.deposit other, 0 < amount := by
    intro other amount stored
    by_cases here : other = id
    · simp [World.vault, settleDeposit, here] at stored
    · simp only [World.vault, settleDeposit, update_of_ne here] at stored
      exact covered.positive other amount stored
  cases settled with
  | before => exact covered
  | unpaid =>
    refine ⟨positive, fun token known ids => ?_⟩
    have before := covered.held token known (ids.erase id)
    rw [escrow_settleDeposit, sum_update]
    simp only [Option.getD_none, ite_self, add_zero]
    exact before
  | @paid asset payee amount unsettled escrowed =>
    refine ⟨positive, fun token known ids => ?_⟩
    have escrow : world.escrow id = some amount := by simp [World.escrow, unsettled, escrowed]
    have before := covered.held token known (insert id (ids.erase id))
    rw [sum_insert (notMem_erase id ids), escrow, Option.getD_some] at before
    have less := le_move_source world.balance asset contract payee
      (covered.positive id amount escrowed).le token
    have after : ∑ other ∈ ids, ((settleDeposit world id).escrow other).getD 0 =
        ∑ other ∈ ids.erase id, (world.escrow other).getD 0 := by
      rw [escrow_settleDeposit, sum_update]
      simp
    calc ∑ other ∈ ids, ((settleDeposit world id).escrow other).getD 0
        = ∑ other ∈ ids.erase id, (world.escrow other).getD 0 := after
      _ ≤ world.balance token contract - amount := by omega
      _ ≤ move world.balance asset contract payee amount token contract := less

theorem Handled.covered (handled : Handled contract world next) (covered : Covered contract world) :
    Covered contract next := by
  cases handled with
  | received vault gains =>
    have escrow := escrow_of_vault (congrArg Vault.deposit vault :) (congrArg Vault.settled vault :)
    refine ⟨by rw [vault]; exact covered.positive, fun token known ids => ?_⟩
    rw [congrArg Vault.token vault] at known
    rw [escrow]
    exact (covered.held token known ids).trans (gains token)
  | tokened untokened vault =>
    have escrow := escrow_of_vault (congrArg Vault.deposit vault :) (congrArg Vault.settled vault :)
    have balance : next.balance = world.balance := congrArg Vault.balance vault
    refine ⟨by rw [vault]; exact covered.positive, fun token _ ids => ?_⟩
    rw [escrow, balance]
    exact covered.held token (by rw [untokened]; rfl) ids
  | @taken id held proposer amount initialised apart positive vault =>
    have escrow := escrow_taken (congrArg Vault.deposit vault :) (congrArg Vault.settled vault :)
    have balance : next.balance = move world.balance held proposer contract amount :=
      congrArg Vault.balance vault
    refine ⟨?_, fun token known ids => ?_⟩
    · intro other stored present
      rw [vault] at present
      by_cases here : other = id
      · simp only [here, update_self, Option.mem_def, Option.some.injEq] at present
        omega
      · simp only [update_of_ne here] at present
        exact covered.positive other stored present
    · obtain rfl : held = token := by
        rw [congrArg Vault.token vault, initialised] at known
        exact known
      have known : world.vault.token.getD held = held := by rw [initialised]; rfl
      rw [balance, move_target _ _ apart, escrow]
      split
      · have before := covered.held held known ids
        omega
      · have before := covered.held held known (ids.erase id)
        rw [sum_update, Option.getD_some]
        split <;> omega
  | @settled id env middle _ _ before settled =>
    have escrow := escrow_of_vault (congrArg Vault.deposit before) (congrArg Vault.settled before)
    have balance : middle.balance = world.balance := congrArg Vault.balance before
    refine settled.covered ⟨by rw [before]; exact covered.positive, fun token known ids => ?_⟩
    rw [before] at known
    rw [escrow, balance]
    exact covered.held token known ids

inductive Released (contract : Address) (world next : World) (id : Nat) (amount : Int) : Prop where
  | refunded {proposal : GovernanceProposal} {token : Address}
      (record : next.proposals.proposal id = some proposal)
      (passed : proposal.status = .passed ∨ proposal.status = .executed)
      (initialised : world.parameters.govToken = some token)
      (paid : next.balance = move world.balance token contract proposal.proposer amount)
  | forfeited {proposal : GovernanceProposal} {token sink : Address}
      (record : next.proposals.proposal id = some proposal)
      (ended : proposal.status = .vetoed ∨ proposal.status = .rejected)
      (configured : world.parameters.proposalDepositSink = some (some sink))
      (initialised : world.parameters.govToken = some token)
      (paid : next.balance = move world.balance token contract sink amount)
  | dropped {proposal : GovernanceProposal} (record : next.proposals.proposal id = some proposal)
      (ended : proposal.status = .vetoed ∨ proposal.status = .rejected)
      (unpaid : next.balance = world.balance)

theorem Settled.released {middle : World} {proposal : GovernanceProposal}
    (settled : Settled env middle id recipient next) (before : middle.vault = world.vault)
    (record : next.proposals.proposal id = some proposal)
    (owed : Owed world.parameters proposal recipient) (escrowed : middle.escrow id = some amount)
    (left : next.escrow id = none) (positive : 0 < amount) :
    Released contract world next id amount := by
  have balance : middle.balance = world.balance := congrArg Vault.balance before
  cases settled with
  | before =>
    rw [escrowed] at left
    cases left
  | unpaid unsettled free =>
    have stored : middle.proposals.deposit id = some amount := by
      simpa [World.escrow, unsettled] using escrowed
    have nobody : recipient = none := by
      refine free.resolve_left fun small => ?_
      rw [stored, Option.getD_some] at small
      omega
    cases owed with
    | proposer => cases nobody
    | sink ended => exact .dropped record ended balance
  | paid unsettled stored named initialised =>
    have token := (congrArg Vault.token before).symm.trans initialised
    have amounts : some amount = some _ := escrowed.symm.trans
      (by simp only [World.escrow, unsettled, stored]; rfl)
    cases amounts
    cases owed with
    | proposer passed =>
      cases named
      exact .refunded record passed token (by rw [← balance])
    | sink ended =>
      have configured := Option.join_eq_some_iff.mp named
      exact .forfeited record ended configured token (by rw [← balance])

theorem Handled.left (handled : Handled contract world next)
    (escrowed : world.escrow id = some amount) (left : next.escrow id = none) :
    ∃ (env : Env contract) (middle : World) (recipient : Option Address)
    (proposal : GovernanceProposal),
      middle.vault = world.vault ∧ Settled env middle id recipient next ∧
      middle.escrow id = some amount ∧
        next.proposals.proposal id = some proposal ∧ Owed world.parameters proposal recipient := by
  cases handled with
  | received vault | tokened _ vault =>
    rw [escrow_of_vault (congrArg Vault.deposit vault :) (congrArg Vault.settled vault :),
      escrowed] at left
    cases left
  | @taken other _ _ _ _ _ _ vault =>
    rw [escrow_taken (congrArg Vault.deposit vault :) (congrArg Vault.settled vault :)] at left
    split at left
    · rw [escrowed] at left
      cases left
    · by_cases here : id = other
      · rw [here, update_self] at left
        cases left
      · rw [update_of_ne here, escrowed] at left
        cases left
  | @settled other env middle recipient proposal before settled record owed =>
    have escrow := escrow_of_vault (congrArg Vault.deposit before) (congrArg Vault.settled before)
    have here : id = other := by
      by_contra elsewhere
      have kept : next.escrow id = middle.escrow id := by
        cases settled with
        | before => rfl
        | unpaid | paid =>
          exact (congrFun (escrow_settleDeposit middle other) id).trans (update_of_ne elsewhere _ _)
      rw [kept, escrow, escrowed] at left
      cases left
    subst here
    exact ⟨env, middle, recipient, proposal, before, settled, by rw [escrow, escrowed],
      record, owed⟩

theorem deposit_of_escrow (escrowed : world.escrow id = some amount) :
    world.proposals.depositSettled id = false ∧ world.proposals.deposit id = some amount := by
  unfold World.escrow at escrowed
  split at escrowed
  · cases escrowed
  · rename_i unsettled
    exact ⟨Bool.eq_false_iff.mpr unsettled, escrowed⟩

theorem Handled.released (handled : Handled contract world next) (covered : Covered contract world)
    (escrowed : world.escrow id = some amount) (left : next.escrow id = none) :
    Released contract world next id amount := by
  obtain ⟨_, _, _, _, before, settled, held, record, owed⟩ := handled.left escrowed left
  exact settled.released before record owed held left
    (covered.positive id amount (deposit_of_escrow escrowed).2)

end Escrow

def leavesEscrow (id : Nat) (world : World) (action : Action contract) : Nat :=
  if (world.escrow id).isSome = true ∧ (step world action).escrow id = none then 1 else 0

theorem leavesEscrow_marks {world : World} {id : Nat} (action : Action contract)
    (numbered : Numbered world) :
    leavesEscrow id world action = 0 ∨ leavesEscrow id world action = 1 ∧
      ¬ world.proposals.depositSettled id = true ∧ (step world action).proposals.depositSettled id =
        true := by
  unfold leavesEscrow
  split
  · rename_i leaves
    obtain ⟨_, escrowed⟩ := Option.isSome_iff_exists.mp leaves.1
    obtain ⟨_, _, _, _, _, settled, _⟩ := (step_handled action numbered).left escrowed leaves.2
    exact .inr ⟨rfl, by simp [(deposit_of_escrow escrowed).1], settled.settles.2⟩
  · exact .inl rfl

theorem genesis_covered (clock : Clock) {balance : Balances}
    (solvent : ∀ token, 0 ≤ balance token contract) :
    Covered contract (genesis clock balance) where
  positive id amount stored := by cases stored
  held token _ ids := by
    have empty : ∑ id ∈ ids, ((genesis clock balance).escrow id).getD 0 = 0 :=
      Finset.sum_eq_zero fun _ _ => rfl
    rw [empty]
    exact solvent token

theorem throughout_covered (clock : Clock) {balance : Balances}
    (solvent : ∀ token, 0 ≤ balance token contract) (actions : List (Action contract)) :
    Throughout step (fun world => Numbered world ∧ Covered contract world)
    (genesis clock balance) actions := by
  refine throughout_along _ ?_ ⟨genesis_numbered clock balance, genesis_covered clock solvent⟩
    Along.always
  rintro world action ⟨numbered, covered⟩ _
  exact ⟨step_numbered action numbered, (step_handled action numbered).covered covered⟩

/-- In every reachable state the contract holds the deposits in escrow and every proposal that is
passed, executed or vetoed has its deposit settled. Over a run each deposit leaves the escrow at
most once, to the proposer of a proposal that has passed, or to the sink or nowhere when it was
vetoed or rejected. -/
theorem deposits_accounted (clock : Clock) (balance : Balances)
    (solvent : ∀ token, 0 ≤ balance token contract) (actions : List (Action contract)) :
    let world := reach clock balance actions
    (∀ token, world.parameters.govToken = some token →
      ∀ ids : Finset Nat, ∑ id ∈ ids, (world.escrow id).getD 0 ≤ world.balance token contract) ∧
    (∀ id, tally step (leavesEscrow id) (genesis clock balance) actions ≤ 1) ∧
    Along step (fun world action => ∀ id amount, world.escrow id = some amount →
      (step world action).escrow id = none → Released contract world (step world action) id amount)
      (genesis clock balance) actions ∧
    ∀ id proposal, world.proposals.proposal id = some proposal →
      proposal.status = .passed ∨ proposal.status = .executed ∨ proposal.status = .vetoed →
      world.proposals.depositSettled id = true := by
  have throughout := throughout_covered clock solvent actions
  refine ⟨?_, ?_, ?_, ?_⟩
  · intro token initialised
    have known : (reach clock balance actions).vault.token.getD token = token :=
      congrArg (Option.getD · token) initialised
    exact throughout.last.2.held token known
  · intro id
    exact tally_le_one Numbered (fun world => world.proposals.depositSettled id = true)
      (fun _ action numbered => step_numbered action numbered)
      (fun _ action numbered settled => (step_handled action numbered).keepsSettled id settled)
      (fun _ action numbered => leavesEscrow_marks action numbered) actions
      (genesis_numbered clock balance)
  · refine throughout.along.mono fun world action sound id amount escrowed left => ?_
    exact (step_handled action sound.1).released sound.2 escrowed left
  · intro id proposal stored status
    refine exec_concludedSettled clock balance actions id ⟨proposal, stored, ?_⟩
    rcases status with passed | executed | vetoed
    · rw [passed]; rfl
    · rw [executed]; rfl
    · rw [vetoed]; rfl

def vetoedDeposit : List (Action ⟨0⟩) :=
  [opening, signedBy [5] (.setMinProposalDeposit 50),
    signedBy [5] (.setProposalDepositSink (some ⟨9⟩)),
    signedBy [1] (.createProposal ⟨1⟩ (.updateFeeRate 100) 1 100),
    signedBy [8] (.configureVetoMultisig [⟨8⟩] 1), signedBy [8] (.vetoProposal ⟨8⟩ 1 7)]

theorem deposits_accounted_of_vetoedDeposit :
    let opened := convened (vetoedDeposit.take 4)
    opened.escrow 1 = some 50 ∧
      ∑ id ∈ ({1} : Finset Nat), (opened.escrow id).getD 0 ≤ opened.balance ⟨10⟩ ⟨0⟩ ∧
      tally step (leavesEscrow 1) council vetoedDeposit ≤ 1 ∧
      (convened vetoedDeposit).proposals.depositSettled 1 = true := by
  have solvent : ∀ token, 0 ≤ holdings token ⟨0⟩ := fun token => holdings_nonneg token ⟨0⟩
  have opened := deposits_accounted ⟨1000, 10⟩ holdings solvent (vetoedDeposit.take 4)
  have vetoed := deposits_accounted ⟨1000, 10⟩ holdings solvent vetoedDeposit
  refine ⟨by decide +kernel, opened.1 ⟨10⟩ (by decide +kernel) {1}, vetoed.2.1 1, ?_⟩
  exact vetoed.2.2.2 1 _ (Option.some_get (by decide +kernel)).symm
    (.inr (.inr (by decide +kernel)))

end IlnGovernance
