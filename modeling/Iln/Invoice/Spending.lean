import Iln.Invoice.Effect

/-! Whose money a call may move. The contract pays out of its own account; every other account pays
only in a call that it has signed itself. -/
namespace InvoiceLiquidity

open Outcome Transition

variable {contract : Address} {env : Env contract} {world next : World} {call : Call} {id : Nat}

def Movement.Agreed (env : Env contract) : Movement → Prop
  | .transfer _ source _ _ => source = contract ∨ env.signed source = true
  | .escrow _ _ _ => True

theorem payment_agreed (token recipient : Address) (amount : Int) :
    ∀ movement ∈ payment env token recipient amount, movement.Agreed env := by
  unfold payment
  split
  · simp
  · split <;> simp [Movement.Agreed]

theorem payments_agreed (token : Address) (payout : Int → Int) (funders : List (Address × Int)) :
    ∀ movement ∈ payments env token payout funders, movement.Agreed env := by
  intro movement member
  obtain ⟨_, _, paid⟩ := List.mem_flatMap.mp member
  exact payment_agreed _ _ _ movement paid

/-- The account outside the contract that a call on an invoice takes money from. -/
def Call.debits (file : File) : Call → Option Address
  | .fundInvoice funder _ _ _ => some funder
  | .markPaid _ _ => some file.invoice.payer
  | _ => none

theorem Change.agreed {file after : File} {moves : List Movement}
    (change : Change env world id call file after moves)
    (signed : ∀ source ∈ call.debits file, env.signed source = true) :
    ∀ movement ∈ moves, movement.Agreed env := by
  have refunds : ∀ movement ∈ file.refunds env, movement.Agreed env := payments_agreed _ _ _
  cases change with
  | contributed | instalment => simpa [Movement.Agreed] using .inr (signed _ rfl)
  | completed =>
    simp only [List.forall_mem_cons]
    refine ⟨.inr (signed _ rfl), ?_⟩
    unfold strictPayment
    split <;> simp [Movement.Agreed]
  | settled =>
    simp only [List.forall_mem_cons, List.forall_mem_append]
    exact ⟨.inr (signed _ rfl), payment_agreed _ _ _, payments_agreed _ _ _⟩
  | cancelled =>
    split
    · exact refunds
    · simp
  | defaulted => exact refunds
  | upheld => exact List.forall_mem_append.mpr ⟨refunds, payment_agreed _ _ _⟩
  | _ => simp

theorem invoke_debits (filed : Filed world.book) (ran : invoke env world call = .ok next)
    {file : File} (aimed : call.target = some id) (stored : world.book.file id = some file) :
    ∀ source ∈ call.debits file, env.signed source = true := by
  cases call with
  | fundInvoice =>
    have runs := invoke_runs rfl ran
    simp only [invokeWorld, fundInvoice, ok_iff] at runs
    obtain ⟨_, _, ⟨_, _, _, _⟩, checked, _⟩ := runs
    rintro _ ⟨⟩
    exact (checkFunding_ok checked).1
  | markPaid =>
    have runs := invoke_runs rfl ran
    simp only [invokeWorld, markPaid, ok_iff] at runs
    obtain ⟨_, ⟨_, _, ⟨_, _, _⟩, checked, _⟩, _⟩ := runs
    obtain ⟨found, signed, _⟩ := checkPayment_ok filed checked
    rintro _ ⟨⟩
    cases aimed
    cases stored.symm.trans (file_of_invoice found)
    exact signed
  | _ => rintro _ ⟨⟩

/-- In every reachable state, whatever call is made next, each transfer it makes is out of the
contract's own account or out of an account that signed the call. -/
theorem spending_signed (clock : Clock) (balance : Balances) (actions : List (Action contract))
    (env : Env contract) (call : Call) :
    let world := reach clock balance actions
    ∃ moves, (step world (.invoke env call)).treasury.log = world.treasury.log ++ moves ∧
      ∀ movement ∈ moves, movement.Agreed env := by
  intro world
  have filed : Filed world.book := reach_filed clock balance actions
  cases finished : succeeds world (.invoke env call) with
  | false => exact ⟨[], by rw [step_of_failed finished, List.append_nil], by simp⟩
  | true =>
    have ran := invoke_of_succeeds finished
    cases (step_effect (.invoke env call) filed).1 with
    | idle _ money | submitted _ _ _ _ money => exact ⟨[], by rw [money, List.append_nil], by simp⟩
    | probed _ token =>
      have runs := invoke_runs rfl ran
      simp only [invokeWorld, addToken, ok_iff, transfer_ok] at runs
      obtain ⟨_, begun, admin, stored, _, _, _, _, _, ⟨_, rfl⟩, _, _, _, ⟨_, rfl⟩, same⟩ := runs
      obtain ⟨kept, _, known, signed⟩ := beginAdminCall_admin begun
      cases (kept.symm.trans stored).symm.trans known
      refine ⟨[.transfer token admin contract 1000000, .transfer token contract admin 1000000], ?_,
        ?_⟩
      · rw [← same]
        simp
      · simp [Movement.Agreed, signed]
    | claimed _ recipient token _ _ paid =>
      simp only [claimPending, ok_iff, Prod.mk.injEq, transfer_ok] at paid
      obtain ⟨_, _, _, _, _, _, _, ⟨_, rfl⟩, same, _⟩ := paid
      exact ⟨[.transfer token contract recipient
        (world.treasury.owed recipient token)], by rw [← same]; rfl,
        by simp [Movement.Agreed]⟩
    | changed _ _ _ _ _ moves aimed _ stored _ change carried =>
      exact ⟨moves, carried.log, change.agreed (invoke_debits filed ran aimed stored)⟩

end InvoiceLiquidity
