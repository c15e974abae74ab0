import Iln.Invoice.ControlCalls
import Iln.Invoice.Effect

/-! The emergency pause. While the contract is paused every entry point that touches an invoice, a
queue, an NFT or a pending payout checks the pause or asks for the administrator, except that a
dispute is still resolved automatically when its time has run out. -/
namespace InvoiceLiquidity

open Outcome FixedWidth Transition

variable {contract : Address}

structure Frozen (before after : World) : Prop where
  invoices : after.book.invoices = before.book.invoices
  core : after.book.core = before.book.core
  metadata : after.book.metadata = before.book.metadata
  funders : after.book.funders = before.book.funders
  fundQueue : after.queue.fundQueue = before.queue.fundQueue
  resolution : after.queue.queueResolution = before.queue.queueResolution
  nft : after.nft = before.nft
  payouts : after.treasury.pendingPayout = before.treasury.pendingPayout

variable {env : Env contract} {world next : World}

theorem not_running {control : Control} {passed : Unit} (paused : control.paused = true)
    (running : requireUnpaused control = .ok passed) : False := by
  rw [requireUnpaused_ok, paused] at running
  cases running

theorem not_administered {control : Control}
    (unsigned : ∀ admin ∈ control.admin, env.signed admin = false)
    (stored : ∃ admin, control.admin = some admin ∧ env.signed admin = true) : False := by
  obtain ⟨admin, found, signed⟩ := stored
  rw [unsigned admin found] at signed
  cases signed

/-- A paused contract lets through, without the administrator, only calls that leave the invoices
alone and the automatic resolution of a dispute. -/
theorem invokeWorld_frozen {call : Call} (paused : world.control.paused = true)
    (unsigned : ∀ admin ∈ world.control.admin, env.signed admin = false)
    (other : ∀ id, call ≠ .autoResolveDispute id) (ran : invokeWorld env world call = .ok next) :
    Frozen world next := by
  cases call with
  | initializeContract =>
    simp only [invokeWorld, initializeContract, ok_iff] at ran
    obtain ⟨_, _, rfl⟩ := ran
    exact ⟨rfl, rfl, rfl, rfl, rfl, rfl, rfl, rfl⟩
  | payerScore =>
    cases ran
    exact ⟨rfl, rfl, rfl, rfl, rfl, rfl, rfl, rfl⟩
  | addToken =>
    simp only [invokeWorld, addToken, ok_iff] at ran
    obtain ⟨_, begun, _⟩ := ran
    exact (not_administered unsigned (beginAdminCall_admin begun).2).elim
  | resolveAppeal =>
    simp only [invokeWorld, resolveAppeal, ok_iff, requireAdmin_ok] at ran
    obtain ⟨_, stored, _⟩ := ran
    exact (not_administered unsigned stored).elim
  | resolveDispute =>
    simp only [invokeWorld, resolveDispute, ok_iff, lockReentrancy_ok, requireAdmin_ok] at ran
    obtain ⟨_, ⟨_, rfl⟩, _, stored, _⟩ := ran
    exact (not_administered unsigned stored).elim
  | autoResolveDispute id => exact absurd rfl (other id)
  | submitInvoice | submitInvoicesBatch | resolveFundQueue | recoverFundQueue =>
    simp only [invokeWorld, submitInvoice, submitInvoicesBatch, resolveFundQueue, recoverFundQueue,
      ok_iff] at ran
    obtain ⟨_, ⟨_, running, _⟩, _⟩ := ran
    exact (not_running paused running).elim
  | updateInvoice | convertInvoiceToken | joinFundQueue | transferInvoice | transferLpPosition
  | expireInvoice | appealDefault | disputeInvoice =>
    simp only [invokeWorld, updateInvoice, convertInvoiceToken, joinFundQueue, transferInvoice,
      transferLpPosition, expireInvoice, appealDefault, disputeInvoice, ok_iff] at ran
    obtain ⟨_, running, _⟩ := ran
    exact (not_running paused running).elim
  | cancelInvoice | claimDefault =>
    simp only [invokeWorld, cancelInvoice, claimDefault, ok_iff, lockReentrancy_ok] at ran
    obtain ⟨_, ⟨_, rfl⟩, _, running, _⟩ := ran
    exact (not_running paused running).elim
  | claimPendingPayout =>
    simp only [invokeWorld, claimPendingPayout, ok_iff, lockReentrancy_ok] at ran
    obtain ⟨_, ⟨_, ⟨_, rfl⟩, _, running, _⟩, _⟩ := ran
    exact (not_running paused running).elim
  -- the checks behind the lock begin with the pause
  | fundInvoice =>
    simp only [invokeWorld, fundInvoice, checkFunding, ok_iff, lockReentrancy_ok] at ran
    obtain ⟨_, ⟨_, rfl⟩, _, ⟨_, running, _⟩, _⟩ := ran
    exact (not_running paused running).elim
  | markPaid =>
    simp only [invokeWorld, markPaid, checkPayment, ok_iff, lockReentrancy_ok] at ran
    obtain ⟨_, ⟨_, ⟨_, rfl⟩, _, ⟨_, running, _⟩, _⟩, _⟩ := ran
    exact (not_running paused running).elim
  | _ => cases ran

theorem invoke_frozen {call : Call} (paused : world.control.paused = true)
    (unsigned : ∀ admin ∈ world.control.admin, env.signed admin = false)
    (other : ∀ id, call ≠ .autoResolveDispute id) (ran : invoke env world call = .ok next) :
    Frozen world next := by
  rcases invoke_routed ran with ⟨_, _, rfl⟩ | ⟨_, ran⟩
  · exact ⟨rfl, rfl, rfl, rfl, rfl, rfl, rfl, rfl⟩
  · exact invokeWorld_frozen paused unsigned other ran

theorem autoResolveDispute_thaws {id : Nat} (filed : Filed world.book)
    (ran : autoResolveDispute world id = .ok next) : ¬ Frozen world next := by
  simp only [autoResolveDispute, loadInvoice, ok_iff] at ran
  obtain ⟨invoice, stored, _, disputed, _, _, _, _, _, _, _, _, rfl⟩ := ran
  intro frozen
  have named := filed.named id invoice stored
  have same := congrFun frozen.invoices id
  simp only [Book.saveInvoice, named, Function.update_self, stored, Option.some.injEq] at same
  have status : invoice.restoredStatus = .disputed := (congrArg Invoice.status same).trans disputed
  unfold Invoice.restoredStatus at status
  split at status
  · cases status
  · split at status <;> cases status

/-- In every reachable paused state a call that returns without the administrator's signature
freezes the invoices exactly if it is not the automatic resolution of a dispute. -/
theorem pause_freezes_iff (clock : Clock) (balance : Balances) (actions : List (Action contract))
    (env : Env contract) (call : Call) (next : World)
    (paused : (reach clock balance actions).control.paused = true)
    (unsigned : ∀ admin ∈ (reach clock balance actions).control.admin, env.signed admin = false)
    (returned : invoke env (reach clock balance actions) call = .ok next) :
    Frozen (reach clock balance actions) next ↔
      ∀ id, call ≠ .autoResolveDispute id := by
  constructor
  · rintro frozen id rfl
    have resolved := invoke_runs rfl returned
    exact autoResolveDispute_thaws (reach_filed clock balance actions) resolved frozen
  · intro other
    exact invoke_frozen paused unsigned other returned

def pausedDispute : List (Action ⟨0⟩) :=
  openingCalls 1000000 300 ++
    [signedBy [2] (.disputeInvoice 1 7), .advance 50000 10000, signedBy [1] .pause]

def bystander : Env ⟨0⟩ := stellarHost ⟨0⟩ [] []

theorem pausedDispute_paused : (traded pausedDispute).control.paused = true := by
  decide +kernel

theorem pausedDispute_unsigned :
    ∀ admin ∈ (traded pausedDispute).control.admin, bystander.signed admin = false := by
  decide +kernel

theorem payerScore_freezes :
    let world := traded pausedDispute
    Frozen world { world with
      scores := (getPayerScore world.clock world.control.config world.scores ⟨2⟩).1 } :=
  (pause_freezes_iff ⟨1000, 10⟩ marketBalances pausedDispute bystander (.payerScore ⟨2⟩) _
    pausedDispute_paused pausedDispute_unsigned rfl).mpr fun id same => by cases same

/-- Anybody can still resolve the dispute. -/
theorem paused_dispute_resolved :
    let world := traded pausedDispute
    world.control.paused = true ∧ (∀ admin ∈ world.control.admin, bystander.signed admin = false) ∧
      ∃ next, invoke bystander world (.autoResolveDispute 1) = .ok next ∧ ¬ Frozen world next := by
  have finished : succeeds (traded pausedDispute)
      (.invoke bystander (.autoResolveDispute 1)) = true := by
    decide +kernel
  obtain ⟨next, ran⟩ := returns_of_succeeds finished
  refine ⟨pausedDispute_paused, pausedDispute_unsigned, next, ran, ?_⟩
  have resolved := invoke_runs rfl ran
  exact autoResolveDispute_thaws (exec_filed (genesis_filed _ _) pausedDispute) resolved

end InvoiceLiquidity
