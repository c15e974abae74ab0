import Iln.Invoice.SettlementLiveness

/-! The way out of a partially funded invoice. `expire_invoice` and `claim_default` refuse it
whatever the due date says, so the only call that ends it is `cancel_invoice`, which the freelancer
signs. A solvent contract then refunds every funder in that one call. -/
namespace InvoiceLiquidity

open Outcome FixedWidth Transition

variable {contract : Address}

/-- The statuses the documentation calls terminal. -/
def InvoiceStatus.ended : List InvoiceStatus := [.paid, .defaulted, .expired, .cancelled]

section Refunds

def File.exactRefund (file : File) (contribution : Int) : Int :=
  contribution - contribution * (file.invoice.discountRate : Int) / 10000

@[mk_iff] structure Releasable (env : Env contract) (world : World) (file : File) : Prop where
  unpaused : world.control.paused = false
  signed : env.signed file.invoice.freelancer = true
  solvent : paidTotal file.exactRefund file.funders ≤
    world.treasury.free contract file.invoice.token
  own : isAuthorized env file.invoice.token contract = true
  range : world.treasury.balance file.invoice.token contract ≤ i128.hi
  typed : ∀ entry ∈ file.funders,
    0 ≤ entry.2 ∧ Fits i128 entry.2 ∧ Fits i128 (entry.2 * (file.invoice.discountRate : Int))

instance (env : Env contract) (world : World) (file : File) :
    Decidable (Releasable env world file) :=
  decidable_of_iff' _ (releasable_iff env world file)

variable {env : Env contract} {world : World} {id : Nat} {file : File}

theorem Releasable.refund_eq (released : Releasable env world file) :
    ∀ entry ∈ file.funders, discounted entry.2 file.invoice.discountRate =
      file.exactRefund entry.2 := by
  intro entry listed
  obtain ⟨nonneg, typed, fits⟩ := released.typed entry listed
  exact discounted_eq_netOf nonneg typed fits

theorem Releasable.refunds (released : Releasable env world file) (law : RejectsNegative env)
    (delivers : Delivers env) (escrow : EscrowSound contract world.treasury) :
    ∃ after, refundEach env file.invoice world.treasury file.funders = .ok after := by
  refine payEach_returns delivers released.own escrow released.range law ?_
  have same : paidTotal (discounted · file.invoice.discountRate) file.funders =
      paidTotal file.exactRefund file.funders := by
    refine congrArg List.sum (List.map_congr_left ?_)
    intro entry listed
    exact congrArg (max 0) (released.refund_eq entry listed)
  rw [same]
  exact released.solvent

theorem cancelInvoice_returns (law : RejectsNegative env) (delivers : Delivers env)
    (orderly : Orderly world) (escrow : EscrowSound contract world.treasury)
    (stored : world.book.file id = some file) (partly : file.invoice.status = .partiallyFunded)
    (released : Releasable env world file) :
    ∃ next, invoke env world (.cancelInvoice id) = .ok next := by
  obtain ⟨treasury, refunded⟩ := released.refunds law delivers escrow
  obtain ⟨invoice, found, rfl⟩ := Option.map_eq_some_iff.mp stored
  have locked : lockReentrancy world.control =
      .ok { world.control with reentrancyLock := true } := by
    simp [orderly.unlocked]
  have checks : requireSubmitter env invoice.freelancer invoice = .ok () := by
    simp [requireSubmitter, requireAuth, require_of_holds released.signed, bind, Except.bind]
  have fundable : requireFundable invoice.status = .ok () := require_of_holds (.inr partly)
  refine ⟨_, bind_eq_ok.mpr ⟨(), require_of_holds rfl,
    bind_eq_ok.mpr ⟨_, locked,
    bind_eq_ok.mpr ⟨(), require_of_holds released.unpaused,
    bind_eq_ok.mpr ⟨invoice, orFail_eq_ok.mpr found,
    bind_eq_ok.mpr ⟨(), checks,
    bind_eq_ok.mpr ⟨(), fundable,
    bind_eq_ok.mpr ⟨treasury, ?_, rfl⟩⟩⟩⟩⟩⟩⟩⟩
  exact (if_pos partly).trans refunded

theorem cancelInvoice_refunds (filed : Filed world.book) (stored : world.book.file id = some file)
    (partly : file.invoice.status = .partiallyFunded) {next : World}
    (ran : invoke env world (.cancelInvoice id) = .ok next) :
    next.statusOf id = some .cancelled ∧ next.treasury.log = world.treasury.log ++
      file.refunds env := by
  obtain ⟨invoice, found, rfl⟩ := Option.map_eq_some_iff.mp stored
  have cancelled : cancelInvoice env world id = .ok next := by exact (invoke_runs rfl ran)
  simp only [cancelInvoice, loadInvoice, found, ok_iff] at cancelled
  obtain ⟨_, _, _, _, _, same, _, _, _, _, _, refunded, rfl⟩ := cancelled
  cases same
  rw [refundCancelled, if_pos partly] at refunded
  refine ⟨?_, (payEach_carries refunded).log⟩
  simp [World.statusOf, Book.saveInvoice, filed.named id invoice found]

end Refunds

section Authorisation

variable {env : Env contract} {world next : World} {id : Nat} {file : File} {call : Call}

theorem cancelInvoice_signed (stored : world.book.file id = some file)
    (ran : invoke env world (.cancelInvoice id) = .ok next) :
    env.signed file.invoice.freelancer = true := by
  obtain ⟨_, found, rfl⟩ := Option.map_eq_some_iff.mp stored
  simp only [invoke, invokeControl, invokeWorld, cancelInvoice, loadInvoice, found,
    requireSubmitter, ok_iff, requireAuth_ok] at ran
  obtain ⟨_, _, _, _, _, _, _, same, _, ⟨_, signed, _⟩, _⟩ := ran
  cases same
  exact signed

theorem Change.of_partly {moves : List Movement} {after : File}
    (change : Change env world id call file after moves)
    (partly : file.invoice.status = .partiallyFunded) :
    after.invoice.status ∉ InvoiceStatus.ended ∨ call = .cancelInvoice id := by
  cases change with
  | cancelled => exact .inr rfl
  | contributed | completed | disputed => exact .inl (by simp [InvoiceStatus.ended])
  | edited _ _ _ _ _ _ other => simp [partly] at other
  | _ => simp_all

theorem unended_of_unsigned (filed : Filed world.book) (stored : world.book.file id = some file)
    (partly : file.invoice.status = .partiallyFunded)
    (unsigned : env.signed file.invoice.freelancer = false)
    (ran : invoke env world call = .ok next) : ∀ status ∈ next.statusOf id,
      status ∉ InvoiceStatus.ended := by
  have reached := step_of_invoke ran
  intro status now
  rw [statusOf_eq_file] at now
  cases step_touch (.invoke env call) filed id with
  | same unchanged =>
    rw [reached] at unchanged
    rw [unchanged, stored] at now
    cases now
    simp [partly, InvoiceStatus.ended]
  | fresh _ absent =>
    rw [absent] at stored
    cases stored
  | changed _ _ before after invoked _ _ found later change =>
    cases invoked
    rw [reached] at later
    cases found.symm.trans stored
    rw [later] at now
    cases now
    rcases change.of_partly partly with unended | rfl
    · exact unended
    · rw [cancelInvoice_signed stored ran] at unsigned
      cases unsigned

end Authorisation

/-- In every reachable state with a partially funded invoice, the freelancer's cancellation ends the
invoice and refunds every funder in one call, and no call that the freelancer does not sign ends
it. -/
theorem freelancer_releases (clock : Clock) (balance : Balances) (actions : List (Action contract))
    (id : Nat) (start : ∀ token, 0 ≤ balance token contract)
    (refuses : ∀ action ∈ actions, action.RefusesNegative) {file : File}
    (stored : (reach clock balance actions).book.file id = some file)
    (partly : file.invoice.status = .partiallyFunded) :
    (∀ env : Env contract, RejectsNegative env → Delivers env →
      Releasable env (reach clock balance actions) file →
      ∃ next, invoke env (reach clock balance actions)
        (.cancelInvoice id) = .ok next ∧ next.statusOf id = some .cancelled ∧
        next.treasury.log = (reach clock balance actions).treasury.log ++
          payments env file.invoice.token file.exactRefund file.funders) ∧
    ∀ (env : Env contract) call next, env.signed file.invoice.freelancer = false →
      invoke env (reach clock balance actions) call = .ok next →
      ∀ status ∈ next.statusOf id, status ∉ InvoiceStatus.ended := by
  have filed := reach_filed clock balance actions
  refine ⟨?_, fun env call next unsigned ran => unended_of_unsigned filed stored partly
    unsigned ran⟩
  intro env law delivers released
  have escrow := exec_escrowSound (genesis_filed clock balance)
    (genesis_escrowSound clock balance start) refuses
  have orderly := exec_orderly (genesis_orderly clock balance) actions
  obtain ⟨next, ran⟩ := cancelInvoice_returns law delivers orderly escrow stored partly released
  obtain ⟨cancelled, log⟩ := cancelInvoice_refunds filed stored partly ran
  refine ⟨next, ran, cancelled, ?_⟩
  rw [log, File.refunds, payments_congr released.refund_eq]

def overdueHalf : List (Action ⟨0⟩) :=
  openingCalls 1000000 500 ++ [signedBy [3] (.fundInvoice ⟨3⟩ 1 500000 false),
    .advance 200000 40000]

def releasingHost : Env ⟨0⟩ := stellarHost ⟨0⟩ [⟨5⟩] []

theorem freelancer_releases_of_overdueHalf :
    ∃ next, invoke releasingHost (traded overdueHalf) (.cancelInvoice 1) = .ok next ∧
      next.statusOf 1 = some .cancelled ∧
      next.treasury.log = (traded overdueHalf).treasury.log ++
        [.transfer ⟨10⟩ ⟨0⟩ ⟨3⟩ 475000] := by
  obtain ⟨file, stored, partly, released, refund⟩ : ∃ file ∈ (traded overdueHalf).book.file 1,
      file.invoice.status = .partiallyFunded ∧ Releasable releasingHost
      (traded overdueHalf) file ∧
      payments releasingHost file.invoice.token file.exactRefund file.funders =
        [.transfer ⟨10⟩ ⟨0⟩ ⟨3⟩ 475000] := by decide +kernel
  rw [← refund]
  exact (freelancer_releases ⟨1000, 10⟩ marketBalances overdueHalf 1
    (fun token => by simp [marketBalances]) (by simp [overdueHalf, openingCalls]) stored partly).1
      releasingHost (stellarHost_rejectsNegative _ _ _) (stellarHost_delivers _ _ _) released

/-- Long after the due date, with the contribution still in the contract, nobody but the freelancer,
the payer and the administrator signing ends the invoice. -/
theorem overdueHalf_hostage :
    let world := traded overdueHalf
    world.control.paused = false ∧
      (∃ file ∈ world.book.file 1, file.invoice.status = .partiallyFunded ∧
        file.funders = [(⟨3⟩, 500000)] ∧ file.invoice.dueDate < world.clock.timestamp ∧
        file.exactRefund 500000 ≤ world.treasury.free ⟨0⟩ ⟨10⟩) ∧
      ∀ (env : Env ⟨0⟩) call next, env.signed ⟨5⟩ = false → env.signed ⟨2⟩ = false →
        env.signed ⟨1⟩ = false → invoke env world call = .ok next →
        ∀ status ∈ next.statusOf 1, status ∉ InvoiceStatus.ended := by
  refine ⟨by decide +kernel, by decide +kernel, ?_⟩
  obtain ⟨file, stored, partly, freelancer⟩ : ∃ file ∈ (traded overdueHalf).book.file 1,
      file.invoice.status = .partiallyFunded ∧ file.invoice.freelancer = ⟨5⟩ := by decide +kernel
  intro env call next unsigned _ _ ran
  exact unended_of_unsigned (exec_filed (genesis_filed _ _) _) stored partly
    (freelancer ▸ unsigned) ran

end InvoiceLiquidity
