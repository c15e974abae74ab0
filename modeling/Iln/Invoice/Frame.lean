import Iln.Invoice.Bookkeeping
import Iln.Invoice.ControlCalls
import Iln.Invoice.Scores

/-! What an entry point leaves alone, call by call. Only the three queue calls write the funding
queue, only `claim_default` keeps a score for an appeal, and only a few administrative calls
register token decimals. Outside `initialize` and `set_admin` no call touches the stored
administrator, the key `InvoiceCount` or, once it returned, the reentrancy lock. -/
namespace InvoiceLiquidity

open Outcome FixedWidth

variable {contract : Address} {params : InvoiceParams} {invoices : List InvoiceParams}
  {call : Call} {id : Nat}
variable {before after : Control}

structure Steady (before after : Control) : Prop where
  admin : after.admin = before.admin
  count : after.invoiceCount = before.invoiceCount
  lock : after.reentrancyLock = before.reentrancyLock

structure Keeps (before after : Control) : Prop extends Steady before after where
  ungoverned : ¬ before.Governed →
    after.feeRate = before.feeRate ∧ after.feeTiers = before.feeTiers ∧
      after.multisig.admin = before.multisig.admin

theorem Keeps.refl (control : Control) : Keeps control control :=
    ⟨⟨rfl, rfl, rfl⟩, fun _ => ⟨rfl, rfl, rfl⟩⟩

theorem Keeps.of_governed (governed : before.Governed) (steady : Steady before after) :
    Keeps before after := ⟨steady, fun ungoverned => absurd governed ungoverned⟩

theorem Begun.steady {clock : Clock} {logs : Option AdminCall}
    (started : Begun clock logs before after) : Steady before after := by
  obtain ⟨_, _, _, _, rfl, _⟩ := started
  exact ⟨rfl, rfl, rfl⟩

structure Spares (request : Call) (before after : Control) : Prop where
  guards : (∀ newAdmin, request ≠ .setAdmin newAdmin) → Keeps before after
  decimals : request.registersDecimals = false → after.tokenDecimals = before.tokenDecimals

theorem ControlWrite.spares {clock : Clock} {request : Call}
    (write : ControlWrite clock before request after) : Spares request before after := by
  cases write with
  | admin newAdmin started =>
    obtain ⟨_, _, _, _, rfl, _⟩ := started
    exact ⟨fun other => absurd rfl (other newAdmin), fun _ => rfl⟩
  | settings started | dropped _ started | rewired _ _ started | oracle started =>
    obtain ⟨governed, _, _, _, rfl, _⟩ := started
    exact ⟨fun _ => .of_governed governed ⟨rfl, rfl, rfl⟩, fun _ => rfl⟩
  | registered started registers =>
    obtain ⟨governed, _, _, _, rfl, _⟩ := started
    refine ⟨fun _ => .of_governed governed ⟨rfl, rfl, rfl⟩, fun plain => ?_⟩
    cases registers.symm.trans plain
  | multisig governed | voted token governed =>
    exact ⟨fun _ => .of_governed governed ⟨rfl, rfl, rfl⟩, fun _ => rfl⟩
  | observed => exact ⟨fun _ => ⟨⟨rfl, rfl, rfl⟩, fun _ => ⟨rfl, rfl, rfl⟩⟩, fun _ => rfl⟩

/-- The calls that bring the NFT of their invoice in line before they return. -/
def Call.syncs : Call → Option Nat
  | .fundInvoice _ id _ _ | .transferLpPosition id _ | .markPaid id _ | .claimDefault _ id
  | .appealDefault id _ | .resolveAppeal id _ | .disputeInvoice id _ | .resolveDispute id _
  | .autoResolveDispute id => some id
  | _ => none

/-- The NFT store after a call: synchronised with the book it leaves behind, or not written. -/
def Follows (call : Call) (before after : World) : Prop :=
  match call.syncs with
  | some id => syncNftState before.clock after.book before.nft id = .ok after.nft
  | none => after.nft = before.nft

structure Frame (call : Call) (before after : World) : Prop where
  clock : after.clock = before.clock
  queue : call.queueTarget = none → after.queue = before.queue
  kept : ∀ id, (∀ funder, call ≠ .claimDefault funder id) →
    after.book.preDefaultPayerScore id = before.book.preDefaultPayerScore id
  decimals : call.registersDecimals = false → after.control.tokenDecimals =
    before.control.tokenDecimals
  bounded : before.scores.Bounded → after.scores.Bounded

theorem Frame.of_scores {before after : World} (clock : after.clock = before.clock)
    (queue : after.queue = before.queue)
    (kept : after.book.preDefaultPayerScore = before.book.preDefaultPayerScore)
    (decimals : after.control.tokenDecimals = before.control.tokenDecimals)
    (bounded : before.scores.Bounded → after.scores.Bounded) : Frame call before after :=
  ⟨clock, fun _ => queue, fun id _ => congrFun kept id, fun _ => decimals, bounded⟩

theorem Frame.of_same {before after : World} (clock : after.clock = before.clock)
    (queue : after.queue = before.queue)
    (kept : after.book.preDefaultPayerScore = before.book.preDefaultPayerScore)
    (decimals : after.control.tokenDecimals = before.control.tokenDecimals)
    (scores : after.scores = before.scores) : Frame call before after :=
  .of_scores clock queue kept decimals fun bounded => scores ▸ bounded

theorem Frame.of_queue {before : World} {queue : QueueStore}
    (aimed : call.queueTarget = some id) : Frame call before { before with queue } where
  clock := rfl
  queue := by
    intro aimless
    rw [aimed] at aimless
    cases aimless
  kept := fun _ _ => rfl
  decimals := fun _ => rfl
  bounded := fun bounded => bounded

structure Kept (call : Call) (before after : World) : Prop where
  control : Keeps before.control after.control
  config : after.control.config = before.control.config
  multisig : after.control.multisig = before.control.multisig
  oracle : call.onOracle = false → after.control.oracle = before.control.oracle
  nft : Follows call before after

/-- The control store after a call on invoices or money: besides the lock, the log and what
`fund_invoice` has observed of an oracle, all of it is as before. -/
def Settles (before after : Control) : Prop :=
  ∃ oracle lock count log, after = { before with
    oracle, reentrancyLock := lock, adminActionCount := count, adminActionLog := log }

/-- The calls that set up the contract or list a token write more of the control store than the
others. -/
def Call.setsUp : Call → Bool
  | .initializeContract _ _ _ _ | .addToken _ _ => true
  | _ => false

section WorldCalls

variable {env : Env contract} {world next : World}

theorem Submission.frame (submission : Submission world next params) : Frame call world next := by
  rw [submission.rest]
  refine .of_scores rfl rfl submission.kept rfl fun bounded => ?_
  rw [submission.scores]
  exact (getPayerScore_bounded _ _ _ bounded).1.of_eq rfl

theorem RecordsAll.frame (recorded : RecordsAll world next invoices) :
    Frame call world next ∧ next.control = world.control ∧ next.nft = world.nft := by
  apply recorded.keeps
  · rintro middle after params _ submission ⟨before, control, nft⟩
    have last : Frame call middle after := submission.frame
    refine ⟨⟨last.clock.trans before.clock, fun aimless => (last.queue aimless).trans
      (before.queue aimless), fun id other => (last.kept id other).trans (before.kept id other),
      fun plain => (last.decimals plain).trans (before.decimals plain),
      fun bounded => last.bounded (before.bounded bounded)⟩, ?_, ?_⟩
    · rw [submission.rest]
      exact control
    · rw [submission.rest]
      exact nft
  · exact ⟨.of_same rfl rfl rfl rfl rfl, rfl, rfl⟩

variable {funder : Address} {amount : Int}

/-- The reputation check of a funding call may write back a decayed score. -/
theorem checkFunding_bounded {control : Control} {verify : Bool}
    {invoice : Invoice} {prospective : Int} {scores : ScoreStore} {oracle : OracleStore}
    (ran : checkFunding env world control funder id amount verify = .ok (invoice, prospective,
      scores, oracle))
    (bounded : world.scores.Bounded) : scores.Bounded := by
  simp only [checkFunding, ok_iff, Prod.mk.injEq] at ran
  obtain ⟨_, _, _, _, _, _, _, _, _, _, _, read, _, _, _, _, _, _, _, _, _, _, _, _, _, _, _, _, _,
    _, rfl, _⟩ := ran
  unfold requirePayerReputation at read
  split at read
  · simp only [ok_iff] at read
    obtain ⟨_, _, rfl⟩ := read
    exact (getPayerScore_bounded _ _ _ bounded).1
  · cases read
    exact bounded

structure Writes (call : Call) (before after : World) : Prop where
  frame : Frame call before after
  kept : (∀ admin usdc eurc xlm, call ≠ .initializeContract admin usdc eurc xlm) →
    Kept call before after
  settles : call.setsUp = false → Settles before.control after.control
  audited : Audited before.clock before.control after.control.audit call.logs
  sides : Filed before.book → SideEffect before after call
  invoices : call.target = none → call.submits = false → after.book.invoices = before.book.invoices

theorem Writes.of_same (silent : call.logs = none) (frame : Frame call world next)
    (nft : Follows call world next) (control : next.control = world.control)
    (sides : Filed world.book → SideEffect world next call)
    (invoices : call.target = none → call.submits = false →
      next.book.invoices = world.book.invoices) :
    Writes call world next :=
  ⟨frame, fun _ =>
      ⟨control ▸ .refl _, by rw [control], by rw [control], fun _ => by rw [control], nft⟩,
    fun _ => ⟨_, _, _, _, control⟩, by rw [silent, control]; rfl, sides, invoices⟩

theorem Writes.of_unlocked (silent : call.logs = none) (frame : Frame call world next)
    (nft : Follows call world next) (locked : world.control.reentrancyLock = false)
    (control : next.control = { world.control with reentrancyLock := false })
    (sides : Filed world.book → SideEffect world next call)
    (invoices : call.target = none → call.submits = false →
      next.book.invoices = world.book.invoices) :
    Writes call world next := by
  refine ⟨frame, fun _ => ⟨?_, by rw [control], by rw [control], fun _ => by rw [control], nft⟩,
    fun _ => ⟨_, _, _, _, control⟩, by rw [silent, control]; rfl, sides, invoices⟩
  rw [control]
  exact ⟨⟨rfl, rfl, locked.symm⟩, fun _ => ⟨rfl, rfl, rfl⟩⟩

theorem Writes.of_records (silent : call.logs = none) (submits : call.submits = true)
    (unsynced : call.syncs = none) (recorded : RecordsAll world next call.records) :
    Writes call world next := by
  obtain ⟨frame, control, nft⟩ : Frame call world next ∧ _ := recorded.frame
  refine .of_same silent frame ?_ control (fun _ => .submitted submits recorded) fun _ plain => ?_
  · rw [Follows, unsynced]
    exact nft
  · cases submits.symm.trans plain

theorem fundInvoice_writes {verify : Bool}
    (ran : fundInvoice env world funder id amount verify = .ok next) :
    Writes (.fundInvoice funder id amount verify) world next := by
  simp only [fundInvoice, ok_iff, lockReentrancy_ok] at ran
  obtain ⟨_, ⟨locked, rfl⟩, ⟨invoice, _, scores, _⟩, checked, _, _, ⟨_, after⟩, recorded, _, synced,
    _, _, rfl⟩ :=
    ran
  refine ⟨.of_scores rfl rfl rfl rfl fun bounded => (checkFunding_bounded checked bounded).of_eq ?_,
    fun _ => ⟨⟨⟨rfl, rfl, locked.symm⟩, fun _ => ⟨rfl, rfl, rfl⟩⟩, rfl, rfl, by rintro ⟨⟩, synced⟩,
    fun _ => ⟨_, _, _, _, rfl⟩, rfl, fun filed => ?_, by rintro ⟨⟩⟩
  · dsimp only
    split <;> rfl
  · obtain ⟨capped, passed⟩ := checkFunding_sides checked
    have loaded := (checkFunding_ok checked).2.1
    rw [filed.tryLoadInvoice] at loaded
    have named : after.id = id := by
      have kept := filed.named id invoice loaded
      rcases recordFunding_ok recorded with ⟨_, rfl, _⟩ | ⟨_, rfl, _⟩
      · exact kept
      · exact kept
    exact .funded funder id amount verify invoice after _ scores loaded
      (saveInvoice_invoices _ named) capped passed rfl

theorem markPaid_writes (ran : Prod.fst <$> markPaid env world id amount = .ok next) :
    Writes (.markPaid id amount) world next := by
  simp only [markPaid, ok_iff, lockReentrancy_ok] at ran
  obtain ⟨⟨_, _⟩, ⟨_, ⟨locked, rfl⟩, ⟨invoice, _, _⟩, checked, _, _, ran⟩, rfl⟩ := ran
  split at ran
  · simp only [recordInstalment, ok_iff] at ran
    obtain ⟨_, ⟨_, synced, rfl⟩, ⟨⟩⟩ := ran
    refine .of_unlocked rfl (.of_same rfl rfl rfl rfl rfl) synced locked rfl (fun filed => ?_)
      (by rintro ⟨⟩)
    obtain ⟨stored, _, _, funded, _⟩ := checkPayment_ok filed checked
    exact .instalment id amount _ (saveInvoice_invoices _ (filed.named id invoice stored)) funded
      rfl
  · simp only [settleInFull, ok_iff] at ran
    obtain ⟨_, ⟨_, _, _, _, _, _, _, synced, _, _, _, _, rfl⟩, ⟨⟩⟩ := ran
    refine .of_unlocked rfl ?_ synced locked rfl (fun filed => ?_) (by rintro ⟨⟩)
    · exact .of_scores rfl rfl rfl rfl fun bounded =>
        (setPayerScore_bounded (getPayerScore_bounded _ _ _ bounded).1 _).of_eq rfl
    · obtain ⟨stored, _⟩ := checkPayment_ok filed checked
      exact .settled id amount invoice _ stored
        (saveInvoice_invoices _ (filed.named id invoice stored)) rfl rfl

theorem claimDefault_writes (ran : claimDefault env world funder id = .ok next) :
    Writes (.claimDefault funder id) world next := by
  simp only [claimDefault, loadInvoice, ok_iff, lockReentrancy_ok] at ran
  obtain ⟨_, ⟨locked, rfl⟩, _, _, _, _, invoice, stored, _, _, _, _, _, _, _, synced, _, _, rfl⟩ :=
    ran
  refine .of_unlocked rfl ⟨rfl, fun _ => rfl, ?_, fun _ => rfl,
    fun bounded => (penalizeDefault_spec bounded).1⟩ synced
    locked rfl (fun _ => .defaulted funder id invoice stored rfl) (by rintro ⟨⟩)
  intro other elsewhere
  have different : other ≠ id := by
    rintro rfl
    exact elsewhere funder rfl
  exact Function.update_of_ne different _ _

theorem resolveDispute_writes {id resolution : Nat}
    (ran : resolveDispute env world id resolution = .ok next) :
    Writes (.resolveDispute id resolution) world next := by
  simp only [resolveDispute, ok_iff, lockReentrancy_ok, requireAdmin_ok] at ran
  obtain ⟨_, ⟨locked, rfl⟩, _, admin, _, _, _, _, ⟨_, _⟩, _, _, synced, rfl⟩ := ran
  obtain ⟨_, _, logged, audited⟩ := recordAdminAction_logged admin world.clock .resolveDispute
  rw [logged] at audited ⊢
  exact ⟨.of_same rfl rfl rfl rfl rfl,
    fun _ =>
      ⟨.of_governed (.of_admin admin) ⟨rfl, rfl, locked.symm⟩, rfl, rfl, fun _ => rfl, synced⟩,
    fun _ => ⟨_, _, _, _, rfl⟩, audited, fun _ => .unrelated rfl rfl, by rintro ⟨⟩⟩

theorem invokeWorld_writes (ran : invokeWorld env world call = .ok next) :
    Writes call world next := by
  cases call with
  | initializeContract admin usdc eurc xlm =>
    simp only [invokeWorld, initializeContract, ok_iff] at ran
    obtain ⟨_, _, rfl⟩ := ran
    exact ⟨⟨rfl, fun _ => rfl, fun _ _ => rfl, (by rintro ⟨⟩),
      fun bounded => bounded⟩,
      fun other => absurd rfl (other admin usdc eurc xlm), (by rintro ⟨⟩), rfl,
      fun _ => .unrelated rfl rfl, fun _ _ => rfl⟩
  | addToken =>
    simp only [invokeWorld, addToken, ok_iff] at ran
    obtain ⟨_, begun, _, _, _, _, _, _, _, _, _, _, _, _, rfl⟩ := ran
    obtain ⟨governed, _, _, _, rfl, audited⟩ := beginAdminCall_begun begun
    exact ⟨⟨rfl, fun _ => rfl, fun _ _ => rfl, (by rintro ⟨⟩),
      fun bounded => bounded⟩,
      fun _ => ⟨.of_governed governed ⟨rfl, rfl, rfl⟩, rfl, rfl, fun _ => rfl, rfl⟩, fun other =>
      (by cases other), audited, fun _ => .unrelated rfl rfl, fun _ _ => rfl⟩
  | claimPendingPayout =>
    simp only [invokeWorld, claimPendingPayout, ok_iff, lockReentrancy_ok] at ran
    obtain ⟨_, ⟨_, ⟨locked, rfl⟩, _, _, _, _, ⟨_, _⟩, _, rfl⟩, rfl⟩ := ran
    exact .of_unlocked rfl (.of_same rfl rfl rfl rfl rfl) rfl locked rfl
      (fun _ => .unrelated rfl rfl) fun _ _ => rfl
  | submitInvoice =>
    simp only [invokeWorld, submitInvoice, ok_iff] at ran
    obtain ⟨⟨_, _⟩, ⟨_, _, _, _, _, _, _, _, _, _, _, _, _, valid, recorded⟩, rfl⟩ := ran
    exact .of_records rfl rfl rfl (.next (validTerms_positive valid) recorded (.done _))
  | submitInvoicesBatch =>
    simp only [invokeWorld, submitInvoicesBatch, ok_iff] at ran
    obtain ⟨_, ⟨_, _, _, _, looped⟩, rfl⟩ := ran
    exact .of_records rfl rfl rfl (submitBatch_recorded looped)
  | updateInvoice =>
    simp only [invokeWorld, updateInvoice, ok_iff] at ran
    obtain ⟨_, _, _, _, _, _, _, _, _, _, _, _, rfl⟩ := ran
    exact .of_same rfl (.of_same rfl rfl rfl rfl rfl) rfl rfl (fun _ => .unrelated rfl rfl)
      (by rintro ⟨⟩)
  | convertInvoiceToken =>
    simp only [invokeWorld, convertInvoiceToken, ok_iff] at ran
    obtain ⟨_, _, _, _, _, _, _, _, _, _, _, _, _, _, rfl⟩ := ran
    exact .of_same rfl (.of_same rfl rfl rfl rfl rfl) rfl rfl (fun _ => .unrelated rfl rfl)
      (by rintro ⟨⟩)
  | joinFundQueue | resolveFundQueue | recoverFundQueue =>
    obtain ⟨_, rfl⟩ := invokeWorld_queue rfl ran
    exact .of_same rfl (.of_queue rfl) rfl rfl (fun _ => .unrelated rfl rfl) fun _ _ => rfl
  | fundInvoice => exact fundInvoice_writes ran
  | transferInvoice id newFreelancer =>
    simp only [invokeWorld, transferInvoice, loadInvoice, ok_iff] at ran
    obtain ⟨_, _, invoice, stored, _, _, _, _, rfl⟩ := ran
    exact .of_same rfl (.of_same rfl rfl rfl rfl rfl) rfl rfl
      (fun _ => .handedOver id newFreelancer invoice stored rfl) (by rintro ⟨⟩)
  | expireInvoice =>
    simp only [invokeWorld, expireInvoice, ok_iff] at ran
    obtain ⟨_, _, _, _, _, _, _, _, rfl⟩ := ran
    exact .of_same rfl (.of_same rfl rfl rfl rfl rfl) rfl rfl (fun _ => .unrelated rfl rfl)
      (by rintro ⟨⟩)
  | transferLpPosition id newLp =>
    simp only [invokeWorld, transferLpPosition, loadInvoice, ok_iff] at ran
    obtain ⟨_, _, invoice, stored, _, _, current, held, _, _, _, different, _, synced, rfl⟩ := ran
    exact .of_same rfl (.of_same rfl rfl rfl rfl rfl) synced rfl
      (fun _ => .renamed id newLp current invoice stored held different rfl) (by rintro ⟨⟩)
  | cancelInvoice =>
    simp only [invokeWorld, cancelInvoice, ok_iff, lockReentrancy_ok] at ran
    obtain ⟨_, ⟨locked, rfl⟩, _, _, _, _, _, _, _, _, _, _, rfl⟩ := ran
    exact .of_unlocked rfl (.of_same rfl rfl rfl rfl rfl) rfl locked rfl
      (fun _ => .unrelated rfl rfl) (by rintro ⟨⟩)
  | markPaid => exact markPaid_writes ran
  | claimDefault => exact claimDefault_writes ran
  | appealDefault id evidenceHash =>
    simp only [invokeWorld, appealDefault, loadInvoice, ok_iff] at ran
    obtain ⟨_, _, invoice, stored, _, _, _, _, _, _, _, _, _, _, _, synced, rfl⟩ := ran
    refine .of_same rfl (.of_scores rfl rfl rfl rfl fun bounded => ?_) synced rfl
      (fun _ => .appealed id evidenceHash invoice _ stored ?_ rfl) (by rintro ⟨⟩)
    · dsimp only
      split
      · exact bounded
      · exact (getPayerScore_bounded _ _ _ bounded).1
    · dsimp only
      split
      · exact .inl rfl
      · exact .inr rfl
  | resolveAppeal id upheld =>
    simp only [invokeWorld, resolveAppeal, loadInvoice, ok_iff, requireAdmin_ok] at ran
    obtain ⟨_, admin, invoice, stored, _, _, appeal, _, _, synced, rfl⟩ := ran
    obtain ⟨_, _, logged, audited⟩ := recordAdminAction_logged admin world.clock .resolveAppeal
    rw [logged] at audited ⊢
    refine ⟨.of_scores rfl rfl rfl rfl fun bounded => ?_,
      fun _ => ⟨.of_governed (.of_admin admin) ⟨rfl, rfl, rfl⟩, rfl, rfl, fun _ => rfl, synced⟩,
      fun _ => ⟨_, _, _, _, rfl⟩, audited, fun _ =>
      .reviewed id upheld invoice appeal stored rfl, by rintro ⟨⟩⟩
    dsimp only
    split
    · exact (restoreScore_spec bounded _).1
    · exact bounded
  | disputeInvoice | autoResolveDispute =>
    simp only [invokeWorld, disputeInvoice, autoResolveDispute, ok_iff] at ran
    obtain ⟨_, _, _, _, _, _, _, _, _, _, _, synced, rfl⟩ := ran
    exact .of_same rfl (.of_same rfl rfl rfl rfl rfl) synced rfl (fun _ => .unrelated rfl rfl)
      (by rintro ⟨⟩)
  | resolveDispute => exact resolveDispute_writes ran
  | payerScore payer =>
    cases ran
    exact .of_same rfl (.of_scores rfl rfl rfl rfl fun bounded =>
      (getPayerScore_bounded _ _ _ bounded).1) rfl rfl
      (fun _ => .read payer rfl) fun _ _ => rfl
  | _ => cases ran

theorem invoke_sides (filed : Filed world.book) (ran : invoke env world call = .ok next) :
    SideEffect world next call := by
  rcases invoke_routed ran with ⟨_, routed, rfl⟩ | ⟨_, ran⟩
  · refine .unrelated ?_ rfl
    cases call with
    | _ => first | rfl | cases routed
  · exact (invokeWorld_writes ran).sides filed

theorem invoke_invoices (ran : invoke env world call = .ok next) (aimless : call.target = none)
    (unsubmitted : call.submits = false) : next.book.invoices = world.book.invoices := by
  rcases invoke_routed ran with ⟨_, _, rfl⟩ | ⟨_, ran⟩
  · rfl
  · exact (invokeWorld_writes ran).invoices aimless unsubmitted

end WorldCalls

theorem invoke_frame {env : Env contract} {world next : World}
    (ran : invoke env world call = .ok next) : Frame call world next := by
  rcases invoke_routed ran with ⟨_, routed, rfl⟩ | ⟨_, ran⟩
  · exact ⟨rfl, fun _ => rfl, fun _ _ => rfl, (invokeControl_write routed).spares.decimals,
      fun bounded => bounded⟩
  · exact (invokeWorld_writes ran).frame

theorem step_invoke_clock (world : World) (env : Env contract) (call : Call) :
    (step world (.invoke env call)).clock = world.clock := by
  cases ran : invoke env world call with
  | error => simp only [step, ran]
  | ok => simp only [step, ran, (invoke_frame ran).clock]

theorem step_sequence (world : World) (action : Action contract) :
    world.clock.sequence ≤ (step world action).clock.sequence := by
  cases action with
  | credit => exact le_rfl
  | advance => exact Nat.le_add_right _ _
  | invoke => rw [step_invoke_clock]

end InvoiceLiquidity
