import Iln.Invoice.Contract

/-! `submit_invoices_batch` against `submit_invoice` called once for every record. Both loops end
each record in `recordSubmission`; they differ in the checks before it, and a paused contract still
accepts no records one by one. -/
namespace InvoiceLiquidity

open Outcome FixedWidth

variable {contract : Address} {params : InvoiceParams} {progress next : World × List Nat}
variable {invoices : List InvoiceParams}

section Loops

variable (env : Env contract)

def submitNext (progress : World × List Nat) (params : InvoiceParams) :
    Result (World × List Nat) := do
  let (world, id) ← submitInvoice env progress.1 params
  return (world, progress.2 ++ [id])

def submitOneByOne (world : World) (invoices : List InvoiceParams) : Result (World × List Nat) :=
  forEach (submitNext env) (world, []) invoices

/-- Both ways succeed on the same inputs, and then with the same storage and the same ids. -/
def BatchAgrees (world : World) (invoices : List InvoiceParams) : Prop :=
  ∀ result, submitInvoicesBatch env world invoices = .ok result ↔
    submitOneByOne env world invoices = .ok result

def BatchAdmits (world : World) (params : InvoiceParams) : Prop :=
  env.signed params.freelancer = true ∧ isApprovedToken world.control params.token = true ∧
    validateInvoiceTermsWithToken world.clock world.control params.amount params.dueDate
      params.discountRate params.token = .ok ()

def SubmitAdmits (control : Control) (params : InvoiceParams) : Prop :=
  params.freelancer ≠ params.payer ∧ params.discountRate ≤ maxDiscountRate ∧
    ¬ (0 < control.maxInvoiceAmount ∧ control.maxInvoiceAmount < params.amount)

instance (control : Control) (params : InvoiceParams) : Decidable (SubmitAdmits control params) :=
  inferInstanceAs (Decidable (_ ∧ _ ∧ _))

def referralUses (code : Hash) (invoices : List InvoiceParams) : Nat :=
  invoices.countP fun params => params.referralCode = some code

def Recordable (world : World) (invoices : List InvoiceParams) : Prop :=
  ∀ params ∈ invoices, BatchAdmits env world params ∧ world.book.nextId + invoices.length ≤ u64Max ∧
    ∀ code ∈ params.referralCode, world.stats.referralCount code + referralUses code invoices ≤
      u64Max

end Loops

variable {env : Env contract}

theorem recordSubmission_next {world next : World} {id : Nat}
    (ran : recordSubmission world params = .ok (next, id)) :
    next.control = world.control ∧ next.clock = world.clock ∧
      next.book.nextId = world.book.nextId + 1 ∧ ∀ code, next.stats.referralCount code =
        world.stats.referralCount code + (if params.referralCode = some code then 1 else 0) := by
  simp only [recordSubmission, Book.takeId, ok_iff, Prod.mk.injEq] at ran
  obtain ⟨⟨_, _⟩, ⟨_, _, rfl, rfl⟩, _, counted, rfl, rfl⟩ := ran
  refine ⟨rfl, rfl, rfl, ?_⟩
  intro code
  unfold countReferral at counted
  split at counted
  · rename_i absent
    cases counted
    simp [absent, incrementTotalInvoices]
  · rename_i used present
    simp only [ok_iff] at counted
    obtain ⟨_, _, rfl⟩ := counted
    by_cases same : code = used
    · subst same
      simp [present, incrementTotalInvoices]
    · simp [present, incrementTotalInvoices, Function.update_of_ne same, Ne.symm same]

theorem recordSubmission_returns {world : World} :
    (∃ result, recordSubmission world params = .ok result) ↔ world.book.nextId + 1 ≤ u64Max ∧
        ∀ code ∈ params.referralCode, world.stats.referralCount code + 1 ≤ u64Max := by
  unfold recordSubmission countReferral
  cases params.referralCode with
  | none => simp [Book.takeId]
  | some =>
    simp only [Book.takeId, incrementTotalInvoices, Option.mem_some_iff, forall_eq',
      bind_eq_ok, pure_eq_ok]
    constructor
    · rintro ⟨_, ⟨_, _⟩, ⟨_, room, _⟩, _, ⟨_, unused, _⟩, _⟩
      exact ⟨require_eq_ok.mp room, require_eq_ok.mp unused⟩
    · rintro ⟨room, unused⟩
      exact ⟨_, _, ⟨(), require_of_holds room, rfl⟩, _, ⟨(), require_of_holds unused, rfl⟩, rfl⟩

theorem submitBatchItem_ok : submitBatchItem env progress params = .ok next ↔
      BatchAdmits env progress.1 params ∧ ∃ world id,
        recordSubmission progress.1 params = .ok (world, id) ∧
        (world, progress.2 ++ [id]) = next := by
  simp only [submitBatchItem, BatchAdmits, ok_iff, requireAuth_ok]
  constructor
  · rintro ⟨_, signed, _, approved, _, valid, ⟨world, id⟩, recorded, rfl⟩
    exact ⟨⟨signed, approved, valid⟩, world, id, recorded, rfl⟩
  · rintro ⟨⟨signed, approved, valid⟩, world, id, recorded, rfl⟩
    exact ⟨(), signed, (), approved, (), valid, (world, id), recorded, rfl⟩

theorem validTerms_spec {clock : Clock} {control : Control} {amount : Int}
    {dueDate discountRate : Nat} {token : Address} {passed : Unit}
    (valid : validateInvoiceTermsWithToken clock control amount dueDate discountRate token =
      .ok passed) :
    1 ≤ discountRate ∧ ∃ decimals, control.tokenDecimals token = some decimals ∧
      tenPow decimals ≤ amount := by
  simp only [validateInvoiceTermsWithToken, validateInvoiceTermsForMin, registeredTokenDecimals,
    ok_iff] at valid
  obtain ⟨decimals, registered, _, large, _, ⟨positive, _⟩, _⟩ := valid
  exact ⟨Nat.one_le_iff_ne_zero.mpr positive, decimals, registered, large⟩

/-- One record submitted alone is one record of a batch, with three more checks and the pause. -/
theorem submitNext_ok : submitNext env progress params = .ok next ↔
      (progress.1.control.paused = false ∧ SubmitAdmits progress.1.control params) ∧
        submitBatchItem env progress params = .ok next := by
  rw [submitBatchItem_ok]
  simp only [submitNext, submitInvoice, BatchAdmits, SubmitAdmits, ok_iff, requireUnpaused_ok,
    requireAuth_ok]
  constructor
  · rintro ⟨⟨world, id⟩, ⟨_, running, _, signed, _, foreign, _, ⟨_, bounded⟩, _, capped, _,
      approved, _, valid, recorded⟩,
      rfl⟩
    exact ⟨⟨running, foreign, bounded, capped⟩, ⟨signed, approved, valid⟩, world, id, recorded, rfl⟩
  · rintro ⟨⟨running, foreign, bounded, capped⟩, ⟨signed, approved, valid⟩, world, id,
      recorded, rfl⟩
    have positive := Nat.one_le_iff_ne_zero.mp (validTerms_spec valid).1
    exact ⟨(world, id), ⟨(), running, (), signed, (), foreign, (), ⟨positive, bounded⟩, (), capped,
      (), approved, (), valid, recorded⟩, rfl⟩

theorem submitBatchItem_control (ran : submitBatchItem env progress params = .ok next) :
    next.1.control = progress.1.control ∧ next.1.clock = progress.1.clock := by
  obtain ⟨_, _, _, recorded, rfl⟩ := submitBatchItem_ok.mp ran
  obtain ⟨control, clock, _⟩ := recordSubmission_next recorded
  exact ⟨control, clock⟩

theorem forEach_submitNext {progress result : World × List Nat} :
    forEach (submitNext env) progress invoices = .ok result ↔
      (∀ params ∈ invoices, progress.1.control.paused = false ∧
        SubmitAdmits progress.1.control params) ∧
        forEach (submitBatchItem env) progress invoices = .ok result := by
  induction invoices generalizing progress with
  | nil => simp
  | cons params rest ih =>
    rw [forEach_cons_eq_ok, forEach_cons_eq_ok, List.forall_mem_cons]
    constructor
    · rintro ⟨next, submitted, remaining⟩
      obtain ⟨passed, item⟩ := submitNext_ok.mp submitted
      obtain ⟨later, looped⟩ := ih.mp remaining
      rw [(submitBatchItem_control item).1] at later
      exact ⟨⟨passed, later⟩, next, item, looped⟩
    · rintro ⟨⟨passed, later⟩, next, item, looped⟩
      refine ⟨next, submitNext_ok.mpr ⟨passed, item⟩, ih.mpr ⟨?_, looped⟩⟩
      rw [(submitBatchItem_control item).1]
      exact later

theorem BatchAdmits.congr {before after : World} (control : after.control = before.control)
    (clock : after.clock = before.clock) : BatchAdmits env after params ↔
      BatchAdmits env before params := by
  rw [BatchAdmits, BatchAdmits, control, clock]

theorem recordable_cons {world next : World} {rest : List InvoiceParams} {id : Nat}
    (recorded : recordSubmission world params = .ok (next, id))
    (admitted : BatchAdmits env world params) :
    Recordable env world (params :: rest) ↔ Recordable env next rest := by
  obtain ⟨control, clock, counter, referrals⟩ := recordSubmission_next recorded
  obtain ⟨room, unused⟩ := recordSubmission_returns.mp ⟨_, recorded⟩
  have uses : ∀ code, next.stats.referralCount code + referralUses code rest =
      world.stats.referralCount code + referralUses code (params :: rest) := by
    intro code
    rw [referrals code, referralUses, referralUses, List.countP_cons]
    by_cases same : params.referralCode = some code
    · simp [same]
      omega
    · simp [same]
  have length : next.book.nextId + rest.length = world.book.nextId + (params :: rest).length := by
    rw [counter, List.length_cons]
    omega
  unfold Recordable
  simp only [BatchAdmits.congr control clock, uses, length]
  constructor
  · intro all other member
    exact all other (List.mem_cons_of_mem _ member)
  · intro later other member
    rcases List.mem_cons.mp member with rfl | late
    · refine ⟨admitted, ?_, ?_⟩
      -- the last record decides the counter, and this one when it is the last
      · cases rest with
        | nil => exact room
        | cons first => exact (later first List.mem_cons_self).2.1
      · intro code used
        by_cases repeated : ∃ following ∈ rest, following.referralCode = some code
        · obtain ⟨following, listed, again⟩ := repeated
          exact (later following listed).2.2 code again
        · have single : referralUses code (other :: rest) = 1 := by
            rw [referralUses, List.countP_cons, if_pos (by simpa using used)]
            refine congrArg (· + 1) (List.countP_eq_zero.mpr ?_)
            intro following listed again
            exact repeated ⟨following, listed, of_decide_eq_true again⟩
          rw [single]
          exact unused code used
    · exact later other late

theorem forEach_submitBatchItem_returns {progress : World × List Nat} :
    (∃ result, forEach (submitBatchItem env) progress invoices = .ok result) ↔
      Recordable env progress.1 invoices := by
  induction invoices generalizing progress with
  | nil => simp [Recordable]
  | cons params rest ih =>
    constructor
    · rintro ⟨result, looped⟩
      obtain ⟨next, item, remaining⟩ := forEach_cons_eq_ok.mp looped
      obtain ⟨admitted, _, _, recorded, rfl⟩ := submitBatchItem_ok.mp item
      exact (recordable_cons recorded admitted).mpr (ih.mp ⟨result, remaining⟩)
    · intro recordable
      obtain ⟨admitted, room, unused⟩ := recordable params List.mem_cons_self
      have fits : ∃ result, recordSubmission progress.1 params = .ok result := by
        refine recordSubmission_returns.mpr ⟨?_, ?_⟩
        · rw [List.length_cons] at room
          omega
        · intro code used
          have counted := unused code used
          rw [referralUses, List.countP_cons, if_pos (by simpa using used)] at counted
          omega
      obtain ⟨⟨world, id⟩, recorded⟩ := fits
      have later : ∃ result, forEach (submitBatchItem env) (world, progress.2 ++ [id]) rest =
        .ok result := ih.mpr ((recordable_cons recorded admitted).mp recordable)
      obtain ⟨result, remaining⟩ := later
      exact ⟨result, forEach_cons_eq_ok.mpr
        ⟨_, submitBatchItem_ok.mpr ⟨admitted, world, id, recorded, rfl⟩, remaining⟩⟩

theorem submitInvoicesBatch_ok {world : World} {result : World × List Nat}
    (short : invoices.length ≤ 10) :
    submitInvoicesBatch env world invoices = .ok result ↔
      world.control.paused = false ∧ forEach (submitBatchItem env) (world, []) invoices =
        .ok result := by
  simp only [submitInvoicesBatch, ok_iff, requireUnpaused_ok]
  constructor
  · rintro ⟨_, running, _, _, looped⟩
    exact ⟨running, looped⟩
  · rintro ⟨running, looped⟩
    exact ⟨(), running, (), short, looped⟩

/-- A batch is as good as its records one by one exactly if an empty one does not meet a pause and
no record slips past the checks that only `submit_invoice` makes. -/
theorem batch_agrees_iff (env : Env contract) (world : World) (invoices : List InvoiceParams)
    (short : invoices.length ≤ 10) :
    BatchAgrees env world invoices ↔ (invoices = [] → world.control.paused = false) ∧
      (world.control.paused = false → Recordable env world invoices →
        ∀ params ∈ invoices, SubmitAdmits world.control params) := by
  simp only [BatchAgrees, submitOneByOne, submitInvoicesBatch_ok short, forEach_submitNext]
  constructor
  · intro agrees
    refine ⟨?_, ?_⟩
    · rintro rfl
      exact ((agrees (world, [])).mpr ⟨by simp, rfl⟩).1
    · intro running recordable params member
      have returns : ∃ result, forEach (submitBatchItem env) (world, []) invoices = .ok result :=
        forEach_submitBatchItem_returns.mpr recordable
      obtain ⟨result, looped⟩ := returns
      exact (((agrees result).mp ⟨running, looped⟩).1 params member).2
  · rintro ⟨empty, admitted⟩ result
    constructor
    · rintro ⟨running, looped⟩
      have recordable := forEach_submitBatchItem_returns.mp ⟨result, looped⟩
      exact ⟨fun params member => ⟨running, admitted running recordable params member⟩, looped⟩
    · rintro ⟨passed, looped⟩
      refine ⟨?_, looped⟩
      cases invoices with
      | nil => exact empty rfl
      | cons params => exact (passed params List.mem_cons_self).1

def openMarket : World := traded
    [opening]

def freelancerHost : Env ⟨0⟩ := stellarHost ⟨0⟩ [⟨5⟩] []

theorem batch_agrees_of_bills :
    BatchAgrees freelancerHost openMarket [bill 1000000 300, bill 2000000 500] := by
  refine (batch_agrees_iff freelancerHost openMarket [bill 1000000 300, bill 2000000 500]
    (by decide)).mpr ⟨?_, ?_⟩
  · intro empty
    cases empty
  · intro _ _
    decide +kernel

def selfBill : InvoiceParams := { bill 1000000 300 with payer := ⟨5⟩ }

/-- A batch records what `submit_invoice` refuses as a self-invoice. -/
theorem selfBill_batched :
    (∃ result, submitInvoicesBatch freelancerHost openMarket [selfBill] = .ok result) ∧
      submitOneByOne freelancerHost openMarket [selfBill] = .error (.returned .selfInvoice) ∧
      ¬ BatchAgrees freelancerHost openMarket [selfBill] := by
  have batched : ∃ result, submitInvoicesBatch freelancerHost openMarket [selfBill] =
      .ok result := by
    have finished : (submitInvoicesBatch freelancerHost openMarket [selfBill]).isOk =
      true := by decide +kernel
    cases ran : submitInvoicesBatch freelancerHost openMarket [selfBill] with
    | ok result => exact ⟨result, rfl⟩
    | error =>
      rw [ran] at finished
      cases finished
  have refused : submitOneByOne freelancerHost openMarket [selfBill] =
    .error (.returned .selfInvoice) := by rfl
  refine ⟨batched, refused, ?_⟩
  intro agrees
  obtain ⟨result, ran⟩ := batched
  have same := (agrees result).mp ran
  rw [refused] at same
  cases same

end InvoiceLiquidity
