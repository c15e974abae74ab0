import Iln.Invoice.Frame

/-! The terms of a stored invoice against the limits in force when they were written. Five calls
write them and each checks a part: only `submit_invoice` compares the parties, the fixed rate limit
and the size cap, a conversion does not look at the amount, and a transfer not at the payer. -/
namespace InvoiceLiquidity

open Outcome FixedWidth Transition Function

variable {contract : Address} {decimals : Nat} {env : Env contract} {call : Call}
  {params : InvoiceParams}
variable {action : Action contract} {table : Address → Option Nat}

def SmallDecimals (table : Address → Option Nat) : Prop :=
  ∀ token decimals, table token = some decimals → decimals ≤ maxTokenDecimals

theorem tenPow_eq (small : decimals ≤ maxTokenDecimals) : tenPow decimals = 10 ^ decimals := by
  have powers : ∀ power ≤ maxTokenDecimals, tenPow power = 10 ^ power := by decide
  exact powers decimals small

theorem SmallDecimals.update (small : SmallDecimals table) (token : Address)
    (bound : decimals ≤ maxTokenDecimals) : SmallDecimals (update table token (some decimals)) := by
  intro other registered stored
  by_cases same : other = token
  · subst same
    rw [update_self] at stored
    cases stored
    exact bound
  · rw [update_of_ne same] at stored
    exact small other registered stored

theorem SmallDecimals.register (small : SmallDecimals table) (token : Address)
    (bound : decimals ≤ maxTokenDecimals) :
    SmallDecimals (registerMissingDecimals table token decimals) := by
  unfold registerMissingDecimals
  split
  · exact small
  · exact small.update token bound

theorem validateTokenDecimals_le {token : Address} {passed : Unit}
    (valid : validateTokenDecimals env token decimals = .ok passed) :
    decimals ≤ maxTokenDecimals := by
  simp only [validateTokenDecimals, ok_iff] at valid
  obtain ⟨_, bound, _⟩ := valid
  exact bound

theorem migrate_small {clock : Clock} {control after : Control}
    (small : SmallDecimals control.tokenDecimals) (ran : migrate env clock control = .ok after) :
    SmallDecimals after.tokenDecimals := by
  have kept : SmallDecimals (recordAdminAction clock control .migrate).tokenDecimals := by
    rw [recordAdminAction_decimals]
    exact small
  simp only [migrate, ok_iff] at ran
  obtain ⟨_, _, migrated⟩ := ran
  split at migrated
  · cases migrated
    exact kept
  · cases migrated
    dsimp only
    split
    · exact kept
    · exact ((kept.register _ (by decide)).register _ (by decide)).register _ (by decide)

theorem invoke_small {world next : World}
    (small : SmallDecimals world.control.tokenDecimals) (ran : invoke env world call = .ok next) :
    SmallDecimals next.control.tokenDecimals := by
  have frame := invoke_frame ran
  cases plain : call.registersDecimals with
  | false =>
    rw [frame.decimals plain]
    exact small
  | true =>
    cases call with
    | initializeContract =>
      simp only [invoke, invokeControl, invokeWorld, initializeContract, ok_iff] at ran
      obtain ⟨_, _, _, _, rfl⟩ := ran
      exact ((small.update _ (by decide)).update _ (by decide)).update _ (by decide)
    | addToken =>
      simp only [invoke, invokeControl, invokeWorld, addToken, ok_iff] at ran
      obtain ⟨_, _, _, begun, _, _, _, valid, _, _, _, _, _, _, _, _, rfl⟩ := ran
      refine SmallDecimals.update ?_ _ (validateTokenDecimals_le valid)
      obtain ⟨_, _, _, _, rfl, _⟩ := beginAdminCall_begun begun
      exact small
    | correctTokenDecimals =>
      simp only [invoke, invokeControl, correctTokenDecimals, checkRateLimit, ok_iff] at ran
      obtain ⟨_, _, _, ⟨_, _, _, _, _, ⟨_, _, rfl⟩, _, valid, rfl⟩, rfl⟩ := ran
      refine SmallDecimals.update ?_ _ (validateTokenDecimals_le valid)
      rw [recordAdminAction_decimals]
      exact small
    | migrate =>
      simp only [invoke, invokeControl, ok_iff] at ran
      obtain ⟨_, _, _, migrated, rfl⟩ := ran
      exact migrate_small small migrated
    | _ => cases plain

theorem step_small {world : World} (action : Action contract)
    (small : SmallDecimals world.control.tokenDecimals) :
    SmallDecimals (step world action).control.tokenDecimals :=
  step_keeps (fun world => SmallDecimals world.control.tokenDecimals) action
    (fun _ _ _ ran => invoke_small small ran) fun _ _ => small

section Writers

variable {world next : World} {id : Nat} {invoice : Invoice}

theorem updateInvoice_spec (filed : Filed world.book) {freelancer : Address} {amount : Int}
    {dueDate discountRate : Nat} (stored : world.book.invoices id = some invoice)
    (ran : updateInvoice env world freelancer id amount dueDate discountRate = .ok next) :
    next.book.invoices id =
        some { invoice with amount, dueDate, discountRate } ∧
      1 ≤ discountRate ∧ ∃ decimals, world.control.tokenDecimals invoice.token = some decimals ∧
        tenPow decimals ≤ amount := by
  simp only [updateInvoice, loadInvoice, ok_iff] at ran
  obtain ⟨_, _, _, found, _, _, _, _, _, _, _, valid, rfl⟩ := ran
  cases found.symm.trans stored
  exact ⟨saveInvoice_invoices world.book (filed.named id invoice stored), validTerms_spec valid⟩

theorem convertInvoiceToken_spec (filed : Filed world.book) {freelancer newToken : Address}
    (stored : world.book.invoices id = some invoice)
    (ran : convertInvoiceToken env world freelancer id newToken = .ok next) :
    next.book.invoices id = some { invoice with token := newToken } ∧
      ∃ decimals, world.control.tokenDecimals newToken = some decimals := by
  simp only [convertInvoiceToken, loadInvoice, registeredTokenDecimals, ok_iff] at ran
  obtain ⟨_, _, _, found, _, _, _, _, _, _, _, _, decimals, registered, rfl⟩ := ran
  cases found.symm.trans stored
  exact ⟨saveInvoice_invoices world.book (filed.named id invoice stored), decimals, registered⟩

theorem transferInvoice_spec (filed : Filed world.book) {newFreelancer : Address}
    (stored : world.book.invoices id = some invoice)
    (ran : transferInvoice env world id newFreelancer = .ok next) :
    next.book.invoices id = some { invoice with freelancer := newFreelancer } := by
  simp only [transferInvoice, loadInvoice, ok_iff] at ran
  obtain ⟨_, _, _, found, _, _, _, _, rfl⟩ := ran
  cases found.symm.trans stored
  exact saveInvoice_invoices world.book (filed.named id invoice stored)

def Added (env : Env contract) (world : World) (records : List InvoiceParams) (id : Nat)
    (invoice : Invoice) : Prop :=
  ∃ params ∈ records, BatchAdmits env world params ∧ ∃ reputation,
    invoice = newInvoice id params reputation

theorem recordSubmission_invoices {taken : Nat}
    (ran : recordSubmission world params = .ok (next, taken))
    (stored : next.book.invoices id = some invoice) :
    world.book.invoices id = some invoice ∨ ∃ reputation, invoice =
      newInvoice id params reputation := by
  obtain ⟨reputation, written⟩ := (recordSubmission_spec ran).invoices
  rw [written, update_apply] at stored
  split at stored
  · rename_i here
    cases stored
    exact .inr ⟨reputation, by rw [here]⟩
  · exact .inl stored

theorem submitBatch_added {progress result : World × List Nat} {invoices : List InvoiceParams}
    (looped : forEach (submitBatchItem env) progress invoices = .ok result)
    (stored : result.1.book.invoices id = some invoice) :
    progress.1.book.invoices id = some invoice ∨ Added env progress.1 invoices id invoice := by
  induction invoices generalizing progress with
  | nil =>
    cases looped
    exact .inl stored
  | cons params rest ih =>
    obtain ⟨_, item, remaining⟩ := forEach_cons_eq_ok.mp looped
    obtain ⟨admitted, _, _, recorded, rfl⟩ := submitBatchItem_ok.mp item
    obtain ⟨control, clock, _⟩ := recordSubmission_next recorded
    rcases ih remaining with here | ⟨later, listed, passed, made⟩
    · rcases recordSubmission_invoices recorded here with old | made
      · exact .inl old
      · exact .inr ⟨params, List.mem_cons_self, admitted, made⟩
    · -- a later record met the same configuration and the same clock
      exact .inr ⟨later, List.mem_cons_of_mem _ listed, (BatchAdmits.congr control clock).mp passed,
        made⟩

theorem submitInvoice_added {taken : Nat} (ran : submitInvoice env world params = .ok (next, taken))
    (absent : world.book.invoices id = none) (stored : next.book.invoices id = some invoice) :
    Added env world [params] id invoice ∧ SubmitAdmits world.control params := by
  have alone : submitNext env (world, []) params = .ok (next, [] ++ [taken]) :=
    bind_eq_ok.mpr ⟨(next, taken), ran, rfl⟩
  obtain ⟨⟨_, passed⟩, item⟩ := submitNext_ok.mp alone
  obtain ⟨admitted, _, _, recorded, same⟩ := submitBatchItem_ok.mp item
  cases same
  rcases recordSubmission_invoices recorded stored with old | made
  · cases absent.symm.trans old
  · exact ⟨⟨params, List.mem_singleton.mpr rfl, admitted, made⟩, passed⟩

theorem invoke_added (ran : invoke env world call = .ok next) (aimless : call.target = none)
    (absent : world.book.invoices id = none) (stored : next.book.invoices id = some invoice) :
    Added env world call.records id invoice ∧
      ∀ params, call = .submitInvoice params → SubmitAdmits world.control params := by
  rcases invoke_routed ran with ⟨_, routed, rfl⟩ | ⟨routed, ran⟩
  · cases absent.symm.trans stored
  · cases call with
    | submitInvoice =>
      simp only [invokeWorld, ok_iff] at ran
      obtain ⟨⟨_, _⟩, submitted, rfl⟩ := ran
      obtain ⟨added, passed⟩ := submitInvoice_added submitted absent stored
      refine ⟨added, ?_⟩
      intro other same
      cases same
      exact passed
    | submitInvoicesBatch =>
      simp only [invokeWorld, submitInvoicesBatch, ok_iff] at ran
      obtain ⟨⟨_, _⟩, ⟨_, _, _, _, looped⟩, rfl⟩ := ran
      refine ⟨?_, (by rintro _ ⟨⟩)⟩
      rcases submitBatch_added looped stored with old | added
      · cases absent.symm.trans old
      · exact added
    | _ =>
      rw [(invokeWorld_writes ran).invoices aimless rfl] at stored
      cases absent.symm.trans stored

end Writers

section Notes

def Call.rewritesAmount : Call → Bool
  | .updateInvoice _ _ _ _ _ => true
  | _ => false

def Call.rewritesFloor : Call → Bool
  | .updateInvoice _ _ _ _ _ | .convertInvoiceToken _ _ _ => true
  | _ => false

/-- The action stores the invoice `id` for the first time, or it is a call of this kind on it that
returned. -/
def writes (kind : Call → Bool) (id : Nat) (world : World) (action : Action contract) : Bool :=
  ((world.book.invoices id).isNone && ((step world action).book.invoices id).isSome) ||
    match action with
    | .invoke env call => kind call && call.target == some id && succeeds world (.invoke env call)
    | .credit _ _ _ | .advance _ _ => false

structure TermNotes where
  cap : Int
  decimals : Option Nat
  deriving DecidableEq

def noteTerms (id : Nat) (world : World) (action : Action contract) (notes : TermNotes) :
    TermNotes where
  cap := if writes Call.rewritesAmount id world action then world.control.maxInvoiceAmount
    else notes.cap
  decimals :=
    if writes Call.rewritesFloor id world action then
      ((step world action).book.invoices id).bind fun invoice =>
        world.control.tokenDecimals invoice.token
    else notes.decimals

structure TermsKept (notes : TermNotes) (invoice : Invoice) : Prop where
  parties : invoice.freelancer ≠ invoice.payer
  rate : 1 ≤ invoice.discountRate ∧ invoice.discountRate ≤ maxDiscountRate
  floor : ∃ decimals, notes.decimals = some decimals ∧ 10 ^ decimals ≤ invoice.amount
  capped : 0 < notes.cap → invoice.amount ≤ notes.cap

/-- What `submit_invoice` would have asked of a write of the invoice: of the record that a batch
stores under its identifier, and of an update, a conversion and a transfer of it. -/
def AdmittedWrite (id : Nat) (world : World) : Action contract → Prop
  | .invoke env (.submitInvoicesBatch invoices) => world.book.invoices id = none →
      ∀ invoice ∈ (step world (.invoke env (.submitInvoicesBatch invoices))).book.invoices id,
        invoice.freelancer ≠ invoice.payer ∧ invoice.discountRate ≤ maxDiscountRate ∧
          ¬ (0 < world.control.maxInvoiceAmount ∧ world.control.maxInvoiceAmount < invoice.amount)
  | .invoke _ (.updateInvoice _ target amount _ discountRate) => target = id →
      discountRate ≤ maxDiscountRate ∧ ¬ (0 < world.control.maxInvoiceAmount ∧
        world.control.maxInvoiceAmount < amount)
  | .invoke _ (.convertInvoiceToken _ target newToken) => target = id →
      ∀ invoice ∈ world.book.invoices id, ∀ decimals ∈ world.control.tokenDecimals newToken,
        10 ^ decimals ≤ invoice.amount
  | .invoke _ (.transferInvoice target newFreelancer) => target = id →
      ∀ invoice ∈ world.book.invoices id, newFreelancer ≠ invoice.payer
  | _ => True

instance (id : Nat) (world : World) (action : Action contract) :
    Decidable (AdmittedWrite id world action) := by
  unfold AdmittedWrite
  split <;> infer_instance

/-- A call that fails writes nothing, whatever it asks for. -/
def WritesAdmitted (id : Nat) (world : World) (action : Action contract) : Prop :=
  succeeds world action = true → AdmittedWrite id world action

instance (id : Nat) (world : World) (action : Action contract) :
    Decidable (WritesAdmitted id world action) :=
  inferInstanceAs (Decidable (_ → _))

variable {world : World} {id : Nat} {invoice : Invoice} {notes : TermNotes}

theorem writes_of_same (kind : Call → Bool)
    (same : (step world action).book.invoices id = world.book.invoices id)
    (quiet : action.target ≠ some id ∨ succeeds world action = false) :
    writes kind id world action = false := by
  unfold writes
  rw [same]
  have old : ((world.book.invoices id).isNone && (world.book.invoices id).isSome) = false := by
    cases world.book.invoices id <;> rfl
  rw [old, Bool.false_or]
  cases action with
  | credit | advance => rfl
  | invoke env call =>
    rcases quiet with elsewhere | failed
    · have other : (call.target == some id) = false := beq_eq_false_iff_ne.mpr elsewhere
      simp only [other, Bool.and_false, Bool.false_and]
    · simp only [failed, Bool.and_false]

theorem Change.same_terms {file after : File} {moves : List Movement}
    (change : Change env world id call file after moves) (plain : call.edits = false) :
    after.invoice.freelancer = file.invoice.freelancer ∧ after.invoice.payer = file.invoice.payer ∧
      after.invoice.discountRate = file.invoice.discountRate ∧
      after.invoice.amount = file.invoice.amount := by
  cases change with
  | edited _ _ _ _ _ edits =>
    rw [plain] at edits
    cases edits
  | _ => exact ⟨rfl, rfl, rfl, rfl⟩

theorem termsKept_of_added {reputation : Nat} (small : SmallDecimals world.control.tokenDecimals)
    (admitted : BatchAdmits env world params) (passed : SubmitAdmits world.control params) :
    TermsKept ⟨world.control.maxInvoiceAmount, world.control.tokenDecimals params.token⟩
      (newInvoice id params reputation) := by
  obtain ⟨positive, decimals, registered, large⟩ := validTerms_spec admitted.2.2
  obtain ⟨foreign, bounded, capped⟩ := passed
  rw [tenPow_eq (small _ _ registered)] at large
  exact ⟨foreign, ⟨positive, bounded⟩, ⟨decimals, registered, large⟩,
    fun limited => not_lt.mp fun exceeded =>
    capped ⟨limited, exceeded⟩⟩

theorem noteTerms_of_changed (stored : world.book.invoices id = some invoice)
    (aimed : call.target = some id) (ran : succeeds world (.invoke env call) = true) :
    noteTerms id world (.invoke env call) notes =
      ⟨if call.rewritesAmount then world.control.maxInvoiceAmount else notes.cap,
        if call.rewritesFloor then
          ((step world (.invoke env call)).book.invoices id).bind fun invoice =>
          world.control.tokenDecimals invoice.token else notes.decimals⟩ := by
  simp [noteTerms, writes, stored, aimed, ran]

theorem edited_termsKept (filed : Filed world.book)
    (small : SmallDecimals world.control.tokenDecimals)
    (admitted : AdmittedWrite id world (.invoke env call))
    (stored : world.book.invoices id = some invoice) (aimed : call.target = some id)
    (ran : succeeds world (.invoke env call) = true) (edits : call.edits = true)
    (held : TermsKept notes invoice) :
    ∀ after ∈ (step world (.invoke env call)).book.invoices id,
      TermsKept (noteTerms id world (.invoke env call) notes) after := by
  rw [noteTerms_of_changed stored aimed ran]
  have finished := invoke_of_succeeds ran
  intro after now
  cases call with
  | updateInvoice =>
    cases aimed
    obtain ⟨written, positive, decimals, registered, large⟩ :=
      updateInvoice_spec filed stored (invoke_runs rfl finished)
    obtain ⟨bounded, capped⟩ := admitted rfl
    cases written.symm.trans now
    rw [tenPow_eq (small _ _ registered)] at large
    refine ⟨held.parties, ⟨positive, bounded⟩, ⟨decimals, ?_, large⟩, ?_⟩
    · simp only [Call.rewritesFloor, if_true, written, Option.bind_some, registered]
    · intro limited
      exact not_lt.mp fun exceeded => capped ⟨limited, exceeded⟩
  | convertInvoiceToken =>
    cases aimed
    obtain ⟨written, decimals, registered⟩ := convertInvoiceToken_spec filed stored
      (invoke_runs rfl finished)
    cases written.symm.trans now
    refine ⟨held.parties, held.rate,
      ⟨decimals, ?_, admitted rfl invoice stored decimals registered⟩, held.capped⟩
    simp only [Call.rewritesFloor, if_true, written, Option.bind_some, registered]
  | transferInvoice =>
    cases aimed
    have written := transferInvoice_spec filed stored (invoke_runs rfl finished)
    cases written.symm.trans now
    exact ⟨admitted rfl invoice stored, held.rate, held.floor, held.capped⟩
  | _ => cases edits

theorem target_of_fresh (filed : Filed world.book) (absent : world.book.invoices id = none)
    (now : (step world action).book.invoices id = some invoice) : action.target = none := by
  have missing := file_eq_none.mpr absent
  have found := file_of_invoice now
  cases (step_effect action filed).1 with
  | idle files =>
    rw [files, missing] at found
    cases found
  | credited | probed | claimed => rfl
  | submitted _ _ aimless => exact aimless
  | changed _ _ other _ _ _ _ _ stored files =>
    rw [files] at found
    by_cases here : id = other
    · subst here
      rw [missing] at stored
      cases stored
    · rw [update_of_ne here, missing] at found
      cases found

theorem fresh_termsKept (filed : Filed world.book)
    (small : SmallDecimals world.control.tokenDecimals)
    (admitted : AdmittedWrite id world (.invoke env call)) (absent : world.book.invoices id = none)
    (now : (step world (.invoke env call)).book.invoices id = some invoice)
    (ran : succeeds world (.invoke env call) = true) :
    TermsKept (noteTerms id world (.invoke env call) notes) invoice := by
  have aimless := target_of_fresh filed absent now
  obtain ⟨⟨params, listed, valid, _, made⟩, alone⟩ :=
    invoke_added (invoke_of_succeeds ran) aimless absent now
  have noted : noteTerms id world (.invoke env call) notes =
      ⟨world.control.maxInvoiceAmount, world.control.tokenDecimals params.token⟩ := by
    simp [noteTerms, writes, absent, now, made, newInvoice]
  rw [noted, made]
  refine termsKept_of_added small valid ?_
  -- of a batch it is assumed what a single submission checks
  cases call with
  | submitInvoice =>
    cases List.mem_singleton.mp listed
    exact alone params rfl
  | submitInvoicesBatch => exact admitted absent _ (made ▸ now)
  | _ => cases listed

theorem step_termsKept (action : Action contract) (filed : Filed world.book)
    (small : SmallDecimals world.control.tokenDecimals) (admitted : WritesAdmitted id world action)
    (held : ∀ invoice ∈ world.book.invoices id, TermsKept notes invoice) :
    ∀ invoice ∈ (step world action).book.invoices id,
      TermsKept (noteTerms id world action notes) invoice := by
  intro invoice now
  cases step_touch action filed id with
  | same unchanged _ quiet =>
    have same : (step world action).book.invoices id = world.book.invoices id := by
      rw [← invoices_of_file, unchanged, invoices_of_file]
    have silent : noteTerms id world action notes = notes := by
      simp only [noteTerms, writes_of_same _ same quiet, Bool.false_eq_true, if_false]
    rw [silent]
    exact held invoice (same ▸ now)
  | fresh _ absent =>
    have missing := file_eq_none.mp absent
    cases action with
    | credit | advance => cases missing.symm.trans now
    | invoke env call =>
      cases finished : succeeds world (.invoke env call) with
      | false =>
        rw [step_of_failed finished] at now
        cases missing.symm.trans now
      | true => exact fresh_termsKept filed small (admitted finished) missing now finished
  | changed env call file after invoked aimed ran stored written change =>
    subst invoked
    have found : world.book.invoices id = some file.invoice := by
      rw [← invoices_of_file, stored]; rfl
    cases edits : call.edits with
    | true => exact edited_termsKept filed small (admitted ran) found aimed ran edits (held
        _ found) invoice now
    | false =>
      have kinds : call.rewritesAmount = false ∧ call.rewritesFloor = false := by
        cases call <;> first | exact ⟨rfl, rfl⟩ | cases edits
      rw [noteTerms_of_changed found aimed ran, kinds.1, kinds.2]
      obtain ⟨freelancer, payer, rate, amount⟩ := change.same_terms edits
      have same : after.invoice = invoice := by
        rw [← invoices_of_file, written] at now
        exact Option.some.inj now
      rw [same] at freelancer payer rate amount
      have kept := held _ found
      exact ⟨by rw [freelancer, payer]; exact kept.parties, by rw [rate]; exact kept.rate,
        by rw [amount]; exact kept.floor, by rw [amount]; exact kept.capped⟩

end Notes

/-- In every run whose writes of the invoice are admitted, it keeps to the limits of its last
write. -/
theorem terms_kept (clock : Clock) (balance : Balances) (id : Nat)
    {actions : List (Action contract)}
    (admitted : Along step (WritesAdmitted id) (genesis clock balance) actions) {invoice : Invoice}
    (stored : (reach clock balance actions).book.invoices id = some invoice) :
    TermsKept (noted step (noteTerms id) ⟨0, none⟩ (genesis clock balance) actions) invoice := by
  have all : Filed (reach clock balance actions).book ∧
      SmallDecimals (reach clock balance actions).control.tokenDecimals ∧
      ∀ invoice ∈ (reach clock balance actions).book.invoices id,
        TermsKept (noted step (noteTerms id) ⟨0, none⟩ (genesis clock balance) actions)
        invoice := by
    refine noted_induct (fun (notes : TermNotes) (world : World) => Filed world.book ∧
      SmallDecimals world.control.tokenDecimals ∧ ∀ invoice ∈ world.book.invoices id,
      TermsKept notes invoice) ?_
      ⟨genesis_filed clock balance, (by rintro _ _ ⟨⟩), (by rintro _ ⟨⟩)⟩
      admitted
    rintro notes world action ⟨filed, small, held⟩ met
    exact ⟨(step_effect action filed).2, step_small action small,
      step_termsKept action filed small met held⟩
  exact all.2.2 invoice stored

def editedBill : List (Action ⟨0⟩) :=
  openingCalls 1000000 300 ++
    [signedBy [1] (.setMaxInvoiceAmount 5000000),
      signedBy [5] (.updateInvoice ⟨5⟩ 1 2000000 200000 400),
      signedBy [5] (.transferInvoice 1 ⟨6⟩), signedBy [6] (.convertInvoiceToken ⟨6⟩ 1 ⟨11⟩),
      -- a transfer to the payer that nobody signed, and an invoice that the payer writes on itself
      signedBy [] (.transferInvoice 1 ⟨2⟩),
      signedBy [2] (.submitInvoicesBatch [{ bill 3000000 500 with freelancer := ⟨2⟩ }])]

theorem terms_kept_of_editedBill :
    ((traded editedBill).book.invoices 2).isSome = true ∧
      ∃ invoice, (traded editedBill).book.invoices 1 = some invoice ∧
        invoice.token = ⟨11⟩ ∧ TermsKept ⟨5000000, some 6⟩ invoice := by
  have admitted : Along step (WritesAdmitted 1) market editedBill := by decide +kernel
  have notes : noted step (noteTerms 1) ⟨0, none⟩ market editedBill =
    ⟨5000000, some 6⟩ := by decide +kernel
  have stored : ∃ invoice, (traded editedBill).book.invoices 1 = some invoice ∧
      invoice.token = ⟨11⟩ :=
    ⟨{ newInvoice 1 (bill 2000000 400) 50 with
      freelancer := ⟨6⟩, token := ⟨11⟩, dueDate := 200000 }, by decide +kernel⟩
  obtain ⟨invoice, found, token⟩ := stored
  have kept := terms_kept ⟨1000, 10⟩ marketBalances 1 admitted found
  exact ⟨by decide +kernel, invoice, found, token, notes ▸ kept⟩

def mainnetAdmin : Env ⟨0⟩ := { stellarHost ⟨0⟩ [⟨1⟩] [] with decimals := fun _ => some 7 }

/-- Correcting the decimals of the token leaves the stored amount below the new floor. -/
theorem corrected_decimals_raise_floor :
    let before := traded (openingCalls 1000000 300)
    let after := step before (.invoke mainnetAdmin (.correctTokenDecimals ⟨10⟩ 7))
    before.control.tokenDecimals ⟨10⟩ = some 6 ∧ after.control.tokenDecimals ⟨10⟩ = some 7 ∧
      ∃ invoice ∈ after.book.invoices 1, invoice.token = ⟨10⟩ ∧ ¬ 10 ^ 7 ≤ invoice.amount := by
  decide +kernel

end InvoiceLiquidity
