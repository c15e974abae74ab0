import Iln.Invoice.File

/-! Every step of the contract, seen from its files. `step_effect` is where the entry points are
unfolded; what follows from a step is read off `Effect` and `Change` everywhere else. -/
namespace InvoiceLiquidity

open Outcome FixedWidth Transition Function

variable {contract : Address} {world next : World} {book : Book} {file : File} {token : Address}
variable {dueDate discountRate : Nat} {params : InvoiceParams} {id : Nat} {call : Call}
  {env : Env contract}
variable {amount : Int} {action : Action contract} {invoice : Invoice} {control : Control}
  {funder : Address}
variable {before after : Treasury} {actions : List (Action contract)}
  {condition : World → Action contract → Prop}

theorem Filed.tryLoadInvoice (filed : Filed book) (id : Nat) :
    book.tryLoadInvoice id = book.invoices id := by
  simp [Book.tryLoadInvoice, filed.unsplit id]

theorem file_of_invoice (stored : book.invoices id = some invoice) :
    book.file id = some ⟨invoice, book.funders id, book.disputes id, book.appeals id⟩ := by
  simp [Book.file, stored]

theorem file_eq_none : book.file id = none ↔ book.invoices id = none := by
  simp [Book.file]

structure Revises (before after : Book) (id : Nat) (file : File) : Prop where
  core : after.core = before.core
  next : after.nextInvoiceId = before.nextInvoiceId
  here : after.file id = some file
  elsewhere : ∀ other, other ≠ id → after.invoices other = before.invoices other ∧
    after.funders other = before.funders other ∧ after.disputes other = before.disputes other ∧
    after.appeals other = before.appeals other

theorem Revises.file_eq {before after : Book} (revises : Revises before after id file) :
    after.file = update before.file id (some file) := by
  funext other
  by_cases same : other = id
  · subst same
    rw [update_self, revises.here]
  · obtain ⟨invoices, funders, disputes, appeals⟩ := revises.elsewhere other same
    rw [update_of_ne same, Book.file, Book.file, invoices, funders, disputes, appeals]

theorem Revises.filed {before after : Book} {old file : File}
    (revises : Revises before after id file) (filed : Filed before)
    (stored : before.file id = some old) (named : file.invoice.id = id) : Filed after := by
  have here : after.invoices id = some file.invoice := by
    obtain ⟨invoice, found, same⟩ := Option.map_eq_some_iff.mp revises.here
    rw [found, ← same]
  constructor
  · intro other
    rw [revises.core]
    exact filed.unsplit other
  · intro other invoice found
    by_cases same : other = id
    · subst same
      rw [here] at found
      cases found
      exact named
    · rw [(revises.elsewhere other same).1] at found
      exact filed.named other invoice found
  · intro other late
    rw [Book.nextId, revises.next] at late
    have absent := filed.below other late
    by_cases same : other = id
    · subst same
      rw [file_eq_none.mpr absent] at stored
      cases stored
    · rw [(revises.elsewhere other same).1]
      exact absent
  · intro other absent
    by_cases same : other = id
    · subst same
      rw [here] at absent
      cases absent
    · obtain ⟨invoices, funders, disputes, appeals⟩ := revises.elsewhere other same
      rw [invoices] at absent
      rw [funders, disputes, appeals]
      exact filed.blank other absent

section EntryPoints

def Acts (env : Env contract) (world next : World) (call : Call) (id : Nat) : Prop :=
  ∃ file after moves, world.book.file id = some file ∧ Revises world.book next.book id after ∧
    after.invoice.id = id ∧ Change env world id call file after moves ∧
    Carries env moves world.treasury next.treasury

theorem signed_foreign {address : Address} (signed : env.signed address = true) :
    address ≠ contract := by
  intro same
  rw [same, env.unsigned] at signed
  cases signed

theorem saveInvoice_revises (book : Book) (invoice : Invoice) (named : invoice.id = id) :
    Revises book (book.saveInvoice invoice) id
      ⟨invoice, book.funders id, book.disputes id, book.appeals id⟩ where
  core := rfl
  next := rfl
  here := by simp [Book.file, Book.saveInvoice, named]
  elsewhere := by
    intro other different
    simp [Book.saveInvoice, named, different]

theorem tenPow_pos (exponent : Nat) : 1 ≤ tenPow exponent := by
  induction exponent with
  | zero => exact le_refl 1
  | succ =>
    have top : (1 : Int) ≤ i128.hi := by decide
    exact le_max_of_le_right (le_min top (by omega))

theorem validTerms_positive {clock : Clock} {passed : Unit}
    (valid : validateInvoiceTermsWithToken clock control amount dueDate discountRate token =
      .ok passed) :
    1 ≤ amount := by
  simp only [validateInvoiceTermsWithToken, validateInvoiceTermsForMin, ok_iff] at valid
  obtain ⟨decimals, _, _, large, _⟩ := valid
  exact (tenPow_pos decimals).trans large

theorem fits_of_termsFit {discountRate : Nat} (typed : termsFit amount discountRate = true) :
    Fits i128 amount := by
  simp only [termsFit, Bool.and_eq_true, decide_eq_true_eq] at typed
  exact typed.1

theorem upholdDispute_carries {funders : List (Address × Int)}
    (ran : upholdDispute env invoice before funders = .ok after) :
    Carries env (payments env invoice.token (discounted · invoice.discountRate) funders ++
      payment env invoice.token invoice.payer invoice.amountPaid) before after := by
  simp only [upholdDispute, ok_iff] at ran
  obtain ⟨middle, refunded, ran⟩ := ran
  refine (payEach_carries refunded).trans ?_
  split at ran
  · exact payOrEscrow_carries ran
  · rename_i nothing
    cases ran
    rw [payment, if_pos (by omega)]
    exact .refl env _

theorem recordFunding_ok {clock : Clock} {invoice funded : Invoice} {prospective : Int}
    (ran : recordFunding env clock before invoice funder prospective = .ok (after, funded)) :
    (prospective = invoice.amount ∧ funded = { invoice with
        amountFunded := prospective
        status := .funded
        fundedAt := some clock.timestamp
        funder := some funder } ∧
      Carries env (strictPayment contract invoice.token invoice.freelancer
        (discounted invoice.amount invoice.discountRate)) before after) ∨
    (prospective ≠ invoice.amount ∧
      funded = { invoice with amountFunded := prospective, status := .partiallyFunded } ∧
      after = before) := by
  unfold recordFunding at ran
  split at ran
  · rename_i whole
    simp only [ok_iff, Prod.mk.injEq] at ran
    obtain ⟨_, paid, _, _, rfl, rfl⟩ := ran
    exact .inl ⟨whole, rfl, transferOutStrict_carries paid⟩
  · rename_i short
    simp only [ok_iff, Prod.mk.injEq] at ran
    obtain ⟨rfl, rfl⟩ := ran
    exact .inr ⟨short, rfl, rfl⟩

theorem checkFunding_ok {verify : Bool} {prospective : Int} {scores : ScoreStore}
    {oracle : OracleStore} (ran : checkFunding env world control funder id amount verify =
      .ok (invoice, prospective, scores, oracle)) :
    env.signed funder = true ∧ world.book.tryLoadInvoice id = some invoice ∧
      invoice.Fundable ∧
      prospective = invoice.amountFunded + amount ∧ prospective ≤ invoice.amount := by
  simp only [checkFunding, requireFundable, ok_iff, requireAuth_ok, checked_eq_some,
    Prod.mk.injEq] at ran
  obtain ⟨_, _, _, signed, _, loaded, _, _, _, _, _, _, _, _, _, _, _, fundable, _,
    ⟨_, rfl⟩, _, room, _, _, _, _, _, _, rfl, rfl, _⟩ := ran
  exact ⟨signed, loaded, fundable, rfl, room⟩

theorem saveFunders_revises (book : Book) (funders : List (Address × Int)) (invoice : Invoice)
    (named : invoice.id = id) :
    Revises book ((book.saveInvoiceFunders id funders).saveInvoice invoice) id
      ⟨invoice, funders, book.disputes id, book.appeals id⟩ where
  core := rfl
  next := rfl
  here := by simp [Book.file, Book.saveInvoice, Book.saveInvoiceFunders, named]
  elsewhere := by
    intro other different
    simp [Book.saveInvoice, Book.saveInvoiceFunders, named, different]

theorem saveAppeal_revises (book : Book) (record : AppealRecord) (invoice : Invoice)
    (named : invoice.id = id) :
    Revises book ({ book with appeals := update book.appeals id (some record) }.saveInvoice invoice)
      id ⟨invoice, book.funders id, book.disputes id, some record⟩ where
  core := rfl
  next := rfl
  here := by simp [Book.file, Book.saveInvoice, named]
  elsewhere := by
    intro other different
    simp [Book.saveInvoice, named, different]

theorem saveDispute_revises (book : Book) (record : DisputeRecord) (invoice : Invoice)
    (named : invoice.id = id) :
    Revises book ({ book with disputes := update book.disputes id (some record) }.saveInvoice
      invoice) id
      ⟨invoice, book.funders id, some record, book.appeals id⟩ where
  core := rfl
  next := rfl
  here := by simp [Book.file, Book.saveInvoice, named]
  elsewhere := by
    intro other different
    simp [Book.saveInvoice, named, different]

theorem payFee_carries {fee : Int} (ran : payFee env control before token fee = .ok after) :
    ∃ admin, (0 < fee → control.admin = some admin) ∧
      Carries env (payment env token admin fee) before after := by
  unfold payFee at ran
  split at ran
  · simp only [ok_iff] at ran
    obtain ⟨admin, stored, paid⟩ := ran
    exact ⟨admin, fun _ => stored, payOrEscrow_carries paid⟩
  · rename_i nothing
    cases ran
    refine ⟨contract, fun positive => absurd positive nothing, ?_⟩
    rw [payment, if_pos (by omega)]
    exact .refl env _

variable (filed : Filed world.book)
include filed

theorem Acts.of_save {invoice changed : Invoice} (stored : world.book.invoices id = some invoice)
    (book : next.book = world.book.saveInvoice changed) (named : changed.id = invoice.id)
    {moves : List Movement}
    (change : Change env world id call ⟨invoice, world.book.funders id, world.book.disputes id,
      world.book.appeals id⟩
      ⟨changed, world.book.funders id, world.book.disputes id, world.book.appeals id⟩ moves)
    (carried : Carries env moves world.treasury next.treasury) : Acts env world next call id := by
  have here : changed.id = id := named.trans (filed.named id invoice stored)
  refine ⟨_, _, moves, file_of_invoice stored, ?_, here, change, carried⟩
  rw [book]
  exact saveInvoice_revises world.book changed here

theorem updateInvoice_acts {freelancer : Address} (typed : termsFit amount discountRate = true)
    (ran : updateInvoice env world freelancer id amount dueDate discountRate = .ok next) :
    Acts env world next (.updateInvoice freelancer id amount dueDate discountRate) id := by
  simp only [updateInvoice, loadInvoice, requirePending, ok_iff] at ran
  obtain ⟨_, _, invoice, stored, _, _, _, _, _, pending, _, valid, rfl⟩ := ran
  exact .of_save filed stored rfl rfl
    (.edited invoice.freelancer invoice.token amount dueDate discountRate rfl pending
      (.inr ⟨validTerms_positive valid, fits_of_termsFit typed⟩)) (.refl env _)

theorem convertInvoiceToken_acts {freelancer newToken : Address}
    (ran : convertInvoiceToken env world freelancer id newToken = .ok next) :
    Acts env world next (.convertInvoiceToken freelancer id newToken) id := by
  simp only [convertInvoiceToken, loadInvoice, ok_iff] at ran
  obtain ⟨_, _, invoice, stored, _, _, _, pending, _, _, _, _, _, _, rfl⟩ := ran
  exact .of_save filed stored rfl rfl
    (.edited invoice.freelancer newToken invoice.amount invoice.dueDate invoice.discountRate rfl
      pending (.inl rfl))
    (.refl env _)

theorem transferInvoice_acts {newFreelancer : Address}
    (ran : transferInvoice env world id newFreelancer = .ok next) :
    Acts env world next (.transferInvoice id newFreelancer) id := by
  simp only [transferInvoice, loadInvoice, requirePending, ok_iff] at ran
  obtain ⟨_, _, invoice, stored, _, _, _, pending, rfl⟩ := ran
  exact .of_save filed stored rfl rfl
    (.edited newFreelancer invoice.token invoice.amount invoice.dueDate invoice.discountRate rfl
      pending (.inl rfl))
    (.refl env _)

theorem expireInvoice_acts (ran : expireInvoice world id = .ok next) :
    Acts env world next (.expireInvoice id) id := by
  simp only [expireInvoice, loadInvoice, requirePending, ok_iff] at ran
  obtain ⟨_, _, _, stored, _, _, _, pending, rfl⟩ := ran
  exact .of_save filed stored rfl rfl (.expired pending) (.refl env _)

theorem cancelInvoice_acts (ran : cancelInvoice env world id = .ok next) :
    Acts env world next (.cancelInvoice id) id := by
  simp only [cancelInvoice, loadInvoice, requireFundable, ok_iff] at ran
  obtain ⟨_, _, _, _, _, stored, _, _, _, fundable, _, refunded, rfl⟩ := ran
  refine .of_save filed stored rfl rfl (.cancelled fundable) ?_
  unfold refundCancelled at refunded
  dsimp only
  split at refunded
  · rename_i partly
    rw [if_pos partly]
    exact payEach_carries refunded
  · rename_i untouched
    rw [if_neg untouched]
    cases refunded
    exact .refl env _

theorem resolveAppeal_acts {upheld : Bool} (ran : resolveAppeal env world id upheld = .ok next) :
    Acts env world next (.resolveAppeal id upheld) id := by
  simp only [resolveAppeal, loadInvoice, ok_iff] at ran
  obtain ⟨_, _, _, stored, _, appealed, _, _, _, _, rfl⟩ := ran
  exact .of_save filed stored rfl rfl (.reviewed upheld appealed) (.refl env _)

theorem autoResolveDispute_acts (ran : autoResolveDispute world id = .ok next) :
    Acts env world next (.autoResolveDispute id) id := by
  simp only [autoResolveDispute, loadInvoice, ok_iff] at ran
  obtain ⟨_, stored, _, disputed, _, _, _, _, _, _, _, _, rfl⟩ := ran
  exact .of_save filed stored rfl rfl (.restored rfl disputed) (.refl env _)

theorem resolveDispute_acts {resolution : Nat}
    (ran : resolveDispute env world id resolution = .ok next) :
    Acts env world next (.resolveDispute id resolution) id := by
  simp only [resolveDispute, loadInvoice, ok_iff] at ran
  obtain ⟨_, _, _, _, _, stored, _, disputed, ⟨_, _⟩, decided, _, _, rfl⟩ := ran
  unfold decideDispute at decided
  split at decided
  · simp only [ok_iff, Prod.mk.injEq] at decided
    obtain ⟨_, paid, rfl, rfl⟩ := decided
    exact .of_save filed stored rfl rfl (.upheld disputed) (upholdDispute_carries paid)
  · cases decided
    exact .of_save filed stored rfl rfl (.restored rfl disputed) (.refl env _)
  · cases decided

theorem fundInvoice_acts {verify : Bool}
    (typed : Fits i128 amount) (ran : fundInvoice env world funder id amount verify = .ok next) :
    Acts env world next (.fundInvoice funder id amount verify) id := by
  simp only [fundInvoice, ok_iff] at ran
  obtain ⟨_, _, ⟨invoice, _, _, _⟩, checked, ran⟩ := ran
  obtain ⟨_, paidIn, ⟨_, _⟩, recorded, _, _, _, _, finished⟩ := ran
  obtain ⟨signed, loaded, fundable, rfl, room⟩ := checkFunding_ok checked
  rw [filed.tryLoadInvoice] at loaded
  have foreign := signed_foreign signed
  have accepted := (transfer_ok.mp paidIn).1
  have takenIn := transfer_in_carries foreign paidIn
  have named := filed.named id invoice loaded
  cases finished
  rcases recordFunding_ok recorded with ⟨whole, rfl, paidOut⟩ | ⟨short, rfl, rfl⟩
  · refine ⟨_, _, _, file_of_invoice loaded, saveFunders_revises _ _ _ named, named, ?_,
      takenIn.trans paidOut⟩
    rw [whole]
    exact .completed funder amount verify fundable typed whole foreign accepted
  · exact ⟨_, _, _, file_of_invoice loaded, saveFunders_revises _ _ _ named, named,
      .contributed funder amount verify fundable typed (lt_of_le_of_ne room short) foreign accepted,
      takenIn⟩

theorem transferLpPosition_acts {newLp : Address}
    (ran : transferLpPosition env world id newLp = .ok next) :
    Acts env world next (.transferLpPosition id newLp) id := by
  simp only [transferLpPosition, loadInvoice, ok_iff] at ran
  obtain ⟨_, _, invoice, stored, _, funded, current, held, _, _, _, _, _, _, rfl⟩ := ran
  have named := filed.named id invoice stored
  exact ⟨_, _, _, file_of_invoice stored, saveFunders_revises _ _ _ named, named,
    .renamed current newLp funded held, .refl env _⟩

theorem claimDefault_acts (ran : claimDefault env world funder id = .ok next) :
    Acts env world next (.claimDefault funder id) id := by
  simp only [claimDefault, loadInvoice, ok_iff] at ran
  obtain ⟨_, _, _, _, _, _, invoice, stored, _, _, _, _, _, funded, _, _, _, refunded, rfl⟩ := ran
  have named := filed.named id invoice stored
  have revises := saveInvoice_revises world.book { invoice with status := .defaulted } named
  exact ⟨_, _, _, file_of_invoice stored, ⟨revises.core, revises.next, revises.here,
    revises.elsewhere⟩, named,
    .defaulted funder funded, payEach_carries refunded⟩

theorem appealDefault_acts {evidenceHash : Hash}
    (ran : appealDefault env world id evidenceHash = .ok next) :
    Acts env world next (.appealDefault id evidenceHash) id := by
  simp only [appealDefault, loadInvoice, ok_iff, Option.isNone_iff_eq_none] at ran
  obtain ⟨_, _, invoice, stored, _, _, _, first, _, defaulted, _, _, _, _, _, _, rfl⟩ := ran
  have named := filed.named id invoice stored
  exact ⟨_, _, _, file_of_invoice stored, saveAppeal_revises _ _ _ named, named,
    .appealed evidenceHash _ defaulted first, .refl env _⟩

theorem disputeInvoice_acts {reasonHash : Hash}
    (ran : disputeInvoice env world id reasonHash = .ok next) :
    Acts env world next (.disputeInvoice id reasonHash) id := by
  simp only [disputeInvoice, loadInvoice, ok_iff, Option.isNone_iff_eq_none] at ran
  obtain ⟨_, _, invoice, stored, _, _, _, first, _, disputable, _, _, rfl⟩ := ran
  have named := filed.named id invoice stored
  exact ⟨_, _, _, file_of_invoice stored, saveDispute_revises _ _ _ named, named,
    .disputed reasonHash _ disputable first, .refl env _⟩

theorem checkPayment_ok {paid : Int} {primary : Address × Int}
    (ran : checkPayment env world control id amount = .ok (invoice, paid, primary)) :
    world.book.invoices id = some invoice ∧ env.signed invoice.payer = true ∧ 0 < amount ∧
      invoice.status = .funded ∧ (world.book.funders id).head? = some primary ∧
      paid = invoice.amountPaid + amount ∧ paid ≤ invoice.amount := by
  simp only [checkPayment, loadInvoice, filed.tryLoadInvoice, ok_iff, requireAuth_ok,
    checked_eq_some, Prod.mk.injEq] at ran
  obtain ⟨_, _, _, positive, invoice, loaded, twin, stored, _, signed, _, funded, _, room, _, first,
    _, ⟨_, rfl⟩, _, _, rfl, rfl, rfl⟩ := ran
  rw [loaded] at stored
  cases stored
  have enough := le_of_le_saturate positive room
  exact ⟨loaded, signed, positive, funded, first, rfl, by omega⟩

theorem markPaid_acts (ran : Prod.fst <$> markPaid env world id amount = .ok next) :
    Acts env world next (.markPaid id amount) id := by
  simp only [markPaid, ok_iff, lockReentrancy_ok] at ran
  obtain ⟨⟨_, _⟩, ⟨_, ⟨_, rfl⟩, ⟨invoice, _, primary⟩, checked, _, received,
    ran⟩, rfl⟩ := ran
  obtain ⟨stored, signed, positive, funded, first, rfl, room⟩ := checkPayment_ok filed checked
  have named := filed.named id invoice stored
  have foreign := signed_foreign signed
  have takenIn := transfer_in_carries foreign received
  split at ran
  · rename_i short
    simp only [recordInstalment, ok_iff] at ran
    obtain ⟨_, ⟨_, _, rfl⟩, ⟨⟩⟩ := ran
    exact .of_save filed stored rfl rfl (.instalment amount funded positive short foreign) takenIn
  · rename_i reached
    have whole : invoice.amountPaid + amount = invoice.amount :=
      le_antisymm room (not_lt.mp reached)
    simp only [settleInFull, ok_iff, checked_eq_some] at ran
    obtain ⟨_, ⟨_, feePaid, _, ⟨fits, _⟩, _, _, _, _, _, shared, _, _, rfl⟩, ⟨⟩⟩ := ran
    obtain ⟨admin, _, fee⟩ := payFee_carries feePaid
    refine .of_save filed stored rfl rfl ?_ (takenIn.trans (fee.trans (payEach_carries shared)))
    rw [whole]
    exact .settled amount admin primary funded positive whole first fits foreign

end EntryPoints

structure Grows (before after : Book) : Prop where
  kept : ∀ id file, before.file id = some file → after.file id = some file
  fresh : ∀ id file, after.file id = some file →
    before.file id = some file ∨ (before.file id = none ∧ file.Fresh)

theorem Grows.refl (book : Book) : Grows book book where
  kept := fun _ _ stored => stored
  fresh := fun _ _ stored => .inl stored

theorem Grows.trans {before middle after : Book} (first : Grows before middle)
    (second : Grows middle after) :
    Grows before after where
  kept := fun id file stored => second.kept id file (first.kept id file stored)
  fresh := by
    intro id file stored
    rcases second.fresh id file stored with old | ⟨absent, fresh⟩
    · exact first.fresh id file old
    · refine .inr ⟨?_, fresh⟩
      cases found : before.file id with
      | none => rfl
      | some earlier =>
        rw [first.kept id earlier found] at absent
        cases absent

structure Submits (world next : World) : Prop where
  filed : Filed next.book
  grows : Grows world.book next.book
  money : next.treasury = world.treasury

theorem recordSubmission_submits
    (filed : Filed world.book) (positive : 1 ≤ params.amount) (typed : Fits i128 params.amount)
    (ran : recordSubmission world params = .ok (next, id)) : Submits world next := by
  simp only [recordSubmission, Book.takeId, ok_iff, Prod.mk.injEq] at ran
  obtain ⟨⟨book, taken⟩, ⟨_, _, rfl, rfl⟩, stats, _, rfl, rfl⟩ := ran
  have vacant := filed.below world.book.nextId le_rfl
  obtain ⟨funders, disputes, appeals⟩ := filed.blank _ vacant
  generalize reputation : (getPayerScore world.clock world.control.config world.scores
    params.freelancer).2 = score
  -- the identifier was vacant, so nothing is overwritten
  have here : ∀ other,
      ({ world.book with nextInvoiceId := some (world.book.nextId + 1) }.saveInvoice
        (newInvoice world.book.nextId params score)).invoices other =
        if other = world.book.nextId then some (newInvoice world.book.nextId params score)
        else world.book.invoices other := by
    intro other
    simp [Book.saveInvoice, newInvoice, update_apply]
  refine ⟨⟨filed.unsplit, ?_, ?_, ?_⟩, ⟨?_, ?_⟩, rfl⟩
  · intro other invoice found
    rw [here] at found
    split at found
    · rename_i same
      cases found
      exact same.symm
    · exact filed.named other invoice found
  · intro other late
    have later : world.book.nextId + 1 ≤ other := late
    rw [here, if_neg (by omega)]
    exact filed.below other (by omega)
  · intro other absent
    rw [here] at absent
    split at absent
    · cases absent
    · exact filed.blank other absent
  · intro other file stored
    have different : other ≠ world.book.nextId := by
      intro same
      rw [same, file_eq_none.mpr vacant] at stored
      cases stored
    rw [Book.file, here, if_neg different]
    exact stored
  · intro other file stored
    by_cases same : other = world.book.nextId
    · subst same
      refine .inr ⟨file_eq_none.mpr vacant, world.book.nextId, params, score, ?_, positive, typed⟩
      rw [Book.file, here, if_pos rfl] at stored
      cases stored
      simp only [Book.saveInvoice, funders, disputes, appeals]
    · rw [Book.file, here, if_neg same] at stored
      exact .inl stored

theorem submitInvoice_submits (filed : Filed world.book)
    (typed : termsFit params.amount params.discountRate = true)
    (ran : submitInvoice env world params = .ok (next, id)) : Submits world next := by
  simp only [submitInvoice, ok_iff] at ran
  obtain ⟨_, _, _, _, _, _, _, _, _, _, _, _, _, valid, recorded⟩ := ran
  exact recordSubmission_submits filed (validTerms_positive valid) (fits_of_termsFit typed) recorded

theorem submitInvoicesBatch_submits {invoices : List InvoiceParams} {ids : List Nat}
    (filed : Filed world.book)
    (typed : ∀ params ∈ invoices, termsFit params.amount params.discountRate = true)
    (ran : submitInvoicesBatch env world invoices = .ok (next, ids)) : Submits world next := by
  simp only [submitInvoicesBatch, ok_iff] at ran
  obtain ⟨_, _, _, _, looped⟩ := ran
  -- Each record of the batch submits to the book the earlier ones left.
  have chained := forEach_induct (motive := fun items start finish =>
    (∀ params ∈ items, termsFit params.amount params.discountRate = true) → Filed start.1.book →
      Submits start.1 finish.1) ?_ ?_ invoices (world, []) (next, ids) looped
  · exact chained typed filed
  · intro start _ filed
    exact ⟨filed, .refl _, rfl⟩
  · intro params rest start middle finish submitted remaining typed filed
    simp only [submitBatchItem, ok_iff] at submitted
    obtain ⟨_, _, _, _, _, valid, ⟨world, id⟩, recorded, rfl⟩ := submitted
    have first := recordSubmission_submits filed (validTerms_positive valid)
      (fits_of_termsFit (typed params List.mem_cons_self)) recorded
    have second := remaining (fun other member => typed other (List.mem_cons_of_mem _ member))
      first.filed
    exact ⟨second.filed, first.grows.trans second.grows, second.money.trans first.money⟩

def Call.target : Call → Option Nat
  | .updateInvoice _ id _ _ _ | .convertInvoiceToken _ id _ | .fundInvoice _ id _ _
  | .transferInvoice id _ | .transferLpPosition id _ | .cancelInvoice id | .expireInvoice id
  | .markPaid id _ | .claimDefault _ id | .appealDefault id _ | .resolveAppeal id _
  | .disputeInvoice id _ | .resolveDispute id _ | .autoResolveDispute id => some id
  | _ => none

def Action.target : Action contract → Option Nat
  | .invoke _ call => call.target
  | .credit _ _ _ | .advance _ _ => none

def succeeds (world : World) : Action contract → Bool
  | .invoke env call => (invoke env world call).isOk
  | .credit _ _ _ | .advance _ _ => true

theorem step_invoke : step world (.invoke env call) = settled world (invoke env world call) := by
  simp only [step]
  cases invoke env world call <;> rfl

theorem invoke_of_succeeds (finished : succeeds world (.invoke env call) = true) :
    invoke env world call = .ok (step world (.invoke env call)) := by
  rw [step_invoke]
  exact eq_ok_settled world finished

theorem returns_of_succeeds (finished : succeeds world (.invoke env call) = true) :
    ∃ after, invoke env world call = .ok after := ⟨_, invoke_of_succeeds finished⟩

theorem succeeds_of_invoke (ran : invoke env world call = .ok next) :
    succeeds world (.invoke env call) = true := isOk_of_eq ran

theorem step_of_invoke (ran : invoke env world call = .ok next) :
    step world (.invoke env call) = next := by
  simp only [step, ran]

theorem step_of_failed (failed : succeeds world (.invoke env call) = false) :
    step world (.invoke env call) = world := by
  rw [step_invoke]
  exact settled_of_failed world failed

/-- A property that neither the balances nor the clock enter is kept by an action as soon as it is
kept by a call that returned. -/
theorem step_keeps (property : World → Prop) (action : Action contract)
    (called : ∀ env call, action = .invoke env call → invoke env world call =
      .ok (step world action) → property (step world action))
    (aside : ∀ treasury clock, property { world with treasury, clock }) :
    property (step world action) := by
  cases action with
  | credit => exact aside _ world.clock
  | advance => exact aside world.treasury _
  | invoke env call =>
    cases finished : succeeds world (.invoke env call) with
    | true => exact called env call rfl (invoke_of_succeeds finished)
    | false =>
      rw [step_of_failed finished]
      exact aside world.treasury world.clock

inductive Effect (world next : World) : Action contract → Prop
  | idle {action : Action contract} (files : next.book.file = world.book.file)
      (money : next.treasury = world.treasury)
      (quiet : action.target = none ∨ succeeds world action = false) : Effect world next action
  | credited (token holder : Address) (amount : Int) (files : next.book.file = world.book.file)
      (money : next.treasury = creditHolder contract world.treasury token holder amount) :
      Effect world next (.credit token holder amount)
  | probed (env : Env contract) (token admin : Address) (decimals : Nat)
      (files : next.book.file = world.book.file) (foreign : admin ≠ contract)
      (carried : Carries env [.transfer token admin contract 1000000,
        .transfer token contract admin 1000000]
        world.treasury next.treasury) :
      Effect world next (.invoke env (.addToken token decimals))
  | claimed (env : Env contract) (recipient token : Address) (amount : Int)
      (files : next.book.file = world.book.file)
      (money : claimPending env world.treasury recipient token = .ok (next.treasury, amount)) :
      Effect world next (.invoke env (.claimPendingPayout recipient token))
  | submitted (env : Env contract) (call : Call) (aimless : call.target = none)
      (grows : Grows world.book next.book) (money : next.treasury = world.treasury) :
      Effect world next (.invoke env call)
  | changed (env : Env contract) (call : Call) (id : Nat) (file after : File)
      (moves : List Movement)
      (aimed : call.target = some id) (returned : succeeds world (.invoke env call) = true)
      (stored : world.book.file id = some file)
      (files : next.book.file = update world.book.file id (some after))
      (change : Change env world id call file after moves)
      (carried : Carries env moves world.treasury next.treasury) :
      Effect world next (.invoke env call)

theorem addToken_probed {decimals : Nat} (ran : addToken env world token decimals = .ok next) :
    next.book = world.book ∧ ∃ admin, admin ≠ contract ∧
      Carries env [.transfer token admin contract 1000000, .transfer token contract admin 1000000]
        world.treasury next.treasury := by
  simp only [addToken, ok_iff] at ran
  obtain ⟨control, begun, admin, stored, _, _, _, _, received, paidIn, _, _, treasury,
    paidOut, rfl⟩ := ran
  obtain ⟨same, signer, found, signed⟩ := beginAdminCall_admin begun
  rw [same, found] at stored
  cases stored
  have foreign := signed_foreign signed
  have takenIn := transfer_in_carries foreign paidIn
  refine ⟨rfl, admin, foreign, ?_, ?_⟩
  · obtain ⟨_, rfl⟩ := transfer_ok.mp paidOut
    simp only [takenIn.log, List.append_assoc, List.cons_append, List.nil_append]
  · intro law sound
    have first := takenIn.balanced law sound
    -- The probe spends exactly what it brought in, so it needs no check of its own.
    have enough : 1000000 ≤ received.free contract token := by
      have grown := first.covered token
      have start := sound.covered token
      simp only [kept_cons, kept_nil, Movement.kept, foreign, Treasury.free] at grown
      simp only [Treasury.free] at grown ⊢
      simp at grown
      omega
    exact (takenIn.trans (transfer_out_carries enough paidOut)).balanced law sound

theorem Acts.effect (filed : Filed world.book)
    (aimed : call.target = some id) (ran : succeeds world (.invoke env call) = true)
    (acts : Acts env world next call id) : Effect world next (.invoke env call) ∧
      Filed next.book := by
  obtain ⟨file, after, moves, stored, revises, named, change, carried⟩ := acts
  exact ⟨.changed env call id file after moves aimed ran stored revises.file_eq change carried,
    revises.filed filed stored named⟩

theorem Submits.effect (aimless : call.target = none)
    (submits : Submits world next) : Effect world next (.invoke env call) ∧ Filed next.book :=
  ⟨.submitted env call aimless submits.grows submits.money, submits.filed⟩

theorem effect_of_same (filed : Filed world.book)
    (book : next.book = world.book) (money : next.treasury = world.treasury)
    (quiet : action.target = none ∨ succeeds world action = false) :
    Effect world next action ∧ Filed next.book := by
  rw [book]
  exact ⟨.idle (by rw [book]) money quiet, filed⟩

def Call.queueTarget : Call → Option Nat
  | .joinFundQueue _ id | .resolveFundQueue id | .recoverFundQueue id => some id
  | _ => none

theorem invokeWorld_queue (aimed : call.queueTarget = some id)
    (ran : invokeWorld env world call = .ok next) :
    ∃ queue, next = { world with queue } := by
  cases call with
  | joinFundQueue =>
    simp only [invokeWorld, joinFundQueue, ok_iff] at ran
    obtain ⟨_, _, _, _, _, _, _, _, _, _, _, _, _, _, _, _, _, _, rfl⟩ := ran
    exact ⟨_, rfl⟩
  | resolveFundQueue =>
    simp only [invokeWorld, resolveFundQueue, ok_iff] at ran
    obtain ⟨_, ⟨_, _, _, _, resolved⟩, rfl⟩ := ran
    split at resolved
    · cases resolved
      exact ⟨_, rfl⟩
    · simp only [ok_iff] at resolved
      obtain ⟨_, _, _, _, _, _, _, _, _, _, _, _, rfl⟩ := resolved
      exact ⟨_, rfl⟩
  | recoverFundQueue =>
    simp only [invokeWorld, recoverFundQueue, ok_iff] at ran
    obtain ⟨_, ⟨_, _, _, _, _, _, recovered⟩, rfl⟩ := ran
    split at recovered
    · cases recovered
      exact ⟨_, rfl⟩
    · simp only [ok_iff] at recovered
      obtain ⟨_, _, _, _, rfl⟩ := recovered
      exact ⟨_, rfl⟩
  | _ => cases aimed

theorem invokeWorld_effect (filed : Filed world.book)
    (typed : call.wellTyped = true) (finished : succeeds world (.invoke env call) = true)
    (ran : invokeWorld env world call = .ok next) :
    Effect world next (.invoke env call) ∧ Filed next.book := by
  cases call with
  | updateInvoice => exact (updateInvoice_acts filed typed ran).effect filed rfl finished
  | convertInvoiceToken => exact (convertInvoiceToken_acts filed ran).effect filed rfl finished
  | transferInvoice => exact (transferInvoice_acts filed ran).effect filed rfl finished
  | expireInvoice => exact (expireInvoice_acts filed ran).effect filed rfl finished
  | cancelInvoice => exact (cancelInvoice_acts filed ran).effect filed rfl finished
  | fundInvoice =>
    exact (fundInvoice_acts filed (of_decide_eq_true typed) ran).effect filed rfl finished
  | transferLpPosition => exact (transferLpPosition_acts filed ran).effect filed rfl finished
  | markPaid => exact (markPaid_acts filed ran).effect filed rfl finished
  | claimDefault => exact (claimDefault_acts filed ran).effect filed rfl finished
  | appealDefault => exact (appealDefault_acts filed ran).effect filed rfl finished
  | resolveAppeal => exact (resolveAppeal_acts filed ran).effect filed rfl finished
  | disputeInvoice => exact (disputeInvoice_acts filed ran).effect filed rfl finished
  | resolveDispute => exact (resolveDispute_acts filed ran).effect filed rfl finished
  | autoResolveDispute => exact (autoResolveDispute_acts filed ran).effect filed rfl finished
  | submitInvoice =>
    simp only [invokeWorld, ok_iff] at ran
    obtain ⟨⟨_, _⟩, submitted, rfl⟩ := ran
    exact (submitInvoice_submits filed typed submitted).effect rfl
  | submitInvoicesBatch =>
    simp only [invokeWorld, ok_iff] at ran
    obtain ⟨⟨_, _⟩, submitted, rfl⟩ := ran
    exact (submitInvoicesBatch_submits filed (List.all_eq_true.mp typed) submitted).effect rfl
  | addToken token decimals =>
    obtain ⟨book, admin, foreign, carried⟩ := addToken_probed ran
    exact ⟨.probed env token admin decimals (by rw [book]) foreign
      carried, by rw [book]; exact filed⟩
  | claimPendingPayout recipient token =>
    simp only [invokeWorld, claimPendingPayout, ok_iff] at ran
    obtain ⟨_, ⟨_, _, _, _, _, _, ⟨_, amount⟩, paid, rfl⟩, rfl⟩ := ran
    exact ⟨.claimed env recipient token amount rfl paid, filed⟩
  | initializeContract =>
    simp only [invokeWorld, initializeContract, ok_iff] at ran
    obtain ⟨_, _, rfl⟩ := ran
    exact ⟨.idle rfl rfl (.inl rfl), filed.unsplit, filed.named, filed.below, filed.blank⟩
  | joinFundQueue | resolveFundQueue | recoverFundQueue =>
    obtain ⟨_, rfl⟩ := invokeWorld_queue rfl ran
    exact effect_of_same filed rfl rfl (.inl rfl)
  | payerScore =>
    cases ran
    exact effect_of_same filed rfl rfl (.inl rfl)
  | _ => cases ran

theorem invokeControl_target {result : Result Control}
    (controlled : invokeControl env world call = some result) : call.target = none := by
  cases call <;> first | rfl | cases controlled

/-- Every action is idle, moves money outside the files, submits, or changes exactly one file. -/
theorem step_effect (action : Action contract) (filed : Filed world.book) :
    Effect world (step world action) action ∧ Filed (step world action).book := by
  cases action with
  | credit token holder amount => exact ⟨.credited token holder amount rfl rfl, filed⟩
  | advance => exact effect_of_same filed rfl rfl (.inl rfl)
  | invoke env call =>
    simp only [step]
    cases ran : invoke env world call with
    | error => exact effect_of_same filed rfl rfl (.inr (by rw [succeeds, ran]; rfl))
    | ok =>
      have finished := succeeds_of_invoke ran
      simp only [invoke, ok_iff] at ran
      obtain ⟨_, typed, ran⟩ := ran
      split at ran
      · rename_i controlled
        simp only [ok_iff] at ran
        obtain ⟨_, _, rfl⟩ := ran
        exact effect_of_same filed rfl rfl (.inl (invokeControl_target controlled))
      · exact invokeWorld_effect filed typed finished ran

def movedFor (id : Nat) (world : World) (action : Action contract) : List Movement :=
  if action.target = some id then
    (step world action).treasury.log.drop world.treasury.log.length else []

inductive Touch (world : World) (id : Nat) (action : Action contract) : Prop
  | same (file : (step world action).book.file id = world.book.file id)
      (still : movedFor id world action = [])
      (quiet : action.target ≠ some id ∨ succeeds world action = false) : Touch world id action
  | fresh (file : File) (absent : world.book.file id = none)
      (now : (step world action).book.file id = some file) (fresh : file.Fresh)
      (still : movedFor id world action = []) (untargeted : action.target ≠ some id) :
        Touch world id action
  | changed (env : Env contract) (call : Call) (file after : File)
      (invoked : action = .invoke env call) (aimed : call.target = some id)
      (returned : succeeds world action = true) (stored : world.book.file id = some file)
      (now : (step world action).book.file id = some after)
      (change : Change env world id call file after (movedFor id world action)) :
        Touch world id action

theorem movedFor_of_money
    (money : (step world action).treasury = world.treasury) : movedFor id world action = [] := by
  simp [movedFor, money]

theorem Touch.untargeted (file : (step world action).book.file id = world.book.file id)
    (untargeted : action.target ≠ some id) : Touch world id action :=
  .same file (if_neg untargeted) (.inl untargeted)

theorem step_touch (action : Action contract) (filed : Filed world.book) (id : Nat) :
    Touch world id action := by
  cases (step_effect action filed).1 with
  | idle files money quiet =>
    refine .same (by rw [files]) (movedFor_of_money money) (quiet.imp_left ?_)
    intro aimless
    simp [aimless]
  | credited _ _ _ files => exact .untargeted (by rw [files]) (by simp [Action.target])
  | probed _ _ _ _ files _ _ | claimed _ _ _ _ files _ =>
        exact .untargeted (by rw [files]) (by simp [Action.target, Call.target])
  | submitted env call aimless grows money =>
    have untargeted : Action.target (.invoke env call) ≠ some id := by simp [Action.target, aimless]
    cases found : world.book.file id with
    | some file => exact .untargeted (by rw [grows.kept id file found, found]) untargeted
    | none =>
      cases now : (step world (.invoke env call)).book.file id with
      | none => exact .untargeted (by rw [found, now]) untargeted
      | some file =>
        -- the file appeared in this step
        rcases grows.fresh id file now with old | ⟨_, fresh⟩
        · rw [found] at old
          cases old
        · exact .fresh file found now fresh (movedFor_of_money money) untargeted
  | changed env call other file after moves aimed ran stored files change carried =>
    by_cases here : id = other
    · subst here
      -- the log only grows, so what the call added is the rest of it
      have moved : movedFor id world (.invoke env call) = moves := by
        rw [movedFor, if_pos (show Action.target (.invoke env call) = some id from aimed),
          carried.log]
        exact List.drop_left
      refine .changed env call file after rfl aimed ran stored ?_ (moved ▸ change)
      rw [files, update_self]
    · refine .untargeted ?_ ?_
      · rw [files, update_of_ne here]
      · intro aimedHere
        have both := aimed.symm.trans aimedHere
        cases both
        exact here rfl

theorem step_change (filed : Filed world.book) (aimed : call.target = some id)
    (ran : succeeds world (.invoke env call) = true) (stored : world.book.file id = some file) :
    ∃ after moves, (step world (.invoke env call)).book.file id = some after ∧
      Change env world id call file after moves := by
  cases step_touch (.invoke env call) filed id with
  | same _ _ quiet =>
    rcases quiet with untargeted | failed
    · exact absurd aimed untargeted
    · rw [failed] at ran
      cases ran
  | fresh _ absent =>
    rw [absent] at stored
    cases stored
  | changed _ _ before after invoked _ _ found now change =>
    cases invoked
    cases found.symm.trans stored
    exact ⟨after, _, now, change⟩

theorem genesis_filed (clock : Clock) (balance : Balances) :
    Filed (genesis clock balance).book where
  unsplit := fun _ => rfl
  named := fun _ _ found => by cases found
  below := fun _ _ => rfl
  blank := fun _ _ => ⟨rfl, rfl, rfl⟩

theorem exec_filed (filed : Filed world.book) (actions : List (Action contract)) :
    Filed (exec step world actions).book :=
  invariant (fun world : World => Filed world.book)
    (fun _ action filed => (step_effect action filed).2) actions filed

theorem reach_filed (clock : Clock) (balance : Balances) (actions : List (Action contract)) :
    Filed (reach clock balance actions).book := exec_filed (genesis_filed clock balance) actions

theorem filed_invariant (property : World → Prop)
    (keeps : ∀ world action, Filed world.book → property world → condition world action →
      property (step world action)) (filed : Filed world.book) (start : property world)
    (along : Along step condition world actions) :
    property (exec step world actions) := by
  have both : Filed (exec step world actions).book ∧ property (exec step world actions) := by
    refine invariant_along (fun world : World => Filed world.book ∧ property world) ?_
      ⟨filed, start⟩ along
    rintro world action ⟨filed, held⟩ met
    exact ⟨(step_effect action filed).2, keeps world action filed held met⟩
  exact both.2

theorem file_induct (holds : File → Prop) (fresh : ∀ file, file.Fresh → holds file)
    (keeps : ∀ env world call file after moves, condition world (.invoke env call) →
      world.book.file id = some file → Change env world id call file after moves → holds file →
        holds after)
    (clock : Clock) (balance : Balances)
    (along : Along step condition (genesis clock balance) actions) :
    ∀ file ∈ (reach clock balance actions).book.file id, holds file := by
  refine filed_invariant (fun world => ∀ file ∈ world.book.file id, holds file) ?_
    (genesis_filed clock balance) ((by rintro _ ⟨⟩)) along
  intro world action filed held met file now
  cases step_touch action filed id with
  | same unchanged => exact held file (unchanged ▸ now)
  | fresh made _ found isFresh =>
    cases found.symm.trans now
    exact fresh file isFresh
  | changed env call before after invoked _ _ stored found change =>
    subst invoked
    cases found.symm.trans now
    exact keeps env world call before file _ met stored change (held before stored)

section Tallies

variable {μ : Type} [AddMonoid μ]

def perCall (id : Nat) (gain : Call → List Movement → μ) (world : World) : Action contract → μ
  | .invoke env call =>
    if call.target = some id ∧ succeeds world (.invoke env call) = true then
      gain call (movedFor id world (.invoke env call))
    else 0
  | .credit _ _ _ | .advance _ _ => 0

theorem perCall_of_quiet {gain : Call → List Movement → μ}
    (quiet : action.target ≠ some id ∨ succeeds world action = false) :
    perCall id gain world action = 0 := by
  cases action with
  | credit | advance => rfl
  | invoke =>
    refine if_neg ?_
    rintro ⟨aimed, ran⟩
    rcases quiet with untargeted | failed
    · exact untargeted aimed
    · rw [failed] at ran
      cases ran

/-- A relation between such a quantity and the file holds after every run when it holds for a new
file and every change to the file keeps it. -/
theorem perCall_induct {gain : Call → List Movement → μ}
    (holds : μ → File → Prop) (fresh : ∀ file, file.Fresh → holds 0 file)
    (keeps : ∀ env world call file after moves total, condition world (.invoke env call) →
      succeeds world (.invoke env call) = true → world.book.file id = some file →
      Change env world id call file after moves → holds total file →
        holds (total + gain call moves) after)
    (filed : Filed world.book) (absent : world.book.file id = none)
    (along : Along step condition world actions)
    (stored : (exec step world actions).book.file id = some file) :
    holds (tally step (perCall id gain) world actions) file := by
  have every : Filed (exec step world actions).book ∧
      ((exec step world actions).book.file id = none →
        tally step (perCall id gain) world actions = 0) ∧
      ∀ file, (exec step world actions).book.file id = some file →
        holds (tally step (perCall id gain) world actions) file := by
    -- before the invoice exists no call is aimed at it and the sum stays empty
    refine tally_induct (motive := fun (total : μ) (world : World) =>
      Filed world.book ∧ (world.book.file id = none → total = 0) ∧
        ∀ file, world.book.file id = some file → holds total file) ?_ ?_ along
    · rintro total world action ⟨filed, none, held⟩ met
      refine ⟨(step_effect action filed).2, ?_⟩
      cases step_touch action filed id with
      | same unchanged _ quiet =>
        rw [perCall_of_quiet quiet, add_zero, unchanged]
        exact ⟨none, held⟩
      | fresh made missing now isFresh _ untargeted =>
        rw [perCall_of_quiet (.inl untargeted), add_zero, none missing, now]
        refine ⟨(by rintro ⟨⟩), ?_⟩
        intro file same
        cases same
        exact fresh made isFresh
      | changed env call before after invoked aimed ran stored now change =>
        subst invoked
        rw [now]
        refine ⟨(by rintro ⟨⟩), ?_⟩
        intro file same
        cases same
        have gained : perCall id gain world (.invoke env call) =
            gain call (movedFor id world (.invoke env call)) := if_pos ⟨aimed, ran⟩
        rw [gained]
        exact keeps env world call before after _ total met ran stored change (held before stored)
    · refine ⟨filed, fun _ => rfl, ?_⟩
      intro file found
      rw [absent] at found
      cases found
  exact every.2.2 file stored

end Tallies

end InvoiceLiquidity
