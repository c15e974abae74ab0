import Iln.Invoice.Records

/-! Creating and editing invoices before they are funded (`lib.rs`). Where the source writes a
status and then returns an error, only the error is kept, since the write is rolled back. -/
namespace InvoiceLiquidity

open Outcome FixedWidth

variable {contract : Address}

def loadInvoice (book : Book) (id : Nat) : Result Invoice :=
  orFail (book.invoices id) (.returned .invoiceNotFound)

/-- The error with which a call that needs another status refuses a settled or closed invoice. -/
def InvoiceStatus.refusal : InvoiceStatus → ContractError
  | .pending | .partiallyFunded => .notFunded
  | .funded => .alreadyFunded
  | .paid => .alreadyPaid
  | .defaulted => .invoiceDefaulted
  | .appealed => .invoiceAppealed
  | .disputed => .invoiceDisputed
  | .expired => .invoiceExpired
  | .cancelled => .alreadyCancelled

def requirePending (status : InvoiceStatus) : Result Unit :=
  require (status = .pending)
    (.returned (if status = .partiallyFunded then .alreadyFunded else status.refusal))

def validateInvoiceTermsForMin (clock : Clock) (control : Control) (amount minAmount : Int)
    (dueDate discountRate : Nat) : Result Unit := do
  require (minAmount ≤ amount) (.returned .invalidAmount)
  require (discountRate ≠ 0 ∧ discountRate ≤ control.maxDiscountRate.getD 5000)
    (.returned .invalidDiscountRate)
  require (dueDate ≤ u32Max) (.returned .invalidDueDate)
  require (clock.timestamp < dueDate) (.returned .invalidDueDate)
  require (addCapped u64Max clock.timestamp minInvoiceDuration ≤ dueDate)
    (.returned .dueDateTooSoon)
  require (dueDate ≤ addCapped u64Max clock.timestamp maxInvoiceDuration) (.returned .dueDateTooFar)

def validateInvoiceTermsWithToken (clock : Clock) (control : Control) (amount : Int)
    (dueDate discountRate : Nat) (token : Address) : Result Unit := do
  let decimals ← registeredTokenDecimals control token
  validateInvoiceTermsForMin clock control amount (tenPow decimals) dueDate discountRate

def countReferral (stats : StatStore) : Option Hash → Result StatStore
  | none => .ok stats
  | some code => do
    require (stats.referralCount code + 1 ≤ u64Max) .trap
    return { stats with
      referralCount := Function.update stats.referralCount code (stats.referralCount code + 1) }

def newInvoice (id : Nat) (params : InvoiceParams) (submitterReputation : Nat) : Invoice where
  id := id
  freelancer := params.freelancer
  payer := params.payer
  token := params.token
  amount := params.amount
  dueDate := params.dueDate
  discountRate := params.discountRate
  status := .pending
  funder := none
  fundedAt := none
  amountFunded := 0
  amountPaid := 0
  referralCode := params.referralCode
  submitterReputation := submitterReputation

/-- The common end of both submission calls: take an id, store the record, update the counters. -/
def recordSubmission (world : World) (params : InvoiceParams) : Result (World × Nat) := do
  let (book, id) ← world.book.takeId
  let (scores, reputation) := getPayerScore world.clock world.control.config world.scores
    params.freelancer
  let stats ← countReferral (incrementTotalInvoices world.stats) params.referralCode
  return ({ world with
    book := book.saveInvoice (newInvoice id params reputation)
    scores := incrementInvoicesSubmitted scores params.freelancer
    index := addInvoiceToSubmitter world.index params.freelancer id
    stats }, id)

def submitInvoice (env : Env contract) (world : World) (params : InvoiceParams) :
    Result (World × Nat) := do
  requireUnpaused world.control
  requireAuth env params.freelancer
  require (params.freelancer ≠ params.payer) (.returned .selfInvoice)
  require (params.discountRate ≠ 0 ∧ params.discountRate ≤ maxDiscountRate)
    (.returned .invalidDiscountRate)
  require (¬ (0 < world.control.maxInvoiceAmount ∧ world.control.maxInvoiceAmount < params.amount))
    (.returned .maxInvoiceAmountExceeded)
  require (isApprovedToken world.control params.token = true) (.returned .unauthorized)
  validateInvoiceTermsWithToken world.clock world.control params.amount params.dueDate
    params.discountRate params.token
  recordSubmission world params

/-- One record of a batch. A freelancer who occurs twice is authenticated once in the source,
which the repeated check of one signature does not distinguish. -/
def submitBatchItem (env : Env contract) (progress : World × List Nat) (params : InvoiceParams) :
    Result (World × List Nat) := do
  requireAuth env params.freelancer
  require (isApprovedToken progress.1.control params.token = true) (.returned .unauthorized)
  -- the batch has no self-invoice check and no size cap of its own
  validateInvoiceTermsWithToken progress.1.clock progress.1.control params.amount params.dueDate
    params.discountRate params.token
  let (world, id) ← recordSubmission progress.1 params
  return (world, progress.2 ++ [id])

def submitInvoicesBatch (env : Env contract) (world : World) (invoices : List InvoiceParams) :
    Result (World × List Nat) := do
  requireUnpaused world.control
  require (invoices.length ≤ 10) (.returned .batchTooLarge)
  forEach (submitBatchItem env) (world, []) invoices

def requireSubmitter (env : Env contract) (caller : Address) (invoice : Invoice) : Result Unit := do
  requireAuth env caller
  require (caller = invoice.freelancer) (.returned .unauthorized)

def updateInvoice (env : Env contract) (world : World) (freelancer : Address) (id : Nat)
    (amount : Int) (dueDate discountRate : Nat) : Result World := do
  requireUnpaused world.control
  let invoice ← loadInvoice world.book id
  requireSubmitter env freelancer invoice
  require (¬ (invoice.status = .pending ∧ invoice.dueDate ≤ world.clock.timestamp))
    (.returned .invoiceExpired)
  requirePending invoice.status
  validateInvoiceTermsWithToken world.clock world.control amount dueDate discountRate invoice.token
  return { world with
    book := world.book.saveInvoice
      { invoice with amount, dueDate, discountRate } }

def convertInvoiceToken (env : Env contract) (world : World) (freelancer : Address) (id : Nat)
    (newToken : Address) : Result World := do
  requireUnpaused world.control
  let invoice ← loadInvoice world.book id
  requireSubmitter env freelancer invoice
  require (invoice.status = .pending) (.returned (match invoice.status with
    | .partiallyFunded | .funded => .alreadyFunded
    | .paid => .alreadyPaid
    | _ => .unauthorized))
  require (world.clock.timestamp < invoice.dueDate) (.returned .invoiceExpired)
  require (isApprovedToken world.control newToken = true) (.returned .unauthorized)
  let _ ← registeredTokenDecimals world.control newToken
  return { world with book := world.book.saveInvoice { invoice with token := newToken } }

def transferInvoice (env : Env contract) (world : World) (id : Nat) (newFreelancer : Address) :
    Result World := do
  requireUnpaused world.control
  let invoice ← loadInvoice world.book id
  requireSubmitter env invoice.freelancer invoice
  requirePending invoice.status
  return { world with
    book := world.book.saveInvoice { invoice with freelancer := newFreelancer }
    index := addInvoiceToSubmitter (removeInvoiceFromSubmitter world.index invoice.freelancer id)
      newFreelancer id }

def expireInvoice (world : World) (id : Nat) : Result World := do
  requireUnpaused world.control
  let invoice ← loadInvoice world.book id
  require (invoice.dueDate < world.clock.timestamp) (.returned .notYetDefaulted)
  requirePending invoice.status
  return { world with book := world.book.saveInvoice { invoice with status := .expired } }

end InvoiceLiquidity
