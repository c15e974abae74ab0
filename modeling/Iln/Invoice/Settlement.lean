import Iln.Invoice.Funding

/-! Settlement and default (`lib.rs`): `mark_paid`, `claim_default`, appeals and disputes. The
optional claim against the insurance pool in `claim_default` cannot fail the call, so it leaves no
trace here. -/
namespace InvoiceLiquidity

open Outcome FixedWidth Function

variable {contract : Address}

/-- With tiers, the rate of the last tier in list order whose minimum is reached. -/
def effectiveFeeRate (control : Control) (amount : Int) : Nat :=
  if control.feeTiers = [] then control.feeRate.getD 0
  else control.feeTiers.foldl (fun best tier => if tier.1 ≤ amount then tier.2 else best) 0

/-- `checked_mul(fee_rate).unwrap_or(0) / 10_000`, the same expression as a discount. -/
def protocolFee (control : Control) (amount : Int) : Int :=
  discountOf amount (effectiveFeeRate control amount)

/-- A funder's share in the distribution loop: an overflowing product pays nothing. -/
def funderShare (distribute amount contribution : Int) : Int :=
  ((checked i128 (distribute * contribution)).getD 0).tdiv amount

def payFee (env : Env contract) (control : Control) (treasury : Treasury) (token : Address)
    (fee : Int) : Result Treasury :=
  if 0 < fee then do
    let admin ← orFail control.admin .trap
    payOrEscrow env treasury token admin fee
  else .ok treasury

def checkPayment (env : Env contract) (world : World) (control : Control) (id : Nat)
    (amount : Int) :
    Result (Invoice × Int × (Address × Int)) := do
  requireUnpaused control
  require (0 < amount) (.returned .invalidAmount)
  let invoice ← orFail (world.book.tryLoadInvoice id) (.returned .invoiceNotFound)
  -- `require_payer_by_id` loads the record again
  let stored ← loadInvoice world.book id
  requireAuth env stored.payer
  require (invoice.status = .funded) (.returned invoice.status.refusal)
  require (amount ≤ saturate i128 (invoice.amount - invoice.amountPaid))
    (.returned .overpaymentRejected)
  let primary ← orFail (world.book.funders id).head? (.returned .notFunded)
  let paid ← orFail (checked i128 (invoice.amountPaid + amount)) (.returned .arithmeticOverflow)
  requireAuthorized env invoice.token invoice.payer
  return (invoice, paid, primary)

def recordInstalment (world : World) (control : Control) (treasury : Treasury) (invoice : Invoice)
    (id : Nat) : Result World := do
  let book := world.book.saveInvoice invoice
  let nft ← syncNftState world.clock book world.nft id
  return { world with
    control := unlockReentrancy control
    book
    treasury
    nft }

def rewardSettlement (clock : Clock) (config : Option Config) (scores : ScoreStore)
    (invoice : Invoice) : ScoreStore :=
  let (scores, score) := getPayerScore clock config scores invoice.payer
  let scores := setPayerScore clock config scores invoice.payer (addCapped u32Max score 1)
  incrementInvoicesPaid (incrementInvoicesPaid scores invoice.payer) invoice.freelancer

/-- The event of a settlement. `lp` is the first entry of the funder list, not the stored funder. -/
structure InvoicePaid where
  invoiceId : Nat
  payer : Address
  lp : Address
  freelancer : Address
  token : Address
  amountPaid : Int
  lpEarned : Int
  lpPayout : Int
  settlementTimestamp : Nat
  paidOnTime : Bool
  status : InvoiceStatus
  deriving DecidableEq

def invoicePaid (clock : Clock) (control : Control) (invoice : Invoice) (primary : Address × Int) :
    InvoicePaid :=
  let distribute := saturate i128 (invoice.amount - protocolFee control invoice.amount)
  let payout := (distribute * primary.2).tdiv invoice.amount
  { invoiceId := invoice.id
    payer := invoice.payer
    lp := primary.1
    freelancer := invoice.freelancer
    token := invoice.token
    amountPaid := invoice.amount
    lpEarned := (checked i128 (payout - primary.2)).getD 0
    lpPayout := payout
    settlementTimestamp := clock.timestamp
    paidOnTime := decide (clock.timestamp ≤ invoice.dueDate)
    status := .paid }

/-- The last instalment: fee first, then every funder's share of what remains. The primary funder's
product is checked before anything is distributed. -/
def settleInFull (env : Env contract) (world : World) (control : Control) (treasury : Treasury)
    (invoice : Invoice) (id : Nat) (primary : Address × Int) : Result (World × InvoicePaid) := do
  let fee := protocolFee control invoice.amount
  let treasury ← payFee env control treasury invoice.token fee
  let distribute := saturate i128 (invoice.amount - fee)
  -- the payout of the primary funder, computed for the event only
  let _ ← orFail (checked i128 (distribute * primary.2)) (.returned .arithmeticOverflow)
  -- division by the amount
  require (invoice.amount ≠ 0) .trap
  let book := world.book.saveInvoice { invoice with status := .paid }
  let nft ← syncNftState world.clock book world.nft id
  let treasury ← payEach env invoice.token (funderShare distribute invoice.amount) treasury
    (world.book.funders id)
  notifyDistribution env control
  let settled := { world with
    control := unlockReentrancy control
    book
    treasury
    scores := rewardSettlement world.clock control.config world.scores invoice
    stats := incrementTotalPaid world.stats
    nft }
  return (settled, invoicePaid world.clock control invoice primary)

/-- An instalment that leaves something to pay is not announced as a settlement. -/
def markPaid (env : Env contract) (world : World) (id : Nat) (amount : Int) :
    Result (World × Option InvoicePaid) := do
  let control ← lockReentrancy world.control
  let (invoice, paid, primary) ← checkPayment env world control id amount
  let treasury ← transfer env world.treasury invoice.token invoice.payer contract amount
  let invoice := { invoice with amountPaid := paid }
  if paid < invoice.amount then
    return (← recordInstalment world control treasury invoice id, none)
  else
    let (world, event) ← settleInFull env world control treasury invoice id primary
    return (world, some event)

def requireLpById (env : Env contract) (book : Book) (caller : Address) (id : Nat) :
    Result Unit := do
  let _ ← loadInvoice book id
  requireAuth env caller
  require (∃ entry ∈ book.funders id, entry.1 = caller) (.returned .unauthorized)

/-- A query: nothing is paid out and nothing is stored. -/
def claimYield (env : Env contract) (world : World) (id : Nat) : Result Int := do
  let invoice ← loadInvoice world.book id
  let funder ← orFail invoice.funder (.returned .nothingToClaim)
  requireLpById env world.book funder id
  match invoice.status with
  | .pending | .partiallyFunded | .funded => return 0
  | .paid => return discountOf invoice.amount invoice.discountRate
  | status => .error (.returned status.refusal)

def penalizeDefault (clock : Clock) (config : Option Config) (scores : ScoreStore)
    (payer : Address) : ScoreStore × Nat :=
  let (scores, score) := getPayerScore clock config scores payer
  let scores := setPayerScore clock config scores payer (score - 5)
  (incrementInvoicesDefaulted scores payer, score)

def claimDefault (env : Env contract) (world : World) (funder : Address) (id : Nat) :
    Result World := do
  let control ← lockReentrancy world.control
  requireUnpaused control
  requireAuth env funder
  let invoice ← loadInvoice world.book id
  let funders := world.book.funders id
  require (∃ entry ∈ funders, entry.1 = funder) (.returned .unauthorized)
  require (invoice.dueDate ≤ world.clock.timestamp) (.returned .notYetDefaulted)
  require (invoice.status = .funded) (.returned invoice.status.refusal)
  let book := world.book.saveInvoice { invoice with status := .defaulted }
  let nft ← syncNftState world.clock book world.nft id
  -- the discounted contributions once more, although the freelancer has them
  let treasury ← refundEach env invoice world.treasury funders
  let (scores, score) := penalizeDefault world.clock control.config world.scores invoice.payer
  return { world with
    control := unlockReentrancy control
    book := { book with preDefaultPayerScore := update book.preDefaultPayerScore id (some score) }
    treasury
    scores
    nft }

def appealDefault (env : Env contract) (world : World) (id : Nat) (evidenceHash : Hash) :
    Result World := do
  requireUnpaused world.control
  let invoice ← loadInvoice world.book id
  requireAuth env invoice.payer
  require ((world.book.appeals id).isNone) (.returned .alreadyAppealed)
  require (invoice.status = .defaulted) (.returned .notDefaulted)
  require (world.clock.timestamp ≤ addCapped u64Max invoice.dueDate appealWindowSeconds)
    (.returned .appealWindowClosed)
  let (scores, current) := getPayerScore world.clock world.control.config world.scores invoice.payer
  -- the current score is read, and decayed, only when none was kept
  let (scores, score) := match world.book.preDefaultPayerScore id with
    | some kept => (world.scores, kept)
    | none => (scores, current)
  require (world.clock.timestamp ≤ u32Max) .trap
  let appealed := { world.book with
    appeals := update world.book.appeals id (some ⟨evidenceHash, world.clock.timestamp, score⟩) }
  let book := appealed.saveInvoice { invoice with status := .appealed }
  let nft ← syncNftState world.clock book world.nft id
  return { world with book, scores, nft }

def restoreScore (clock : Clock) (config : Option Config) (scores : ScoreStore) (payer : Address)
    (appeal : AppealRecord) : ScoreStore :=
  let scores := setPayerScore clock config scores payer appeal.preDefaultScore
  let profile := getReputation scores payer
  setReputation scores { profile with invoicesDefaulted := profile.invoicesDefaulted - 1 }

def resolveAppeal (env : Env contract) (world : World) (id : Nat) (upheld : Bool) :
    Result World := do
  requireAdmin env world.control
  let invoice ← loadInvoice world.book id
  require (invoice.status = .appealed) (.returned .notDefaulted)
  let appeal ← orFail (world.book.appeals id) (.returned .invoiceNotFound)
  let book := world.book.saveInvoice { invoice with status := .defaulted }
  let nft ← syncNftState world.clock book world.nft id
  return { world with
    control := recordAdminAction world.clock world.control .resolveAppeal
    book
    scores := if upheld then restoreScore world.clock world.control.config world.scores
      invoice.payer appeal else world.scores
    nft }

def disputeInvoice (env : Env contract) (world : World) (id : Nat) (reasonHash : Hash) :
    Result World := do
  requireUnpaused world.control
  let invoice ← loadInvoice world.book id
  requireAuth env invoice.payer
  require ((world.book.disputes id).isNone) (.returned .alreadyDisputed)
  require (invoice.status = .pending ∨ invoice.status = .partiallyFunded ∨ invoice.status = .funded)
    (.returned (if invoice.status = .disputed then .alreadyDisputed else invoice.status.refusal))
  let disputed := { world.book with
    disputes := update world.book.disputes id (some ⟨reasonHash, world.clock.sequence⟩) }
  let book := disputed.saveInvoice { invoice with status := .disputed }
  let nft ← syncNftState world.clock book world.nft id
  return { world with book, nft }

/-- The status a rejected dispute restores, read off the amounts. -/
def Invoice.restoredStatus (invoice : Invoice) : InvoiceStatus :=
  if invoice.amountFunded = invoice.amount then .funded
  else if 0 < invoice.amountFunded then .partiallyFunded
  else .pending

def upholdDispute (env : Env contract) (invoice : Invoice) (treasury : Treasury)
    (funders : List (Address × Int)) : Result Treasury := do
  let treasury ← refundEach env invoice treasury funders
  if 0 < invoice.amountPaid then
    payOrEscrow env treasury invoice.token invoice.payer invoice.amountPaid
  else return treasury

def decideDispute (env : Env contract) (world : World) (invoice : Invoice) (id resolution : Nat) :
    Result (Treasury × InvoiceStatus) :=
  match resolution with
  | 1 => do
    let treasury ← upholdDispute env invoice world.treasury (world.book.funders id)
    return (treasury, .cancelled)
  | 2 => .ok (world.treasury, invoice.restoredStatus)
  | _ => .error (.returned .unauthorized)

def resolveDispute (env : Env contract) (world : World) (id : Nat) (resolution : Nat) :
    Result World := do
  let control ← lockReentrancy world.control
  requireAdmin env control
  let invoice ← loadInvoice world.book id
  require (invoice.status = .disputed) (.returned .notDisputed)
  let (treasury, status) ← decideDispute env world invoice id resolution
  let book := world.book.saveInvoice { invoice with status }
  let nft ← syncNftState world.clock book world.nft id
  return { world with
    control := unlockReentrancy (recordAdminAction world.clock control .resolveDispute)
    book
    treasury
    nft }

def autoResolveDispute (world : World) (id : Nat) : Result World := do
  let invoice ← loadInvoice world.book id
  require (invoice.status = .disputed) (.returned .notDisputed)
  let dispute ← orFail (world.book.disputes id) (.returned .invoiceNotFound)
  let config ← orFail world.control.config (.returned .unauthorized)
  require (addCapped u64Max dispute.disputedAt config.disputeTimeoutLedgers ≤ world.clock.sequence)
    (.returned .unauthorized)
  let book := world.book.saveInvoice { invoice with status := invoice.restoredStatus }
  let nft ← syncNftState world.clock book world.nft id
  return { world with book, nft }

def claimPendingPayout (env : Env contract) (world : World) (recipient token : Address) :
    Result (World × Int) := do
  let control ← lockReentrancy world.control
  requireUnpaused control
  requireAuth env recipient
  let (treasury, amount) ← claimPending env world.treasury recipient token
  return ({ world with control := unlockReentrancy control, treasury }, amount)

end InvoiceLiquidity
