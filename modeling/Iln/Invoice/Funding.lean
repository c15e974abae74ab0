import Iln.Invoice.Queue
import Iln.Invoice.Oracle

/-! Funding (`lib.rs`): `fund_invoice`, `transfer_lp_position` and `cancel_invoice`. The
`normalize_*_amount` helpers of the source return their argument. -/
namespace InvoiceLiquidity

open Outcome FixedWidth

variable {contract : Address}

/-- `checked_mul(rate).unwrap_or(0) / 10_000`: an overflowing product discounts nothing. -/
def discountOf (amount : Int) (rate : Nat) : Int :=
  ((checked i128 (amount * rate)).getD 0).tdiv 10000

/-- What remains of an amount after its discount: the cost of a contribution, the refund of one, and
the freelancer's payout are all computed this way. -/
def discounted (amount : Int) (rate : Nat) : Int := saturate i128 (amount - discountOf amount rate)

def payEach (env : Env contract) (token : Address) (payout : Int → Int) (treasury : Treasury)
    (funders : List (Address × Int)) : Result Treasury :=
  forEach (fun treasury entry => payOrEscrow env treasury token entry.1 (payout entry.2))
    treasury funders

def refundEach (env : Env contract) (invoice : Invoice) (treasury : Treasury)
    (funders : List (Address × Int)) : Result Treasury :=
  payEach env invoice.token (discounted · invoice.discountRate) treasury funders

def requirePayerReputation (world : World) (payer : Address) : Result ScoreStore :=
  if 0 < world.control.minPayerReputation then do
    let (scores, score) := getPayerScore world.clock world.control.config world.scores payer
    require (world.control.minPayerReputation ≤ score) (.returned .payerReputationTooLow)
    return scores
  else .ok world.scores

def IdentityVerificationOutcome.refusal : IdentityVerificationOutcome → ContractError
  | .verified | .quorumDisagreement | .unverified => .payerUnverified
  | .circuitOpen => .oracleCircuitOpen
  | .timestampRegression => .oracleTimestampRegression
  | .duplicateUpdate => .oracleDuplicateUpdate
  | .stale => .oracleDataStale

def requireVerifiedPayer (env : Env contract) (clock : Clock) (control : Control)
    (invoice : Invoice) (requested : Bool) : Result OracleStore :=
  if requested then do
    let (oracle, outcome) ← evaluateIdentityVerification env clock control .identity invoice.token
      invoice.payer (maxOracleAge control)
    require (outcome = .verified) (.returned outcome.refusal)
    return oracle
  else .ok control.oracle

def requireVolumeBelowCap (control : Control) (stats : StatStore) (token : Address) (amount : Int) :
    Result Unit :=
  if 0 < control.tokenVolumeCap token then do
    let volume ← orFail (checked i128 (stats.tokenVolume token + amount))
      (.returned .arithmeticOverflow)
    require (volume ≤ control.tokenVolumeCap token) (.returned .globalVolumeCapExceeded)
  else .ok ()

/-- `accrue_lp` and `accrue_settlement` are plain invocations: a failing one traps. -/
def notifyDistribution (env : Env contract) (control : Control) : Result Unit :=
  match control.distributionContract with
  | none => .ok ()
  | some distribution => require (env.distributionReturns distribution = true) .trap

def requireDeliverable (env : Env contract) (invoice : Invoice) (prospective : Int) : Result Unit :=
  if prospective = invoice.amount then
    requireAuthorized env invoice.token invoice.freelancer else .ok ()

/-- Everything `fund_invoice` checks before money moves: the invoice, the contribution total after
the call, and the stores that the checks themselves may update. -/
def checkFunding (env : Env contract) (world : World) (control : Control)
    (funder : Address) (id : Nat) (fundAmount : Int) (requireOracleVerification : Bool) :
    Result (Invoice × Int × ScoreStore × OracleStore) := do
  requireUnpaused control
  requireAuth env funder
  let invoice ← orFail (world.book.tryLoadInvoice id) (.returned .invoiceNotFound)
  require (∀ approved ∈ world.queue.queueResolution id, approved = funder)
    (.returned .notApprovedFunder)
  require (isApprovedToken control invoice.token = true) (.returned .unauthorized)
  let scores ← requirePayerReputation world invoice.payer
  let oracle ← requireVerifiedPayer env world.clock control invoice requireOracleVerification
  require (¬ (invoice.status = .pending ∧ invoice.dueDate < world.clock.timestamp))
    (.returned .invoiceExpired)
  requireFundable invoice.status
  -- the contribution has an upper bound only; a negative cost is left to the token
  let prospective ← orFail (checked i128 (invoice.amountFunded + fundAmount))
    (.returned .arithmeticOverflow)
  require (prospective ≤ invoice.amount) (.returned .overfundingRejected)
  requireVolumeBelowCap control world.stats invoice.token fundAmount
  requireAuthorized env invoice.token funder
  requireDeliverable env invoice prospective
  return (invoice, prospective, scores, oracle)

def recordFunding (env : Env contract) (clock : Clock) (treasury : Treasury) (invoice : Invoice)
    (funder : Address) (prospective : Int) : Result (Treasury × Invoice) :=
  if prospective = invoice.amount then do
    let treasury ← transferOutStrict env treasury invoice.token invoice.freelancer
      (discounted invoice.amount invoice.discountRate)
    -- `funded_at` is converted to 32 bits and unwrapped
    require (clock.timestamp ≤ u32Max) .trap
    return (treasury, { invoice with
      amountFunded := prospective
      status := .funded
      fundedAt := some clock.timestamp
      funder := some funder })
  else return (treasury, { invoice with amountFunded := prospective, status := .partiallyFunded })

def fundInvoice (env : Env contract) (world : World) (funder : Address) (id : Nat)
    (fundAmount : Int) (requireOracleVerification : Bool) : Result World := do
  let control ← lockReentrancy world.control
  let (invoice, prospective, scores, oracle) ← checkFunding env world control funder id fundAmount
    requireOracleVerification
  -- what comes in is the discounted contribution, while the list records the full one
  let treasury ← transfer env world.treasury invoice.token funder contract
    (discounted fundAmount invoice.discountRate)
  let (treasury, funded) ← recordFunding env world.clock treasury invoice funder prospective
  let book := (world.book.saveInvoiceFunders id
    (addContribution funder fundAmount (world.book.funders id))).saveInvoice funded
  let nft ← syncNftState world.clock book world.nft id
  notifyDistribution env control
  let completed := funded.status = .funded
  return { world with
    control := unlockReentrancy { control with oracle }
    book
    treasury
    scores := if completed then setLpScore scores funder
      (addCapped u32Max (getLpScore scores funder) 1) else scores
    index := addInvoiceToLp world.index funder id
    stats := addVolume control (if completed then incrementTotalFunded world.stats else world.stats)
      invoice.token fundAmount
    nft }

/-- Every entry of the current holder is renamed, so a co-funder can end up listed twice. -/
def renameFunder (current new : Address) (funders : List (Address × Int)) : List (Address × Int) :=
  funders.map fun entry => if entry.1 = current then (new, entry.2) else entry

def transferLpPosition (env : Env contract) (world : World) (id : Nat) (newLp : Address) :
    Result World := do
  requireUnpaused world.control
  let invoice ← loadInvoice world.book id
  require (invoice.status = .funded) (.returned invoice.status.refusal)
  let current ← orFail invoice.funder (.returned .unauthorized)
  requireAuth env current
  require (current ≠ newLp) (.returned .unauthorized)
  let book := (world.book.saveInvoiceFunders id
    (renameFunder current newLp (world.book.funders id))).saveInvoice
      { invoice with funder := some newLp }
  let nft ← syncNftState world.clock book world.nft id
  return { world with
    book
    index := addInvoiceToLp (removeInvoiceFromLp world.index current id) newLp id
    nft }

def refundCancelled (env : Env contract) (world : World) (invoice : Invoice) (id : Nat) :
    Result Treasury :=
  if invoice.status = .partiallyFunded then
    refundEach env invoice world.treasury (world.book.funders id)
  else .ok world.treasury

def cancelInvoice (env : Env contract) (world : World) (id : Nat) : Result World := do
  let control ← lockReentrancy world.control
  requireUnpaused control
  let invoice ← loadInvoice world.book id
  requireSubmitter env invoice.freelancer invoice
  requireFundable invoice.status
  let treasury ← refundCancelled env world invoice id
  return { world with
    control := unlockReentrancy control
    book := world.book.saveInvoice { invoice with status := .cancelled }
    treasury }

end InvoiceLiquidity
