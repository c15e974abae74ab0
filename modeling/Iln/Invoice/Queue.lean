import Iln.Invoice.Submission

/-! The priority queue of liquidity providers (`lib.rs`, `storage.rs`): joining, fixing a winner
after the maturity delay with a random draw among the best current scores, and recovering a
stalled queue. -/
namespace InvoiceLiquidity

open Outcome FixedWidth Function

variable {contract : Address}

/-- `Pending` or `PartiallyFunded`, refused with the error of the status otherwise. -/
def requireFundable (status : InvoiceStatus) : Result Unit :=
  require (status = .pending ∨ status = .partiallyFunded) (.returned status.refusal)

def requireQueueable (clock : Clock) (invoice : Invoice) : Result Unit := do
  requireFundable invoice.status
  require (clock.timestamp ≤ invoice.dueDate) (.returned .invoiceExpired)

/-- Insert before the first entry with a lower score. -/
def insertRequest (request : LpFundRequest) : List LpFundRequest → List LpFundRequest
  | [] => [request]
  | entry :: rest =>
    if entry.score < request.score then request :: entry :: rest
    else entry :: insertRequest request rest

def saveFundQueue (queue : QueueStore) (id : Nat) (entries : List LpFundRequest) : QueueStore :=
  { queue with fundQueue := update queue.fundQueue id entries }

def trySetFundQueueOpenedAt (clock : Clock) (queue : QueueStore) (id : Nat) : QueueStore :=
  match queue.fundQueueOpenedAt id with
  | some _ => queue
  | none => { queue with
      fundQueueOpenedAt := update queue.fundQueueOpenedAt id (some clock.sequence) }

/-- Make room in a full queue: the joiner must outscore the last entry, which is dropped. -/
def displaceTail (score : Nat) (entries : List LpFundRequest) : Result (List LpFundRequest) :=
  if entries.length < maxFundQueueLen then .ok entries
  else do
    let tail ← orFail entries.getLast? (.returned .queueFull)
    require (tail.score < score) (.returned .queueFull)
    return entries.dropLast

def joinFundQueue (env : Env contract) (world : World) (lp : Address) (id : Nat) :
    Result World := do
  requireUnpaused world.control
  requireAuth env lp
  let invoice ← loadInvoice world.book id
  require ((world.queue.queueResolution id).isNone) (.returned .notApprovedFunder)
  requireFundable invoice.status
  require (world.clock.timestamp ≤ invoice.dueDate) (.returned .invoiceExpired)
  let entries := world.queue.fundQueue id
  require (entries.length < maxFundQueueLen) (.returned .queueFull)
  require (∀ entry ∈ entries, entry.lp ≠ lp) (.returned .alreadyInQueue)
  let score := getLpScore world.scores lp
  -- a full queue was refused just above, before it could be asked to make room
  let kept ← displaceTail score entries
  -- the source finds the position before the last entry goes; no position lies behind that entry
  let queue := saveFundQueue world.queue id (insertRequest ⟨lp, score⟩ kept)
  return { world with queue := trySetFundQueueOpenedAt world.clock queue id }

def saveQueueResolution (clock : Clock) (queue : QueueStore) (id : Nat) (lp : Address) :
    QueueStore :=
  { queue with
    queueResolution := update queue.queueResolution id (some lp)
    queueResolvedAt := update queue.queueResolvedAt id (some clock.sequence) }

/-- Queued providers whose current score is the best one. -/
def bestQueued (scores : ScoreStore) (entries : List LpFundRequest) : List LpFundRequest :=
  let best := (entries.map fun entry => getLpScore scores entry.lp).foldl max 0
  entries.filter fun entry => getLpScore scores entry.lp == best

def resolveFundQueue (env : Env contract) (world : World) (id : Nat) :
    Result (World × Address) := do
  requireUnpaused world.control
  let _ ← loadInvoice world.book id
  match world.queue.queueResolution id with
  | some approved => return (world, approved)
  | none => do
    let invoice ← orFail (world.book.tryLoadInvoice id) (.returned .invoiceNotFound)
    requireQueueable world.clock invoice
    let entries := world.queue.fundQueue id
    require (entries ≠ []) (.returned .notFunded)
    let openedAt ← orFail (world.queue.fundQueueOpenedAt id) (.returned .queueStateArchived)
    require (addCapped u32Max openedAt queueDelayLedgers ≤ world.clock.sequence)
      (.returned .queueNotMature)
    let tied := bestQueued world.scores entries
    -- ties are broken by a random draw of the host
    let winner ← orFail (tied[if 1 < tied.length then env.draw tied.length else 0]?) .trap
    return ({ world with queue := saveQueueResolution world.clock world.queue id winner.lp },
      winner.lp)

def clearFundQueueState (queue : QueueStore) (id : Nat) : QueueStore where
  fundQueue := update queue.fundQueue id []
  queueResolution := update queue.queueResolution id none
  fundQueueOpenedAt := update queue.fundQueueOpenedAt id none
  queueResolvedAt := update queue.queueResolvedAt id none

def reopenFundQueue (clock : Clock) (queue : QueueStore) (id : Nat)
    (remaining : List LpFundRequest) :
    QueueStore where
  fundQueue := update queue.fundQueue id remaining
  queueResolution := update queue.queueResolution id none
  fundQueueOpenedAt := update queue.fundQueueOpenedAt id
    (if remaining = [] then none else some clock.sequence)
  queueResolvedAt := update queue.queueResolvedAt id none

def recoverFundQueue (world : World) (id : Nat) : Result (World × Option Address) := do
  requireUnpaused world.control
  let invoice ← orFail (world.book.tryLoadInvoice id) (.returned .invoiceNotFound)
  let entries := world.queue.fundQueue id
  let resolution := world.queue.queueResolution id
  require (¬ (entries = [] ∧ resolution = none)) (.returned .queueNotStalled)
  match requireQueueable world.clock invoice with
  -- the invoice can no longer be funded: the queue is dropped whatever it holds
  | .error _ => return ({ world with queue := clearFundQueueState world.queue id }, none)
  | .ok () => do
    let winner ← orFail resolution (.returned .queueNotStalled)
    let resolvedAt := (world.queue.queueResolvedAt id).getD 0
    let grace := if invoice.dueDate - world.clock.timestamp ≤
      nearExpiryWindowSecs then queueDelayLedgers else queueResolutionTtlLedgers
    require (addCapped u32Max resolvedAt grace ≤ world.clock.sequence) (.returned .queueNotStalled)
    let remaining := entries.filter fun entry => entry.lp ≠ winner
    return ({ world with queue := reopenFundQueue world.clock world.queue id remaining },
      some winner)

end InvoiceLiquidity
