import Iln.Invoice.Frame

/-! The funding queue over whole runs. An observer notes the ledger at which a queue last became
non-empty or was reopened and the ledger at which its winner was fixed; the markers the contract
stores agree with these notes. -/
namespace InvoiceLiquidity

open Outcome FixedWidth Transition

variable {contract : Address} {id : Nat} {target : Nat} {action : Action contract}
  {entries : List LpFundRequest}
variable {notes : QueueNotes}

section Operations

theorem requireQueueable_ok {clock : Clock} {invoice : Invoice} {passed : Unit} :
    requireQueueable clock invoice = .ok passed ↔
      invoice.Fundable ∧
      clock.timestamp ≤ invoice.dueDate := by
  simp [requireQueueable, requireFundable]

variable {scores : ScoreStore}

theorem le_best {entry : LpFundRequest} (queued : entry ∈ entries) :
    getLpScore scores entry.lp ≤ (entries.map fun entry => getLpScore scores entry.lp).foldl max
      0 := by
  have top : (0 :: entries.map fun entry => getLpScore scores entry.lp).max? =
      some ((entries.map fun entry => getLpScore scores entry.lp).foldl max 0) := List.max?_cons'
  have greatest := (List.max?_eq_some_iff.mp top).2
  exact greatest _ (List.mem_cons_of_mem _ (List.mem_map_of_mem queued))

theorem bestQueued_best {winner : LpFundRequest} (best : winner ∈ bestQueued scores entries) :
    winner ∈ entries ∧ ∀ entry ∈ entries, getLpScore scores entry.lp ≤
      getLpScore scores winner.lp := by
  obtain ⟨queued, same⟩ := List.mem_filter.mp best
  refine ⟨queued, ?_⟩
  intro entry member
  rw [beq_iff_eq.mp same]
  exact le_best member

theorem insertRequest_perm (request : LpFundRequest) (entries : List LpFundRequest) :
    (insertRequest request entries).Perm (request :: entries) := by
  induction entries with
  | nil => exact .refl _
  | cons first rest ih =>
    unfold insertRequest
    split
    · exact .refl _
    · exact (ih.cons first).trans (.swap request first rest)

theorem mem_insertRequest {request entry : LpFundRequest} :
    entry ∈ insertRequest request entries ↔ entry = request ∨ entry ∈ entries :=
  (insertRequest_perm request entries).mem_iff.trans List.mem_cons

theorem insertRequest_ne_nil (request : LpFundRequest) (entries : List LpFundRequest) :
    insertRequest request entries ≠ [] :=
  List.ne_nil_of_mem (mem_insertRequest.mpr (.inl rfl))

end Operations

section Steps

structure Line where
  entries : List LpFundRequest
  winner : Option Address
  openedAt : Option Nat
  resolvedAt : Option Nat

def QueueStore.line (queue : QueueStore) (id : Nat) : Line :=
  ⟨queue.fundQueue id, queue.queueResolution id, queue.fundQueueOpenedAt id,
    queue.queueResolvedAt id⟩

def recovers (id : Nat) (world : World) : Action contract → Bool
  | .invoke env (.recoverFundQueue target) =>
    target == id && succeeds world (.invoke env (.recoverFundQueue target))
  | _ => false

def joins (id : Nat) (world : World) : Action contract → Option Address
  | .invoke env (.joinFundQueue lp target) =>
    if target == id && succeeds world (.invoke env (.joinFundQueue lp target)) then
      some lp else none
  | _ => none

def recoveryGrace (clock : Clock) (invoice : Invoice) : Nat :=
  if invoice.dueDate - clock.timestamp ≤ nearExpiryWindowSecs then
    queueDelayLedgers else queueResolutionTtlLedgers

inductive QueueStep (world : World) (id : Nat) : Action contract → Line → Line → Prop
  | idle {action : Action contract} {line : Line} (other : recovers id world action = false)
      (unjoined : joins id world action = none) : QueueStep world id action line line
  | joined {line : Line} (env : Env contract) (lp : Address) (open_ : line.winner = none)
      (room : line.entries.length < maxFundQueueLen) (fresh : ∀ entry ∈ line.entries, entry.lp ≠ lp)
      (returned : joins id world (.invoke env (.joinFundQueue lp id)) = some lp) :
      QueueStep world id (.invoke env (.joinFundQueue lp id)) line
        { line with
          entries := insertRequest ⟨lp, getLpScore world.scores lp⟩ line.entries
          openedAt := some (line.openedAt.getD world.clock.sequence) }
  | resolved {line : Line} (env : Env contract) (winner : LpFundRequest) (invoice : Invoice)
      (openedAt : Nat) (open_ : line.winner = none) (stored : world.book.invoices id = some invoice)
      (queueable : requireQueueable world.clock invoice = .ok ())
      (opened : line.openedAt = some openedAt)
      (mature : addCapped u32Max openedAt queueDelayLedgers ≤ world.clock.sequence)
      (best : winner ∈ bestQueued world.scores line.entries) :
      QueueStep world id (.invoke env (.resolveFundQueue id)) line
        { line with winner := some winner.lp, resolvedAt := some world.clock.sequence }
  | purged {line : Line} (env : Env contract) (invoice : Invoice)
      (stored : world.book.invoices id = some invoice)
      (unqueueable : requireQueueable world.clock invoice ≠ .ok ()) :
      QueueStep world id (.invoke env (.recoverFundQueue id)) line ⟨[], none, none, none⟩
  | reopened {line : Line} (env : Env contract) (invoice : Invoice) (winner : Address)
      (stored : world.book.invoices id = some invoice) (fixed : line.winner = some winner)
      (stalled : addCapped u32Max (line.resolvedAt.getD 0) (recoveryGrace world.clock invoice) ≤
        world.clock.sequence)
      (returned : recovers id world (.invoke env (.recoverFundQueue id)) = true) :
      QueueStep world id (.invoke env (.recoverFundQueue id)) line
        ⟨line.entries.filter fun entry => entry.lp ≠ winner, none,
          if (line.entries.filter fun entry => entry.lp ≠ winner) = [] then
            none else some world.clock.sequence, none⟩

theorem line_trySetFundQueueOpenedAt (clock : Clock) (queue : QueueStore) (id : Nat) :
    (trySetFundQueueOpenedAt clock queue id).line id =
      { queue.line id with openedAt := some ((queue.line id).openedAt.getD clock.sequence) } := by
  cases opened : queue.fundQueueOpenedAt id <;> simp [trySetFundQueueOpenedAt,
    QueueStore.line, opened]

theorem line_join_of_ne {clock : Clock} {queue : QueueStore} {id other : Nat}
    (different : other ≠ id) :
    (trySetFundQueueOpenedAt clock (saveFundQueue queue id entries) id).line other =
      queue.line other := by
  cases opened : queue.fundQueueOpenedAt id <;>
    simp [trySetFundQueueOpenedAt, saveFundQueue, QueueStore.line, opened, different]

variable {env : Env contract} {world next : World}

theorem joinFundQueue_step {lp : Address}
    (finished : succeeds world (.invoke env (.joinFundQueue lp target)) = true)
    (ran : joinFundQueue env world lp target = .ok next) (id : Nat) :
    QueueStep world id (.invoke env (.joinFundQueue lp target)) (world.queue.line id)
    (next.queue.line id) := by
  simp only [joinFundQueue, ok_iff, Option.isNone_iff_eq_none] at ran
  obtain ⟨_, _, _, _, _, _, _, unresolved, _, _, _, _, _, room, _, fresh, _, displaced, rfl⟩ :=
    ran
  rw [displaceTail, if_pos room] at displaced
  cases displaced
  by_cases here : id = target
  · subst here
    rw [line_trySetFundQueueOpenedAt]
    simp only [saveFundQueue, QueueStore.line, Function.update_self]
    exact .joined env lp unresolved room fresh (by simp [joins, finished])
  · rw [line_join_of_ne here]
    exact .idle rfl (by simp [joins, Ne.symm here])

theorem resolveFundQueue_step {winner : Address} (filed : Filed world.book)
    (ran : resolveFundQueue env world target = .ok (next, winner)) (id : Nat) :
    QueueStep world id (.invoke env (.resolveFundQueue target)) (world.queue.line id)
    (next.queue.line id) := by
  simp only [resolveFundQueue, ok_iff] at ran
  obtain ⟨_, _, _, _, resolved⟩ := ran
  split at resolved
  · cases resolved
    exact .idle rfl rfl
  · rename_i unresolved
    simp only [ok_iff, filed.tryLoadInvoice, Prod.mk.injEq] at resolved
    obtain ⟨invoice, stored, _, queueable, _, _, openedAt, opened, _, mature, chosen, drawn, rfl,
      rfl⟩ := resolved
    by_cases here : id = target
    · subst here
      have step : QueueStep world id (.invoke env (.resolveFundQueue id)) (world.queue.line id) _ :=
        .resolved env chosen invoice openedAt unresolved stored queueable opened mature
        (List.mem_of_getElem? drawn)
      simpa [QueueStore.line, saveQueueResolution] using step
    · have same : (saveQueueResolution world.clock world.queue target chosen.lp).line id =
          world.queue.line id := by
        simp [QueueStore.line, saveQueueResolution, here]
      rw [same]
      exact .idle rfl rfl

theorem recoverFundQueue_step {evicted : Option Address} (filed : Filed world.book)
    (finished : succeeds world (.invoke env (.recoverFundQueue target)) = true)
    (ran : recoverFundQueue world target = .ok (next, evicted)) (id : Nat) :
    QueueStep world id (.invoke env (.recoverFundQueue target)) (world.queue.line id)
    (next.queue.line id) := by
  simp only [recoverFundQueue, ok_iff, filed.tryLoadInvoice] at ran
  obtain ⟨_, _, invoice, stored, _, _, recovered⟩ := ran
  by_cases here : id = target
  · subst here
    split at recovered
    · rename_i failure refused
      cases recovered
      have step : QueueStep world id (.invoke env (.recoverFundQueue id)) (world.queue.line id) _ :=
        .purged env invoice stored (by rw [refused]; intro same; cases same)
      simpa [QueueStore.line, clearFundQueueState] using step
    · simp only [ok_iff, Prod.mk.injEq] at recovered
      obtain ⟨winner, fixed, _, stalled, rfl, _⟩ := recovered
      have step : QueueStep world id (.invoke env (.recoverFundQueue id)) (world.queue.line id) _ :=
        .reopened env invoice winner stored fixed stalled (by simp [recovers, finished])
      simpa [QueueStore.line, reopenFundQueue] using step
  · have other : recovers id world (.invoke env (.recoverFundQueue target)) = false := by
      simp [recovers, Ne.symm here]
    have same : next.queue.line id = world.queue.line id := by
      split at recovered
      · cases recovered
        simp [QueueStore.line, clearFundQueueState, here]
      · simp only [ok_iff, Prod.mk.injEq] at recovered
        obtain ⟨_, _, _, _, rfl, _⟩ := recovered
        simp [QueueStore.line, reopenFundQueue, here]
    rw [same]
    exact .idle other rfl

theorem recovers_of_failed (failed : succeeds world action = false) :
    recovers id world action = false := by
  unfold recovers
  split
  · rw [failed, Bool.and_false]
  · rfl

theorem joins_of_failed (failed : succeeds world action = false) :
    joins id world action = none := by
  unfold joins
  split
  · simp [failed]
  · rfl

theorem step_queue (action : Action contract) (filed : Filed world.book) (id : Nat) :
    QueueStep world id action (world.queue.line id) ((step world action).queue.line id) := by
  cases action with
  | credit | advance => exact .idle rfl rfl
  | invoke env call =>
    cases ran : invoke env world call with
    | error =>
      have failed : succeeds world (.invoke env call) = false := by rw [succeeds, ran]; rfl
      simp only [step, ran]
      exact .idle (recovers_of_failed failed) (joins_of_failed failed)
    | ok =>
      have finished := succeeds_of_invoke ran
      have frame := invoke_frame ran
      simp only [step, ran]
      by_cases aimless : call.queueTarget = none
      · rw [frame.queue aimless]
        refine .idle ?_ ?_ <;> cases call <;> first | rfl | cases aimless
      · cases call with
        | joinFundQueue => exact joinFundQueue_step finished (invoke_runs rfl ran) id
        | resolveFundQueue =>
          simp only [invoke, invokeControl, invokeWorld, ok_iff] at ran
          obtain ⟨_, _, ⟨_, _⟩, resolved, rfl⟩ := ran
          exact resolveFundQueue_step filed resolved id
        | recoverFundQueue =>
          simp only [invoke, invokeControl, invokeWorld, ok_iff] at ran
          obtain ⟨_, _, ⟨_, _⟩, recovered, rfl⟩ := ran
          exact recoverFundQueue_step filed finished recovered id
        | _ => exact absurd rfl aimless

end Steps

structure QueueNotes where
  openedAt : Option Nat
  fixedAt : Option Nat

def QueueNotes.update (notes : QueueNotes) (sequence : Nat) (recovered : Bool)
    (before after : Line) : QueueNotes where
  openedAt :=
    if after.entries ≠ [] ∧ (before.entries = [] ∨ recovered = true) then
      some sequence else notes.openedAt
  fixedAt := if after.winner.isSome = true ∧ before.winner = none then some sequence
    else notes.fixedAt

def noteQueue (id : Nat) (world : World) (action : Action contract) (notes : QueueNotes) :
    QueueNotes :=
  notes.update world.clock.sequence (recovers id world action) (world.queue.line id)
    ((step world action).queue.line id)

structure Timed (line : Line) (sequence : Nat) (notes : QueueNotes) : Prop where
  closed : line.entries = [] → line.openedAt = none
  opened : line.entries ≠ [] →
    ∃ ledger, ledger ≤ sequence ∧ line.openedAt = some ledger ∧ notes.openedAt = some ledger
  fixed : ∀ winner, line.winner = some winner →
    ∃ ledger, ledger ≤ sequence ∧ line.resolvedAt = some ledger ∧ notes.fixedAt = some ledger

theorem Timed.later {line : Line} {sequence later : Nat} (timed : Timed line sequence notes)
    (grown : sequence ≤ later) : Timed line later notes where
  closed := timed.closed
  opened := by
    intro filled
    obtain ⟨ledger, early, rest⟩ := timed.opened filled
    exact ⟨ledger, early.trans grown, rest⟩
  fixed := by
    intro winner fixed
    obtain ⟨ledger, early, rest⟩ := timed.fixed winner fixed
    exact ⟨ledger, early.trans grown, rest⟩

variable {world : World} {env : Env contract}

theorem QueueStep.timed {before after : Line} (move : QueueStep world id action before after)
    (timed : Timed before world.clock.sequence notes) :
    Timed after world.clock.sequence
      (notes.update world.clock.sequence (recovers id world action) before after) := by
  cases move with
  | idle other =>
    have opened : (notes.update world.clock.sequence (recovers id world action) before
      before).openedAt =
        notes.openedAt := by simp [QueueNotes.update, other]
    have fixed : (notes.update world.clock.sequence (recovers id world action) before
      before).fixedAt =
        notes.fixedAt := by
      refine if_neg ?_
      rintro ⟨some, none⟩
      rw [none] at some
      cases some
    exact ⟨timed.closed, by rw [opened]; exact timed.opened, by rw [fixed]; exact timed.fixed⟩
  | joined env lp open_ =>
    have filled := insertRequest_ne_nil ⟨lp, getLpScore world.scores lp⟩ before.entries
    refine ⟨fun empty => absurd empty filled, ?_, ?_⟩
    · intro _
      by_cases empty : before.entries = []
      -- the first entry sets the marker, which an empty queue does not have
      · refine ⟨world.clock.sequence, le_rfl, ?_, if_pos ⟨filled, .inl empty⟩⟩
        simp [timed.closed empty]
      · obtain ⟨ledger, early, marked, noted⟩ := timed.opened empty
        refine ⟨ledger, early, by simp [marked], ?_⟩
        simpa [QueueNotes.update, recovers, empty] using noted
    · intro winner fixed
      rw [open_] at fixed
      cases fixed
  | resolved env winner invoice openedAt open_ stored queueable opened mature best =>
    have queued := (bestQueued_best best).1
    refine ⟨fun empty => absurd empty (List.ne_nil_of_mem queued), ?_, ?_⟩
    · intro filled
      obtain ⟨ledger, early, marked, noted⟩ := timed.opened filled
      refine ⟨ledger, early, marked, ?_⟩
      have old : before.entries ≠ [] := filled
      simpa [QueueNotes.update, recovers, old] using noted
    · intro _ _
      exact ⟨world.clock.sequence, le_rfl, rfl, if_pos ⟨rfl, open_⟩⟩
  | purged => exact ⟨fun _ => rfl, fun filled => absurd rfl filled, (by rintro _ ⟨⟩)⟩
  | reopened env invoice winner stored fixed stalled ran =>
    refine ⟨fun empty => if_pos empty, ?_, (by rintro _ ⟨⟩)⟩
    intro filled
    exact ⟨world.clock.sequence, le_rfl, if_neg filled, if_pos ⟨filled, .inr ran⟩⟩

theorem exec_timed (clock : Clock) (balance : Balances) (actions : List (Action contract))
    (id : Nat) :
    Timed ((reach clock balance actions).queue.line id)
      (reach clock balance actions).clock.sequence
      (noted step (noteQueue id) ⟨none, none⟩ (genesis clock balance) actions) := by
  have everywhere : Along step (fun _ _ => True) (genesis clock balance) actions := Along.always
  have keeps : ∀ (notes : QueueNotes) (world : World) (action : Action contract),
      (Filed world.book ∧ Timed (world.queue.line id) world.clock.sequence notes) → True →
      Filed (step world action).book ∧ Timed ((step world action).queue.line id)
        (step world action).clock.sequence (noteQueue id world action notes) := by
    rintro notes world action ⟨filed, timed⟩ _
    exact ⟨(step_effect action filed).2,
      ((step_queue action filed id).timed timed).later (step_sequence _ action)⟩
  have start : Filed (genesis clock balance).book ∧
      Timed ((genesis clock balance).queue.line id) (genesis clock balance).clock.sequence
      ⟨none, none⟩ :=
    ⟨genesis_filed clock balance, fun _ => rfl, fun filled => absurd rfl filled, (by rintro _ ⟨⟩)⟩
  exact (noted_induct (fun notes (world : World) =>
    Filed world.book ∧ Timed (world.queue.line id) world.clock.sequence notes) keeps start
      everywhere).2

theorem reached_of_addCapped {start delay sequence : Nat} (early : sequence < u32Max - 1000)
    (reached : addCapped u32Max start delay ≤ sequence) : start + delay ≤ sequence := by
  simp only [addCapped, min_le_iff] at reached
  rcases reached with capped | exact_
  · omega
  · exact exact_

theorem fundInvoice_approved {next : World} {funder winner : Address}
    {amount : Int} {verify : Bool} (ran : fundInvoice env world funder id amount verify = .ok next)
    (fixed : world.queue.queueResolution id = some winner) : funder = winner := by
  simp only [fundInvoice, checkFunding, ok_iff] at ran
  obtain ⟨_, _, _, ⟨_, _, _, _, _, _, _, approved, _⟩, _⟩ := ran
  exact (approved winner fixed).symm

section Winners

variable {world : World} {before after : Line} {winner : Address}

theorem QueueStep.fixes (move : QueueStep world id action before after)
    (timed : Timed before world.clock.sequence notes) (early : world.clock.sequence < u32Max - 1000)
    (open_ : before.winner = none) (fixed : after.winner = some winner) :
    (∃ env, action = .invoke env (.resolveFundQueue id)) ∧
      (∃ opened, notes.openedAt = some opened ∧ opened + 120 ≤ world.clock.sequence) ∧
      (∃ invoice, world.book.invoices id = some invoice ∧ invoice.Fundable ∧
        world.clock.timestamp ≤ invoice.dueDate) ∧
      (∃ entry ∈ before.entries, entry.lp = winner) ∧
      ∀ entry ∈ before.entries, getLpScore world.scores entry.lp ≤
        getLpScore world.scores winner := by
  cases move with
  | idle | joined =>
    rw [open_] at fixed
    cases fixed
  | purged | reopened => cases fixed
  | resolved env chosen invoice openedAt _ stored queueable opened mature best =>
    cases fixed
    obtain ⟨queued, greatest⟩ := bestQueued_best best
    obtain ⟨_, _, marked, noted⟩ := timed.opened (List.ne_nil_of_mem queued)
    rw [opened] at marked
    cases marked
    exact ⟨⟨env, rfl⟩, ⟨openedAt, noted, reached_of_addCapped early mature⟩,
      ⟨invoice, stored, requireQueueable_ok.mp queueable⟩, ⟨chosen, queued, rfl⟩, greatest⟩

theorem QueueStep.drops (move : QueueStep world id action before after)
    (timed : Timed before world.clock.sequence notes) (early : world.clock.sequence < u32Max - 1000)
    (fixed : before.winner = some winner) (dropped : after.winner ≠ some winner) :
    (∃ env, action = .invoke env (.recoverFundQueue id)) ∧ after.winner = none ∧
      ∃ invoice, world.book.invoices id = some invoice ∧
        (requireQueueable world.clock invoice ≠ .ok () ∨ ∃ ledger, notes.fixedAt = some ledger ∧
            ledger + (if invoice.dueDate - world.clock.timestamp ≤ 24 * 60 * 60 then 120 else 720) ≤
              world.clock.sequence) := by
  obtain ⟨ledger, _, marked, noted⟩ := timed.fixed winner fixed
  cases move with
  | idle => exact absurd fixed dropped
  | joined _ _ open_ | resolved _ _ _ _ open_ =>
    rw [open_] at fixed
    cases fixed
  | purged env invoice stored unqueueable =>
    exact ⟨⟨env, rfl⟩, rfl, invoice, stored, .inl unqueueable⟩
  | reopened env invoice _ stored _ stalled =>
    rw [marked] at stalled
    exact ⟨⟨env, rfl⟩, rfl, invoice, stored,
      .inr ⟨ledger, noted, reached_of_addCapped early stalled⟩⟩

end Winners

/-- In every run a winner is fixed only by `resolve_fund_queue`, after the delay, for an invoice
that can still be funded, and among the best queued providers; while it is fixed only the winner
funds; and it is dropped only by `recover_fund_queue`, for an invoice that can no longer be funded
or after the grace period. -/
theorem queue_fair (clock : Clock) (balance : Balances) (actions : List (Action contract))
    (id : Nat) (early : (reach clock balance actions).clock.sequence < u32Max - 1000)
    (action : Action contract) :
    let world := reach clock balance actions
    let notes := noted step (noteQueue id) ⟨none, none⟩ (genesis clock balance) actions
    let next := step world action
    (∀ winner, world.queue.queueResolution id = none → next.queue.queueResolution id = some winner →
      (∃ env, action = .invoke env (.resolveFundQueue id)) ∧
      (∃ opened, notes.openedAt = some opened ∧ opened + 120 ≤ world.clock.sequence) ∧
      (∃ invoice, world.book.invoices id = some invoice ∧ invoice.Fundable ∧
        world.clock.timestamp ≤ invoice.dueDate) ∧
      (∃ entry ∈ world.queue.fundQueue id, entry.lp = winner) ∧
      ∀ entry ∈ world.queue.fundQueue id, getLpScore world.scores entry.lp ≤
        getLpScore world.scores winner) ∧
    ∀ winner, world.queue.queueResolution id = some winner →
      (∀ (env : Env contract) funder amount verify after,
        invoke env world (.fundInvoice funder id amount verify) = .ok after → funder = winner) ∧
      (next.queue.queueResolution id ≠ some winner →
        (∃ env, action = .invoke env (.recoverFundQueue id)) ∧
        next.queue.queueResolution id = none ∧ ∃ invoice, world.book.invoices id = some invoice ∧
          (requireQueueable world.clock invoice ≠ .ok () ∨ ∃ fixed, notes.fixedAt = some fixed ∧
              fixed + (if invoice.dueDate - world.clock.timestamp ≤ 24 * 60 * 60
                then 120 else 720) ≤ world.clock.sequence)) := by
  intro world notes next
  have filed : Filed world.book := reach_filed clock balance actions
  have timed : Timed (world.queue.line id) world.clock.sequence notes :=
    exec_timed clock balance actions id
  have move : QueueStep world id action (world.queue.line id) (next.queue.line id) :=
    step_queue action filed id
  refine ⟨?_, ?_⟩
  · intro winner open_ fixed
    exact move.fixes timed early open_ fixed
  · intro winner fixed
    refine ⟨?_, ?_⟩
    · intro env funder amount verify funded ran
      exact fundInvoice_approved (invoke_runs rfl ran) fixed
    · intro dropped
      exact move.drops timed early fixed dropped

def maturedQueue : List (Action ⟨0⟩) :=
  openingCalls 1000000 300 ++
    [signedBy [3] (.joinFundQueue ⟨3⟩ 1), signedBy [4] (.joinFundQueue ⟨4⟩ 1), .advance 600 120]

theorem queue_fair_of_maturedQueue :
    (step (traded maturedQueue) (signedBy [] (.resolveFundQueue 1))).queue.queueResolution
      1 = some ⟨3⟩ ∧
      ∃ opened, (noted step (noteQueue 1) ⟨none, none⟩ market maturedQueue).openedAt = some opened ∧
        opened + 120 ≤ (traded maturedQueue).clock.sequence := by
  have early : (traded maturedQueue).clock.sequence < u32Max - 1000 := by decide +kernel
  have open_ : (traded maturedQueue).queue.queueResolution 1 = none := by decide +kernel
  have fixed : (step (traded maturedQueue)
    (signedBy [] (.resolveFundQueue 1))).queue.queueResolution 1 =
      some ⟨3⟩ := by decide +kernel
  exact ⟨fixed, ((queue_fair ⟨1000, 10⟩ marketBalances maturedQueue 1 early
    (signedBy [] (.resolveFundQueue 1))).1 ⟨3⟩ open_ fixed).2.1⟩

/-- A provider who joins a full queue is let in exactly if it outscores some entry; it then takes
the place of the last one. -/
def Displaces (env : Env contract) (world : World) (lp : Address) (id : Nat) : Prop :=
  ((∃ next, joinFundQueue env world lp id = .ok next) ↔
    ∃ entry ∈ world.queue.fundQueue id, entry.score < getLpScore world.scores lp) ∧
  ∀ next, joinFundQueue env world lp id = .ok next →
    next.queue.fundQueue id =
      insertRequest ⟨lp, getLpScore world.scores lp⟩ (world.queue.fundQueue id).dropLast ∧
    (next.queue.fundQueue id).length = maxFundQueueLen ∧
    next.queue.fundQueueOpenedAt id = world.queue.fundQueueOpenedAt id

theorem joinFundQueue_room {next : World} {lp : Address}
    (ran : joinFundQueue env world lp id = .ok next) : (world.queue.fundQueue id).length <
      maxFundQueueLen := by
  simp only [joinFundQueue, ok_iff] at ran
  obtain ⟨_, _, _, _, _, _, _, _, _, _, _, _, _, room, _⟩ := ran
  exact room

/-- The first capacity check refuses everybody, so the rule for displacing an entry is met only by
providers it would refuse as well. -/
theorem full_queue_join_iff (env : Env contract) (world : World) (lp : Address) (id : Nat)
    (full : (world.queue.fundQueue id).length = maxFundQueueLen) :
    Displaces env world lp id ↔
      ∀ entry ∈ world.queue.fundQueue id, getLpScore world.scores lp ≤ entry.score := by
  have refused : ∀ next, joinFundQueue env world lp id ≠ .ok next := by
    intro next ran
    have room := joinFundQueue_room ran
    omega
  constructor
  · intro displaces entry queued
    by_contra outscored
    obtain ⟨next, ran⟩ := displaces.1.mpr ⟨entry, queued, not_le.mp outscored⟩
    exact refused next ran
  · intro lowest
    refine ⟨⟨?_, ?_⟩, fun next ran => absurd ran (refused next)⟩
    · rintro ⟨next, ran⟩
      exact absurd ran (refused next)
    · rintro ⟨entry, queued, outscored⟩
      exact absurd (lowest entry queued) (not_le.mpr outscored)

def crowdedQueue : List (Action ⟨0⟩) :=
  openingCalls 1000000 300 ++
    [signedBy [5] (.submitInvoice (bill 2000000 300)),
      signedBy [3] (.fundInvoice ⟨3⟩ 2 2000000 false)] ++
    (List.range 50).map fun lp => signedBy [100 + lp] (.joinFundQueue ⟨100 + lp⟩ 1)

def joiner (lp : Nat) : Env ⟨0⟩ := stellarHost ⟨0⟩ [⟨lp⟩] []

theorem crowdedQueue_full : ((traded crowdedQueue).queue.fundQueue 1).length =
    maxFundQueueLen := by
  decide +kernel

theorem displaces_of_crowdedQueue : Displaces (joiner 4) (traded crowdedQueue) ⟨4⟩ 1 :=
  (full_queue_join_iff (joiner 4) (traded crowdedQueue) ⟨4⟩ 1 crowdedQueue_full).mpr
  (by decide +kernel)

/-- The provider with the higher score is refused although the rule for full queues would let it
in. -/
theorem outscoring_refused :
    let world := traded crowdedQueue
    getLpScore world.scores ⟨3⟩ = 51 ∧
      (∀ entry ∈ world.queue.fundQueue 1, entry.score = 50 ∧ entry.lp ≠ ⟨3⟩) ∧
      (world.queue.fundQueue 1).length = 50 ∧ world.queue.queueResolution 1 = none ∧
      (∃ invoice ∈ world.book.invoices 1, requireQueueable world.clock invoice = .ok ()) ∧
      ¬ Displaces (joiner 3) world ⟨3⟩ 1 := by
  have score : getLpScore (traded crowdedQueue).scores ⟨3⟩ = 51 := by decide +kernel
  have entries : ∀ entry ∈ (traded crowdedQueue).queue.fundQueue 1, entry.score = 50 ∧
      entry.lp ≠ ⟨3⟩ := by
    decide +kernel
  have full : ((traded crowdedQueue).queue.fundQueue 1).length = 50 := crowdedQueue_full
  have fundable : ∃ invoice ∈ (traded crowdedQueue).book.invoices 1,
      requireQueueable (traded crowdedQueue).clock invoice = .ok () := by decide +kernel
  refine ⟨score, entries, full, by decide +kernel, fundable, ?_⟩
  intro displaces
  have filled : (traded crowdedQueue).queue.fundQueue 1 ≠ [] := by
    intro empty
    rw [empty] at full
    cases full
  obtain ⟨entry, queued⟩ := List.exists_mem_of_ne_nil _ filled
  obtain ⟨_, ran⟩ := displaces.1.mpr ⟨entry,
    queued, by rw [(entries entry queued).1, score]; decide⟩
  have room := joinFundQueue_room ran
  rw [full] at room
  exact absurd room (by decide)

end InvoiceLiquidity
