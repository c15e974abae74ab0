import Iln.Invoice.Answers
import Iln.Invoice.FundQueue

/-! The due date as the entry points read it. Some let the last second count as still open, some as
already over, and one does not look at all once an invoice is partially funded. An answer about the
deadline can only come from that comparison. -/
namespace InvoiceLiquidity

open Outcome FixedWidth Transition

variable {contract : Address} {outcome : Result World} {said : Bool}

section EntryPoints

variable {env : Env contract} {world next : World} {id : Nat} {invoice : Invoice}

def Invoice.Live (invoice : Invoice) : Prop := invoice.status = .pending ∨ invoice.status = .funded

theorem refusal_of_live (live : invoice.Live) : invoice.status.refusal.singular = false := by
  rcases live with pending | funded
  · rw [pending]
    rfl
  · rw [funded]
    rfl

theorem requirePending_avoids (live : invoice.Live) : Avoids (.returned .invoiceExpired)
    (requirePending invoice.status) := by
  refine avoids_require (returned_ne rfl ?_)
  rcases live with pending | funded
  · rw [pending]
    rfl
  · rw [funded]
    rfl

variable (stored : world.book.invoices id = some invoice)
include stored

theorem loaded_of_stored {found : Invoice}
    (loaded : loadInvoice world.book id = .ok found) : found = invoice := by
  rw [loadInvoice, orFail_eq_ok, stored, Option.some.injEq] at loaded
  exact loaded.symm

theorem avoids_loading {error : ContractError} {rest : Invoice → Result World}
    (deadline : error.singular = true) (later : Avoids (.returned error) (rest invoice)) :
    Avoids (.returned error) (loadInvoice world.book id >>= rest) := by
  refine Avoids.bind (loadInvoice_avoids deadline _ _) fun found loaded => ?_
  rw [loaded_of_stored stored loaded]
  exact later

theorem updateInvoice_open {freelancer : Address} {amount : Int} {dueDate discountRate : Nat}
    (ran : updateInvoice env world freelancer id amount dueDate discountRate = .ok next) :
    world.clock.timestamp < invoice.dueDate := by
  simp only [updateInvoice, requirePending, ok_iff] at ran
  obtain ⟨_, _, _, loaded, _, _, _, unexpired, _, pending, _⟩ := ran
  rw [loaded_of_stored stored loaded] at unexpired pending
  exact not_le.mp fun late => unexpired ⟨pending, late⟩

theorem updateInvoice_avoids (live : invoice.Live) (open_ : world.clock.timestamp < invoice.dueDate)
    (freelancer : Address) (amount : Int) (dueDate discountRate : Nat) :
    Avoids (.returned .invoiceExpired)
    (updateInvoice env world freelancer id amount dueDate discountRate) := by
  refine Avoids.bind (requireUnpaused_avoids rfl _) fun _ _ => ?_
  refine avoids_loading stored rfl ?_
  refine Avoids.bind (requireSubmitter_avoids rfl _ _) fun _ _ => ?_
  refine Avoids.bind (avoids_require_of_holds fun late => absurd late.2 (not_le.mpr open_))
    fun _ _ => ?_
  refine Avoids.bind (requirePending_avoids live) fun _ _ => ?_
  exact (validateInvoiceTermsWithToken_avoids rfl _ _ _ _ _ _).bind fun _ _ => avoids_ok _ _

theorem convertInvoiceToken_open {freelancer newToken : Address}
    (ran : convertInvoiceToken env world freelancer id newToken = .ok next) :
    world.clock.timestamp < invoice.dueDate := by
  simp only [convertInvoiceToken, ok_iff] at ran
  obtain ⟨_, _, _, loaded, _, _, _, _, _, open_, _⟩ := ran
  rw [loaded_of_stored stored loaded] at open_
  exact open_

theorem convertInvoiceToken_avoids
    (open_ : world.clock.timestamp < invoice.dueDate) (freelancer newToken : Address) :
    Avoids (.returned .invoiceExpired) (convertInvoiceToken env world freelancer id newToken) := by
  refine Avoids.bind (requireUnpaused_avoids rfl _) fun _ _ => ?_
  refine avoids_loading stored rfl ?_
  refine Avoids.bind (requireSubmitter_avoids rfl _ _) fun _ _ => ?_
  refine Avoids.bind (avoids_require (returned_ne rfl ?_)) fun _ _ => ?_
  · cases invoice.status <;> rfl
  refine Avoids.bind (avoids_require_of_holds open_) fun _ _ => ?_
  refine avoids_guarding rfl rfl fun _ => ?_
  exact avoids_finding rfl rfl fun _ _ => avoids_ok _ _

theorem fundInvoice_gate (filed : Filed world.book) {funder : Address} {amount : Int}
    {verify : Bool} (ran : fundInvoice env world funder id amount verify = .ok next) :
    invoice.Fundable ∧
      (invoice.status = .pending → world.clock.timestamp ≤ invoice.dueDate) := by
  simp only [fundInvoice, checkFunding, requireFundable, filed.tryLoadInvoice, ok_iff] at ran
  obtain ⟨_, _, _, ⟨_, _, _, _, _, loaded, _, _, _, _, _, _, _, _, _, unexpired, _, fundable, _⟩,
    _⟩ := ran
  rw [stored] at loaded
  cases loaded
  exact ⟨fundable, fun pending => not_lt.mp fun late => unexpired ⟨pending, late⟩⟩

theorem fundInvoice_timely (filed : Filed world.book) (live : invoice.Live)
    (open_ : world.clock.timestamp ≤ invoice.dueDate) (funder : Address) (amount : Int)
    (verify : Bool) : Avoids (.returned .invoiceExpired)
    (fundInvoice env world funder id amount verify) := by
  refine fundInvoice_avoids rfl (by nofun) (fun found loaded => ?_) funder amount verify
  cases (filed.tryLoadInvoice id).symm.trans loaded |>.symm.trans stored
  exact ⟨fun _ late => absurd late.2 (not_lt.mpr open_),
    fun same => absurd (congrArg _ same) (returned_ne rfl (refusal_of_live live))⟩

theorem joinFundQueue_open {lp : Address}
    (ran : joinFundQueue env world lp id = .ok next) : world.clock.timestamp ≤ invoice.dueDate := by
  simp only [joinFundQueue, ok_iff] at ran
  obtain ⟨_, _, _, _, _, loaded, _, _, _, _, _, open_, _⟩ := ran
  rw [loaded_of_stored stored loaded] at open_
  exact open_

theorem joinFundQueue_avoids (live : invoice.Live)
    (open_ : world.clock.timestamp ≤ invoice.dueDate) (lp : Address) :
    Avoids (.returned .invoiceExpired) (joinFundQueue env world lp id) := by
  refine Avoids.bind (requireUnpaused_avoids rfl _) fun _ _ => ?_
  refine avoids_trapping fun _ => ?_
  refine avoids_loading stored rfl ?_
  refine avoids_guarding rfl rfl fun _ => ?_
  refine avoids_guarding rfl (refusal_of_live live) fun _ => ?_
  refine Avoids.bind (avoids_require_of_holds open_) fun _ _ => ?_
  refine avoids_guarding rfl rfl fun room => ?_
  refine avoids_guarding rfl rfl fun _ => ?_
  refine Avoids.bind ?_ fun _ _ => avoids_ok _ _
  rw [displaceTail, if_pos room]
  exact avoids_ok _ _

theorem resolveFundQueue_open (filed : Filed world.book)
    (unresolved : world.queue.queueResolution id = none) {winner : Address}
    (ran : resolveFundQueue env world id = .ok (next, winner)) :
    world.clock.timestamp ≤ invoice.dueDate := by
  simp only [resolveFundQueue, unresolved, filed.tryLoadInvoice, ok_iff] at ran
  obtain ⟨_, _, _, _, _, loaded, _, queueable, _⟩ := ran
  rw [stored] at loaded
  cases loaded
  exact (requireQueueable_ok.mp queueable).2

theorem resolveFundQueue_avoids (filed : Filed world.book) (live : invoice.Live)
    (open_ : world.clock.timestamp ≤ invoice.dueDate) :
    Avoids (.returned .invoiceExpired) (resolveFundQueue env world id) := by
  refine Avoids.bind (requireUnpaused_avoids rfl _) fun _ _ => ?_
  refine Avoids.bind (loadInvoice_avoids rfl _ _) fun _ _ => ?_
  split
  · exact avoids_ok _ _
  · refine avoids_finding rfl rfl fun found loaded => ?_
    cases (filed.tryLoadInvoice id).symm.trans loaded |>.symm.trans stored
    refine Avoids.bind ?_ fun _ _ => ?_
    · refine avoids_guarding rfl (refusal_of_live live) fun _ => ?_
      exact avoids_require_of_holds open_
    refine avoids_guarding rfl rfl fun _ => ?_
    refine avoids_finding rfl rfl fun _ _ => ?_
    refine avoids_guarding rfl rfl fun _ => ?_
    exact (avoids_orFail (trap_ne_returned _)).bind fun _ _ => avoids_ok _ _

theorem expireInvoice_over
    (ran : expireInvoice world id = .ok next) : invoice.dueDate < world.clock.timestamp := by
  simp only [expireInvoice, ok_iff] at ran
  obtain ⟨_, _, _, loaded, _, late, _⟩ := ran
  rw [loaded_of_stored stored loaded] at late
  exact late

theorem expireInvoice_avoids (live : invoice.Live)
    (late : invoice.dueDate < world.clock.timestamp) : Avoids (.returned .notYetDefaulted)
    (expireInvoice world id) := by
  refine Avoids.bind (requireUnpaused_avoids rfl _) fun _ _ => ?_
  refine avoids_loading stored rfl ?_
  refine Avoids.bind (avoids_require_of_holds late) fun _ _ => ?_
  refine Avoids.bind (avoids_require (returned_ne rfl ?_)) fun _ _ => avoids_ok _ _
  rcases live with pending | funded
  · rw [pending]
    rfl
  · rw [funded]
    rfl

theorem claimDefault_reached {funder : Address}
    (ran : claimDefault env world funder id = .ok next) :
    invoice.dueDate ≤ world.clock.timestamp := by
  simp only [claimDefault, ok_iff] at ran
  obtain ⟨_, _, _, _, _, _, _, loaded, _, _, _, reached, _⟩ := ran
  rw [loaded_of_stored stored loaded] at reached
  exact reached

theorem claimDefault_timely (live : invoice.Live)
    (reached : invoice.dueDate ≤ world.clock.timestamp) (funder : Address) :
    Avoids (.returned .notYetDefaulted) (claimDefault env world funder id) := by
  refine claimDefault_avoids rfl (by nofun) (fun found loaded => ?_) funder
  rw [loaded_of_stored stored loaded]
  exact ⟨fun _ => reached, fun same => absurd (congrArg _ same)
    (returned_ne rfl (refusal_of_live live))⟩

end EntryPoints

section Verdicts

/-- The invoice whose due date a call compares with the clock. -/
def Call.deadlineTarget : Call → Option Nat
  | .updateInvoice _ id _ _ _ | .convertInvoiceToken _ id _ | .fundInvoice _ id _ _
  | .joinFundQueue _ id | .resolveFundQueue id | .expireInvoice id | .claimDefault _ id => some id
  | _ => none

/-- Calls for which the deadline is over at the due date already. -/
def Call.closesEarly : Call → Bool
  | .updateInvoice _ _ _ _ _ | .convertInvoiceToken _ _ _ | .claimDefault _ _ => true
  | _ => false

/-- A call for the time before the deadline says that it is over by refusing with
`InvoiceExpired`. -/
def whileOpen : Result World → Option Bool
  | .ok _ => some false
  | .error failure => if failure = .returned .invoiceExpired then some true else none

/-- A call for the time after the deadline says that it is not over by refusing with
`NotYetDefaulted`. -/
def onceOver : Result World → Option Bool
  | .ok _ => some true
  | .error failure => if failure = .returned .notYetDefaulted then some false else none

/-- What the outcome of a call says about the deadline: over, not over, or nothing. A queue that is
already resolved is answered without a look at the clock. -/
def deadlineVerdict (world : World) (call : Call) (outcome : Result World) : Option Bool :=
  match call with
  | .updateInvoice _ _ _ _ _ | .convertInvoiceToken _ _ _ | .fundInvoice _ _ _ _
  | .joinFundQueue _ _ => whileOpen outcome
  | .resolveFundQueue id => if world.queue.queueResolution id = none then whileOpen
      outcome else none
  | .expireInvoice _ | .claimDefault _ _ => onceOver outcome
  | _ => none

theorem whileOpen_iff {late : Prop} (open_ : ∀ next, outcome = .ok next → ¬ late)
    (avoids : ¬ late → Avoids (.returned .invoiceExpired) outcome)
    (judged : whileOpen outcome = some said) : said = true ↔ late := by
  cases outcome with
  | ok next =>
    cases judged
    simp [open_ next rfl]
  | error =>
    dsimp only [whileOpen] at judged
    split at judged
    · rename_i expired
      cases judged
      simp only [true_iff]
      by_contra still
      exact avoids still (congrArg _ expired)
    · cases judged

theorem expired_of_whileOpen (judged : whileOpen outcome = some true) :
    outcome = .error (.returned .invoiceExpired) := by
  cases outcome with
  | ok => cases judged
  | error =>
    dsimp only [whileOpen] at judged
    split at judged
    · rename_i expired
      rw [expired]
    · cases judged

theorem onceOver_iff {late : Prop} (reached : ∀ next, outcome = .ok next → late)
    (avoids : late → Avoids (.returned .notYetDefaulted) outcome)
    (judged : onceOver outcome = some said) : said = true ↔ late := by
  cases outcome with
  | ok next =>
    cases judged
    simp [reached next rfl]
  | error =>
    dsimp only [onceOver] at judged
    split at judged
    · rename_i early
      cases judged
      simp only [Bool.false_eq_true, false_iff]
      intro late
      exact avoids late (congrArg _ early)
    · cases judged

def Call.sees (call : Call) (clock : Clock) (invoice : Invoice) : Prop :=
  if call.closesEarly then invoice.dueDate ≤ clock.timestamp else invoice.dueDate < clock.timestamp

variable {env : Env contract} {world : World} {id : Nat} {invoice : Invoice}

theorem deadlineVerdict_iff {call : Call} (filed : Filed world.book)
    (stored : world.book.invoices id = some invoice) (live : invoice.Live)
    (aimed : call.deadlineTarget = some id)
    (judged : deadlineVerdict world call (invoke env world call) = some said) :
    said = true ↔ call.sees world.clock invoice := by
  cases call with
  | updateInvoice =>
    cases aimed
    refine whileOpen_iff ?_ ?_ judged
    · intro next ran
      exact not_le.mpr (updateInvoice_open stored (invoke_runs rfl ran))
    · intro still
      refine avoids_trapping fun _ => ?_
      exact updateInvoice_avoids stored live (not_le.mp still) _ _ _ _
  | convertInvoiceToken =>
    cases aimed
    refine whileOpen_iff ?_ ?_ judged
    · intro next ran
      exact not_le.mpr (convertInvoiceToken_open stored (invoke_runs rfl ran))
    · intro still
      refine avoids_trapping fun _ => ?_
      exact convertInvoiceToken_avoids stored (not_le.mp still) _ _
  | fundInvoice =>
    cases aimed
    refine whileOpen_iff ?_ ?_ judged
    · intro next ran
      obtain ⟨fundable, open_⟩ := fundInvoice_gate stored filed (invoke_runs rfl ran)
      refine not_lt.mpr (open_ ?_)
      rcases live with pending | funded
      · exact pending
      · rcases fundable with same | same <;> cases same.symm.trans funded
    · intro still
      refine avoids_trapping fun _ => ?_
      exact fundInvoice_timely stored filed live (not_lt.mp still) _ _ _
  | joinFundQueue =>
    cases aimed
    refine whileOpen_iff ?_ ?_ judged
    · intro next ran
      exact not_lt.mpr (joinFundQueue_open stored (invoke_runs rfl ran))
    · intro still
      refine avoids_trapping fun _ => ?_
      exact joinFundQueue_avoids stored live (not_lt.mp still) _
  | resolveFundQueue =>
    cases aimed
    unfold deadlineVerdict at judged
    dsimp only at judged
    split at judged
    · rename_i unresolved
      refine whileOpen_iff ?_ ?_ judged
      · intro next ran
        simp only [invoke, invokeControl, invokeWorld, ok_iff] at ran
        obtain ⟨_, _, ⟨_, _⟩, resolved, _⟩ := ran
        exact not_lt.mpr (resolveFundQueue_open stored filed unresolved resolved)
      · intro still
        refine avoids_trapping fun _ => ?_
        exact (resolveFundQueue_avoids stored filed live (not_lt.mp still)).map
    · cases judged
  | expireInvoice =>
    cases aimed
    refine onceOver_iff ?_ ?_ judged
    · intro next ran
      exact expireInvoice_over stored (invoke_runs rfl ran)
    · intro late
      refine avoids_trapping fun _ => ?_
      exact expireInvoice_avoids stored live late
  | claimDefault =>
    cases aimed
    refine onceOver_iff ?_ ?_ judged
    · intro next ran
      exact claimDefault_reached stored (invoke_runs rfl ran)
    · intro late
      refine avoids_trapping fun _ => ?_
      exact claimDefault_timely stored live late _
  | _ => cases aimed

end Verdicts

section Agreement

variable (contract) in
def PaidAndDefaulted (world : World) (id : Nat) (invoice : Invoice) : Prop :=
  invoice.status = .funded ∧ world.clock.timestamp ≤ invoice.dueDate ∧
    (∃ (env : Env contract) (amount : Int) (next : World), invoke env world (.markPaid id amount) =
      .ok next) ∧
    ∃ (env : Env contract) (funder : Address) (next : World),
      invoke env world (.claimDefault funder id) = .ok next

variable (contract) in
/-- A pending invoice that can be funded and queued for, while its freelancer is told that it has
expired. -/
def FundableButExpired (world : World) (id : Nat) (invoice : Invoice) : Prop :=
  invoice.status = .pending ∧
    (∃ (env : Env contract) (funder : Address) (amount : Int) (verify : Bool) (next : World),
      invoke env world (.fundInvoice funder id amount verify) = .ok next) ∧
    (∃ (env : Env contract) (lp : Address) (next : World),
      invoke env world (.joinFundQueue lp id) = .ok next) ∧
    ((∃ (env : Env contract) (freelancer : Address) (amount : Int) (dueDate discountRate : Nat),
      invoke env world (.updateInvoice freelancer id amount dueDate discountRate) =
        .error (.returned .invoiceExpired)) ∨
      ∃ (env : Env contract) (freelancer newToken : Address),
        invoke env world (.convertInvoiceToken freelancer id newToken) =
          .error (.returned .invoiceExpired))

variable {world : World} {id : Nat} {invoice : Invoice}

theorem not_paidAndDefaulted (stored : world.book.invoices id = some invoice)
    (apart : world.clock.timestamp ≠ invoice.dueDate) :
    ¬ PaidAndDefaulted contract world id invoice := by
  rintro ⟨_, onTime, _, env, funder, next, ran⟩
  have claimed := invoke_runs rfl ran
  exact apart (le_antisymm onTime (claimDefault_reached stored claimed))

theorem not_fundableButExpired (filed : Filed world.book)
    (stored : world.book.invoices id = some invoice)
    (apart : world.clock.timestamp ≠ invoice.dueDate) :
    ¬ FundableButExpired contract world id invoice := by
  rintro ⟨pending, ⟨env, funder, amount, verify, next, ran⟩, _, refused⟩
  have funded := invoke_runs rfl ran
  have open_ := (fundInvoice_gate stored filed funded).2 pending
  have before : world.clock.timestamp < invoice.dueDate := lt_of_le_of_ne open_ apart
  rcases refused with ⟨env, freelancer, amount, dueDate, discountRate, expired⟩ | ⟨env, freelancer,
    newToken, expired⟩
  · have answered : Avoids (.returned .invoiceExpired)
        (invoke env world (.updateInvoice freelancer id amount dueDate discountRate)) :=
      avoids_trapping fun _ => updateInvoice_avoids stored (.inl pending) before _ _ _ _
    exact answered expired
  · have answered : Avoids (.returned .invoiceExpired)
        (invoke env world (.convertInvoiceToken freelancer id newToken)) :=
      avoids_trapping fun _ => convertInvoiceToken_avoids stored before _ _
    exact answered expired

/-- In every reachable state a call on a live invoice judges the deadline by `now > due_date`
exactly if it does not close early at the very due date, and apart from that moment no two calls
contradict each other. -/
theorem deadlines_agree_iff (clock : Clock) (balance : Balances) (actions : List (Action contract))
    (id : Nat) (invoice : Invoice)
    (stored : (reach clock balance actions).book.invoices id = some invoice) (live : invoice.Live) :
    let world := reach clock balance actions
    (∀ (env : Env contract) (call : Call) (said : Bool), call.deadlineTarget = some id →
      deadlineVerdict world call (invoke env world call) = some said →
      ((said = true ↔ invoice.dueDate < world.clock.timestamp) ↔
        ¬ (world.clock.timestamp = invoice.dueDate ∧ call.closesEarly = true))) ∧
    (world.clock.timestamp ≠ invoice.dueDate → ¬ PaidAndDefaulted contract world id invoice ∧
      ¬ FundableButExpired contract world id invoice) := by
  intro world
  have filed : Filed world.book := reach_filed clock balance actions
  refine ⟨?_, fun apart => ⟨not_paidAndDefaulted stored apart,
    not_fundableButExpired filed stored apart⟩⟩
  intro env call said aimed judged
  rw [deadlineVerdict_iff filed stored live aimed judged]
  unfold Call.sees
  cases call.closesEarly with
  | true =>
    simp only [if_true, and_true]
    omega
  | false => simp

def dueMoment : List (Action ⟨0⟩) :=
  openingCalls 1000000 300 ++
    [signedBy [5] (.submitInvoice (bill 2000000 300)), signedBy [3]
     (.fundInvoice ⟨3⟩ 1 1000000 false), .credit ⟨10⟩ ⟨0⟩ 1000000, .advance 99000 19800]

def earlyInvoice : Invoice := newInvoice 1 (bill 1000000 300) 50

theorem deadlines_agree_before_dueDate :
    ¬ FundableButExpired ⟨0⟩ (traded (openingCalls 1000000 300)) 1 earlyInvoice := by
  have stored : (traded (openingCalls 1000000 300)).book.invoices 1 =
    some earlyInvoice := by decide +kernel
  have apart : (traded (openingCalls 1000000 300)).clock.timestamp ≠
    earlyInvoice.dueDate := by decide +kernel
  exact ((deadlines_agree_iff ⟨1000, 10⟩ marketBalances (openingCalls 1000000 300) 1
    earlyInvoice stored (.inl rfl)).2 apart).2

/-- At the due date the first invoice can be paid on time and be defaulted, and the second one can
be funded and queued for although it cannot be updated any more. -/
theorem dueMoment_contradicts :
    (∃ invoice, (traded dueMoment).book.invoices 1 = some invoice ∧
      PaidAndDefaulted ⟨0⟩ (traded dueMoment) 1 invoice) ∧
    ∃ invoice, (traded dueMoment).book.invoices 2 = some invoice ∧
      FundableButExpired ⟨0⟩ (traded dueMoment) 2 invoice := by
  have paid : succeeds (traded dueMoment) (signedBy [2] (.markPaid 1 1000000)) =
    true := by decide +kernel
  have claimed : succeeds (traded dueMoment) (signedBy [3] (.claimDefault ⟨3⟩ 1)) =
    true := by decide +kernel
  have funded : succeeds (traded dueMoment)
      (signedBy [4] (.fundInvoice ⟨4⟩ 2 2000000 false)) = true := by
    decide +kernel
  have joined : succeeds (traded dueMoment) (signedBy [4] (.joinFundQueue ⟨4⟩ 2)) =
    true := by decide +kernel
  have refused : whileOpen (invoke (stellarHost ⟨0⟩ [⟨5⟩] []) (traded dueMoment)
      (.updateInvoice ⟨5⟩ 2 2000000 200000 300)) = some true := by decide +kernel
  have first : ∃ invoice, (traded dueMoment).book.invoices 1 = some invoice ∧
      invoice.status = .funded ∧ (traded dueMoment).clock.timestamp ≤ invoice.dueDate :=
    ⟨{ newInvoice 1 (bill 1000000 300) 50 with
      status := .funded, amountFunded := 1000000, funder := some ⟨3⟩, fundedAt := some 1000 }, by
        decide +kernel⟩
  have second : ∃ invoice, (traded dueMoment).book.invoices 2 = some invoice ∧
    invoice.status = .pending := ⟨newInvoice 2 (bill 2000000 300) 50, by decide +kernel⟩
  obtain ⟨settled, stored, status, onTime⟩ := first
  obtain ⟨open_, kept, pending⟩ := second
  refine ⟨⟨settled, stored, status, onTime, ?_, ?_⟩, ⟨open_, kept, pending, ?_, ?_, .inl ?_⟩⟩
  · exact ⟨_, _, returns_of_succeeds paid⟩
  · exact ⟨_, _, returns_of_succeeds claimed⟩
  · exact ⟨_, _, _, _, returns_of_succeeds funded⟩
  · exact ⟨_, _, returns_of_succeeds joined⟩
  · exact ⟨_, _, _, _, _, expired_of_whileOpen refused⟩

end Agreement

/-- In every reachable state an accepted contribution is one the queue would accept as well, exactly
if the invoice is not both partially funded and past due. -/
theorem funding_queueable_iff (clock : Clock) (balance : Balances)
    (actions : List (Action contract)) (env : Env contract) (funder : Address) (id : Nat)
    (amount : Int) (verify : Bool) (next : World) (invoice : Invoice)
    (stored : (reach clock balance actions).book.invoices id = some invoice)
    (returned : invoke env (reach clock balance actions)
      (.fundInvoice funder id amount verify) = .ok next) :
    requireQueueable (reach clock balance actions).clock invoice = .ok () ↔
      (invoice.status = .partiallyFunded →
        (reach clock balance actions).clock.timestamp ≤ invoice.dueDate) := by
  have funded := invoke_runs rfl returned
  obtain ⟨fundable, open_⟩ := fundInvoice_gate stored (reach_filed clock balance actions) funded
  rw [requireQueueable_ok]
  constructor
  · intro queueable _
    exact queueable.2
  · intro partly
    refine ⟨fundable, ?_⟩
    rcases fundable with pending | same
    · exact open_ pending
    · exact partly same

def partFunded : List (Action ⟨0⟩) := openingCalls 1000000 300 ++
    [signedBy [3] (.fundInvoice ⟨3⟩ 1 400000 false)]

def partInvoice : Invoice :=
  { newInvoice 1 (bill 1000000 300) 50 with status := .partiallyFunded, amountFunded := 400000 }

theorem funding_queueable_of_partFunded :
    requireQueueable (traded partFunded).clock partInvoice = .ok () := by
  have stored : (traded partFunded).book.invoices 1 = some partInvoice := by decide +kernel
  have finished : succeeds (traded partFunded)
      (signedBy [4] (.fundInvoice ⟨4⟩ 1 600000 false)) = true := by
    decide +kernel
  obtain ⟨next, ran⟩ := returns_of_succeeds finished
  exact (funding_queueable_iff ⟨1000, 10⟩ marketBalances partFunded _ ⟨4⟩ 1 600000 false next
    partInvoice stored ran).mpr fun _ => by decide +kernel

/-- A day after the due date the queue refuses the invoice and `fund_invoice` still takes the
rest. -/
theorem late_funding_accepted :
    (traded (partFunded ++ [.advance 185400 37080])).book.invoices 1 = some partInvoice ∧
      partInvoice.dueDate <
        (traded (partFunded ++ [.advance 185400 37080])).clock.timestamp ∧
      succeeds (traded (partFunded ++ [.advance 185400 37080]))
        (signedBy [4] (.fundInvoice ⟨4⟩ 1 600000 false)) = true ∧
      requireQueueable (traded (partFunded ++ [.advance 185400 37080])).clock
        partInvoice = .error (.returned .invoiceExpired) := by
  decide +kernel

end InvoiceLiquidity
