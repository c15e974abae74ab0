import Iln.Invoice.Housekeeping
import Iln.Invoice.Lifecycle

/-! Defaults and appeals over a whole run. A default keeps the payer's score from before the
penalty. The window of an appeal is measured from the due date, whenever the default was claimed,
and an upheld appeal writes the kept score back. -/
namespace InvoiceLiquidity

open Outcome FixedWidth Transition

variable {contract : Address}

section Scores

variable {world : World}

theorem step_bounded (action : Action contract) (bounded : world.scores.Bounded) :
    (step world action).scores.Bounded :=
  step_keeps (fun world => world.scores.Bounded) action
    (fun _ _ _ ran => (invoke_frame ran).bounded bounded) fun _ _ => bounded

theorem exec_bounded (clock : Clock) (balance : Balances) (actions : List (Action contract)) :
    (reach clock balance actions).scores.Bounded := by
  refine invariant (fun world : World => world.scores.Bounded)
    (fun _ action held => step_bounded action held) actions ?_
  intro _ _ stored
  cases stored

end Scores

section Defaults

variable {env : Env contract} {world next : World} {id : Nat} {invoice : Invoice} {score : Nat}

theorem claimDefault_spec {funder : Address} (stored : world.book.invoices id = some invoice)
    (bounded : world.scores.Bounded) (ran : claimDefault env world funder id = .ok next) :
    next.book.preDefaultPayerScore id = some (world.scoreOf invoice.payer) ∧
      next.scoreOf invoice.payer = world.scoreOf invoice.payer - 5 := by
  simp only [claimDefault, loadInvoice, ok_iff, lockReentrancy_ok] at ran
  obtain ⟨_, ⟨_, rfl⟩, _, _, _, _, _, found, _, _, _, _, _, _, _, _, _, _, rfl⟩ := ran
  cases found.symm.trans stored
  exact ⟨Function.update_self .., (penalizeDefault_spec bounded).2.2⟩

theorem appealDefault_record {evidenceHash : Hash}
    (kept : world.book.preDefaultPayerScore id = some score)
    (ran : appealDefault env world id evidenceHash = .ok next) :
    ∀ record ∈ next.book.appeals id, record.preDefaultScore = score := by
  simp only [appealDefault, ok_iff] at ran
  obtain ⟨_, _, _, _, _, _, _, _, _, _, _, _, _, _, _, _, rfl⟩ := ran
  intro record appealed
  have written := (Function.update_self id _ world.book.appeals).symm.trans appealed
  cases written
  simp only [kept]

theorem resolveAppeal_appealed {upheld : Bool}
    (ran : resolveAppeal env world id upheld = .ok next) :
    ∃ record, world.book.appeals id = some record := by
  simp only [resolveAppeal, ok_iff] at ran
  obtain ⟨_, _, _, _, _, _, record, listed, _⟩ := ran
  exact ⟨record, listed⟩

theorem resolveAppeal_spec {record : AppealRecord} (stored : world.book.invoices id = some invoice)
    (appealed : world.book.appeals id = some record) (bounded : world.scores.Bounded)
    (ran : resolveAppeal env world id true = .ok next) :
    next.scoreOf invoice.payer = min record.preDefaultScore 100 := by
  simp only [resolveAppeal, loadInvoice, ok_iff] at ran
  obtain ⟨_, _, _, found, _, _, _, listed, _, _, rfl⟩ := ran
  cases found.symm.trans stored
  cases listed.symm.trans appealed
  unfold World.scoreOf
  simp only [recordAdminAction_config, if_true]
  exact (restoreScore_spec bounded record).2

structure DefaultHeld (id : Nat) (invoice : Invoice) (score : Nat) (world : World) (file : File) :
    Prop where
  stored : world.book.file id = some file
  terms : file.invoice = { invoice with status := file.invoice.status }
  status : file.invoice.status = .defaulted ∨ file.invoice.status = .appealed
  fresh : file.appeal = none → file.invoice.status = .defaulted
  appealed : ∀ record ∈ file.appeal, record.preDefaultScore = score
  kept : world.book.preDefaultPayerScore id = some score

theorem Change.of_defaulted {call : Call} {file after : File} {moves : List Movement}
    (change : Change env world id call file after moves)
    (status : file.invoice.status = .defaulted ∨ file.invoice.status = .appealed) :
    (∃ evidenceHash record, call = .appealDefault id evidenceHash ∧ after = { file with
        invoice := { file.invoice with status := .appealed }, appeal := some record }) ∨
    (∃ upheld, call = .resolveAppeal id upheld ∧ file.invoice.status = .appealed ∧
      after = { file with invoice := { file.invoice with status := .defaulted } }) := by
  cases change with
  | appealed evidenceHash record => exact .inl ⟨evidenceHash, record, rfl, rfl⟩
  | reviewed upheld appealed => exact .inr ⟨upheld, rfl, appealed, rfl⟩
  | edited _ _ _ _ _ _ pending | expired pending => simp [pending] at status
  | contributed _ _ _ fundable | completed _ _ _ fundable | cancelled fundable =>
    rcases fundable with pending | partly
    · simp [pending] at status
    · simp [partly] at status
  | renamed _ _ funded | instalment _ funded | settled _ _ _ funded | defaulted _ funded =>
    simp [funded] at status
  | disputed _ _ disputable =>
    rcases disputable with pending | partly | funded
    · simp [pending] at status
    · simp [partly] at status
    · simp [funded] at status
  | upheld disputed | restored _ disputed => simp [disputed] at status

theorem step_kept (action : Action contract) (other : ∀ env funder,
      action = .invoke env (.claimDefault funder id) → succeeds world action = false) :
    (step world action).book.preDefaultPayerScore id = world.book.preDefaultPayerScore id := by
  refine step_keeps (fun next => next.book.preDefaultPayerScore id =
    world.book.preDefaultPayerScore id) action ?_
    fun _ _ => rfl
  intro env call invoked ran
  refine (invoke_frame ran).kept id ?_
  rintro funder rfl
  have failed := other env funder invoked
  rw [invoked, succeeds, ran] at failed
  cases failed

theorem step_defaultHeld (action : Action contract) (filed : Filed world.book) {file : File}
    (held : DefaultHeld id invoice score world file) :
    ∃ after, DefaultHeld id invoice score (step world action) after := by
  obtain ⟨stored, terms, status, fresh, appealed, kept⟩ := held
  cases step_touch action filed id with
  | same unchanged _ quiet =>
    refine ⟨file, unchanged.trans stored, terms, status, fresh, appealed,
      (step_kept action ?_).trans kept⟩
    rintro env funder rfl
    exact quiet.resolve_left fun elsewhere => elsewhere rfl
  | fresh _ absent =>
    rw [absent] at stored
    cases stored
  | changed env call before after invoked aimed ran found now change =>
    subst invoked
    cases found.symm.trans stored
    rcases change.of_defaulted status with ⟨_, record, rfl, rfl⟩ | ⟨_, rfl,
      wasAppealed, rfl⟩
    · refine ⟨_, now, ?_, .inr rfl, (by rintro ⟨⟩), ?_, (step_kept _ ?_).trans kept⟩
      · rw [terms]
      · -- the record of the appeal, as the call wrote it
        have finished := invoke_of_succeeds ran
        have written := appealDefault_record kept (invoke_runs rfl finished)
        obtain ⟨_, _, same⟩ := Option.map_eq_some_iff.mp now
        rw [← congrArg File.appeal same]
        exact written
      · rintro env funder different
        cases different
    · refine ⟨_, now, ?_, .inl rfl, fun _ => rfl, appealed, (step_kept _ ?_).trans kept⟩
      · rw [terms]
      · rintro env funder different
        cases different

theorem exec_defaultHeld (actions : List (Action contract)) (filed : Filed world.book)
    (start : ∃ file, DefaultHeld id invoice score world file) :
    ∃ file, DefaultHeld id invoice score (exec step world actions) file := by
  refine filed_invariant (fun world => ∃ file, DefaultHeld id invoice score world file)
    ?_ filed start Along.always
  rintro world action filed ⟨file, held⟩ _
  exact step_defaultHeld action filed held

def AppealFollowsDefault (file : File) : Prop :=
  file.appeal = none ∨ file.invoice.status = .defaulted ∨ file.invoice.status = .appealed

theorem Change.appealFollowsDefault {call : Call} {file after : File} {moves : List Movement}
    (change : Change env world id call file after moves) (held : AppealFollowsDefault file) :
    AppealFollowsDefault after := by
  rcases held with unappealed | status
  · cases change with
    | appealed => exact .inr (.inr rfl)
    | _ => exact .inl unappealed
  · rcases change.of_defaulted status with ⟨_, _, _, rfl⟩ | ⟨_, _, _, rfl⟩
    · exact .inr (.inr rfl)
    · exact .inr (.inl rfl)

theorem exec_appealFollowsDefault (clock : Clock) (balance : Balances)
    (actions : List (Action contract)) (id : Nat) :
    ∀ file ∈ (reach clock balance actions).book.file id,
      AppealFollowsDefault file := by
  refine file_induct AppealFollowsDefault ?_ ?_ clock balance Along.always
  · rintro file ⟨_, _, _, rfl, _⟩
    exact .inl rfl
  · intro env world call file after moves _ _ change held
    exact change.appealFollowsDefault held

theorem defaulted_held (clock : Clock) (balance : Balances) (actions : List (Action contract))
    {funder : Address}
    (stored : (reach clock balance actions).book.invoices id = some invoice)
    (claimed : succeeds (reach clock balance actions)
      (.invoke env (.claimDefault funder id)) = true) (later : List (Action contract)) :
    ∃ file, DefaultHeld id invoice
      ((reach clock balance actions).scoreOf invoice.payer)
      (exec step (reach clock balance actions)
        (.invoke env (.claimDefault funder id) :: later)) file := by
  have filed := reach_filed clock balance actions
  have found := file_of_invoice stored
  obtain ⟨after, _, now, change⟩ := step_change filed rfl claimed found
  have finished := invoke_of_succeeds claimed
  obtain ⟨kept, _⟩ := claimDefault_spec stored (exec_bounded clock balance actions)
    (invoke_runs rfl finished)
  refine exec_defaultHeld later (step_effect _ filed).2 ⟨after, ?_⟩
  cases change with
  | defaulted _ funded =>
    -- a funded invoice has not been appealed yet
    have status : invoice.status = .funded := funded
    rcases exec_appealFollowsDefault clock balance actions id _ found with unappealed | closed
    · refine ⟨now, rfl, .inl rfl, fun _ => rfl, ?_, kept⟩
      intro record appealed
      cases unappealed.symm.trans appealed
    · simp [status] at closed
  | edited _ _ _ _ _ edits => cases edits
  | restored restores => cases restores

end Defaults

variable {world : World} {id : Nat} {invoice : Invoice}

theorem appealDefault_returns {env : Env contract}
    (sound : NftSound world.nft) (stored : world.book.invoices id = some invoice)
    (defaulted : invoice.status = .defaulted) (unpaused : world.control.paused = false)
    (unappealed : world.book.appeals id = none) (signed : env.signed invoice.payer = true)
    (inTime : world.clock.timestamp ≤ addCapped u64Max invoice.dueDate appealWindowSeconds)
    (fits : world.clock.timestamp ≤ u32Max) (evidenceHash : Hash) :
    ∃ next, appealDefault env world id evidenceHash = .ok next := by
  have first : (world.book.appeals id).isNone = true := by rw [unappealed]; rfl
  exact ⟨_, bind_eq_ok.mpr ⟨(), require_of_holds unpaused,
    bind_eq_ok.mpr ⟨invoice, orFail_eq_ok.mpr stored,
    bind_eq_ok.mpr ⟨(), require_of_holds signed,
    bind_eq_ok.mpr ⟨(), require_of_holds first,
    bind_eq_ok.mpr ⟨(), require_of_holds defaulted,
    bind_eq_ok.mpr ⟨(), require_of_holds inTime,
    bind_eq_ok.mpr ⟨(), require_of_holds fits,
    bind_eq_ok.mpr ⟨_, (syncNftState_returns sound _ _ _).choose_spec, rfl⟩⟩⟩⟩⟩⟩⟩⟩⟩

/-- The payer's appeal is accepted from the ledger of the default until 30 days after the due
date. -/
theorem appeal_accepted_until (clock : Clock) (balance : Balances)
    (actions : List (Action contract)) {claimant payer : Env contract} {funder : Address}
    (stored : (reach clock balance actions).book.invoices id = some invoice)
    (claimed : succeeds (reach clock balance actions)
      (.invoke claimant (.claimDefault funder id)) = true)
    (later : List (Action contract)) (evidenceHash : Hash)
    (reached : world = exec step (reach clock balance actions)
      (.invoke claimant (.claimDefault funder id) :: later))
    (unpaused : world.control.paused = false) (unappealed : world.book.appeals id = none)
    (signed : payer.signed invoice.payer = true)
    (inTime : world.clock.timestamp ≤ invoice.dueDate + appealWindowSeconds)
    (fits : world.clock.timestamp ≤ u32Max) :
    succeeds world (.invoke payer (.appealDefault id evidenceHash)) = true := by
  obtain ⟨file, held⟩ := defaulted_held clock balance actions stored claimed later
  rw [← reached] at held
  have orderly : Orderly world := by
    rw [reached]
    exact exec_orderly (exec_orderly (genesis_orderly clock balance) actions) _
  obtain ⟨current, found, same⟩ := Option.map_eq_some_iff.mp held.stored
  have first : file.appeal = none := by rw [← same]; exact unappealed
  have record : current = { invoice with status := .defaulted } := by
    have terms := held.terms
    rw [held.fresh first] at terms
    rw [← same] at terms
    exact terms
  subst record
  have window : world.clock.timestamp ≤ addCapped u64Max invoice.dueDate appealWindowSeconds :=
    le_min (fits.trans (by decide)) inTime
  obtain ⟨next, ran⟩ := appealDefault_returns orderly.nft found rfl unpaused unappealed
    signed window fits evidenceHash
  have finished : invoke payer world (.appealDefault id evidenceHash) = .ok next :=
    bind_eq_ok.mpr ⟨(), require_of_holds rfl, ran⟩
  rw [succeeds, finished]
  rfl

def fundedBill : List (Action ⟨0⟩) :=
  openingCalls 1000000 300 ++ [signedBy [3] (.fundInvoice ⟨3⟩ 1 1000000 false),
    .credit ⟨10⟩ ⟨0⟩ 2000000]

def fundedInvoice : Invoice :=
  { newInvoice 1 (bill 1000000 300) 50 with
    status := .funded, funder := some ⟨3⟩, fundedAt := some 1000, amountFunded := 1000000 }

def dueBill : List (Action ⟨0⟩) := fundedBill ++ [.advance 99000 9900]

def providerThree : Env ⟨0⟩ := stellarHost ⟨0⟩ [⟨3⟩] []

def payerTwo : Env ⟨0⟩ := stellarHost ⟨0⟩ [⟨2⟩] []

def thirtyDays : List (Action ⟨0⟩) := [.advance 2592000 518400]

/-- Claimed at the due date, the default can be appealed at once and still 30 days later. -/
theorem appeal_accepted_until_of_dueBill :
    succeeds (exec step (traded dueBill) [.invoke providerThree (.claimDefault ⟨3⟩ 1)])
        (.invoke payerTwo (.appealDefault 1 7)) = true ∧
      succeeds (exec step (traded dueBill) (.invoke providerThree (.claimDefault ⟨3⟩ 1) ::
        thirtyDays))
        (.invoke payerTwo (.appealDefault 1 7)) = true := by
  have stored : (traded dueBill).book.invoices 1 = some fundedInvoice := by decide +kernel
  have finished : succeeds (traded dueBill)
      (.invoke providerThree (.claimDefault ⟨3⟩ 1)) = true := by
    decide +kernel
  constructor
  · exact appeal_accepted_until ⟨1000, 10⟩ marketBalances dueBill stored finished [] 7 rfl
      (by decide +kernel)
      (by decide +kernel) (by decide +kernel) (by decide +kernel) (by decide +kernel)
  · exact appeal_accepted_until ⟨1000, 10⟩ marketBalances dueBill stored finished thirtyDays 7 rfl
      (by decide +kernel)
      (by decide +kernel) (by decide +kernel) (by decide +kernel) (by decide +kernel)

def lateDefault : List (Action ⟨0⟩) :=
  fundedBill ++ [.advance 2691001 10000, signedBy [3] (.claimDefault ⟨3⟩ 1)]

/-- A bill of the last months that 32-bit time can express. -/
def lastBill : InvoiceParams := ⟨⟨5⟩, ⟨2⟩, 1000000, 4294960000, 300, ⟨10⟩, none⟩

def lastDefault : List (Action ⟨0⟩) :=
  [.advance 4294600000 10000, opening,
    signedBy [5] (.submitInvoice lastBill), signedBy [3] (.fundInvoice ⟨3⟩ 1 1000000 false),
    .credit ⟨10⟩ ⟨0⟩ 2000000, .advance 359000 10000, signedBy [3] (.claimDefault ⟨3⟩ 1)]

def twoHours : List (Action ⟨0⟩) := [.advance 7296 1000]

/-- The late default cannot be appealed even in its own ledger, and the last one only until the
ledger time outgrows 32 bits, two hours later. -/
theorem late_default_unappealable :
    let late := traded lateDefault
    let last := traded lastDefault
    late.statusOf 1 = some .defaulted ∧ late.control.paused = false ∧ late.book.appeals 1 = none ∧
      payerTwo.signed ⟨2⟩ = true ∧ late.clock.timestamp = 100000 + appealWindowSeconds + 1 ∧
      succeeds late (.invoke payerTwo (.appealDefault 1 7)) = false ∧
    last.statusOf 1 = some .defaulted ∧ last.clock.timestamp = lastBill.dueDate ∧
      succeeds last (.invoke payerTwo (.appealDefault 1 7)) = true ∧
      succeeds (exec step last twoHours) (.invoke payerTwo (.appealDefault 1 7)) = false := by
  decide +kernel

/-- An upheld appeal gives the payer the score from just before the penalty of its default, whatever
else has changed the score since. -/
theorem upheld_appeal_restores (clock : Clock) (balance : Balances)
    (actions : List (Action contract)) {claimant admin : Env contract} {funder : Address}
    (stored : (reach clock balance actions).book.invoices id = some invoice)
    (claimed : succeeds (reach clock balance actions)
      (.invoke claimant (.claimDefault funder id)) = true) (later : List (Action contract))
    (reached : world = exec step (reach clock balance actions)
      (.invoke claimant (.claimDefault funder id) :: later))
    (upheld : succeeds world (.invoke admin (.resolveAppeal id true)) = true) :
    (step (reach clock balance actions)
      (.invoke claimant (.claimDefault funder id))).scoreOf invoice.payer =
        (reach clock balance actions).scoreOf invoice.payer - 5 ∧
      (step world (.invoke admin (.resolveAppeal id true))).scoreOf invoice.payer =
        (reach clock balance actions).scoreOf invoice.payer := by
  have bounded := exec_bounded clock balance actions
  have penalised := invoke_of_succeeds claimed
  refine ⟨(claimDefault_spec stored bounded (invoke_runs rfl penalised)).2, ?_⟩
  obtain ⟨_, held⟩ := defaulted_held clock balance actions stored claimed later
  rw [← reached] at held
  have scores : world.scores.Bounded := by
    rw [reached]
    exact invariant (fun world : World => world.scores.Bounded)
      (fun _ action held => step_bounded action held) _ bounded
  -- the appeal that is upheld exists, and it carries the kept score
  have finished := invoke_of_succeeds upheld
  obtain ⟨current, found, same⟩ := Option.map_eq_some_iff.mp held.stored
  obtain ⟨record, listed⟩ := resolveAppeal_appealed (invoke_runs rfl finished)
  have payer : current.payer = invoice.payer := by
    have terms := held.terms
    rw [← same] at terms
    have equal := congrArg Invoice.payer terms
    exact equal
  have kept : record.preDefaultScore = (reach clock balance actions).scoreOf
    invoice.payer := held.appealed record (by rw [← same]; exact listed)
  have restored := resolveAppeal_spec found listed scores (invoke_runs rfl finished)
  rw [payer, kept] at restored
  exact restored.trans (min_eq_left (getPayerScore_bounded _ _ _ bounded).2)

def twoBills : List (Action ⟨0⟩) :=
  openingCalls 1000000 300 ++
    [signedBy [1] (.updateDecayParams 0 0), signedBy [5] (.submitInvoice (bill 2000000 300)),
     signedBy [3] (.fundInvoice ⟨3⟩ 1 1000000 false),
     signedBy [3] (.fundInvoice ⟨3⟩ 2 2000000 false), .credit ⟨10⟩ ⟨0⟩ 4000000, .advance 99000 9900]

def bothAppealed : List (Action ⟨0⟩) :=
  [signedBy [3] (.claimDefault ⟨3⟩ 2), signedBy [2] (.appealDefault 1 7),
    signedBy [2] (.appealDefault 2 7)]

def adminOne : Env ⟨0⟩ := stellarHost ⟨0⟩ [⟨1⟩] []

def pendingAppeals : World :=
  exec step (traded twoBills) (.invoke providerThree (.claimDefault ⟨3⟩ 1) :: bothAppealed)

theorem upheld_appeal_restores_of_twoBills :
    (step pendingAppeals (.invoke adminOne (.resolveAppeal 1 true))).scoreOf ⟨2⟩ =
      (traded twoBills).scoreOf ⟨2⟩ := by
  have stored : (traded twoBills).book.invoices 1 = some fundedInvoice := by decide +kernel
  have finished : succeeds (traded twoBills)
      (.invoke providerThree (.claimDefault ⟨3⟩ 1)) = true := by
    decide +kernel
  exact (upheld_appeal_restores ⟨1000, 10⟩ marketBalances twoBills stored finished bothAppealed rfl
    (by decide +kernel :
      succeeds pendingAppeals (.invoke adminOne (.resolveAppeal 1 true)) = true)).2

/-- Two defaults cost the payer ten points. Upholding the first appeal gives all ten back, and
upholding both gives five or ten back, depending on the order. -/
theorem upheld_appeals_depend_on_order :
    let first := Action.invoke adminOne (.resolveAppeal 1 true)
    let second := Action.invoke adminOne (.resolveAppeal 2 true)
    (∀ config ∈ pendingAppeals.control.config, config.decayRateBps = 0) ∧
      (traded twoBills).scoreOf ⟨2⟩ = 50 ∧ pendingAppeals.scoreOf ⟨2⟩ = 40 ∧
      (step pendingAppeals first).scoreOf ⟨2⟩ = 50 ∧
      (step (step pendingAppeals first) second).scoreOf ⟨2⟩ = 45 ∧
      (step (step pendingAppeals second) first).scoreOf ⟨2⟩ = 50 := by
  decide +kernel

end InvoiceLiquidity
