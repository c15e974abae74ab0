import Iln.Invoice.BatchSubmission
import Iln.Invoice.Effect

/-! The secondary stores: the two invoice indexes, the statistics and the scores, with the counter
of identifiers. `SideEffect` says for every call that returned what it has written there; what the
stores mean is proved from it. -/
namespace InvoiceLiquidity

open Outcome FixedWidth Function

variable {contract : Address} {call : Call} {amount : Int}

structure Sides where
  nextId : Nat
  index : IndexStore
  stats : StatStore
  scores : ScoreStore

def World.sides (world : World) : Sides :=
    ⟨world.book.nextId, world.index, world.stats, world.scores⟩

def Call.records : Call → List InvoiceParams
  | .submitInvoice params => [params]
  | .submitInvoicesBatch invoices => invoices
  | _ => []

inductive RecordsAll : World → World → List InvoiceParams → Prop
  | done (world : World) : RecordsAll world world []
  | next {world middle final : World} {params : InvoiceParams} {rest : List InvoiceParams}
      {id : Nat}
      (positive : 1 ≤ params.amount) (recorded : recordSubmission world params = .ok (middle, id))
      (later : RecordsAll middle final rest) :
      RecordsAll world final (params :: rest)

def Call.keepsBooks : Call → Bool
  | .submitInvoice _ | .submitInvoicesBatch _ | .transferInvoice _ _ | .fundInvoice _ _ _ _
  | .transferLpPosition _ _ | .markPaid _ _ | .claimDefault _ _ | .appealDefault _ _
  | .resolveAppeal _ _ | .payerScore _ => true
  | _ => false

def Call.submits : Call → Bool
  | .submitInvoice _ | .submitInvoicesBatch _ => true
  | _ => false

/-- What a call that returned has done to the secondary stores. -/
inductive SideEffect (world next : World) : Call → Prop
  | unrelated {call : Call} (plain : call.keepsBooks = false) (sides : next.sides = world.sides) :
      SideEffect world next call
  | submitted {call : Call} (submits : call.submits = true)
      (recorded : RecordsAll world next call.records) : SideEffect world next call
  | handedOver (id : Nat) (newFreelancer : Address) (invoice : Invoice)
      (stored : world.book.invoices id = some invoice) (sides : next.sides = { world.sides with
        index := addInvoiceToSubmitter (removeInvoiceFromSubmitter world.index
          invoice.freelancer id)
          newFreelancer id }) :
      SideEffect world next (.transferInvoice id newFreelancer)
  | funded (funder : Address) (id : Nat) (amount : Int) (verify : Bool) (invoice after : Invoice)
      (control : Control) (scores : ScoreStore) (stored : world.book.invoices id = some invoice)
      (now : next.book.invoices id = some after)
      (capped : requireVolumeBelowCap world.control world.stats invoice.token amount = .ok ())
      (checked : requirePayerReputation world invoice.payer = .ok scores)
      (sides : next.sides = {
        nextId := world.book.nextId
        index := addInvoiceToLp world.index funder id
        stats := addVolume control
          (if after.status = .funded then incrementTotalFunded world.stats else world.stats)
            invoice.token amount
        scores := if after.status = .funded then
            setLpScore scores funder (addCapped u32Max (getLpScore scores funder) 1)
          else scores }) :
      SideEffect world next (.fundInvoice funder id amount verify)
  | renamed (id : Nat) (newLp current : Address) (invoice : Invoice)
      (stored : world.book.invoices id = some invoice)
      (held : invoice.funder = some current) (different : current ≠ newLp)
      (sides : next.sides = { world.sides with
        index := addInvoiceToLp (removeInvoiceFromLp world.index current id) newLp id }) :
      SideEffect world next (.transferLpPosition id newLp)
  | instalment (id : Nat) (amount : Int) (after : Invoice)
      (now : next.book.invoices id = some after) (funded : after.status = .funded)
      (sides : next.sides = world.sides) :
      SideEffect world next (.markPaid id amount)
  | settled (id : Nat) (amount : Int) (invoice after : Invoice)
      (stored : world.book.invoices id = some invoice) (now : next.book.invoices id = some after)
      (paid : after.status = .paid)
      (sides : next.sides = { world.sides with
        stats := incrementTotalPaid world.stats
        scores := rewardSettlement world.clock world.control.config world.scores invoice }) :
      SideEffect world next (.markPaid id amount)
  | defaulted (funder : Address) (id : Nat) (invoice : Invoice)
      (stored : world.book.invoices id = some invoice) (sides : next.sides = { world.sides with
        scores := (penalizeDefault world.clock world.control.config world.scores invoice.payer).1
          }) :
      SideEffect world next (.claimDefault funder id)
  | appealed (id : Nat) (evidenceHash : Hash) (invoice : Invoice) (scores : ScoreStore)
      (stored : world.book.invoices id = some invoice)
      (read : scores = world.scores ∨
        scores = (getPayerScore world.clock world.control.config world.scores invoice.payer).1)
      (sides : next.sides = { world.sides with scores }) :
      SideEffect world next (.appealDefault id evidenceHash)
  | reviewed (id : Nat) (upheld : Bool) (invoice : Invoice) (appeal : AppealRecord)
      (stored : world.book.invoices id = some invoice)
      (sides : next.sides = { world.sides with
        scores := if upheld then restoreScore world.clock world.control.config world.scores
          invoice.payer appeal else world.scores }) :
      SideEffect world next (.resolveAppeal id upheld)
  | read (payer : Address)
      (sides : next.sides = { world.sides with
        scores := (getPayerScore world.clock world.control.config world.scores payer).1 }) :
      SideEffect world next (.payerScore payer)

structure Submission (world next : World) (params : InvoiceParams) : Prop where
  rest : next =
    { world with
      book := next.book, index := next.index, stats := next.stats, scores := next.scores }
  kept : next.book.preDefaultPayerScore = world.book.preDefaultPayerScore
  room : world.book.nextId + 1 ≤ u64Max
  nextId : next.book.nextId = world.book.nextId + 1
  invoices : ∃ reputation, next.book.invoices =
    update world.book.invoices world.book.nextId
      (some (newInvoice world.book.nextId params reputation))
  funders : next.book.funders = world.book.funders
  index : next.index = addInvoiceToSubmitter world.index params.freelancer world.book.nextId
  stats : ∃ referrals, next.stats =
    { incrementTotalInvoices world.stats with referralCount := referrals }
  scores : next.scores = incrementInvoicesSubmitted
    (getPayerScore world.clock world.control.config world.scores params.freelancer).1
      params.freelancer

section Calls

variable {env : Env contract} {world next : World} {id : Nat}

theorem recordSubmission_spec {params : InvoiceParams} {taken : Nat}
    (ran : recordSubmission world params = .ok (next, taken)) : Submission world next params := by
  simp only [recordSubmission, Book.takeId, ok_iff, Prod.mk.injEq] at ran
  obtain ⟨⟨_, _⟩, ⟨_, room, rfl, rfl⟩, _, counted, rfl, rfl⟩ := ran
  refine ⟨rfl, rfl, room, rfl, ⟨_, rfl⟩, rfl, rfl, ?_, rfl⟩
  unfold countReferral at counted
  split at counted
  · cases counted
    exact ⟨_, rfl⟩
  · simp only [ok_iff] at counted
    obtain ⟨_, _, rfl⟩ := counted
    exact ⟨_, rfl⟩

theorem RecordsAll.keeps {property : World → Prop} {records : List InvoiceParams}
    (recorded : RecordsAll world next records)
    (keeps : ∀ world next params, 1 ≤ params.amount → Submission world next params →
      property world → property next) (start : property world) : property next := by
  induction recorded with
  | done => exact start
  | next positive recorded _ ih =>
    exact ih (keeps _ _ _ positive (recordSubmission_spec recorded) start)

theorem submitBatch_recorded {progress result : World × List Nat} {invoices : List InvoiceParams}
    (looped : forEach (submitBatchItem env) progress invoices = .ok result) :
    RecordsAll progress.1 result.1 invoices := by
  induction invoices generalizing progress with
  | nil =>
    cases looped
    exact .done _
  | cons params rest ih =>
    obtain ⟨_, item, remaining⟩ := forEach_cons_eq_ok.mp looped
    obtain ⟨⟨_, _, valid⟩, _, _, recorded, rfl⟩ := submitBatchItem_ok.mp item
    exact .next (validTerms_positive valid) recorded (ih remaining)

theorem checkFunding_sides {control : Control} {funder : Address} {verify : Bool}
    {invoice : Invoice} {prospective : Int} {scores : ScoreStore} {oracle : OracleStore}
    (ran : checkFunding env world control funder id amount verify = .ok (invoice, prospective,
      scores, oracle)) :
    requireVolumeBelowCap control world.stats invoice.token amount = .ok () ∧
      requirePayerReputation world invoice.payer = .ok scores := by
  simp only [checkFunding, ok_iff, Prod.mk.injEq] at ran
  obtain ⟨_, _, _, _, _, _, _, _, _, _, _, checked, _, _, _, _, _, _, _, _, _, _, _,
    capped, _, _, _, _, rfl, _, rfl, _⟩ := ran
  exact ⟨capped, checked⟩

theorem saveInvoice_invoices (book : Book) {changed : Invoice} (named : changed.id = id) :
    (book.saveInvoice changed).invoices id = some changed := by
  simp [Book.saveInvoice, named]

theorem Filed.used {book : Book} {invoice : Invoice} (filed : Filed book)
    (stored : book.invoices id = some invoice) : id < book.nextId := by
  by_contra late
  rw [filed.below id (not_lt.mp late)] at stored
  cases stored

theorem invoices_of_file (book : Book) (id : Nat) : (book.file id).map File.invoice =
    book.invoices id := by
  simp [Book.file, Function.comp_def]

theorem invoice_of_file {book : Book} {file : File} (stored : book.file id = some file) :
    book.invoices id = some file.invoice := by
  rw [← invoices_of_file, stored]
  rfl

theorem invoices_of_files {after : File}
    (files : next.book.file = update world.book.file id (some after)) :
    next.book.invoices = update world.book.invoices id (some after.invoice) := by
  funext other
  rw [← invoices_of_file, files]
  by_cases here : other = id
  · subst here
    rw [update_self, update_self]
    rfl
  · rw [update_of_ne here, update_of_ne here, invoices_of_file]

theorem invoke_files (filed : Filed world.book) (aimed : call.target = some id)
    (ran : invoke env world call = .ok next) :
    ∃ file after moves, world.book.file id = some file ∧
      next.book.file = update world.book.file id (some after) ∧
      Change env world id call file after moves := by
  have finished := succeeds_of_invoke ran
  have reached := step_of_invoke ran
  have effect := (step_effect (.invoke env call) filed).1
  rw [reached] at effect
  cases effect with
  | idle _ _ quiet =>
    rcases quiet with aimless | failed
    · exact absurd (aimed.symm.trans aimless) (by simp)
    · exact absurd (finished.symm.trans failed) (by simp)
  | probed | claimed => cases aimed
  | submitted _ _ aimless => exact absurd (aimed.symm.trans aimless) (by simp)
  | changed _ _ other file after moves named _ stored files change =>
    cases aimed.symm.trans named
    exact ⟨file, after, moves, stored, files, change⟩

end Calls

end InvoiceLiquidity
