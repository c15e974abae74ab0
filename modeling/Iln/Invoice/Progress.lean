import Iln.Invoice.Lifecycle

/-! How an invoice comes to rest. Disputes and appeals each leave a record that rules out a second
one, so only a few changes are left at any time. From the moment an invoice is funded nobody can
change its terms. -/
namespace InvoiceLiquidity

open Transition

variable {contract : Address} {env : Env contract} {world : World} {call : Call} {id : Nat}
  {file after : File} {moves : List Movement}

/-- The longest way from here without another dispute; it ends with a default, its appeal and the
review. -/
def InvoiceStatus.undisputedChanges : InvoiceStatus → Nat
  | .pending => 5
  | .partiallyFunded => 4
  | .funded => 3
  | _ => 0

/-- A disputed file without its record, and an appealed one, do not occur; they are weighed so that
every change counts. -/
def File.changesLeft (file : File) : Nat :=
  let restored := file.invoice.restoredStatus.undisputedChanges
  match file.invoice.status with
  | .pending => if file.dispute.isSome then 5 else 8
  | .partiallyFunded => if file.dispute.isSome then 4 else 7
  | .funded => if file.dispute.isSome then 3 else restored + 2
  | .disputed => if file.dispute.isSome then restored + 1 else 9
  | .defaulted => if file.appeal.isSome then 0 else 2
  | .appealed => if file.appeal.isSome then 1 else 3
  | _ => 0

theorem restored_undisputedChanges (invoice : Invoice) :
    3 ≤ invoice.restoredStatus.undisputedChanges ∧
    invoice.restoredStatus.undisputedChanges ≤ 5 := by
  unfold Invoice.restoredStatus
  split
  · decide
  · split <;> decide

theorem Change.changesLeft (change : Change env world id call file after moves) :
    (if after.invoice.status = file.invoice.status then 0 else 1) + after.changesLeft ≤
      file.changesLeft := by
  have between := restored_undisputedChanges file.invoice
  cases change with
  | edited _ _ _ _ _ _ pending => simp [File.changesLeft, pending]
  | renamed _ _ funded | instalment _ funded =>
    simp [File.changesLeft, funded, Invoice.restoredStatus]
  | contributed _ _ _ fundable | completed _ _ _ fundable | cancelled fundable =>
    rcases fundable with fundable | fundable
    all_goals
      simp only [File.changesLeft, fundable, reduceCtorEq, if_false, if_true,
        Invoice.restoredStatus, InvoiceStatus.undisputedChanges]
      split <;> omega
  | expired status | settled _ _ _ status | reviewed _ status | upheld status =>
    simp only [File.changesLeft, status, reduceCtorEq, if_false]
    split <;> omega
  | defaulted _ funded =>
    simp only [File.changesLeft, funded, reduceCtorEq, if_false]
    split <;> split <;> omega
  | appealed _ _ defaulted first => simp [File.changesLeft, defaulted, first]
  | disputed _ _ disputable first =>
    rcases disputable with disputable | disputable | disputable
    all_goals
      simp only [File.changesLeft, disputable, first, Option.isSome, reduceCtorEq,
        if_false, if_true, Invoice.restoredStatus] at between ⊢
      omega
  | restored _ disputed =>
    have same : ({ file.invoice with status := file.invoice.restoredStatus } :
        Invoice).restoredStatus = file.invoice.restoredStatus := rfl
    simp only [File.changesLeft, disputed, same]
    cases restores : file.invoice.restoredStatus with
    | funded | partiallyFunded | pending =>
      simp only [InvoiceStatus.undisputedChanges, reduceCtorEq, if_false]
      split <;> omega
    | _ => exact absurd restores (restoredStatus_ne (by decide))

/-- One if the action gives the stored invoice `id` another status. -/
def statusChanges (id : Nat) (world : World) (action : Action contract) : Nat :=
  if world.statusOf id ≠ none ∧ (step world action).statusOf id ≠ world.statusOf id then 1 else 0

theorem statusChanges_pays (action : Action contract) (filed : Filed world.book) :
    statusChanges id world action + ((step world action).book.file id).elim 8 File.changesLeft ≤
      (world.book.file id).elim 8 File.changesLeft := by
  unfold statusChanges
  simp only [statusOf_eq_file]
  cases step_touch action filed id with
  | same unchanged => simp [unchanged]
  | fresh file absent now fresh =>
    obtain ⟨_, _, _, rfl, _⟩ := fresh
    simp [absent, now, File.changesLeft, newInvoice]
  | changed _ _ file after _ _ _ stored now change =>
    have paid := change.changesLeft
    simpa [stored, now] using paid

/-- Every invoice comes to rest: over any run of the contract its status changes at most eight
times. -/
theorem status_changes_le_eight (clock : Clock) (balance : Balances)
    (actions : List (Action contract)) (id : Nat) :
    tally step (statusChanges id) (genesis clock balance) actions ≤ 8 :=
  le_of_add_le_left (tally_le_potential (fun world : World => Filed world.book)
    (fun world => (world.book.file id).elim 8 File.changesLeft)
    (fun _ action filed => (step_effect action filed).2)
    (fun _ action filed => statusChanges_pays action filed) actions (genesis_filed clock balance))

/-- Funded at some time, and since then changed only in status, provider and payments. -/
structure FundedAs (invoice : Invoice) (file : File) : Prop where
  kept : file.invoice = { invoice with
    status := file.invoice.status, funder := file.invoice.funder, amountPaid :=
      file.invoice.amountPaid }
  taken : ¬ file.invoice.Fundable

theorem Change.fundedAs {invoice : Invoice} (whole : invoice.amountFunded = invoice.amount)
    (change : Change env world id call file after moves) (funded : FundedAs invoice file) :
    FundedAs invoice after := by
  obtain ⟨kept, taken⟩ := funded
  cases change with
  | edited _ _ _ _ _ _ pending | expired pending => exact absurd (.inl pending) taken
  | contributed _ _ _ fundable | completed _ _ _ fundable | cancelled fundable =>
    exact absurd fundable taken
  | renamed | instalment => exact ⟨by rw [kept], taken⟩
  | restored =>
    have again : file.invoice.restoredStatus = .funded := by
      rw [kept]
      exact if_pos whole
    exact ⟨by rw [kept], by simp [again]⟩
  | _ => exact ⟨by rw [kept], by simp⟩

theorem funded_whole (clock : Clock) (balance : Balances) (actions : List (Action contract)) :
    ∀ file ∈ (reach clock balance actions).book.file id,
      file.invoice.status = .funded → file.invoice.amountFunded = file.invoice.amount := by
  refine file_induct (fun file => file.invoice.status = .funded →
    file.invoice.amountFunded = file.invoice.amount)
    ?_ ?_ clock balance Along.always
  · rintro _ ⟨_, _, _, rfl, _⟩ ⟨⟩
  · intro env world call file after moves _ _ change held funded
    cases change with
    | edited _ _ _ _ _ _ pending => cases pending.symm.trans funded
    | renamed | instalment => exact held funded
    | completed => rfl
    | restored =>
      by_contra short
      rw [Invoice.restoredStatus, if_neg short] at funded
      split at funded <;> cases funded
    | _ => cases funded

/-- From the moment an invoice is funded, nothing but its status, its provider and the payments ever
changes: no call of anyone touches the parties, the token, the amount, the due date or the discount,
and no contribution is taken. -/
theorem funded_terms_final (clock : Clock) (balance : Balances)
    (past future : List (Action contract)) {file : File}
    (stored : (reach clock balance past).book.file id = some file)
    (funded : file.invoice.status = .funded) :
    ∃ after ∈ (reach clock balance (past ++ future)).book.file id,
      FundedAs file.invoice after := by
  have whole := funded_whole clock balance past file stored funded
  rw [reach, exec_append]
  refine filed_invariant (fun world => ∃ after ∈ world.book.file id, FundedAs file.invoice after) ?_
    (reach_filed clock balance past) ⟨file, stored, rfl, by simp [funded]⟩
    Along.always
  rintro world action filed ⟨before, found, held⟩ _
  cases step_touch action filed id with
  | same unchanged => exact ⟨before, unchanged.trans found, held⟩
  | fresh _ absent => cases absent.symm.trans found
  | changed _ _ _ after _ _ _ known now change =>
    cases known.symm.trans found
    exact ⟨after, now, change.fundedAs whole held⟩

def soldBill : List (Action ⟨0⟩) := openingCalls 1000000 300 ++
    [signedBy [3] (.fundInvoice ⟨3⟩ 1 1000000 false)]

theorem soldBill_stored : ∃ file ∈ (traded soldBill).book.file 1, file.invoice.status =
    .funded := by
  have stored := (Option.some_get (show ((traded soldBill).book.file 1).isSome =
    true by decide +kernel)).symm
  exact ⟨_, stored, by decide +kernel⟩

theorem funded_terms_final_of_soldBill : ∃ file ∈ (traded soldBill).book.file 1,
    ∃ after ∈ (traded (soldBill ++ [signedBy [2] (.markPaid 1 400000)])).book.file 1,
      FundedAs file.invoice after := by
  obtain ⟨file, stored, funded⟩ := soldBill_stored
  exact ⟨file, stored, funded_terms_final ⟨1000, 10⟩ marketBalances soldBill _ stored funded⟩

/-- Invoices do not interfere. An invoice with its funders, its dispute and its appeal stays as it
is until a call on it goes through, whatever else is called in between. -/
theorem invoice_isolated (clock : Clock) (balance : Balances) (past future : List (Action contract))
    {file : File} (stored : (reach clock balance past).book.file id = some file)
    (others : Along step (fun world action => action.target = some id →
      succeeds world action = false)
      (reach clock balance past) future) :
    (reach clock balance (past ++ future)).book.file id = some file := by
  rw [reach, exec_append]
  refine filed_invariant (fun world => world.book.file id = some file) ?_
    (reach_filed clock balance past) stored others
  intro world action filed found missed
  cases step_touch action filed id with
  | same unchanged => exact unchanged.trans found
  | fresh _ absent => cases absent.symm.trans found
  | changed _ _ _ _ invoked aimed returned =>
    subst invoked
    cases (missed aimed).symm.trans returned

theorem invoice_isolated_of_soldBill :
    (traded (soldBill ++ [signedBy [5] (.submitInvoice (bill 1000000 200)),
        signedBy [5] (.cancelInvoice 1), signedBy [5] (.cancelInvoice 2)])).book.file 1 =
      (traded soldBill).book.file 1 := by
  obtain ⟨_, stored, _⟩ := soldBill_stored
  exact (invoice_isolated ⟨1000, 10⟩ marketBalances soldBill _ stored (by decide +kernel)).trans
    stored.symm

end InvoiceLiquidity
