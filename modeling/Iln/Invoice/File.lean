import Iln.Invoice.Ledger
import Iln.Invoice.Contract

/-! The life of one invoice. A `File` is everything the book stores under one id, and `Change` lists
what the entry points can do to it: one constructor for each way a call succeeds, with the guards it
passed and the money it moved. -/
namespace InvoiceLiquidity

open Outcome FixedWidth

variable {contract : Address}

structure File where
  invoice : Invoice
  funders : List (Address × Int)
  dispute : Option DisputeRecord
  appeal : Option AppealRecord
  deriving DecidableEq

def Book.file (book : Book) (id : Nat) : Option File :=
  (book.invoices id).map fun invoice => ⟨invoice, book.funders id, book.disputes id,
    book.appeals id⟩

/-- No invoice is stored in the split format, every record carries its own id, ids are handed out in
order, and nothing is attached to an id without a record. -/
structure Filed (book : Book) : Prop where
  unsplit : ∀ id, book.core id = none
  named : ∀ id invoice, book.invoices id = some invoice → invoice.id = id
  below : ∀ id, book.nextId ≤ id → book.invoices id = none
  blank : ∀ id, book.invoices id = none →
    book.funders id = [] ∧ book.disputes id = none ∧ book.appeals id = none

def File.Fresh (file : File) : Prop :=
  ∃ id params reputation, file = ⟨newInvoice id params reputation, [], none, none⟩ ∧
    1 ≤ params.amount ∧ Fits i128 params.amount

/-- The refund of a contribution, as cancellation, default and an upheld dispute compute it. -/
def File.refunds (env : Env contract) (file : File) : List Movement :=
  payments env file.invoice.token (discounted · file.invoice.discountRate) file.funders

def File.distributed (control : Control) (file : File) : Int :=
  saturate i128 (file.invoice.amount - protocolFee control file.invoice.amount)

def Call.edits : Call → Bool
  | .updateInvoice _ _ _ _ _ | .convertInvoiceToken _ _ _ | .transferInvoice _ _ => true
  | _ => false

def Call.restores : Call → Bool
  | .resolveDispute _ _ | .autoResolveDispute _ => true
  | _ => false

@[simp] abbrev Invoice.Fundable (invoice : Invoice) : Prop :=
  invoice.status = .pending ∨ invoice.status = .partiallyFunded

@[simp] abbrev Invoice.Disputable (invoice : Invoice) : Prop :=
  invoice.status = .pending ∨ invoice.status = .partiallyFunded ∨ invoice.status = .funded

inductive Change (env : Env contract) (world : World) (id : Nat) :
    Call → File → File → List Movement → Prop
  | edited {call : Call} {file : File} (freelancer token : Address) (amount : Int)
      (dueDate discountRate : Nat) (edits : call.edits = true)
      (pending : file.invoice.status = .pending)
      (amounts : amount = file.invoice.amount ∨ (1 ≤ amount ∧ Fits i128 amount)) :
      Change env world id call file
        { file with
          invoice := { file.invoice with
            freelancer
            token
            amount
            dueDate
            discountRate } } []
  | contributed {file : File} (funder : Address) (amount : Int) (verify : Bool)
      (fundable : file.invoice.Fundable)
      (typed : Fits i128 amount) (short : file.invoice.amountFunded + amount < file.invoice.amount)
      (foreign : funder ≠ contract)
      (accepted : env.transferReturns world.treasury.balance file.invoice.token funder contract
        (discounted amount file.invoice.discountRate) = true) :
      Change env world id (.fundInvoice funder id amount verify) file
        { file with
          invoice := { file.invoice with
            amountFunded := file.invoice.amountFunded + amount
            status := .partiallyFunded }
          funders := addContribution funder amount file.funders }
        [.transfer file.invoice.token funder contract (discounted amount file.invoice.discountRate)]
  | completed {file : File} (funder : Address) (amount : Int) (verify : Bool)
      (fundable : file.invoice.Fundable)
      (typed : Fits i128 amount) (whole : file.invoice.amountFunded + amount = file.invoice.amount)
      (foreign : funder ≠ contract)
      (accepted : env.transferReturns world.treasury.balance file.invoice.token funder contract
        (discounted amount file.invoice.discountRate) = true) :
      Change env world id (.fundInvoice funder id amount verify) file
        { file with
          invoice := { file.invoice with
            amountFunded := file.invoice.amount
            status := .funded
            fundedAt := some world.clock.timestamp
            funder := some funder }
          funders := addContribution funder amount file.funders }
        (.transfer file.invoice.token funder contract
          (discounted amount file.invoice.discountRate) :: strictPayment contract file.invoice.token
            file.invoice.freelancer (discounted file.invoice.amount file.invoice.discountRate))
  | renamed {file : File} (current newLp : Address) (funded : file.invoice.status = .funded)
      (held : file.invoice.funder = some current) :
      Change env world id (.transferLpPosition id newLp) file
        { file with
          invoice := { file.invoice with funder := some newLp }
          funders := renameFunder current newLp file.funders } []
  | cancelled {file : File} (fundable : file.invoice.Fundable) :
      Change env world id (.cancelInvoice id) file
        { file with invoice := { file.invoice with status := .cancelled } }
        (if file.invoice.status = .partiallyFunded then file.refunds env else [])
  | expired {file : File} (pending : file.invoice.status = .pending) :
      Change env world id (.expireInvoice id) file
        { file with invoice := { file.invoice with status := .expired } } []
  | instalment {file : File} (amount : Int) (funded : file.invoice.status = .funded)
      (positive : 0 < amount) (short : file.invoice.amountPaid + amount < file.invoice.amount)
      (foreign : file.invoice.payer ≠ contract) :
      Change env world id (.markPaid id amount) file
        { file with invoice := { file.invoice with
          amountPaid := file.invoice.amountPaid + amount } }
        [.transfer file.invoice.token file.invoice.payer contract amount]
  | settled {file : File} (amount : Int) (admin : Address) (primary : Address × Int)
      (funded : file.invoice.status = .funded) (positive : 0 < amount)
      (whole : file.invoice.amountPaid + amount = file.invoice.amount)
      (first : file.funders.head? = some primary)
      (fits : Fits i128 (file.distributed world.control * primary.2))
      (foreign : file.invoice.payer ≠ contract) :
      Change env world id (.markPaid id amount) file
        { file with
          invoice := { file.invoice with amountPaid := file.invoice.amount, status := .paid } }
        (.transfer file.invoice.token file.invoice.payer contract amount ::
          (payment env file.invoice.token admin (protocolFee world.control file.invoice.amount) ++
            payments env file.invoice.token
              (funderShare (file.distributed world.control) file.invoice.amount) file.funders))
  | defaulted {file : File} (funder : Address) (funded : file.invoice.status = .funded) :
      Change env world id (.claimDefault funder id) file
        { file with invoice := { file.invoice with status := .defaulted } } (file.refunds env)
  | appealed {file : File} (evidenceHash : Hash) (record : AppealRecord)
      (defaulted : file.invoice.status = .defaulted) (first : file.appeal = none) :
      Change env world id (.appealDefault id evidenceHash) file
        { file with
          invoice := { file.invoice with status := .appealed }
          appeal := some record } []
  | reviewed {file : File} (upheld : Bool) (appealed : file.invoice.status = .appealed) :
      Change env world id (.resolveAppeal id upheld) file
        { file with invoice := { file.invoice with status := .defaulted } } []
  | disputed {file : File} (reasonHash : Hash) (record : DisputeRecord)
      (disputable : file.invoice.Disputable) (first : file.dispute = none) :
      Change env world id (.disputeInvoice id reasonHash) file
        { file with
          invoice := { file.invoice with status := .disputed }
          dispute := some record } []
  | upheld {file : File} (disputed : file.invoice.status = .disputed) :
      Change env world id (.resolveDispute id 1) file
        { file with invoice := { file.invoice with status := .cancelled } }
        (file.refunds env ++ payment env file.invoice.token file.invoice.payer
          file.invoice.amountPaid)
  | restored {call : Call} {file : File} (restores : call.restores = true)
      (disputed : file.invoice.status = .disputed) :
      Change env world id call file
        { file with invoice := { file.invoice with status := file.invoice.restoredStatus } } []

end InvoiceLiquidity
