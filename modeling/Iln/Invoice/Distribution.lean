import Iln.Invoice.StuckFunds

/-! How a settlement splits the invoice amount. The fee and the shares are floored, so a settlement
keeps back less than one unit for each funder, unless the fee alone is larger than the amount, which
no entry point rules out. -/
namespace InvoiceLiquidity

open FixedWidth Transition

variable {contract : Address}

def Movement.spent (contract : Address) : Movement → Int
  | .transfer _ source _ amount => if source = contract then amount else 0
  | .escrow _ _ amount => amount

def spent (contract : Address) (moves : List Movement) : Int :=
  (moves.map (Movement.spent contract)).sum

theorem spent_cons (first : Movement) (rest : List Movement) :
    spent contract (first :: rest) = first.spent contract + spent contract rest := rfl

theorem spent_append (first second : List Movement) :
    spent contract (first ++ second) = spent contract first + spent contract second := by
  simp [spent]

theorem spent_payment (env : Env contract) (token recipient : Address) (amount : Int) :
    spent contract (payment env token recipient amount) = max 0 amount := by
  unfold payment
  split
  · rename_i nothing
    simp [spent, max_eq_left nothing]
  · rename_i positive
    have large : max 0 amount = amount := max_eq_right (by omega)
    split <;> simp [spent, Movement.spent, large]

theorem spent_payments (env : Env contract) (token : Address) (payout : Int → Int)
    (funders : List (Address × Int)) :
    spent contract (payments env token payout funders) = paidTotal payout funders := by
  induction funders with
  | nil => rfl
  | cons entry rest ih =>
    simp only [payments, paidTotal, List.flatMap_cons, List.map_cons, List.sum_cons, spent_append,
      spent_payment] at ih ⊢
    rw [ih]

section Settlements

def WithinAmount (contract : Address) (file : File) (moves : List Movement) : Prop :=
  spent contract moves ≤ file.invoice.amount ∧
    0 ≤ file.invoice.amount - spent contract moves ∧
    file.invoice.amount - spent contract moves < file.funders.length

def File.SettlesExactly (control : Control) (file : File) : Prop :=
  Fits i128 (file.invoice.amount * effectiveFeeRate control file.invoice.amount) ∧
    ∀ entry ∈ file.funders, Fits i128
      ((file.invoice.amount - file.invoice.amount * effectiveFeeRate control file.invoice.amount /
        10000) * entry.2)

instance (control : Control) (file : File) : Decidable (file.SettlesExactly control) :=
  inferInstanceAs (Decidable (_ ∧ _))

def AddsNonneg (id : Nat) : Action contract → Prop
  | .invoke _ (.fundInvoice _ target amount _) => target = id → 0 ≤ amount
  | _ => True

variable {file : File}

theorem protocolFee_exact (sound : RecordSound file) {control : Control}
    (exactly : file.SettlesExactly control) :
    protocolFee control file.invoice.amount =
      file.invoice.amount * effectiveFeeRate control file.invoice.amount / 10000 :=
  discountOf_of_fits (by have positive := sound.amountPos; omega) exactly.1

theorem shares_fit (sound : RecordSound file) {control : Control}
    (exactly : file.SettlesExactly control) :
    ∀ entry ∈ file.funders, Fits i128 (file.distributed control * entry.2) := by
  intro entry listed
  rw [distributed_eq sound, protocolFee_exact sound exactly]
  exact exactly.2 entry listed

theorem floor_le_amount_iff (amount : Int) (rate : Nat) :
    amount * rate / 10000 ≤ amount ↔ amount * (rate : Int) < 10000 * (amount + 1) := by
  constructor <;> intro bound <;> omega

variable {env : Env contract} {world : World} {id : Nat} {call : Call} {after : File}
  {moves : List Movement}

/-- Only the last instalment of a funded invoice makes it paid. -/
theorem Change.settlement (change : Change env world id call file after moves)
    (unpaid : file.invoice.status ≠ .paid) (paid : after.invoice.status = .paid) :
    ∃ amount admin primary, call = .markPaid id amount ∧ file.invoice.status = .funded ∧
      file.invoice.amountPaid + amount = file.invoice.amount ∧ file.funders.head? = some primary ∧
      file.invoice.payer ≠ contract ∧
      after.invoice = { file.invoice with amountPaid := file.invoice.amount, status := .paid } ∧
      after.funders = file.funders ∧
      moves = .transfer file.invoice.token file.invoice.payer contract amount ::
        (payment env file.invoice.token admin (protocolFee world.control file.invoice.amount) ++
          payments env file.invoice.token
            (funderShare (file.distributed world.control) file.invoice.amount) file.funders) := by
  cases change with
  | settled amount admin primary funded _ whole first _ foreign =>
    exact ⟨amount, admin, primary, rfl, funded, whole, first, foreign, rfl, rfl, rfl⟩
  | restored => exact absurd paid (restoredStatus_ne ⟨by decide, by decide, by decide⟩)
  | _ => first | cases paid | exact absurd paid unpaid

theorem Change.settlement_spent (change : Change env world id call file after moves)
    (unpaid : file.invoice.status ≠ .paid) (paid : after.invoice.status = .paid) :
    file.invoice.status = .funded ∧
      spent contract moves = max 0 (protocolFee world.control file.invoice.amount) +
        paidTotal (funderShare (file.distributed world.control) file.invoice.amount)
          file.funders := by
  obtain ⟨_, _, _, _, funded, _, _, foreign, _, _, rfl⟩ := change.settlement unpaid paid
  refine ⟨funded, ?_⟩
  rw [spent_cons, spent_append, spent_payment, spent_payments]
  simp [Movement.spent, foreign]

theorem exec_fileSound_of_added {actions : List (Action contract)} (clock : Clock)
    (balance : Balances) (added : ∀ action ∈ actions, AddsNonneg id action) :
    FileSound id (reach clock balance actions) := by
  refine file_induct RecordSound (fun _ fresh => fresh.recordSound) ?_ clock balance
    (Along.of_forall added)
  intro env world call file after moves nonneg stored change sound
  refine change.recordSound sound ?_
  rintro funder amount verify rfl
  exact nonneg rfl

end Settlements

/-- A settlement that overflows nowhere stays within the invoice amount exactly when its fee
does. -/
theorem settlement_within_amount_iff (clock : Clock) (balance : Balances)
    (actions : List (Action contract)) (last : Action contract) (id : Nat)
    (added : ∀ action ∈ actions, AddsNonneg id action) {file : File}
    (stored : (reach clock balance actions).book.file id = some file)
    (unpaid : file.invoice.status ≠ .paid)
    (paid : (step (reach clock balance actions) last).statusOf id = some .paid)
    (exactly : file.SettlesExactly (reach clock balance actions).control) :
    WithinAmount contract file (movedFor id (reach clock balance actions) last) ↔
      file.invoice.amount * effectiveFeeRate (reach clock balance actions).control
        file.invoice.amount < 10000 * (file.invoice.amount + 1) := by
  have filed : Filed (reach clock balance actions).book := reach_filed clock balance actions
  have sound := exec_fileSound_of_added clock balance added file stored
  have before : (reach clock balance actions).statusOf id ≠ some .paid := by
    rw [statusOf_eq_file, stored]
    exact fun same => unpaid (Option.some.inj same)
  obtain ⟨_, _, record, after, _, found, _, _, status, change⟩ :=
    step_changed filed (by decide) before paid
  cases stored.symm.trans found
  obtain ⟨funded, spends⟩ := change.settlement_spent unpaid status
  have least := paidTotal_nonneg
    (funderShare (file.distributed (reach clock balance actions).control) file.invoice.amount)
    file.funders
  rw [← floor_le_amount_iff, ← protocolFee_exact sound exactly, WithinAmount, spends]
  constructor
  · rintro ⟨within, _, _⟩
    have fee := le_max_right 0 (protocolFee (reach clock balance actions).control
      file.invoice.amount)
    omega
  · intro fee
    have within := settlement_le sound _ funded fee
    have remainder := settlement_remainder sound _ funded (shares_fit sound exactly)
    exact ⟨within, by omega, by omega⟩

def steepFee : List (Action ⟨0⟩) := twoInvoices ++ [signedBy [1] (.updateFeeRate 10100)]

def fullPayment : Action ⟨0⟩ := signedBy [2] (.markPaid 1 1000000)

theorem steepFee_overspends : (∀ action ∈ steepFee, AddsNonneg 1 action) ∧
      ∃ file ∈ (traded steepFee).book.file 1,
        (step (traded steepFee) fullPayment).statusOf 1 = some .paid ∧
        file.SettlesExactly (traded steepFee).control ∧
        file.invoice.amount < spent ⟨0⟩ (movedFor 1 (traded steepFee) fullPayment) := by
  refine ⟨?_, by decide +kernel⟩
  simp [steepFee, twoInvoices, openingCalls, signedBy, AddsNonneg]

def modestFee : List (Action ⟨0⟩) := twoInvoices ++ [signedBy [1] (.updateFeeRate 250)]

theorem settlement_within_amount_of_modestFee : ∃ file ∈ (traded modestFee).book.file 1,
      WithinAmount ⟨0⟩ file (movedFor 1 (traded modestFee) fullPayment) := by
  obtain ⟨file, stored, unpaid, paid, exactly, fee⟩ :
      ∃ file ∈ (traded modestFee).book.file 1, file.invoice.status ≠ .paid ∧
      (step (traded modestFee) fullPayment).statusOf 1 = some .paid ∧
      file.SettlesExactly (traded modestFee).control ∧
      file.invoice.amount * effectiveFeeRate (traded modestFee).control
        file.invoice.amount < 10000 * (file.invoice.amount + 1) := by decide +kernel
  have added : ∀ action ∈ modestFee, AddsNonneg 1 action := by
    simp [modestFee, twoInvoices, openingCalls, signedBy, AddsNonneg]
  exact ⟨file, stored, (settlement_within_amount_iff ⟨1000, 10⟩ marketBalances modestFee fullPayment
    1 added stored unpaid paid exactly).mpr fee⟩

end InvoiceLiquidity
