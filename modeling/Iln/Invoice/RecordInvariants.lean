import Iln.Invoice.Amounts
import Iln.Invoice.Escrow
import Iln.Invoice.Lifecycle

/-! The amounts of an invoice record over its whole life. `RecordSound` is kept by every change as
long as no contribution is negative, which a discount of at most one half and a token that refuses
negative amounts rule out. -/
namespace InvoiceLiquidity

open FixedWidth Transition

variable {contract : Address}

structure RecordSound (file : File) : Prop where
  amountPos : 1 ≤ file.invoice.amount
  amountFits : Fits i128 file.invoice.amount
  nonneg : AllNonneg file.funders
  total : contributed file.funders = file.invoice.amountFunded
  fundedLe : file.invoice.amountFunded ≤ file.invoice.amount
  paidNonneg : 0 ≤ file.invoice.amountPaid
  paidLe : file.invoice.amountPaid ≤ file.invoice.amount
  pending : file.invoice.status = .pending → file.invoice.amountFunded = 0
  partly : file.invoice.status = .partiallyFunded → file.invoice.amountFunded < file.invoice.amount
  funded : file.invoice.status = .funded → file.invoice.amountFunded = file.invoice.amount
  complete : file.invoice.amountFunded = file.invoice.amount →
    file.invoice.funder.isSome = true ∧ file.invoice.fundedAt.isSome = true
  incomplete : file.invoice.amountFunded < file.invoice.amount →
    file.invoice.funder = none ∧ file.invoice.amountPaid = 0
  paid : file.invoice.status = .paid ↔ file.invoice.amountPaid = file.invoice.amount

namespace RecordSound

variable {file : File}

variable (sound : RecordSound file)
include sound

theorem fundedNonneg : 0 ≤ file.invoice.amountFunded := by
  rw [← sound.total]
  exact contributed_nonneg sound.nonneg

theorem contributions_zero (none : file.invoice.amountFunded = 0) :
    ∀ entry ∈ file.funders, entry.2 = 0 := by
  intro entry listed
  have low := sound.nonneg entry listed
  have high : entry.2 ≤ 0 := (le_contributed sound.nonneg listed).trans_eq (sound.total.trans none)
  omega

theorem short_of_fundable (fundable : file.invoice.Fundable) :
    file.invoice.amountFunded < file.invoice.amount := by
  rcases fundable with pending | partly
  · have none := sound.pending pending
    have positive := sound.amountPos
    omega
  · exact sound.partly partly

theorem unpaid (other : file.invoice.status ≠ .paid) :
    file.invoice.amountPaid ≠ file.invoice.amount := fun same => other (sound.paid.mpr same)

variable {status : InvoiceStatus} {dispute : Option DisputeRecord} {appeal : Option AppealRecord}

/-- Only what a new status promises has to be shown when nothing else changes. -/
theorem restatus (open_ : file.invoice.status ≠ .paid) (closed : status ≠ .paid)
    (pending : status = .pending → file.invoice.amountFunded = 0)
    (partly : status = .partiallyFunded → file.invoice.amountFunded < file.invoice.amount)
    (funded : status = .funded → file.invoice.amountFunded = file.invoice.amount) :
    RecordSound ⟨{ file.invoice with status }, file.funders, dispute, appeal⟩ where
  amountPos := sound.amountPos
  amountFits := sound.amountFits
  nonneg := sound.nonneg
  total := sound.total
  fundedLe := sound.fundedLe
  paidNonneg := sound.paidNonneg
  paidLe := sound.paidLe
  pending := pending
  partly := partly
  funded := funded
  complete := sound.complete
  incomplete := sound.incomplete
  paid := ⟨fun same => absurd same closed, fun same => absurd same (sound.unpaid open_)⟩

theorem retired (open_ : file.invoice.status ≠ .paid)
    (plain : status ≠ .paid ∧ status ≠ .pending ∧ status ≠ .partiallyFunded ∧ status ≠ .funded) :
    RecordSound ⟨{ file.invoice with status }, file.funders, dispute, appeal⟩ :=
  sound.restatus open_ plain.1 (fun same => absurd same plain.2.1)
  (fun same => absurd same plain.2.2.1)
    (fun same => absurd same plain.2.2.2)

end RecordSound

theorem File.Fresh.recordSound {file : File} (fresh : file.Fresh) : RecordSound file := by
  obtain ⟨id, params, reputation, rfl, positive, typed⟩ := fresh
  refine ⟨positive, typed, by simp [AllNonneg], rfl, ?_, le_rfl, ?_, fun _ => rfl, ?_, ?_, ?_,
    fun _ => ⟨rfl, rfl⟩, ?_⟩
  · simp only [newInvoice]
    omega
  · simp only [newInvoice]
    omega
  · intro status
    cases status
  · intro status
    cases status
  · intro whole
    simp only [newInvoice] at whole
    omega
  · refine ⟨(by rintro ⟨⟩), ?_⟩
    intro whole
    simp only [newInvoice] at whole
    omega

section Changes

variable {env : Env contract} {world : World} {id : Nat}

variable {funders : List (Address × Int)} {amount : Int} {funder : Address}

theorem addContribution_sound (funder : Address) (nonneg : AllNonneg funders) (added : 0 ≤ amount)
    (fits : Fits i128 (contributed funders + amount)) :
    AllNonneg (addContribution funder amount funders) ∧
      contributed (addContribution funder amount funders) = contributed funders + amount := by
  rcases addContribution_exact nonneg added fits funder with
    ⟨before, recorded, after, rfl, low, raised⟩ | ⟨_, appended⟩
  · rw [raised]
    constructor
    · intro entry member
      rcases List.mem_append.mp member with early | late
      · exact nonneg entry (List.mem_append_left _ early)
      · rcases List.mem_cons.mp late with rfl | later
        · exact add_nonneg low added
        · exact nonneg entry (List.mem_append_right _ (List.mem_cons_of_mem _ later))
    · simp only [contributed, List.map_append, List.map_cons, List.sum_append, List.sum_cons]
      omega
  · rw [appended]
    constructor
    · intro entry member
      rcases List.mem_append.mp member with early | last
      · exact nonneg entry early
      · rw [List.mem_singleton.mp last]
        exact added
    · simp [contributed]

theorem renameFunder_amounts (current new : Address) (funders : List (Address × Int)) :
    (renameFunder current new funders).map Prod.snd = funders.map Prod.snd := by
  simp only [renameFunder, List.map_map]
  refine List.map_congr_left ?_
  intro entry _
  simp only [Function.comp_apply]
  split <;> rfl

theorem renameFunder_nonneg {current new : Address}
    (nonneg : AllNonneg funders) : AllNonneg (renameFunder current new funders) := by
  intro entry member
  have amount : entry.2 ∈ funders.map Prod.snd := by
    rw [← renameFunder_amounts current new funders]
    exact List.mem_map_of_mem member
  obtain ⟨old, listed, same⟩ := List.mem_map.mp amount
  rw [← same]
  exact nonneg old listed

theorem RecordSound.edited {file : File} (sound : RecordSound file) {freelancer token : Address}
    {dueDate discountRate : Nat} (pending : file.invoice.status = .pending)
    (amounts : amount = file.invoice.amount ∨ (1 ≤ amount ∧ Fits i128 amount)) :
    RecordSound { file with
      invoice := { file.invoice with
        freelancer
        token
        amount
        dueDate
        discountRate } } := by
  have positive : 1 ≤ amount := by
    rcases amounts with rfl | valid
    · exact sound.amountPos
    · exact valid.1
  have typed : Fits i128 amount := by
    rcases amounts with rfl | valid
    · exact sound.amountFits
    · exact valid.2
  have none := sound.pending pending
  have untouched := sound.incomplete (sound.short_of_fundable (.inl pending))
  refine ⟨positive, typed, sound.nonneg, sound.total, ?_, sound.paidNonneg, ?_,
    sound.pending, ?_, ?_, ?_, fun _ => untouched, ?_⟩
  · show file.invoice.amountFunded ≤ amount
    omega
  · show file.invoice.amountPaid ≤ amount
    omega
  · intro partly
    rw [pending] at partly
    cases partly
  · intro funded
    rw [pending] at funded
    cases funded
  · intro whole
    have same : file.invoice.amountFunded = amount := whole
    omega
  · constructor
    · intro paid
      rw [pending] at paid
      cases paid
    · intro whole
      have same : file.invoice.amountPaid = amount := whole
      omega

theorem RecordSound.fits_raised {file : File} (sound : RecordSound file)
    (added : 0 ≤ amount) (room : file.invoice.amountFunded + amount ≤ file.invoice.amount) :
    Fits i128 (InvoiceLiquidity.contributed file.funders + amount) := by
  have low := sound.fundedNonneg
  rw [sound.total]
  exact fits_of_nonneg_le sound.amountFits (by omega) room

theorem RecordSound.contributed {file : File} (sound : RecordSound file)
    (fundable : file.invoice.Fundable)
    (added : 0 ≤ amount) (short : file.invoice.amountFunded + amount < file.invoice.amount) :
    RecordSound { file with
      invoice := { file.invoice with
        amountFunded := file.invoice.amountFunded + amount
        status := .partiallyFunded }
      funders := addContribution funder amount file.funders } := by
  have positive := sound.amountPos
  have untouched := sound.incomplete (sound.short_of_fundable fundable)
  obtain ⟨nonneg, total⟩ := addContribution_sound funder sound.nonneg added
    (sound.fits_raised added short.le)
  refine ⟨sound.amountPos, sound.amountFits, nonneg, by rw [total, sound.total], short.le,
    sound.paidNonneg, sound.paidLe, ?_, fun _ => short, ?_, ?_, fun _ => untouched, ?_⟩
  · intro status
    cases status
  · intro status
    cases status
  · intro whole
    exact absurd whole short.ne
  · refine ⟨(by rintro ⟨⟩), ?_⟩
    intro whole
    have same : file.invoice.amountPaid = file.invoice.amount := whole
    omega

theorem RecordSound.completed {file : File} (sound : RecordSound file) {time : Nat}
    (fundable : file.invoice.Fundable)
    (added : 0 ≤ amount) (whole : file.invoice.amountFunded + amount = file.invoice.amount) :
    RecordSound { file with
      invoice := { file.invoice with
        amountFunded := file.invoice.amount
        status := .funded
        fundedAt := some time
        funder := some funder }
      funders := addContribution funder amount file.funders } := by
  have positive := sound.amountPos
  have untouched := sound.incomplete (sound.short_of_fundable fundable)
  obtain ⟨nonneg, total⟩ := addContribution_sound funder sound.nonneg added
    (sound.fits_raised added whole.le)
  refine ⟨sound.amountPos, sound.amountFits, nonneg, by rw [total, sound.total, whole], le_rfl,
    sound.paidNonneg, sound.paidLe, ?_, ?_, fun _ => rfl, fun _ => ⟨rfl, rfl⟩, ?_, ?_⟩
  · intro status
    cases status
  · intro status
    cases status
  · intro short
    exact absurd short (lt_irrefl _)
  · refine ⟨(by rintro ⟨⟩), ?_⟩
    intro paidUp
    have same : file.invoice.amountPaid = file.invoice.amount := paidUp
    omega

theorem RecordSound.paidIn {file : File} (sound : RecordSound file) {paid : Int}
    (status : InvoiceStatus) (funded : file.invoice.status = .funded) (nonneg : 0 ≤ paid)
    (below : paid ≤ file.invoice.amount)
    (next : (status = .funded ∧ paid < file.invoice.amount) ∨
      (status = .paid ∧ paid = file.invoice.amount)) :
    RecordSound
      { file with invoice := { file.invoice with amountPaid := paid, status } } := by
  have whole := sound.funded funded
  refine ⟨sound.amountPos, sound.amountFits, sound.nonneg, sound.total, sound.fundedLe, nonneg,
    below, ?_, ?_, fun _ => whole, sound.complete, ?_, ?_⟩
  · intro pending
    rcases next with ⟨same, _⟩ | ⟨same, _⟩ <;> rw [same] at pending <;> cases pending
  · intro partly
    rcases next with ⟨same, _⟩ | ⟨same, _⟩ <;> rw [same] at partly <;> cases partly
  · intro short
    exact absurd whole (ne_of_lt short)
  · rcases next with ⟨rfl, short⟩ | ⟨rfl, paidUp⟩
    · exact ⟨(by rintro ⟨⟩), fun same => absurd same short.ne⟩
    · exact ⟨fun _ => paidUp, fun _ => rfl⟩

theorem RecordSound.restored {file : File} (sound : RecordSound file)
    (disputed : file.invoice.status = .disputed) :
    RecordSound
      { file with invoice := { file.invoice with status := file.invoice.restoredStatus } } := by
  have open_ : file.invoice.status ≠ .paid := by rw [disputed]; decide
  have low := sound.fundedNonneg
  have high := sound.fundedLe
  unfold Invoice.restoredStatus
  split
  · rename_i whole
    exact sound.restatus open_ (by decide) ((by rintro ⟨⟩))
      ((by rintro ⟨⟩)) fun _ => whole
  · rename_i short
    split
    · exact sound.restatus open_ (by decide) ((by rintro ⟨⟩)) (fun _ => by omega)
        (by rintro ⟨⟩)
    · exact sound.restatus open_ (by decide) (fun _ => by omega) ((by rintro ⟨⟩))
        (by rintro ⟨⟩)

def Call.Adds (call : Call) (id : Nat) (bounded : Int → Prop) : Prop :=
  ∀ funder amount verify, call = .fundInvoice funder id amount verify → bounded amount

theorem Change.recordSound {call : Call} {file after : File} {moves : List Movement}
    (change : Change env world id call file after moves) (sound : RecordSound file)
    (added : call.Adds id (0 ≤ ·)) :
    RecordSound after := by
  cases change with
  | edited _ _ _ _ _ _ pending amounts => exact sound.edited pending amounts
  | contributed funder amount verify fundable _ short =>
    exact sound.contributed fundable (added funder amount verify rfl) short
  | completed funder amount verify fundable _ whole =>
    exact sound.completed fundable (added funder amount verify rfl) whole
  | renamed current newLp funded =>
    have whole := sound.funded funded
    have set := sound.complete whole
    exact ⟨sound.amountPos, sound.amountFits, renameFunder_nonneg sound.nonneg,
      (congrArg List.sum (renameFunder_amounts _ _ _)).trans sound.total, sound.fundedLe,
      sound.paidNonneg, sound.paidLe,
      sound.pending, sound.partly, sound.funded, fun _ => ⟨rfl, set.2⟩,
      fun short => absurd whole (ne_of_lt short), sound.paid⟩
  | cancelled fundable =>
    refine sound.retired ?_ (by decide)
    rcases fundable with pending | partly
    · rw [pending]; decide
    · rw [partly]; decide
  | expired pending => exact sound.retired (by rw [pending]; decide) (by decide)
  | instalment amount funded positive short =>
    have low := sound.paidNonneg
    have kept := sound.paidIn .funded funded (by omega) short.le (.inl ⟨rfl, short⟩)
    rwa [← funded] at kept
  | settled _ _ _ funded =>
    exact sound.paidIn .paid funded (by have positive := sound.amountPos; omega) le_rfl
      (.inr ⟨rfl, rfl⟩)
  | defaulted _ funded => exact sound.retired (by rw [funded]; decide) (by decide)
  | appealed _ _ defaulted => exact sound.retired (by rw [defaulted]; decide) (by decide)
  | reviewed _ appealed => exact sound.retired (by rw [appealed]; decide) (by decide)
  | disputed _ _ disputable =>
    refine sound.retired ?_ (by decide)
    rcases disputable with pending | partly | funded
    · rw [pending]; decide
    · rw [partly]; decide
    · rw [funded]; decide
  | upheld disputed => exact sound.retired (by rw [disputed]; decide) (by decide)
  | restored _ disputed => exact sound.restored disputed

/-- A token that refuses negative amounts and a discount of at most one half admit no negative
contribution. -/
theorem Change.funding_nonneg {verify : Bool} {file after : File} {moves : List Movement}
    (change : Change env world id (.fundInvoice funder id amount verify) file after moves)
    (law : RejectsNegative env) (half : file.invoice.discountRate ≤ 5000) : 0 ≤ amount := by
  cases change with
  | contributed _ _ _ _ _ _ _ accepted | completed _ _ _ _ _ _ _ accepted =>
        exact nonneg_of_discounted_nonneg half (law _ _ _ _ _ accepted)
  | edited _ _ _ _ _ edits => cases edits
  | restored restores => cases restores

end Changes

def DiscountBounded (id : Nat) (world : World) : Prop :=
  ∀ invoice ∈ world.book.invoices id, invoice.discountRate ≤ 5000

instance (id : Nat) : DecidablePred (DiscountBounded id) := fun world =>
  inferInstanceAs (Decidable (∀ invoice ∈ world.book.invoices id, invoice.discountRate ≤ 5000))

def FileSound (id : Nat) (world : World) : Prop := ∀ file ∈ world.book.file id, RecordSound file

theorem DiscountBounded.file {id : Nat} {world : World} (bounded : DiscountBounded id world)
    {file : File} (stored : world.book.file id = some file) : file.invoice.discountRate ≤ 5000 := by
  obtain ⟨invoice, found, rfl⟩ := Option.map_eq_some_iff.mp stored
  exact bounded invoice found

theorem exec_fileSound {actions : List (Action contract)} (clock : Clock) (balance : Balances)
    (id : Nat) (law : ∀ action ∈ actions, action.RefusesNegative)
    (bounded : Throughout step (DiscountBounded id) (genesis clock balance) actions) :
    FileSound id (reach clock balance actions) := by
  refine file_induct RecordSound (fun _ fresh => fresh.recordSound) ?_ clock balance
    ((Along.of_forall law).and bounded.along)
  intro env world call file after moves met stored change sound
  refine change.recordSound sound ?_
  rintro funder amount verify rfl
  exact change.funding_nonneg met.1 (met.2.file stored)

/-- The record invariants of every invoice whose discount never exceeded one half. -/
theorem record_invariants_hold (clock : Clock) (balance : Balances)
    (actions : List (Action contract)) (id : Nat) (law : ∀ action ∈ actions, action.RefusesNegative)
    (bounded : Throughout step (DiscountBounded id) (genesis clock balance) actions)
    (invoice : Invoice) (stored : (reach clock balance actions).book.invoices id = some invoice) :
    let funders := (reach clock balance actions).book.funders id
    (0 ≤ invoice.amountFunded ∧ invoice.amountFunded ≤ invoice.amount) ∧
    (0 ≤ invoice.amountPaid ∧ invoice.amountPaid ≤ invoice.amount) ∧
    ((∀ entry ∈ funders, 0 ≤ entry.2) ∧ (funders.map Prod.snd).sum = invoice.amountFunded) ∧
    (invoice.status = .pending → invoice.amountFunded = 0 ∧ invoice.amountPaid = 0 ∧
      invoice.funder = none ∧ ∀ entry ∈ funders, entry.2 = 0) ∧
    (0 < invoice.amountPaid → invoice.amountFunded = invoice.amount) ∧
    (invoice.status = .funded → invoice.amountFunded = invoice.amount ∧
      invoice.funder.isSome = true ∧ invoice.fundedAt.isSome = true) ∧
    (invoice.status = .paid ↔ invoice.amountPaid = invoice.amount) := by
  have sound := exec_fileSound clock balance id law bounded _ (file_of_invoice stored)
  have funded := sound.fundedLe
  refine ⟨⟨sound.fundedNonneg, sound.fundedLe⟩, ⟨sound.paidNonneg, sound.paidLe⟩,
    ⟨sound.nonneg, sound.total⟩, ?_, ?_, ?_, sound.paid⟩
  · intro pending
    have untouched := sound.incomplete (sound.short_of_fundable (.inl pending))
    have none := sound.pending pending
    exact ⟨none, untouched.2, untouched.1, sound.contributions_zero none⟩
  · intro paid
    by_contra short
    have untouched := (sound.incomplete (lt_of_le_of_ne sound.fundedLe short)).2
    simp only at untouched
    omega
  · intro status
    have whole := sound.funded status
    exact ⟨whole, sound.complete whole⟩

def disputedFunding : List (Action ⟨0⟩) :=
  openingCalls 1000000 300 ++
    [signedBy [3] (.fundInvoice ⟨3⟩ 1 400000 false), signedBy [2] (.disputeInvoice 1 7),
     signedBy [1] (.resolveDispute 1 2), signedBy [4] (.fundInvoice ⟨4⟩ 1 600000 false),
     signedBy [2] (.markPaid 1 500000)]

def disputedInvoice : Invoice :=
  { newInvoice 1 (bill 1000000 300) 50 with
    status := .funded, funder := some ⟨4⟩, fundedAt := some 1000, amountFunded :=
      1000000, amountPaid := 500000 }

theorem record_invariants_of_disputedFunding :
    (traded disputedFunding).book.invoices 1 = some disputedInvoice ∧
      (((traded disputedFunding).book.funders 1).map Prod.snd).sum = 1000000 := by
  have law : ∀ action ∈ disputedFunding, action.RefusesNegative := by
    simp [disputedFunding, openingCalls]
  have bounded : Throughout step (DiscountBounded 1) market disputedFunding := by decide +kernel
  have stored : (traded disputedFunding).book.invoices 1 = some disputedInvoice := by decide +kernel
  exact ⟨stored, (record_invariants_hold ⟨1000, 10⟩ marketBalances disputedFunding 1 law bounded
    disputedInvoice stored).2.2.1.2⟩

end InvoiceLiquidity
