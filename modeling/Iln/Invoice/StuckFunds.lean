import Iln.Invoice.Solvency

/-! Whether money can stay behind in a closed invoice. `flow` counts what came in for one invoice
minus what was paid out or escrowed for it; `backed` is the most the record can still account for,
and every change that meets `recovers` keeps the flow within it. A default ignores the instalments
paid before it, and an overflowing share is replaced by zero. -/
namespace InvoiceLiquidity

open FixedWidth Apportion Transition

variable {contract : Address}

section Accounting

/-- Contributions not yet passed on: the refunds, or the part of the freelancer's payout collected
so far. -/
def File.collected (file : File) : Int :=
  min file.refundable (discounted file.invoice.amountFunded file.invoice.discountRate)

def File.backed (file : File) : Int :=
  match file.invoice.status with
  | .pending | .partiallyFunded => file.collected
  | .funded => file.invoice.amountPaid
  | .disputed => if file.invoice.amountFunded < file.invoice.amount then file.collected
      else file.invoice.amountPaid
  | .paid | .defaulted | .appealed | .expired | .cancelled => file.funders.length

def File.backedIn (file : File) (token : Address) : Int :=
  if file.invoice.token = token then file.backed else 0

/-- The call leaves nothing behind: contributions are not negative, no share of a settlement
overflows, and a default returns at least the instalments. -/
def Call.recovers (control : Control) (file : File) : Call → Bool
  | .fundInvoice _ _ amount _ => decide (0 ≤ amount)
  | .markPaid _ amount =>
    decide (file.invoice.amountPaid + amount = file.invoice.amount →
      ∀ entry ∈ file.funders, Fits i128 (file.distributed control * entry.2))
  | .claimDefault _ _ => decide (file.invoice.amountPaid ≤ file.refundable)
  | _ => true

def Recovers (id : Nat) (world : World) : Action contract → Prop
  | .invoke _ call =>
    call.target = some id → ∀ file ∈ world.book.file id, call.recovers world.control file = true
  | .credit _ _ _ | .advance _ _ => True

instance decidableRecovers (id : Nat) (world : World) : (action : Action contract) →
    Decidable (Recovers id world action)
  | .invoke _ call => inferInstanceAs (Decidable (call.target = some id →
      ∀ file ∈ world.book.file id, call.recovers world.control file = true))
  | .credit _ _ _ | .advance _ _ => isTrue trivial

def flow (contract token : Address) (id : Nat) (call : Call) (moves : List Movement) : Int × Int :=
  (kept contract token moves, if (fundingOf id call).isSome then 1 else 0)

variable {file : File}

theorem collected_of_unfunded (sound : RecordSound file) (none : file.invoice.amountFunded = 0) :
    file.collected = 0 := by
  rw [File.collected, refundable_of_pending sound none, none, discounted_zero, min_self]

theorem refund_add_le {x y : Int} (left : 0 ≤ x) (right : 0 ≤ y) (typed : Fits i128 (x + y))
    (rate : Nat) :
    max 0 (discounted x rate) + discounted y rate ≤ max 0 (discounted (x + y) rate) + 1 := by
  have top := le_max_right 0 (discounted (x + y) rate)
  have zero := le_max_left 0 (discounted (x + y) rate)
  by_cases positive : 0 ≤ discounted x rate
  · have both := discounted_add_le left right typed rate
    rw [max_eq_right positive]
    omega
  · -- A negative refund means a rate above one: the contribution is free or its product overflows.
    rw [max_eq_left (by omega)]
    have typedRight : Fits i128 y := fits_of_nonneg_le typed right (by omega)
    by_cases fits : Fits i128 ((x + y) * rate)
    · have large : ¬ rate ≤ 10000 := fun small =>
        positive (discounted_nonneg left (fits_of_nonneg_le typed left (by omega)) small)
      have free : y ≤ y * (rate : Int) / 10000 :=
        Int.le_ediv_of_mul_le (by decide) (mul_le_mul_of_nonneg_left (by omega) right)
      rw [discounted_eq_netOf right typedRight (product_fits_of_le right (by omega) fits), netOf]
      omega
    · have whole : discounted (x + y) rate = x + y := by
        rw [discounted_eq_sub (by omega) typed, discountOf_of_overflow fits, sub_zero]
      have part := discounted_le right typedRight rate
      omega

theorem refundable_le_addContribution (sound : RecordSound file) {amount : Int} (added : 0 ≤ amount)
    (room : file.invoice.amountFunded + amount ≤ file.invoice.amount) (funder : Address) :
    file.refundable + discounted amount file.invoice.discountRate ≤
      paidTotal (discounted · file.invoice.discountRate)
      (addContribution funder amount file.funders) + 1 := by
  unfold File.refundable
  rcases addContribution_exact sound.nonneg added (sound.fits_raised added room) funder with
    ⟨before, recorded, after, split, low, same⟩ | ⟨_, same⟩
  · have listed : (funder, recorded) ∈ file.funders := by simp [split]
    have typed : Fits i128 (recorded + amount) :=
      fits_of_nonneg_le (sound.fits_raised added room) (by omega)
      (by have part := le_contributed sound.nonneg listed; omega)
    have grown := refund_add_le low added typed file.invoice.discountRate
    rw [same, split]
    simp only [paidTotal, List.map_append, List.map_cons, List.sum_append, List.sum_cons]
    omega
  · have least := le_max_right 0 (discounted amount file.invoice.discountRate)
    rw [same]
    simp only [paidTotal, List.map_append, List.map_cons, List.map_nil, List.sum_append,
      List.sum_cons, List.sum_nil]
    omega

end Accounting

section Changes

variable {env : Env contract} {world : World} {id : Nat} {call : Call} {file after : File}
  {moves : List Movement}

theorem backed_of_fundable (fundable : file.invoice.Fundable) :
    file.backed = file.collected := by
  rcases fundable with pending | partly
  · simp [File.backed, pending]
  · simp [File.backed, partly]

theorem backed_of_funded (funded : file.invoice.status = .funded) :
    file.backed = file.invoice.amountPaid := by
  simp [File.backed, funded]

theorem backed_of_disputed (disputed : file.invoice.status = .disputed) :
    file.backed = if file.invoice.amountFunded < file.invoice.amount then file.collected
      else file.invoice.amountPaid := by
  simp [File.backed, disputed]

theorem backed_of_pending (sound : RecordSound file) (pending : file.invoice.status = .pending) :
    file.backed = 0 :=
  (backed_of_fundable (.inl pending)).trans (collected_of_unfunded sound (sound.pending pending))

theorem settlement_remainder (sound : RecordSound file) (control : Control)
    (funded : file.invoice.status = .funded)
    (fits : ∀ entry ∈ file.funders, Fits i128 (file.distributed control * entry.2)) :
    file.invoice.amount - max 0 (protocolFee control file.invoice.amount) -
      paidTotal (funderShare (file.distributed control) file.invoice.amount) file.funders <
        file.funders.length := by
  have positive := sound.amountPos
  obtain ⟨low, _⟩ := protocolFee_bounds sound.amountPos control
  have distributed := distributed_eq sound control
  rw [max_eq_right low]
  by_cases share : 0 ≤ file.distributed control
  · have most := lt_shares_add (by omega) sound.nonneg (sound.total.trans (sound.funded funded))
      share fits
    omega
  · -- A fee above the amount is taken from other money; the shares are nothing.
    have shares := paidTotal_nonneg (funderShare (file.distributed control) file.invoice.amount)
      file.funders
    omega

theorem fundable_collected (sound : RecordSound file) {amount : Int} (added : 0 ≤ amount)
    (room : file.invoice.amountFunded + amount ≤ file.invoice.amount) (funder : Address) :
    file.collected + discounted amount file.invoice.discountRate ≤
      min (paidTotal (discounted · file.invoice.discountRate)
        (addContribution funder amount file.funders))
        (discounted (file.invoice.amountFunded + amount) file.invoice.discountRate) + 1 := by
  have low := sound.fundedNonneg
  have refunds := refundable_le_addContribution sound added room funder
  have payout := discounted_add_le low added (fits_of_nonneg_le sound.amountFits (by omega) room)
    file.invoice.discountRate
  unfold File.collected
  omega

theorem backed_of_disputable (sound : RecordSound file) (disputable : file.invoice.Disputable) :
    file.backed =
      if file.invoice.amountFunded < file.invoice.amount then
        file.collected else file.invoice.amountPaid := by
  rcases disputable with pending | partly | funded
  · rw [if_pos (sound.short_of_fundable (.inl pending)), backed_of_fundable (.inl pending)]
  · rw [if_pos (sound.short_of_fundable (.inr partly)), backed_of_fundable (.inr partly)]
  · rw [if_neg (not_lt_of_ge (sound.funded funded).ge), backed_of_funded funded]

theorem restored_disputable (invoice : Invoice) :
    invoice.restoredStatus = .pending ∨ invoice.restoredStatus = .partiallyFunded ∨
      invoice.restoredStatus = .funded := by
  unfold Invoice.restoredStatus
  split
  · exact .inr (.inr rfl)
  · split
    · exact .inr (.inl rfl)
    · exact .inl rfl

theorem Change.backed_le (change : Change env world id call file after moves)
    (sound : RecordSound file) (later : RecordSound after)
    (recovers : call.recovers world.control file = true) :
    file.backed + kept contract file.invoice.token moves ≤
      after.backed + if (fundingOf id call).isSome = true then 1 else 0 := by
  have counted : (0 : Int) ≤ if (fundingOf id call).isSome = true then 1 else 0 := by
    split_ifs <;> decide
  have collected_le : file.collected ≤ file.refundable := min_le_left _ _
  have paid := sound.paidNonneg
  have refunds : 0 ≤ file.refundable := paidTotal_nonneg _ _
  have many : (0 : Int) ≤ file.funders.length := Int.natCast_nonneg _
  cases change with
  | edited _ _ _ _ _ _ pending =>
    rw [backed_of_pending sound pending, backed_of_pending later pending]
    simpa using counted
  | contributed funder amount verify fundable typed short foreign =>
    have grown := fundable_collected sound (of_decide_eq_true recovers) short.le funder
    rw [backed_of_fundable fundable, kept_cons, kept_received foreign, kept_nil, add_zero,
      fundingOf, if_pos rfl]
    exact grown
  | completed funder amount verify fundable typed whole foreign =>
    have grown := fundable_collected sound (of_decide_eq_true recovers) whole.le funder
    rw [whole] at grown
    have payout := le_max_right 0 (discounted file.invoice.amount file.invoice.discountRate)
    rw [backed_of_fundable fundable, kept_cons, kept_received foreign, kept_strictPayment,
      if_pos rfl, fundingOf, if_pos rfl]
    show _ ≤ file.invoice.amountPaid + 1
    omega
  | renamed _ _ funded =>
    rw [backed_of_funded funded, kept_nil, add_zero]
    refine le_add_of_le_of_nonneg (le_of_le_of_eq ?_ (backed_of_funded ?_).symm) counted
    · exact le_rfl
    · exact funded
  | cancelled fundable =>
    show _ ≤ (file.funders.length : Int) + 0
    rw [backed_of_fundable fundable]
    split
    · rw [kept_refunds]
      omega
    · rename_i notPartly
      rw [collected_of_unfunded sound (sound.pending (fundable.resolve_right notPartly)), kept_nil]
      omega
  | expired pending =>
    show _ ≤ (file.funders.length : Int) + 0
    rw [backed_of_pending sound pending, kept_nil]
    omega
  | instalment amount funded _ _ foreign =>
    rw [backed_of_funded funded, kept_cons, kept_received foreign, kept_nil, add_zero]
    refine le_add_of_le_of_nonneg (le_of_le_of_eq ?_ (backed_of_funded ?_).symm) counted
    · exact le_rfl
    · exact funded
  | settled amount admin primary funded _ whole _ _ foreign =>
    -- every share is rounded down once
    have remainder := settlement_remainder sound world.control funded
      (of_decide_eq_true recovers whole)
    show _ ≤ (file.funders.length : Int) + 0
    rw [backed_of_funded funded, kept_settlement env file world.control admin amount foreign]
    omega
  | defaulted _ funded =>
    -- nothing of the instalments outlives the refunds
    have covered : file.invoice.amountPaid ≤ file.refundable := of_decide_eq_true recovers
    show _ ≤ (file.funders.length : Int) + 0
    rw [backed_of_funded funded, kept_refunds]
    omega
  | appealed _ _ defaulted =>
    show _ ≤ (file.funders.length : Int) + 0
    simp [File.backed, defaulted]
  | reviewed _ appealed =>
    show _ ≤ (file.funders.length : Int) + 0
    simp [File.backed, appealed]
  | disputed _ _ disputable =>
    rw [kept_nil, add_zero]
    refine le_add_of_le_of_nonneg (le_of_le_of_eq ?_ (backed_of_disputed ?_).symm) counted
    · exact (backed_of_disputable sound disputable).le
    · rfl
  | upheld disputed =>
    show _ ≤ (file.funders.length : Int) + 0
    have most := le_max_right 0 file.invoice.amountPaid
    rw [backed_of_disputed disputed, kept_upheld]
    split <;> omega
  | restored _ disputed =>
    rw [kept_nil, add_zero, backed_of_disputed disputed]
    refine le_trans ?_ (le_add_of_nonneg_right counted)
    exact (backed_of_disputable later (restored_disputable _)).ge

theorem Change.backedIn_le (change : Change env world id call file after moves)
    (sound : RecordSound file) (later : RecordSound after)
    (recovers : call.recovers world.control file = true) (token : Address) :
    file.backedIn token + (flow contract token id call moves).1 ≤
      after.backedIn token + (flow contract token id call moves).2 := by
  have bound := change.backed_le sound later recovers
  have counted : (0 : Int) ≤ if (fundingOf id call).isSome = true then 1 else 0 := by
    split_ifs <;> decide
  unfold File.backedIn flow
  rcases change.token_kept with same | ⟨before, now, rfl⟩
  · rw [same]
    split
    · rename_i here
      rw [← here]
      exact bound
    · rename_i other
      rw [change.kept_other other]
      exact add_le_add_right counted 0
  · rw [backed_of_pending sound before, backed_of_pending later now, ite_self, ite_self, kept_nil]
    exact add_le_add_right counted 0

end Changes

section Runs

variable {id : Nat} {file : File}

def File.Closed (file : File) : Prop :=
  file.invoice.status ∈ [InvoiceStatus.paid, .cancelled, .expired, .defaulted, .appealed]

instance (file : File) : Decidable file.Closed := inferInstanceAs (Decidable (_ ∈ _))

theorem File.Closed.backedIn_le (closed : file.Closed) (token : Address) :
    file.backedIn token ≤ file.funders.length := by
  have most : file.backed = file.funders.length := by
    simp only [File.Closed, List.mem_cons, List.not_mem_nil, or_false] at closed
    rcases closed with now | now | now | now | now <;> simp [File.backed, now]
  unfold File.backedIn
  split_ifs <;> omega

theorem Recovers.call {env : Env contract} {world : World} {call : Call} {after : File}
    {moves : List Movement} (recovers : Recovers id world (.invoke env call))
    (stored : world.book.file id = some file) (change : Change env world id call file after moves) :
    call.recovers world.control file = true := by
  cases change with
  | contributed | completed | instalment | settled | defaulted => exact recovers rfl file stored
  | edited _ _ _ _ _ edits => cases call <;> first | rfl | cases edits
  | restored restores => cases call <;> first | rfl | cases restores
  | _ => rfl

theorem File.Fresh.backedIn_eq (fresh : file.Fresh) (token : Address) :
    file.backedIn token = 0 := by
  have sound := fresh.recordSound
  obtain ⟨_, _, _, rfl, _⟩ := fresh
  unfold File.backedIn
  rw [backed_of_pending sound rfl, ite_self]

/-- Only dust stays behind in a closed invoice when every call on it recovers: money in minus money
out is at most one unit for each contribution and each funder. -/
theorem only_dust_left (clock : Clock) (balance : Balances) (actions : List (Action contract))
    (id : Nat) (token : Address)
    (recovers : Along step (Recovers id) (genesis clock balance) actions) {file : File}
    (stored : (reach clock balance actions).book.file id = some file) (closed : file.Closed) :
    (tally step (perCall id (flow contract token id)) (genesis clock balance) actions).1 ≤
      (tally step (perCall id (flow contract token id)) (genesis clock balance) actions).2 +
        file.funders.length := by
  have both : RecordSound file ∧
      (tally step (perCall id (flow contract token id)) (genesis clock balance) actions).1 ≤
        file.backedIn token +
          (tally step (perCall id (flow contract token id)) (genesis clock balance) actions).2 := by
    refine perCall_induct (fun (total : Int × Int) file => RecordSound file ∧
      total.1 ≤ file.backedIn token + total.2)
      ?_ ?_ (genesis_filed clock balance) rfl recovers stored
    · intro file fresh
      exact ⟨fresh.recordSound, by simp [fresh.backedIn_eq]⟩
    · rintro env world call before after moves total met _ found change ⟨sound, held⟩
      have guarded := met.call found change
      have later := change.recordSound sound (by rintro _ _ _ rfl; exact of_decide_eq_true guarded)
      have bound := change.backedIn_le sound later guarded token
      refine ⟨later, ?_⟩
      rw [Prod.fst_add, Prod.snd_add]
      omega
  have bound := both.2
  have dust := closed.backedIn_le token
  omega

def lateInstalment : List (Action ⟨0⟩) :=
  openingCalls 1000000 300 ++
    [signedBy [3] (.fundInvoice ⟨3⟩ 1 1000000 false),
     signedBy [2] (.markPaid 1 990000),
     .advance 200000 5,
     signedBy [3] (.claimDefault ⟨3⟩ 1)]

theorem lateInstalment_stuck : ∃ file ∈ (traded lateInstalment).book.file 1, file.Closed ∧
      (tally step (perCall 1 (flow ⟨0⟩ ⟨10⟩ 1)) market lateInstalment).2 + file.funders.length <
        (tally step (perCall 1 (flow ⟨0⟩ ⟨10⟩ 1)) market lateInstalment).1 := by
  decide +kernel

def unevenSettlement : List (Action ⟨0⟩) :=
  openingCalls 1000001 300 ++
    [signedBy [3] (.fundInvoice ⟨3⟩ 1 333334 false),
     signedBy [4] (.fundInvoice ⟨4⟩ 1 666667 false),
     signedBy [2] (.markPaid 1 1000001)]

theorem only_dust_left_of_unevenSettlement :
    ∃ file ∈ (traded unevenSettlement).book.file 1, file.Closed ∧
      (tally step (perCall 1 (flow ⟨0⟩ ⟨10⟩ 1)) market unevenSettlement).1 ≤
        (tally step (perCall 1 (flow ⟨0⟩ ⟨10⟩ 1)) market unevenSettlement).2 +
          file.funders.length := by
  have recovers : Along step (Recovers 1) market unevenSettlement := by decide +kernel
  obtain ⟨file, stored, closed⟩ : ∃ file ∈ (traded unevenSettlement).book.file 1,
      file.Closed := by
    decide +kernel
  exact ⟨file, stored, closed,
    only_dust_left ⟨1000, 10⟩ marketBalances unevenSettlement 1 ⟨10⟩ recovers stored closed⟩

end Runs

end InvoiceLiquidity
