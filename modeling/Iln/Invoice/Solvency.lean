import Mathlib.Algebra.Order.BigOperators.Group.Finset
import Iln.Invoice.FundingConservation

/-! Solvency: whether the contract always holds the money of every open invoice. `claim_default` and
an upheld dispute on a funded invoice refund contributions that were already passed on to the
freelancer, so it holds only in runs whose calls are `selfFinancing`, the weakest guard the
arithmetic needs. -/
namespace InvoiceLiquidity

open FixedWidth Apportion Transition Function

variable {contract : Address} {file : File} {amount : Int} {world next : World}
  {funders : List (Address × Int)}

def File.Collecting (file : File) : Prop :=
  file.invoice.status = .partiallyFunded ∨
    (file.invoice.status = .disputed ∧ file.invoice.amountFunded < file.invoice.amount)

def File.Settling (file : File) : Prop :=
  file.invoice.status = .funded ∨
    (file.invoice.status = .disputed ∧ file.invoice.amountFunded = file.invoice.amount)

instance (file : File) : Decidable file.Collecting := inferInstanceAs (Decidable (_ ∨ _))

instance (file : File) : Decidable file.Settling := inferInstanceAs (Decidable (_ ∨ _))

def File.discountedTotal (file : File) : Int :=
  (file.funders.map fun entry => entry.2 - entry.2 * (file.invoice.discountRate : Int) / 10000).sum

def File.held (file : File) : Int :=
  if file.Collecting then
    file.discountedTotal else if file.Settling then file.invoice.amountPaid else 0

def Book.heldFor (book : Book) (token : Address) (id : Nat) : Int :=
  (book.file id).elim 0 fun file => if file.invoice.token = token then file.held else 0

def Solvent (contract : Address) (world : World) : Prop :=
  ∀ token (ids : Finset Nat), world.treasury.reserved token + ∑ id ∈ ids,
    world.book.heldFor token id ≤ world.treasury.balance token contract

/-- The refunds of a file as the code computes them: never less than the money held, and never
negative. -/
def File.refundable (file : File) : Int := paidTotal (discounted · file.invoice.discountRate)
    file.funders

def File.owed (file : File) : Int :=
  if file.Collecting then file.refundable else if file.Settling then file.invoice.amountPaid else 0

theorem paidTotal_nonneg (payout : Int → Int) (funders : List (Address × Int)) :
    0 ≤ paidTotal payout funders := by
  apply List.sum_nonneg
  intro amount member
  obtain ⟨_, _, rfl⟩ := List.mem_map.mp member
  exact le_max_left 0 _

theorem owed_nonneg_of_sound (sound : RecordSound file) : 0 ≤ file.owed := by
  unfold File.owed
  split
  · exact paidTotal_nonneg _ _
  · split
    · exact sound.paidNonneg
    · exact le_rfl

theorem discountedTotal_le_refundable (sound : RecordSound file) (exactly : file.Exact) :
    file.discountedTotal ≤ file.refundable := by
  unfold File.discountedTotal File.refundable paidTotal
  refine List.sum_le_sum ?_
  intro entry listed
  beta_reduce
  rw [refund_exact sound exactly listed]
  exact le_max_right 0 _

theorem held_le_owed (sound : RecordSound file) (exactly : file.Exact) : file.held ≤ file.owed := by
  unfold File.held File.owed
  split
  · exact discountedTotal_le_refundable sound exactly
  · exact le_rfl

theorem refundable_of_pending (sound : RecordSound file) (none : file.invoice.amountFunded = 0) :
    file.refundable = 0 := by
  apply List.sum_eq_zero
  intro amount member
  obtain ⟨entry, listed, rfl⟩ := List.mem_map.mp member
  simp only [sound.contributions_zero none entry listed, discounted_zero, max_self]

/-- The call spends no more than what its invoice holds: contributions are not negative and within
range, the fee rate is at most one, a default refunds no more than the instalments, and a
dispute is upheld only before the freelancer was paid. -/
def Call.selfFinancing (control : Control) (file : File) : Call → Bool
  | .fundInvoice _ _ amount _ =>
    decide (0 ≤ amount ∧ Fits i128 (file.invoice.amount * (file.invoice.discountRate : Int)))
  | .markPaid _ _ => decide (effectiveFeeRate control file.invoice.amount ≤ 10000)
  | .claimDefault _ _ => decide (file.discountedTotal ≤ file.invoice.amountPaid)
  | .resolveDispute _ resolution =>
    decide (resolution = 1 → file.invoice.amountFunded < file.invoice.amount)
  | _ => true

def SelfFinancing (world : World) : Action contract → Prop
  | .invoke _ call =>
    ∀ id ∈ call.target, ∀ file ∈ world.book.file id, call.selfFinancing world.control file = true
  | .credit _ _ _ | .advance _ _ => True

instance decidableSelfFinancing (world : World) : (action : Action contract) →
    Decidable (SelfFinancing world action)
  | .invoke _ call => inferInstanceAs (Decidable (∀ id ∈ call.target, ∀ file ∈ world.book.file id,
      call.selfFinancing world.control file = true))
  | .credit _ _ _ | .advance _ _ => isTrue trivial

theorem paidTotal_addContribution {payout : Int → Int} {amount cost : Int}
    (nonneg : AllNonneg funders) (added : 0 ≤ amount)
    (fits : Fits i128 (contributed funders + amount)) (alone : max 0 (payout amount) ≤ cost)
    (raised : ∀ recorded, 0 ≤ recorded → recorded ≤ contributed funders →
      max 0 (payout (recorded + amount)) ≤ max 0 (payout recorded) + cost) (funder : Address) :
    paidTotal payout (addContribution funder amount funders) ≤ paidTotal payout funders + cost := by
  rcases addContribution_exact nonneg added fits funder with
    ⟨before, recorded, after, rfl, low, same⟩ | ⟨_, same⟩
  · have listed : (funder, recorded) ∈ before ++ (funder, recorded) :: after := by simp
    have grown := raised recorded low (le_contributed nonneg listed)
    rw [same]
    simp only [paidTotal, List.map_append, List.map_cons, List.sum_append, List.sum_cons]
    omega
  · rw [same]
    simp only [paidTotal, List.map_append, List.map_cons, List.map_nil, List.sum_append,
      List.sum_cons, List.sum_nil]
    omega

theorem refundable_addContribution (sound : RecordSound file) (added : 0 ≤ amount)
    (room : file.invoice.amountFunded + amount ≤ file.invoice.amount)
    (fits : Fits i128 (file.invoice.amount * file.invoice.discountRate))
    (accepted : 0 ≤ discounted amount file.invoice.discountRate) (funder : Address) :
    paidTotal (discounted · file.invoice.discountRate)
    (addContribution funder amount file.funders) ≤
      file.refundable + discounted amount file.invoice.discountRate := by
  have low := sound.fundedNonneg
  have exact_ : ∀ x, 0 ≤ x → x ≤ file.invoice.amount →
      discounted x file.invoice.discountRate = netOf file.invoice.discountRate 10000 x :=
      fun x nonneg below =>
    discounted_eq_netOf nonneg (fits_of_nonneg_le sound.amountFits nonneg below)
      (product_fits_of_le nonneg below fits)
  refine paidTotal_addContribution sound.nonneg added (sound.fits_raised added room)
    (max_le accepted le_rfl) ?_ funder
  · intro recorded nonneg below
    rw [sound.total] at below
    have sub := netOf_add_le (file.invoice.discountRate : Int) (by decide : (0 : Int) < 10000)
      recorded amount
    rw [← exact_ recorded nonneg (by omega), ← exact_ amount added (by omega),
      ← exact_ (recorded + amount) (by omega) (by omega)] at sub
    have old := le_max_right 0 (discounted recorded file.invoice.discountRate)
    have zero := le_max_left 0 (discounted recorded file.invoice.discountRate)
    exact max_le (by omega) (by omega)

theorem payout_le_refunds {rate : Nat} (nonneg : AllNonneg funders)
    (total : contributed funders = amount) (typed : Fits i128 amount)
    (fits : Fits i128 (amount * rate)) :
    max 0 (discounted amount rate) ≤ paidTotal (discounted · rate) funders := by
  refine max_le (paidTotal_nonneg _ _) ?_
  have whole : 0 ≤ amount := total ▸ contributed_nonneg nonneg
  rw [discounted_eq_netOf whole typed fits, ← total, contributed]
  refine (netOf_sum_le (rate : Int) (by decide) _).trans ?_
  rw [List.map_map]
  refine List.sum_le_sum ?_
  intro entry listed
  have low := nonneg entry listed
  have high : entry.2 ≤ amount := (le_contributed nonneg listed).trans total.le
  have same := discounted_eq_netOf low (fits_of_nonneg_le typed low high)
    (product_fits_of_le low high fits)
  show netOf rate 10000 entry.2 ≤ max 0 (discounted entry.2 rate)
  rw [same]
  exact le_max_right 0 _

section Changes

variable {env : Env contract} {id : Nat} {call : Call} {after : File} {moves : List Movement}

theorem owed_of_pending (pending : file.invoice.status = .pending) : file.owed = 0 := by
  simp [File.owed, File.Collecting, File.Settling, pending]

theorem owed_of_partly (partly : file.invoice.status = .partiallyFunded) :
    file.owed = file.refundable := by
  simp [File.owed, File.Collecting, partly]

theorem owed_of_funded (funded : file.invoice.status = .funded) :
    file.owed = file.invoice.amountPaid := by
  simp [File.owed, File.Collecting, File.Settling, funded]

theorem owed_of_disputed (disputed : file.invoice.status = .disputed)
    (bounded : file.invoice.amountFunded ≤ file.invoice.amount) :
    file.owed = if file.invoice.amountFunded < file.invoice.amount then file.refundable
      else file.invoice.amountPaid := by
  by_cases short : file.invoice.amountFunded < file.invoice.amount
  · simp [File.owed, File.Collecting, disputed, short]
  · have whole : file.invoice.amountFunded = file.invoice.amount := by omega
    simp [File.owed, File.Collecting, File.Settling, disputed, whole]

theorem refundable_le_owed (sound : RecordSound file) (fundable : file.invoice.Fundable) :
    file.refundable ≤ file.owed := by
  rcases fundable with pending | partly
  · rw [refundable_of_pending sound (sound.pending pending), owed_of_pending pending]
  · rw [owed_of_partly partly]

theorem protocolFee_bounds (positive : 1 ≤ file.invoice.amount) (control : Control) :
    0 ≤ protocolFee control file.invoice.amount ∧ protocolFee control file.invoice.amount ≤
      i128.hi :=
  discountOf_bounds (by omega) _

theorem distributed_of_positive (positive : 1 ≤ file.invoice.amount)
    (fits : Fits i128 file.invoice.amount) (control : Control) :
    file.distributed control = file.invoice.amount - protocolFee control file.invoice.amount := by
  have symmetric := i128_symmetric
  have top := fits.2
  obtain ⟨low, high⟩ := protocolFee_bounds positive control
  exact saturate_of_fits ⟨by omega, by omega⟩

theorem distributed_eq (sound : RecordSound file) (control : Control) :
    file.distributed control = file.invoice.amount - protocolFee control file.invoice.amount :=
  distributed_of_positive sound.amountPos sound.amountFits control

theorem settlement_le (sound : RecordSound file) (control : Control)
    (funded : file.invoice.status = .funded)
    (fee : protocolFee control file.invoice.amount ≤ file.invoice.amount) :
    max 0 (protocolFee control file.invoice.amount) +
      paidTotal (funderShare (file.distributed control) file.invoice.amount) file.funders ≤
        file.invoice.amount := by
  have positive := sound.amountPos
  obtain ⟨low, _⟩ := protocolFee_bounds sound.amountPos control
  have distributed := distributed_eq sound control
  have shares := shares_le (by omega : 0 < file.invoice.amount) sound.nonneg
    (sound.total.trans (sound.funded funded)) (by omega : 0 ≤ file.distributed control)
  rw [max_eq_right low]
  omega

theorem Change.exact (change : Change env world id call file after moves) (sound : RecordSound file)
    (financed : call.selfFinancing world.control file = true) (exactly : file.Exact) :
    after.Exact := by
  cases change with
  | edited _ _ _ _ _ _ pending => exact .inr (sound.pending pending)
  | contributed | completed => exact .inl (of_decide_eq_true financed).2
  | _ => exact exactly

theorem owed_of_closed (status : InvoiceStatus) (now : file.invoice.status = status)
    (closed : status ≠ .partiallyFunded ∧ status ≠ .funded ∧ status ≠ .disputed) :
    file.owed = 0 := by
  simp [File.owed, File.Collecting, File.Settling, now, closed]

@[simp] theorem kept_received {token source : Address} (foreign : source ≠ contract)
    (amount : Int) :
    (Movement.transfer token source contract amount).kept contract token = amount := by
  simp [Movement.kept, foreign]

theorem kept_refunds (env : Env contract) (file : File) :
    kept contract file.invoice.token (file.refunds env) = -file.refundable := by
  rw [File.refunds, kept_payments, if_pos rfl]
  rfl

theorem kept_settlement (env : Env contract) (file : File) (control : Control) (admin : Address)
    (amount : Int) (foreign : file.invoice.payer ≠ contract) :
    kept contract file.invoice.token
        (.transfer file.invoice.token file.invoice.payer contract amount ::
          (payment env file.invoice.token admin (protocolFee control file.invoice.amount) ++
            payments env file.invoice.token
              (funderShare (file.distributed control) file.invoice.amount) file.funders)) =
      amount - max 0 (protocolFee control file.invoice.amount) -
        paidTotal (funderShare (file.distributed control) file.invoice.amount) file.funders := by
  rw [kept_cons, kept_received foreign, kept_append, kept_payment, kept_payments,
    if_pos rfl, if_pos rfl]
  omega

theorem kept_upheld (env : Env contract) (file : File) : kept contract file.invoice.token
        (file.refunds env ++ payment env file.invoice.token file.invoice.payer
          file.invoice.amountPaid) =
      -file.refundable - max 0 file.invoice.amountPaid := by
  rw [kept_append, kept_refunds, kept_payment, if_pos rfl]
  omega

theorem refundable_le_paid (sound : RecordSound file) (exactly : file.Exact)
    (covered : file.discountedTotal ≤ file.invoice.amountPaid) :
    file.refundable ≤ file.invoice.amountPaid := by
  by_cases small : file.invoice.discountRate ≤ 10000
  · have same : file.refundable = file.discountedTotal := by
      refine congrArg List.sum (List.map_congr_left ?_)
      intro entry listed
      have nonneg : 0 ≤ netOf file.invoice.discountRate 10000 entry.2 :=
        netOf_nonneg (by decide) (by omega) (sound.nonneg entry listed)
      beta_reduce
      rw [refund_exact sound exactly listed, max_eq_right nonneg]
      rfl
    rw [same]
    exact covered
  · have nothing : file.refundable = 0 := by
      apply List.sum_eq_zero
      intro amount member
      obtain ⟨entry, listed, rfl⟩ := List.mem_map.mp member
      have low := sound.nonneg entry listed
      have taken : entry.2 ≤ entry.2 * (file.invoice.discountRate : Int) / 10000 :=
        Int.le_ediv_of_mul_le (by decide) (mul_le_mul_of_nonneg_left (by omega) low)
      beta_reduce
      rw [refund_exact sound exactly listed, netOf]
      exact max_eq_left (by omega)
    rw [nothing]
    exact sound.paidNonneg

theorem completion_covered (sound : RecordSound file) (fundable : file.invoice.Fundable)
    (whole : file.invoice.amountFunded + amount = file.invoice.amount) (added : 0 ≤ amount)
    (fits : Fits i128 (file.invoice.amount * file.invoice.discountRate))
    (accepted : 0 ≤ discounted amount file.invoice.discountRate) (funder : Address) :
    max 0 (discounted file.invoice.amount file.invoice.discountRate) ≤
      file.owed + discounted amount file.invoice.discountRate := by
  have grown := refundable_addContribution sound added whole.le fits accepted funder
  have before := refundable_le_owed sound fundable
  obtain ⟨allNonneg, total⟩ := addContribution_sound funder sound.nonneg added
    (sound.fits_raised added whole.le)
  -- rounded once against many times
  have payout := payout_le_refunds allNonneg (total.trans (by rw [sound.total, whole]))
    sound.amountFits fits
  omega

theorem disputable_owed (sound : RecordSound file) (disputable : file.invoice.Disputable) :
    (if file.invoice.amountFunded < file.invoice.amount then file.refundable
      else file.invoice.amountPaid) ≤ file.owed := by
  rcases disputable with pending | partly | funded
  · rw [if_pos (sound.short_of_fundable (.inl pending))]
    exact refundable_le_owed sound (.inl pending)
  · rw [if_pos (sound.short_of_fundable (.inr partly))]
    exact refundable_le_owed sound (.inr partly)
  · rw [if_neg (not_lt_of_ge (sound.funded funded).ge), owed_of_funded funded]

/-- The end of a dispute gives the invoice the status its funding has, and the debt of a dispute. -/
theorem restored_owed (bounded : file.invoice.amountFunded ≤ file.invoice.amount) :
    File.owed { file with invoice := { file.invoice with status := file.invoice.restoredStatus } } ≤
      if file.invoice.amountFunded < file.invoice.amount then
        file.refundable else file.invoice.amountPaid := by
  by_cases whole : file.invoice.amountFunded = file.invoice.amount
  · refine le_trans (le_of_eq (owed_of_funded ?_)) ?_
    · exact if_pos whole
    · rw [if_neg (by omega)]
  · rw [if_pos (lt_of_le_of_ne bounded whole)]
    by_cases begun : 0 < file.invoice.amountFunded
    · exact le_of_eq (owed_of_partly ((if_neg whole).trans (if_pos begun)))
    · refine le_trans (le_of_eq (owed_of_pending ?_)) (paidTotal_nonneg _ _)
      exact (if_neg whole).trans (if_neg begun)

variable (change : Change env world id call file after moves)
include change

/-- What an invoice is owed grows by no more than the money the call kept for it. -/
theorem Change.owed_le (law : RejectsNegative env) (sound : RecordSound file) (exactly : file.Exact)
    (financed : call.selfFinancing world.control file = true) :
    after.owed ≤ file.owed + kept contract file.invoice.token moves := by
  have nonneg := owed_nonneg_of_sound sound
  cases change with
  | edited _ _ _ _ _ _ pending =>
    refine le_trans (le_of_eq (owed_of_pending ?_)) ?_
    · exact pending
    · simpa using nonneg
  | contributed funder amount verify fundable typed short foreign accepted =>
    obtain ⟨added, fits⟩ := of_decide_eq_true financed
    have grown := refundable_addContribution sound added short.le fits
      (law _ _ _ _ _ accepted) funder
    have before := refundable_le_owed sound fundable
    refine (owed_of_partly rfl).le.trans (grown.trans ?_)
    rw [kept_cons, kept_received foreign, kept_nil]
    omega
  | completed funder amount verify fundable typed whole foreign accepted =>
    obtain ⟨added, fits⟩ := of_decide_eq_true financed
    -- the freelancer is paid out of the contributions, and no instalment has come in yet
    have payout := completion_covered sound fundable whole added fits
      (law _ _ _ _ _ accepted) funder
    have unpaid := (sound.incomplete (sound.short_of_fundable fundable)).2
    refine (owed_of_funded rfl).le.trans ?_
    rw [kept_cons, kept_received foreign, kept_strictPayment, if_pos rfl]
    show file.invoice.amountPaid ≤ _
    omega
  | renamed _ _ funded =>
    refine le_trans (le_of_eq (owed_of_funded ?_)) ?_
    · exact funded
    · rw [owed_of_funded funded]
      simp
  | cancelled fundable =>
    refine (owed_of_closed .cancelled rfl (by decide)).le.trans ?_
    have before := refundable_le_owed sound fundable
    split
    · rw [kept_refunds]
      omega
    · simpa using nonneg
  | expired =>
    refine (owed_of_closed .expired rfl (by decide)).le.trans ?_
    simpa using nonneg
  | instalment amount funded _ _ foreign =>
    refine le_trans (le_of_eq (owed_of_funded ?_)) ?_
    · exact funded
    · rw [owed_of_funded funded, kept_cons, kept_received foreign, kept_nil, add_zero]
  | settled amount admin primary funded _ whole _ _ foreign =>
    refine (owed_of_closed .paid rfl (by decide)).le.trans ?_
    have fee : protocolFee world.control file.invoice.amount ≤ file.invoice.amount :=
      discountOf_le (by have positive := sound.amountPos; omega) (of_decide_eq_true financed)
    have split := settlement_le sound world.control funded fee
    rw [owed_of_funded funded, kept_settlement env file world.control admin amount foreign]
    omega
  | defaulted _ funded =>
    refine (owed_of_closed .defaulted rfl (by decide)).le.trans ?_
    -- the contributions have left; the refund comes out of the instalments
    have covered := refundable_le_paid sound exactly (of_decide_eq_true financed)
    rw [owed_of_funded funded, kept_refunds]
    omega
  | appealed =>
    refine (owed_of_closed .appealed rfl (by decide)).le.trans ?_
    simpa using nonneg
  | reviewed =>
    refine (owed_of_closed .defaulted rfl (by decide)).le.trans ?_
    simpa using nonneg
  | disputed _ _ disputable =>
    rw [kept_nil, add_zero]
    refine le_trans (le_of_eq (owed_of_disputed ?_ ?_)) (disputable_owed sound disputable)
    · rfl
    · exact sound.fundedLe
  | upheld disputed =>
    refine (owed_of_closed .cancelled rfl (by decide)).le.trans ?_
    -- an incomplete invoice has received no instalment
    have short := of_decide_eq_true financed rfl
    have unpaid := (sound.incomplete short).2
    rw [owed_of_disputed disputed sound.fundedLe, if_pos short, kept_upheld, unpaid]
    simp
  | restored _ disputed =>
    rw [kept_nil, add_zero, owed_of_disputed disputed sound.fundedLe]
    exact restored_owed sound.fundedLe

theorem Change.kept_other {token : Address}
    (other : file.invoice.token ≠ token) : kept contract token moves = 0 := by
  cases change with
  | contributed | instalment => simp [Movement.kept, other]
  | completed => simp [Movement.kept, other, kept_strictPayment]
  | cancelled =>
    split
    · simp [File.refunds, kept_payments, other]
    · rfl
  | settled => simp [Movement.kept, other, kept_payment, kept_payments]
  | defaulted => simp [File.refunds, kept_payments, other]
  | upheld => simp [File.refunds, kept_payment, kept_payments, other]
  | _ => rfl

theorem Change.token_kept : after.invoice.token = file.invoice.token ∨
      (file.invoice.status = .pending ∧ after.invoice.status = .pending ∧ moves = []) := by
  cases change with
  | edited _ _ _ _ _ _ pending => exact .inr ⟨pending, pending, rfl⟩
  | _ => exact .inl rfl

def File.owedIn (file : File) (token : Address) : Int :=
  if file.invoice.token = token then file.owed else 0

theorem Change.owedIn_le (law : RejectsNegative env)
    (sound : RecordSound file) (exactly : file.Exact)
    (financed : call.selfFinancing world.control file = true) (token : Address) :
    after.owedIn token ≤ file.owedIn token + kept contract token moves := by
  have nonneg := owed_nonneg_of_sound sound
  have bound := change.owed_le law sound exactly financed
  unfold File.owedIn
  rcases change.token_kept with same | ⟨_, pending, rfl⟩
  · rw [same]
    split
    · rename_i here
      rw [← here]
      exact bound
    · rename_i other
      rw [change.kept_other other]
      exact le_rfl
  · rw [owed_of_pending pending, kept_nil]
    split_ifs <;> omega

end Changes

def Book.owedFor (book : Book) (token : Address) (id : Nat) : Int :=
  (book.file id).elim 0 fun file => file.owedIn token

structure Accounted (contract : Address) (world : World) : Prop where
  filed : Filed world.book
  escrow : EscrowSound contract world.treasury
  records : ∀ id file, world.book.file id = some file → RecordSound file ∧ file.Exact
  covered : ∀ token (ids : Finset Nat), ∑ id ∈ ids, world.book.owedFor token id ≤
    world.treasury.free contract token

theorem Accounted.of_files (accounted : Accounted contract world) (filed : Filed next.book)
    (files : next.book.file = world.book.file) (escrow : EscrowSound contract next.treasury)
    (free : ∀ token, world.treasury.free contract token ≤ next.treasury.free contract token) :
    Accounted contract next := by
  refine ⟨filed, escrow, ?_, ?_⟩
  · intro id file stored
    rw [files] at stored
    exact accounted.records id file stored
  · intro token ids
    refine le_trans (le_of_eq ?_) ((accounted.covered token ids).trans (free token))
    simp only [Book.owedFor, files]

theorem owedFor_update {before after : Book} {id : Nat}
    (files : after.file = update before.file id (some file)) (token : Address) (other : Nat) :
    after.owedFor token other = if other = id then file.owedIn token else before.owedFor
      token other := by
  unfold Book.owedFor
  rw [files]
  by_cases same : other = id
  · subst same
    simp
  · simp [same]

/-- One file changes: the sum over any set of invoices changes by that file alone. -/
theorem covered_of_change {id : Nat} {file after : File} (accounted : Accounted contract world)
    (stored : world.book.file id = some file)
    (files : next.book.file = update world.book.file id (some after)) {moves : List Movement}
    (free : ∀ token, world.treasury.free contract token + kept contract token moves ≤
      next.treasury.free contract token)
    (bound : ∀ token, after.owedIn token ≤ file.owedIn token + kept contract token moves)
    (nonneg : ∀ token, 0 ≤ after.owedIn token) (token : Address) (ids : Finset Nat) :
    ∑ other ∈ ids, next.book.owedFor token other ≤ next.treasury.free contract token := by
  have here : world.book.owedFor token id = file.owedIn token := by simp [Book.owedFor, stored]
  have whole := accounted.covered token (insert id ids)
  have rest : ∑ other ∈ ids.erase id, next.book.owedFor token other =
      ∑ other ∈ ids.erase id, world.book.owedFor token other := by
    refine Finset.sum_congr rfl ?_
    intro other member
    rw [owedFor_update files, if_neg (Finset.ne_of_mem_erase member)]
  have split : ∑ other ∈ insert id ids, world.book.owedFor token other =
      file.owedIn token + ∑ other ∈ ids.erase id, world.book.owedFor token other := by
    rw [← here, ← Finset.add_sum_erase (insert id ids) _ (Finset.mem_insert_self id ids),
      Finset.erase_insert_eq_erase]
  have most : ∑ other ∈ ids, next.book.owedFor token other ≤
      after.owedIn token + ∑ other ∈ ids.erase id, next.book.owedFor token other := by
    have value : next.book.owedFor token id = after.owedIn token := by
      rw [owedFor_update files, if_pos rfl]
    by_cases member : id ∈ ids
    · rw [← Finset.add_sum_erase ids _ member, value]
    · rw [Finset.erase_eq_of_notMem member]
      have low := nonneg token
      omega
  have more := free token
  have change := bound token
  omega

theorem File.Fresh.owedIn_eq (fresh : file.Fresh) (token : Address) : file.owedIn token = 0 := by
  obtain ⟨id, params, reputation, rfl, _⟩ := fresh
  have nothing := @owed_of_pending ⟨newInvoice id params reputation, [], none, none⟩ rfl
  simp [File.owedIn, nothing]

theorem File.Fresh.exact (fresh : file.Fresh) : file.Exact := by
  obtain ⟨id, _, _, rfl, _⟩ := fresh
  exact .inr rfl

theorem Accounted.submitted (accounted : Accounted contract world) (filed : Filed next.book)
    (grows : Grows world.book next.book) (money : next.treasury = world.treasury) :
    Accounted contract next := by
  refine ⟨filed, money ▸ accounted.escrow, ?_, ?_⟩
  · intro id file stored
    rcases grows.fresh id file stored with old | ⟨_, fresh⟩
    · exact accounted.records id file old
    · exact ⟨fresh.recordSound, fresh.exact⟩
  · intro token ids
    rw [money]
    refine le_trans (Finset.sum_le_sum ?_) (accounted.covered token ids)
    intro id _
    unfold Book.owedFor
    cases stored : next.book.file id with
    | none =>
      cases before : world.book.file id with
      | none => exact le_rfl
      | some file => cases (grows.kept id file before).symm.trans stored
    | some file =>
      rcases grows.fresh id file stored with old | ⟨absent, fresh⟩
      · rw [old]
      · rw [absent]
        exact (fresh.owedIn_eq token).le

theorem SelfFinancing.call {env : Env contract} {world : World} {call : Call} {id : Nat}
    (financed : SelfFinancing world (.invoke env call)) (aimed : call.target = some id)
    (stored : world.book.file id = some file) : call.selfFinancing world.control file = true :=
  financed id aimed file stored

theorem step_accounted {world : World} (action : Action contract) (law : action.RefusesNegative)
    (financed : SelfFinancing world action) (accounted : Accounted contract world) :
    Accounted contract (step world action) := by
  obtain ⟨effect, filed⟩ := step_effect action accounted.filed
  have escrow := step_escrowSound action accounted.filed law accounted.escrow
  cases effect with
  | idle files money => exact accounted.of_files filed files escrow (fun token => by rw [money])
  | credited token holder amount files money =>
    refine accounted.of_files filed files escrow ?_
    intro asset
    have more := @creditHolder_held contract world.treasury token holder asset amount
    simp only [Treasury.free, money, creditHolder_reserved]
    omega
  | probed env token admin _ files foreign carried =>
    refine accounted.of_files filed files escrow ?_
    intro asset
    have back := (carried.balanced law accounted.escrow).covered asset
    have nothing : kept contract asset
        [.transfer token admin contract 1000000, .transfer token contract admin 1000000] = 0 := by
      by_cases same : token = asset <;> simp [Movement.kept, same, foreign]
    omega
  | claimed env recipient token amount files money =>
    exact accounted.of_files filed files escrow
      (claimPending_claimed accounted.escrow money).free_le
  | submitted env call _ grows money => exact accounted.submitted filed grows money
  | changed env call id file after moves aimed _ stored files change carried =>
    have met := financed.call aimed stored
    obtain ⟨sound, exactly⟩ := accounted.records id file stored
    have added : call.Adds id (0 ≤ ·) := by
      rintro funder amount verify rfl
      exact (of_decide_eq_true met).1
    have soundAfter := change.recordSound sound added
    have nonneg := owed_nonneg_of_sound soundAfter
    refine ⟨filed, escrow, ?_, ?_⟩
    · intro other record found
      rw [files] at found
      by_cases same : other = id
      · subst same
        simp only [update_self, Option.some.injEq] at found
        subst found
        exact ⟨soundAfter, change.exact sound met exactly⟩
      · rw [update_of_ne same] at found
        exact accounted.records other record found
    · refine covered_of_change accounted stored files
        (carried.balanced law accounted.escrow).covered ?_ ?_
      · exact change.owedIn_le law sound exactly met
      · intro token
        unfold File.owedIn
        split <;> omega

theorem genesis_accounted (clock : Clock) (balance : Balances)
    (start : ∀ token, 0 ≤ balance token contract) :
    Accounted contract (genesis clock balance) where
  filed := genesis_filed clock balance
  escrow := genesis_escrowSound clock balance start
  records := fun _ _ stored => by cases stored
  covered := by
    intro token ids
    have nothing : ∑ id ∈ ids, (genesis clock balance).book.owedFor token id = 0 :=
      Finset.sum_eq_zero fun _ _ => rfl
    rw [nothing]
    exact sub_nonneg.mpr ((genesis_escrowSound clock balance start).covered token)

theorem Accounted.solvent {world : World} (accounted : Accounted contract world) :
    Solvent contract world := by
  intro token ids
  have covered := accounted.covered token ids
  have less : ∑ id ∈ ids, world.book.heldFor token id ≤ ∑ id ∈ ids,
      world.book.owedFor token id := by
    refine Finset.sum_le_sum ?_
    intro id _
    unfold Book.heldFor Book.owedFor File.owedIn
    cases stored : world.book.file id with
    | none => exact le_rfl
    | some file =>
      obtain ⟨sound, exactly⟩ := accounted.records id file stored
      simp only [Option.elim_some]
      split
      · exact held_le_owed sound exactly
      · exact le_rfl
  simp only [Treasury.free] at covered
  omega

/-- Every state of a run whose calls all finance themselves is solvent. -/
theorem solvent_of_selfFinancing (clock : Clock) (balance : Balances)
    (actions : List (Action contract)) (start : ∀ token, 0 ≤ balance token contract)
    (law : ∀ action ∈ actions, action.RefusesNegative)
    (financed : Along step SelfFinancing (genesis clock balance) actions) :
    Throughout step (Solvent contract) (genesis clock balance) actions := by
  have accounted : Throughout step (Accounted contract) (genesis clock balance) actions :=
    throughout_along (Accounted contract)
      (fun _ action held met => step_accounted action met.1 met.2 held)
      (genesis_accounted clock balance start) ((Along.of_forall law).and financed)
  exact accounted.mono fun _ held => held.solvent

def twoInvoices : List (Action ⟨0⟩) :=
  openingCalls 1000000 300 ++
    [signedBy [5] (.submitInvoice (bill 2000000 300)),
     signedBy [3] (.fundInvoice ⟨3⟩ 1 1000000 false),
     signedBy [4] (.fundInvoice ⟨4⟩ 2 1500000 false)]

def unpaidDefault : List (Action ⟨0⟩) :=
  twoInvoices ++ [.advance 200000 5, signedBy [3] (.claimDefault ⟨3⟩ 1)]

theorem unpaidDefault_insolvent :
    (∀ token, 0 ≤ marketBalances token ⟨0⟩) ∧ (∀ action ∈ unpaidDefault, action.RefusesNegative) ∧
      ¬ Solvent ⟨0⟩ (traded unpaidDefault) := by
  refine ⟨fun token => by simp [marketBalances], by simp [unpaidDefault, twoInvoices, openingCalls],
    ?_⟩
  intro solvent
  have second := solvent ⟨10⟩ {2}
  revert second
  decide +kernel

def paidInstalments : List (Action ⟨0⟩) :=
  twoInvoices ++ [signedBy [2] (.markPaid 1 400000), signedBy [2] (.markPaid 1 600000)]

theorem solvent_of_paidInstalments : Along step SelfFinancing market paidInstalments ∧
      Throughout step (Solvent ⟨0⟩) market paidInstalments := by
  have financed : Along step SelfFinancing market paidInstalments := by decide +kernel
  exact ⟨financed, solvent_of_selfFinancing ⟨1000, 10⟩ marketBalances paidInstalments
    (fun token => by simp [marketBalances])
    (by simp [paidInstalments, twoInvoices, openingCalls]) financed⟩

end InvoiceLiquidity
