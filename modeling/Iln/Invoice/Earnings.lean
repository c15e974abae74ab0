import Iln.Invoice.Distribution
import Iln.Invoice.Indexes

/-! What the contract reports as the earnings of a liquidity provider. `lp_earned` in the event of a
settlement compares the payout with the face value of the contribution, so it is negative as soon as
a fee is taken; `claim_yield` returns the discount of the whole invoice, whoever contributed. -/
namespace InvoiceLiquidity

open Outcome FixedWidth Apportion Transition

variable {contract : Address}

theorem le_share_iff {amount fee contribution : Int} (positive : 1 ≤ amount) (nonneg : 0 ≤ fee) :
    contribution ≤ ((amount - fee) * contribution).tdiv amount ↔ fee = 0 ∨ contribution ≤ 0 := by
  have cancelled : (amount * contribution).tdiv amount = contribution :=
    Int.mul_tdiv_cancel_left _ (by omega)
  constructor
  · intro enough
    by_contra both
    obtain ⟨taken, added⟩ := not_or.mp both
    have product : 1 ≤ fee * contribution := one_le_mul_of_one_le_of_one_le (by omega) (by omega)
    have whole : 1 ≤ amount * contribution := one_le_mul_of_one_le_of_one_le positive (by omega)
    -- the numerator is at least one below that of the whole contribution
    have below : ((amount - fee) * contribution).tdiv amount ≤
      (amount * contribution - 1).tdiv amount :=
      Int.tdiv_le_tdiv (by omega) (by rw [sub_mul]; omega)
    have short : (amount * contribution - 1).tdiv amount < contribution := by
      rw [Int.tdiv_eq_ediv_of_nonneg (by omega)]
      apply Int.ediv_lt_of_lt_mul (by omega)
      rw [mul_comm contribution]
      omega
    omega
  · rintro (rfl | negative)
    · rw [sub_zero, cancelled]
    · have product : fee * contribution ≤ 0 := mul_nonpos_of_nonneg_of_nonpos nonneg negative
      calc contribution = (amount * contribution).tdiv amount := cancelled.symm
        _ ≤ ((amount - fee) * contribution).tdiv amount :=
            Int.tdiv_le_tdiv (by omega) (by rw [sub_mul]; omega)

theorem lpEarned_nonneg_iff {file : File} (positive : 1 ≤ file.invoice.amount)
    (typed : Fits i128 file.invoice.amount) (clock : Clock) (control : Control)
    (primary : Address × Int) :
    let event := invoicePaid clock control file.invoice primary
    Fits i128 (event.lpPayout - primary.2) →
      (0 ≤ event.lpEarned ↔ protocolFee control file.invoice.amount = 0 ∨ primary.2 ≤ 0) := by
  intro event fits
  have earned : event.lpEarned = event.lpPayout - primary.2 := by
    show (checked i128 (event.lpPayout - primary.2)).getD 0 = _
    rw [checked_of_fits fits, Option.getD_some]
  have payout : event.lpPayout =
      ((file.invoice.amount - protocolFee control file.invoice.amount) * primary.2).tdiv
      file.invoice.amount := by
    rw [← distributed_of_positive positive typed control]
    rfl
  rw [earned, payout, sub_nonneg]
  exact le_share_iff positive (protocolFee_bounds positive control).1

section Files

variable {env : Env contract} {world : World} {id : Nat} {call : Call} {file after : File}
  {moves : List Movement}

def File.Priced (file : File) : Prop := 1 ≤ file.invoice.amount ∧ Fits i128 file.invoice.amount

section

theorem addContribution_names {funder : Address} {amount : Int} {funders : List (Address × Int)}
    (distinct : (funders.map Prod.fst).Nodup) :
    ((addContribution funder amount funders).map Prod.fst).Nodup := by
  rcases addContribution_split funder amount funders with ⟨_, _, _, rfl,
    raised⟩ | ⟨absent, appended⟩
  · rw [raised]
    simpa using distinct
  · rw [appended, List.map_append, List.map_cons, List.map_nil]
    apply distinct.append (List.nodup_singleton _)
    intro name listed own
    obtain ⟨entry, member, rfl⟩ := List.mem_map.mp listed
    exact absent entry member (List.mem_singleton.mp own)

variable (change : Change env world id call file after moves)
include change

theorem Change.priced (priced : file.Priced) : after.Priced := by
  cases change with
  | edited _ _ _ _ _ _ _ amounts =>
    rcases amounts with rfl | valid
    · exact priced
    · exact valid
  | _ => exact priced

def KeepsPosition (id : Nat) (world : World) : Action contract → Prop
  | .invoke env (.transferLpPosition target newLp) =>
    target = id → succeeds world (.invoke env (.transferLpPosition target newLp)) = false
  | _ => True

theorem Change.funders_kept (kept : KeepsPosition id world (.invoke env call))
    (ran : succeeds world (.invoke env call) = true) (other : fundingOf id call = none) :
    after.funders = file.funders := by
  cases change with
  | contributed | completed => simp [fundingOf] at other
  | renamed => exact absurd ran (by rw [kept rfl]; decide)
  | _ => rfl

theorem Change.names_kept (kept : KeepsPosition id world (.invoke env call))
    (ran : succeeds world (.invoke env call) = true)
    (distinct : (file.funders.map Prod.fst).Nodup) : (after.funders.map Prod.fst).Nodup := by
  cases view : change.fundingView with
  | contributes funder amount _ _ _ _ funders =>
    rw [funders]
    exact addContribution_names distinct
  | keeps other =>
    rw [change.funders_kept kept ran other]
    exact distinct

theorem Change.unpaid : file.invoice.status ≠ .paid := by
  intro paid
  have apart : ∀ {status : InvoiceStatus}, file.invoice.status = status → status ≠ .paid → False :=
    fun same different => different (same.symm.trans paid)
  cases change with
  | edited _ _ _ _ _ _ pending | expired pending => exact apart pending (by decide)
  | contributed _ _ _ fundable | completed _ _ _ fundable | cancelled fundable =>
        exact fundable.elim (apart · (by decide)) (apart · (by decide))
  | renamed _ _ funded | instalment _ funded | settled _ _ _ funded | defaulted _ funded =>
        exact apart funded (by decide)
  | appealed _ _ defaulted => exact apart defaulted (by decide)
  | reviewed _ appealed => exact apart appealed (by decide)
  | disputed _ _ disputable =>
    rcases disputable with pending | partly | funded
    · exact apart pending (by decide)
    · exact apart partly (by decide)
    · exact apart funded (by decide)
  | upheld disputed | restored _ disputed => exact apart disputed (by decide)

theorem Change.settlement_paidTo (paid : after.invoice.status = .paid)
    (free : protocolFee world.control file.invoice.amount = 0) (lp : Address) :
    paidTo contract lp moves = (file.funders.map fun entry =>
      if entry.1 = lp then max 0 (funderShare (file.distributed world.control)
        file.invoice.amount entry.2)
      else 0).sum := by
  obtain ⟨_, _, _, _, _, _, _, foreign, _, _, rfl⟩ := change.settlement change.unpaid paid
  rw [← paidTo_payments env file.invoice.token, free]
  simp [paidTo, payment, Movement.paidTo, foreign]

theorem Change.settlement_received
    (paid : after.invoice.status = .paid) (free : protocolFee world.control file.invoice.amount = 0)
    (sound : RecordSound file) (exactly : file.SettlesExactly world.control)
    (distinct : (file.funders.map Prod.fst).Nodup) {lp : Address} {contribution : Int}
    (listed : (lp, contribution) ∈ file.funders) : paidTo contract lp moves = contribution := by
  have positive := sound.amountPos
  have low : 0 ≤ contribution := sound.nonneg _ listed
  have share : funderShare (file.distributed world.control) file.invoice.amount contribution =
      contribution := by
    have inside := shares_fit sound exactly _ listed
    rw [distributed_eq sound, free, sub_zero] at inside ⊢
    rw [funderShare_of_fits (mul_nonneg (by omega) low) inside,
      Int.mul_ediv_cancel_left _ (by omega)]
  rw [change.settlement_paidTo paid free lp,
    AssocSum.sum_of_key (fun given => max 0 (funderShare _ _ given)) distinct listed, share,
    max_eq_right low]

end

theorem exec_paid (filed : Filed world.book) (stored : world.book.file id = some file)
    (paid : file.invoice.status = .paid) (later : List (Action contract)) :
    (exec step world later).book.file id = some file := by
  refine filed_invariant (fun reached : World => reached.book.file id = some file) ?_ filed stored
    Along.always
  intro reached action filed held _
  cases step_touch action filed id with
  | same unchanged => exact unchanged.trans held
  | fresh _ absent => cases absent.symm.trans held
  | changed _ _ before after _ _ _ found _ change =>
    cases held.symm.trans found
    exact absurd paid change.unpaid

theorem markPaid_event {amount : Int} {primary : Address × Int} {next : World}
    (filed : Filed world.book) (stored : world.book.file id = some file)
    (first : file.funders.head? = some primary)
    (whole : file.invoice.amountPaid + amount = file.invoice.amount)
    (ran : invoke env world (.markPaid id amount) = .ok next) :
    markPaid env world id amount =
      .ok (next, some (invoicePaid world.clock world.control file.invoice primary)) := by
  obtain ⟨_, found, rfl⟩ := Option.map_eq_some_iff.mp stored
  obtain ⟨⟨_, _⟩, returned, rfl⟩ := map_eq_ok.mp (invoke_runs rfl ran)
  have done := returned
  simp only [markPaid, ok_iff, lockReentrancy_ok] at done
  obtain ⟨_, ⟨_, rfl⟩, ⟨_, _, _⟩, checked, _, _, done⟩ := done
  obtain ⟨loaded, _, _, _, listed, rfl, _⟩ := checkPayment_ok filed checked
  cases found.symm.trans loaded
  cases first.symm.trans listed
  rw [if_neg whole.not_lt] at done
  simp only [settleInFull, ok_iff] at done
  obtain ⟨_, ⟨_, _, _, _, _, _, _, _, _, _, _, _, rfl⟩, ⟨⟩⟩ := done
  exact returned

theorem claimYield_paid {viewer : Env contract} {lp : Address}
    (stored : world.book.file id = some file) (paid : file.invoice.status = .paid)
    (held : file.invoice.funder = some lp) (listed : lp ∈ file.funders.map Prod.fst)
    (signed : viewer.signed lp = true) :
    claimYield viewer world id =
      .ok (discountOf file.invoice.amount file.invoice.discountRate) := by
  obtain ⟨invoice, found, rfl⟩ := Option.map_eq_some_iff.mp stored
  obtain ⟨entry, member, same⟩ := List.mem_map.mp listed
  have loaded : loadInvoice world.book id = .ok invoice := by
    rw [loadInvoice, found]
    rfl
  have allowed : requireLpById viewer world.book lp id = .ok () := by
    simp only [requireLpById, ok_iff, requireAuth]
    exact ⟨invoice, loaded, (), signed, entry, member, same⟩
  simp only [claimYield, ok_iff]
  refine ⟨invoice, loaded, lp, held, (), allowed, ?_⟩
  rw [show invoice.status = .paid from paid]
  rfl

end Files

section Runs

variable {id : Nat} {actions : List (Action contract)} {file : File} (clock : Clock)
  (balance : Balances)

theorem exec_priced (stored : (reach clock balance actions).book.file id =
    some file) : file.Priced := by
  refine file_induct File.Priced ?_ ?_ clock balance Along.always file stored
  · rintro file ⟨_, _, _, rfl, positive, typed⟩
    exact ⟨positive, typed⟩
  · intro env world call before after moves _ _ change priced
    exact change.priced priced

theorem exec_funderListed (stored : (reach clock balance actions).book.file id = some file) :
    FunderListed file := by
  refine file_induct FunderListed ?_ ?_ clock balance Along.always file stored
  · rintro file ⟨_, _, _, rfl, _⟩ _ none
    cases none
  · intro env world call before after moves _ _ change listed
    exact change.funderListed listed

theorem exec_charged (who : Address → Bool) (added : ∀ action ∈ actions, AddsNonneg id action)
    (kept : Along step (KeepsPosition id) (genesis clock balance) actions)
    (stored : (reach clock balance actions).book.file id = some file) :
    RecordSound file ∧ (file.funders.map Prod.fst).Nodup ∧ (file.Exact →
      OwedTo who (tally step (perCall id (spending contract id who))
        (genesis clock balance) actions) file) := by
  refine perCall_induct (fun spent file => RecordSound file ∧ (file.funders.map Prod.fst).Nodup ∧
    (file.Exact → OwedTo who spent file)) ?_ ?_ (genesis_filed clock balance) rfl
    ((Along.of_forall added).and kept) stored
  · intro file fresh
    refine ⟨fresh.recordSound, ?_, ?_⟩
    all_goals obtain ⟨_, _, _, rfl, _⟩ := fresh
    · exact List.nodup_nil
    · exact fun _ => ⟨by simp [heldBy], by simp [heldBy]⟩
  · rintro env world call before after moves spent ⟨nonneg, keeps⟩ ran found change ⟨sound,
      distinct, owed⟩
    have positive : call.Adds id (0 ≤ ·) := by
      rintro funder amount verify rfl
      exact nonneg rfl
    exact ⟨change.recordSound sound positive, change.names_kept keeps ran distinct,
      OwedTo.follows change.fundingView sound positive (change.funders_kept keeps ran) owed⟩

end Runs

/-- At a settlement, `lp_earned` is not negative exactly when no fee is taken or the first funder
contributed nothing. Without a fee, and when no position was handed on, `claim_yield` exceeds what
the stored funder earned by the discount on the contributions of the others, up to one unit for each
of its own contributions. -/
theorem reported_earnings (clock : Clock) (balance : Balances) (actions : List (Action contract))
    (last : Action contract) (id : Nat) {file : File}
    (stored : (reach clock balance actions).book.file id = some file)
    (unpaid : file.invoice.status ≠ .paid)
    (paid : (step (reach clock balance actions) last).statusOf id = some .paid) :
    let before := reach clock balance actions
    let fee := protocolFee before.control file.invoice.amount
    (∃ env amount primary, last = .invoke env (.markPaid id amount) ∧
      file.funders.head? = some primary ∧
      let event := invoicePaid before.clock before.control file.invoice primary
      markPaid env before id amount = .ok (step before last, some event) ∧
        (Fits i128 (event.lpPayout - primary.2) → (0 ≤ event.lpEarned ↔ fee = 0 ∨ primary.2 ≤ 0))) ∧
    (fee = 0 → (∀ action ∈ actions, AddsNonneg id action) →
      Along step (KeepsPosition id) (genesis clock balance) actions →
        file.SettlesExactly before.control →
          Fits i128 (file.invoice.amount * file.invoice.discountRate) →
      ∀ lp ∈ file.invoice.funder, ∃ contribution, (lp, contribution) ∈ file.funders ∧
        let charged :=
          tally step (perCall id (spending contract id fun address => decide (address = lp)))
          (genesis clock balance) actions
        let earned := paidTo contract lp (movedFor id before last) - charged.1
        let reported := discountOf file.invoice.amount file.invoice.discountRate
        let others := reported - discountOf contribution file.invoice.discountRate
        (∀ (viewer : Env contract) (later : List (Action contract)), viewer.signed lp = true →
          claimYield viewer (exec step (step before last) later) id = .ok reported) ∧
        (others ≤ reported - earned ∧ reported - earned ≤ others + charged.2) ∧
        (contribution = file.invoice.amount → |reported - earned| ≤ charged.2)) := by
  intro before fee
  have filed : Filed before.book := reach_filed clock balance actions
  have priced := exec_priced clock balance stored
  have other : before.statusOf id ≠ some .paid := by
    rw [statusOf_eq_file, stored]
    exact fun same => unpaid (Option.some.inj same)
  obtain ⟨env, call, record, after, rfl, found, now, _, status, change⟩ :=
    step_changed filed (by decide) other paid
  cases stored.symm.trans found
  obtain ⟨amount, _, primary, rfl, _, whole, first, _, closed, funders, _⟩ :=
    change.settlement unpaid status
  have finished : succeeds before (.invoke env (.markPaid id amount)) = true := by
    by_contra failed
    rw [step_of_failed (Bool.eq_false_of_not_eq_true failed)] at paid
    exact other paid
  refine ⟨⟨env, amount, primary, rfl, first, markPaid_event filed stored first whole
    (invoke_of_succeeds finished), lpEarned_nonneg_iff priced.1 priced.2 _ _ primary⟩, ?_⟩
  intro free added kept exactly fits lp held
  obtain ⟨sound, distinct, owed⟩ := exec_charged clock balance
    (fun address => decide (address = lp)) added kept stored
  obtain ⟨⟨holder, contribution⟩, member, same⟩ :=
    List.mem_map.mp (exec_funderListed clock balance stored lp held)
  have listed : (lp, contribution) ∈ file.funders := same ▸ member
  have received := change.settlement_received status free sound exactly distinct listed
  have low : 0 ≤ contribution := sound.nonneg _ listed
  have high : contribution ≤ file.invoice.amount :=
    (le_contributed sound.nonneg listed).trans (sound.total.le.trans sound.fundedLe)
  have part : discountOf contribution file.invoice.discountRate = contribution *
    file.invoice.discountRate / 10000 := discountOf_of_fits low (product_fits_of_le low high fits)
  have covered := (owed (.inl fits)).covered
  have close := (owed (.inl fits)).close
  simp only [heldBy, decide_eq_true_eq] at covered close
  rw [AssocSum.sum_of_key (netOf _ 10000) distinct listed, netOf, ← part] at covered close
  refine ⟨contribution, listed, ?_, ?_, ?_⟩
  · intro viewer later signed
    have final := exec_paid (step_effect _ filed).2 now status later
    rw [← funders] at listed
    have query := claimYield_paid final status (by rw [closed]; exact held)
      (List.mem_map.mpr ⟨_, listed, rfl⟩) signed
    rw [closed] at query
    exact query
  · rw [received]
    omega
  · rintro rfl
    rw [received, abs_le]
    omega

def soleFunding : List (Action ⟨0⟩) :=
  openingCalls 1000000 333 ++
    [signedBy [3] (.fundInvoice ⟨3⟩ 1 333333 false), signedBy [3] (.fundInvoice ⟨3⟩ 1 666667 false)]

theorem reported_earnings_of_soleFunding :
    let before := traded soleFunding
    let charged := tally step (perCall 1 (spending ⟨0⟩ 1 fun address => decide (address = ⟨3⟩)))
      market soleFunding
    claimYield (stellarHost ⟨0⟩ [⟨3⟩] []) (step before fullPayment) 1 = .ok 33300 ∧
      |33300 - (paidTo ⟨0⟩ ⟨3⟩ (movedFor 1 before fullPayment) - charged.1)| ≤ charged.2 := by
  obtain ⟨file, stored, unpaid, paid, free, exactly, held, whole⟩ :
      ∃ file ∈ (traded soleFunding).book.file 1, file.invoice.status ≠ .paid ∧
        (step (traded soleFunding) fullPayment).statusOf 1 = some .paid ∧
        protocolFee (traded soleFunding).control file.invoice.amount = 0 ∧
        file.SettlesExactly (traded soleFunding).control ∧ (file.invoice.funder = some ⟨3⟩ ∧
          file.invoice.amount = 1000000 ∧ file.invoice.discountRate = 333) ∧
        file.funders = [(⟨3⟩, 1000000)] := by decide +kernel
  obtain ⟨funder, amount, rate⟩ := held
  have added : ∀ action ∈ soleFunding, AddsNonneg 1 action := by
    simp [soleFunding, openingCalls, signedBy, AddsNonneg]
  have kept : Along step (KeepsPosition 1) market soleFunding := by
    have everywhere : ∀ action ∈ soleFunding, ∀ world, KeepsPosition 1 world action := by
      simp [soleFunding, openingCalls, signedBy, KeepsPosition]
    exact (Along.of_forall everywhere).mono fun world _ holds => holds world
  obtain ⟨_, listed, claims, _, close⟩ :=
    (reported_earnings ⟨1000, 10⟩ marketBalances soleFunding fullPayment 1 stored unpaid paid).2
      free added kept exactly (by rw [amount, rate]; decide) ⟨3⟩ funder
  rw [whole, List.mem_singleton, Prod.mk.injEq] at listed
  have reported : discountOf file.invoice.amount file.invoice.discountRate = 33300 := by
    rw [amount, rate]
    decide
  rw [reported] at claims close
  exact ⟨claims (stellarHost ⟨0⟩ [⟨3⟩] []) [] rfl, close (listed.2.trans amount.symm)⟩

/-- With a fee of 2.5 percent the event reports a loss of 25000. Without a fee, provider 3 has
contributed two of three equal parts and earned 22199, and `claim_yield` reports the 33300 of the
whole invoice. -/
theorem earnings_misreported :
    (let announced := markPaid (stellarHost ⟨0⟩ [⟨2⟩] []) (traded modestFee) 1 1000000
     (announced.toOption.bind Prod.snd).map InvoicePaid.lpEarned = some (-25000)) ∧
      (let before := traded (unevenParts ++ [lastPart])
       let charged := tally step (perCall 1 (spending ⟨0⟩ 1 fun address => decide (address = ⟨3⟩)))
         market (unevenParts ++ [lastPart])
       (before.book.invoices 1).bind (·.funder) = some ⟨3⟩ ∧
         (step before fullPayment).statusOf 1 = some .paid ∧
         protocolFee before.control 1000000 = 0 ∧
         claimYield (stellarHost ⟨0⟩ [⟨3⟩] []) (step before fullPayment) 1 = .ok 33300 ∧
         paidTo ⟨0⟩ ⟨3⟩ (movedFor 1 before fullPayment) - charged.1 = 22199 ∧ charged.2 = 2) := by
  decide +kernel

end InvoiceLiquidity
