import Mathlib.Algebra.Group.Prod
import Iln.Invoice.RecordInvariants

/-! What liquidity providers are charged against what funding pays out. Costs, refunds and the
payout of the freelancer are floored separately; the totals charged over a run are followed beside
the file, and each call adds at most one unit of rounding. -/
namespace InvoiceLiquidity

open FixedWidth Apportion Transition

variable {contract : Address} {file after : File} {amount : Int} {funders : List (Address × Int)}
variable {who : Address → Bool} {moves : List Movement} {spent : Int × Int}

def Movement.taken (contract : Address) : Movement → Int
  | .transfer _ source target amount => if source ≠ contract ∧ target = contract then amount else 0
  | .escrow _ _ _ => 0

def taken (contract : Address) (moves : List Movement) : Int :=
  (moves.map (Movement.taken contract)).sum

def Movement.paidTo (contract recipient : Address) : Movement → Int
  | .transfer _ source target amount => if source = contract ∧ target = recipient then amount else 0
  | .escrow _ holder amount => if holder = recipient then amount else 0

def paidTo (contract recipient : Address) (moves : List Movement) : Int :=
  (moves.map (Movement.paidTo contract recipient)).sum

theorem taken_strictPayment (contract token recipient : Address) (amount : Int) :
    taken contract (strictPayment contract token recipient amount) = 0 := by
  unfold strictPayment
  split <;> simp [taken, Movement.taken]

theorem paidTo_append (recipient : Address) (first second : List Movement) :
    paidTo contract recipient (first ++ second) = paidTo contract recipient first +
      paidTo contract recipient second := by
  simp [paidTo]

theorem paidTo_payment (env : Env contract) (token recipient holder : Address) (amount : Int) :
    paidTo contract recipient (payment env token holder amount) =
      if holder = recipient then max 0 amount else 0 := by
  unfold payment
  split
  · rename_i nothing
    simp [paidTo, max_eq_left nothing]
  · rename_i positive
    have large : max 0 amount = amount := max_eq_right (by omega)
    split <;> simp [paidTo, Movement.paidTo, large]

theorem paidTo_payments (env : Env contract) (token recipient : Address) (payout : Int → Int)
    (funders : List (Address × Int)) :
    paidTo contract recipient (payments env token payout funders) =
      (funders.map fun entry => if entry.1 = recipient then max 0 (payout entry.2) else 0).sum := by
  induction funders with
  | nil => rfl
  | cons entry rest ih =>
    simp only [payments, List.flatMap_cons, List.map_cons, List.sum_cons, paidTo_append,
      paidTo_payment] at ih ⊢
    rw [ih]

def fundingOf (id : Nat) : Call → Option Address
  | .fundInvoice funder target _ _ => if target = id then some funder else none
  | _ => none

inductive FundingView (contract : Address) (id : Nat) (call : Call) (file after : File)
    (moves : List Movement) :
    Prop
  | contributes (funder : Address) (amount : Int) (verify : Bool)
      (called : call = .fundInvoice funder id amount verify) (fundable : file.invoice.Fundable)
      (room : file.invoice.amountFunded + amount ≤ file.invoice.amount)
      (funders : after.funders = addContribution funder amount file.funders)
      (funded : after.invoice.amountFunded = file.invoice.amountFunded + amount)
      (amounts : after.invoice.amount = file.invoice.amount)
      (rates : after.invoice.discountRate = file.invoice.discountRate)
      (cost : taken contract moves = discounted amount file.invoice.discountRate) :
      FundingView contract id call file after moves
  | keeps (other : fundingOf id call = none)
      (funded : after.invoice.amountFunded = file.invoice.amountFunded)
      (terms : (after.invoice.amount = file.invoice.amount ∧
        after.invoice.discountRate = file.invoice.discountRate) ∨
        file.invoice.status = .pending)
      (funders : after.funders = file.funders ∨ file.invoice.status = .funded) :
      FundingView contract id call file after moves

theorem Change.fundingView {env : Env contract} {world : World} {id : Nat} {call : Call}
    (change : Change env world id call file after moves) :
    FundingView contract id call file after moves := by
  cases change with
  | edited _ _ _ _ _ edits pending =>
    refine .keeps ?_ rfl (.inr pending) (.inl rfl)
    cases call <;> first | rfl | cases edits
  | contributed funder amount verify fundable _ short foreign =>
    exact .contributes funder amount verify rfl fundable short.le rfl rfl rfl rfl
      (by simp [taken, Movement.taken, foreign])
  | completed funder amount verify fundable _ whole foreign =>
    refine .contributes funder amount verify rfl fundable whole.le rfl whole.symm rfl rfl ?_
    have nothing := taken_strictPayment contract file.invoice.token file.invoice.freelancer
      (discounted file.invoice.amount file.invoice.discountRate)
    simp only [taken, List.map_cons, List.sum_cons, Movement.taken] at nothing ⊢
    simp [nothing, foreign]
  | renamed _ _ funded => exact .keeps rfl rfl (.inl ⟨rfl, rfl⟩) (.inr funded)
  | restored restores =>
    refine .keeps ?_ rfl (.inl ⟨rfl, rfl⟩) (.inl rfl)
    cases call <;> first | rfl | cases restores
  | _ => exact .keeps rfl rfl (.inl ⟨rfl, rfl⟩) (.inl rfl)

def heldBy (who : Address → Bool) (rate : Int) (funders : List (Address × Int)) : Int :=
  (funders.map fun entry => if who entry.1 = true then netOf rate 10000 entry.2 else 0).sum

theorem heldBy_zero (rate : Int)
    (zero : ∀ entry ∈ funders, entry.2 = 0) : heldBy who rate funders = 0 := by
  apply List.sum_eq_zero
  intro amount member
  obtain ⟨entry, listed, rfl⟩ := List.mem_map.mp member
  simp [zero entry listed]

theorem heldBy_addContribution (who : Address → Bool) (rate : Int) (nonneg : AllNonneg funders)
    (added : 0 ≤ amount) (fits : Fits i128 (contributed funders + amount)) (funder : Address) :
    let own := if who funder = true then netOf rate 10000 amount else 0
    let unit := if who funder = true then 1 else 0
    heldBy who rate (addContribution funder amount funders) ≤ heldBy who rate funders + own ∧
      heldBy who rate funders + own ≤ heldBy who rate (addContribution funder amount funders) +
        unit := by
  intro own unit
  rcases addContribution_exact nonneg added fits funder with
    ⟨before, recorded, after, rfl, _, raised⟩ | ⟨_, appended⟩
  · have upper := netOf_add_le rate (by decide : (0 : Int) < 10000) recorded amount
    have lower := le_netOf_add rate (by decide : (0 : Int) < 10000) recorded amount
    rw [raised]
    simp only [heldBy, List.map_append, List.map_cons, List.sum_append, List.sum_cons, own, unit]
    split <;> omega
  · rw [appended]
    simp only [heldBy, List.map_append, List.map_cons, List.map_nil, List.sum_append, List.sum_cons,
      List.sum_nil, own, unit]
    split <;> omega

def spending (contract : Address) (id : Nat) (who : Address → Bool) (call : Call)
    (moves : List Movement) : Int × Int :=
  if (fundingOf id call).any who = true then (taken contract moves, 1) else 0

/-- The invoice's product of amount and rate fits, or nothing has been contributed yet. -/
def File.Exact (file : File) : Prop :=
  Fits i128 (file.invoice.amount * file.invoice.discountRate) ∨ file.invoice.amountFunded = 0

structure SpentOn (spent : Int × Int) (file : File) : Prop where
  enough : netOf file.invoice.discountRate 10000 file.invoice.amountFunded ≤ spent.1
  close : spent.1 < netOf file.invoice.discountRate 10000 file.invoice.amountFunded + spent.2 ∨
    (spent = 0 ∧ file.invoice.amountFunded = 0)

structure OwedTo (who : Address → Bool) (spent : Int × Int) (file : File) : Prop where
  covered : heldBy who file.invoice.discountRate file.funders ≤ spent.1
  close : spent.1 - spent.2 ≤ heldBy who file.invoice.discountRate file.funders

section Contribution

variable {id : Nat} {call : Call}

theorem contribution_cost (sound : RecordSound file) (added : 0 ≤ amount)
    (room : file.invoice.amountFunded + amount ≤ file.invoice.amount)
    (exact_ : Fits i128 (file.invoice.amount * file.invoice.discountRate) ∨
      file.invoice.amountFunded + amount = 0) :
    discounted amount file.invoice.discountRate = netOf file.invoice.discountRate 10000 amount := by
  have low := sound.fundedNonneg
  have typed : Fits i128 amount := fits_of_nonneg_le sound.amountFits added (by omega)
  refine discounted_eq_netOf added typed ?_
  rcases exact_ with fits | nothing
  · exact product_fits_of_le added (by omega) fits
  · have zero : amount = 0 := by omega
    rw [zero, zero_mul]
    exact fits_zero

variable (view : FundingView contract id call file after moves)
include view

theorem SpentOn.kept (sound : RecordSound file) (added : call.Adds id (0 ≤ ·))
    (before : file.Exact → SpentOn spent file) (now : after.Exact) :
    SpentOn (spent + spending contract id (fun _ => true) call moves) after := by
  cases view with
  | contributes funder amount verify called fundable room funders funded amounts rates cost =>
    have nonneg := added funder amount verify called
    have low := sound.fundedNonneg
    rw [File.Exact, amounts, rates, funded] at now
    have paid := contribution_cost sound nonneg room now
    have earlier := before (now.imp_right fun nothing => by omega)
    have gained : spending contract id (fun _ => true) call moves =
        (netOf file.invoice.discountRate 10000 amount, 1) := by
      simp [spending, called, fundingOf, cost, paid]
    have upper := netOf_add_le (file.invoice.discountRate : Int) (by decide : (0 : Int) < 10000)
      file.invoice.amountFunded amount
    have lower := le_netOf_add (file.invoice.discountRate : Int) (by decide : (0 : Int) < 10000)
      file.invoice.amountFunded amount
    rw [gained]
    constructor
    · rw [funded, rates]
      have enough := earlier.enough
      simp only [Prod.fst_add]
      omega
    · rw [funded, rates]
      refine .inl ?_
      simp only [Prod.fst_add, Prod.snd_add]
      rcases earlier.close with close | ⟨rfl, nothing⟩
      · omega
      · rw [nothing]
        simp
  | keeps other funded terms =>
    have idle : spending contract id (fun _ => true) call moves = 0 := by simp [spending, other]
    rw [idle, add_zero]
    rcases terms with ⟨amounts, rates⟩ | pending
    · have earlier := before (by rwa [File.Exact, amounts, rates, funded] at now)
      exact ⟨by
        rw [funded, rates]; exact earlier.enough, by rw [funded, rates]; exact earlier.close⟩
    · have nothing := sound.pending pending
      have earlier := before (.inr nothing)
      have enough := earlier.enough
      have close := earlier.close
      rw [nothing, netOf_zero] at enough close
      exact ⟨by
        rw [funded, nothing, netOf_zero]; exact enough, by
          rw [funded, nothing, netOf_zero]; exact close⟩

theorem OwedTo.follows (sound : RecordSound file) (added : call.Adds id (0 ≤ ·))
    (unchanged : fundingOf id call = none → after.funders = file.funders)
    (before : file.Exact → OwedTo who spent file) (now : after.Exact) :
    OwedTo who (spent + spending contract id who call moves) after := by
  cases view with
  | contributes funder amount verify called fundable room funders funded amounts rates cost =>
    have nonneg := added funder amount verify called
    have low := sound.fundedNonneg
    rw [File.Exact, amounts, rates, funded] at now
    have paid := contribution_cost sound nonneg room now
    have earlier := before (now.imp_right fun nothing => by omega)
    have gained : spending contract id who call moves =
        if who funder = true then (netOf file.invoice.discountRate 10000 amount, 1) else 0 := by
      simp [spending, called, fundingOf, cost, paid]
    obtain ⟨upper, lower⟩ := heldBy_addContribution who file.invoice.discountRate
      sound.nonneg nonneg (sound.fits_raised nonneg room) funder
    have covered := earlier.covered
    have close := earlier.close
    rw [gained]
    constructor
    · rw [funders, rates, Prod.fst_add]
      split_ifs at upper ⊢ <;> simp <;> omega
    · rw [funders, rates, Prod.fst_add, Prod.snd_add]
      split_ifs at lower ⊢ <;> simp <;> omega
  | keeps other funded terms =>
    have idle : spending contract id who call moves = 0 := by simp [spending, other]
    have same := unchanged other
    rw [idle, add_zero]
    rcases terms with ⟨amounts, rates⟩ | pending
    · have earlier := before (by rwa [File.Exact, amounts, rates, funded] at now)
      exact ⟨by rw [same, rates]; exact earlier.covered, by rw [same, rates]; exact earlier.close⟩
    -- the terms of a pending invoice may change, but nothing is held for it
    · have nothing := sound.pending pending
      have zero := sound.contributions_zero nothing
      have earlier := before (.inr nothing)
      have covered := earlier.covered
      have close := earlier.close
      rw [heldBy_zero _ zero] at covered close
      exact ⟨by
        rw [same, heldBy_zero _ zero]; exact covered, by rw [same, heldBy_zero _ zero]; exact close⟩

theorem FundingView.short (sound : RecordSound file) (added : call.Adds id (0 ≤ ·))
    (short : after.invoice.amountFunded < after.invoice.amount) :
    file.invoice.amountFunded < file.invoice.amount ∧
      (fundingOf id call = none → after.funders = file.funders) := by
  cases view with
  | contributes funder amount verify called =>
    have nonneg := added funder amount verify called
    refine ⟨by omega, fun other => ?_⟩
    rw [called, fundingOf, if_pos rfl] at other
    cases other
  | keeps _ funded terms funders =>
    have earlier : file.invoice.amountFunded < file.invoice.amount := by
      rcases terms with ⟨amounts, _⟩ | pending
      · omega
      · exact sound.short_of_fundable (.inl pending)
    refine ⟨earlier, fun _ => ?_⟩
    rcases funders with same | complete
    · exact same
    · exact absurd (sound.funded complete) earlier.ne

theorem OwedTo.kept (sound : RecordSound file) (added : call.Adds id (0 ≤ ·))
    (before : file.invoice.amountFunded < file.invoice.amount → file.Exact → OwedTo who spent file)
    (short : after.invoice.amountFunded < after.invoice.amount) (now : after.Exact) :
    OwedTo who (spent + spending contract id who call moves) after := by
  obtain ⟨earlier, unchanged⟩ := view.short sound added short
  exact OwedTo.follows view sound added unchanged (before earlier) now

end Contribution

section Runs

variable {id : Nat} {actions : List (Action contract)} (clock : Clock) (balance : Balances)
  (law : ∀ action ∈ actions, action.RefusesNegative)
  (bounded : Throughout step (DiscountBounded id) (genesis clock balance) actions)
  (stored : (reach clock balance actions).book.file id = some file)
include law bounded stored

/-- Every run under the token law and the bounded discount keeps the record sound together with any
relation between spending and file that changes keep. -/
theorem spending_induct (holds : Int × Int → File → Prop)
    (fresh : ∀ file, file.Fresh → holds 0 file)
    (keeps : ∀ call file after moves spent, FundingView contract id call file after moves →
      RecordSound file → call.Adds id (0 ≤ ·) → holds spent file →
      holds (spent + spending contract id who call moves) after) :
    holds (tally step (perCall id (spending contract id who)) (genesis clock balance) actions)
      file := by
  have both : RecordSound file ∧
      holds (tally step (perCall id (spending contract id who)) (genesis clock balance) actions)
      file := by
    refine perCall_induct (fun spent file => RecordSound file ∧ holds spent file)
      (fun file isFresh => ⟨isFresh.recordSound, fresh file isFresh⟩) ?_
      (genesis_filed clock balance) rfl ((Along.of_forall law).and bounded.along) stored
    rintro env world call before after moves spent ⟨refuses, half⟩ _ found change ⟨sound, held⟩
    have added : call.Adds id (0 ≤ ·) := by
      rintro funder amount verify rfl
      exact change.funding_nonneg refuses (half.file found)
    exact ⟨change.recordSound sound added, keeps call before after moves spent change.fundingView
      sound added held⟩
  exact both.2

theorem exec_spentOn (exactly : file.Exact) :
    SpentOn (tally step (perCall id (spending contract id fun _ => true))
      (genesis clock balance) actions) file := by
  refine spending_induct clock balance law bounded stored
    (fun spent file => file.Exact → SpentOn spent file) ?_ ?_ exactly
  · rintro file ⟨_, _, _, rfl, _⟩ _
    exact ⟨by simp [newInvoice], .inr ⟨rfl, rfl⟩⟩
  · intro call file after moves spent view sound added held now
    exact SpentOn.kept view sound added held now

theorem exec_owedTo (who : Address → Bool)
    (short : file.invoice.amountFunded < file.invoice.amount) (exactly : file.Exact) :
    OwedTo who (tally step (perCall id (spending contract id who)) (genesis clock balance) actions)
      file := by
  refine spending_induct clock balance law bounded stored (fun spent file =>
    file.invoice.amountFunded < file.invoice.amount → file.Exact → OwedTo who spent file) ?_ ?_
    short exactly
  · rintro file ⟨_, _, _, rfl, _⟩ _ _
    exact ⟨by simp [heldBy], by simp [heldBy]⟩
  · intro call file after moves spent view sound added held
    exact OwedTo.kept view sound added held

end Runs

section Outcomes

variable {env : Env contract} {world : World} {id : Nat}

theorem refund_exact (sound : RecordSound file) (exactly : file.Exact) {entry : Address × Int}
    (listed : entry ∈ file.funders) :
    discounted entry.2 file.invoice.discountRate = netOf file.invoice.discountRate 10000
      entry.2 := by
  have low := sound.nonneg entry listed
  have high : entry.2 ≤ file.invoice.amount :=
    (le_contributed sound.nonneg listed).trans (sound.total.le.trans sound.fundedLe)
  refine discounted_eq_netOf low (fits_of_nonneg_le sound.amountFits low high) ?_
  rcases exactly with fits | nothing
  · exact product_fits_of_le low high fits
  · rw [sound.contributions_zero nothing entry listed, zero_mul]
    exact fits_zero

theorem paidTo_refunds (env : Env contract) (sound : RecordSound file)
    (half : file.invoice.discountRate ≤ 5000) (exactly : file.Exact) (recipient : Address) :
    paidTo contract recipient (file.refunds env) =
      heldBy (fun address => decide (address = recipient)) file.invoice.discountRate
        file.funders := by
  rw [File.refunds, paidTo_payments, heldBy]
  refine congrArg List.sum (List.map_congr_left ?_)
  intro entry listed
  have nonneg : 0 ≤ netOf file.invoice.discountRate 10000 entry.2 :=
    netOf_nonneg (by decide) (by omega) (sound.nonneg entry listed)
  simp only [refund_exact sound exactly listed, max_eq_right nonneg, decide_eq_true_eq]

def Completes (id : Nat) (world : World) (action : Action contract) : Prop :=
  (∃ env funder amount verify, action = .invoke env (.fundInvoice funder id amount verify)) ∧
    world.statusOf id ≠ some .funded ∧ (step world action).statusOf id = some .funded

def CancelsShort (id : Nat) (world : World) (action : Action contract) : Prop :=
  world.statusOf id ≠ some .cancelled ∧ (step world action).statusOf id = some .cancelled ∧
    ∀ invoice ∈ world.book.invoices id, invoice.amountFunded < invoice.amount

theorem Change.completes {funder : Address} {verify : Bool}
    (change : Change env world id (.fundInvoice funder id amount verify) file after moves)
    (now : after.invoice.status = .funded) :
    after.invoice.amountFunded = after.invoice.amount ∧
      paidTo contract after.invoice.freelancer moves =
        max 0 (discounted after.invoice.amount after.invoice.discountRate) := by
  cases change with
  | edited _ _ _ _ _ edits => cases edits
  | restored restores => cases restores
  | contributed => cases now
  | completed _ _ _ _ _ _ foreign =>
    refine ⟨rfl, ?_⟩
    simp only [paidTo, List.map_cons, List.sum_cons, Movement.paidTo, foreign, false_and,
      if_false, zero_add, strictPayment]
    split
    · rename_i nothing
      simp [max_eq_left nothing]
    · rename_i positive
      simp [Movement.paidTo, max_eq_right (not_le.mp positive).le]

theorem Change.cancelsShort {call : Call}
    (change : Change env world id call file after moves) (sound : RecordSound file)
    (now : after.invoice.status = .cancelled) (other : file.invoice.status ≠ .cancelled)
    (short : file.invoice.amountFunded < file.invoice.amount) :
    after.invoice = { file.invoice with status := .cancelled } ∧ after.funders = file.funders ∧
      ∀ recipient, paidTo contract recipient moves = paidTo contract recipient
        (if file.invoice.status = .pending then [] else file.refunds env) := by
  cases change with
  | edited | renamed | instalment => exact absurd now other
  | cancelled fundable =>
    refine ⟨rfl, rfl, fun recipient => ?_⟩
    rcases fundable with pending | partly
    · simp [pending]
    · simp [partly]
  | upheld disputed =>
    refine ⟨rfl, rfl, fun recipient => ?_⟩
    have unpaid := (sound.incomplete short).2
    simp [paidTo_append, paidTo_payment, unpaid, disputed]
  | restored => exact absurd now (restoredStatus_ne (by decide))
  | _ => cases now

theorem step_changed {action : Action contract} (filed : Filed world.book) {status : InvoiceStatus}
    (moved : status ≠ .pending) (before : world.statusOf id ≠ some status)
    (now : (step world action).statusOf id = some status) :
    ∃ env call file after, action = .invoke env call ∧ world.book.file id = some file ∧
      (step world action).book.file id = some after ∧ file.invoice.status ≠ status ∧
      after.invoice.status = status ∧
      Change env world id call file after (movedFor id world action) := by
  rw [statusOf_eq_file] at before now
  cases step_touch action filed id with
  | same unchanged =>
    rw [unchanged] at now
    exact absurd now before
  | fresh file _ made isFresh =>
    obtain ⟨_, _, _, rfl, _⟩ := isFresh
    rw [made] at now
    exact absurd (Option.some.inj now).symm moved
  | changed env call file after invoked _ _ stored made change =>
    rw [made] at now
    rw [stored] at before
    exact ⟨env, call, file, after, invoked, stored, made, fun same => before (congrArg some same),
      Option.some.inj now, change⟩

end Outcomes

section Conservation

variable {id : Nat} {actions : List (Action contract)} {last : Action contract} {file : File}
  (clock : Clock) (balance : Balances) (law : ∀ action ∈ actions ++ [last], action.RefusesNegative)
  (bounded : Throughout step (DiscountBounded id) (genesis clock balance) (actions ++ [last]))
  (stored : (reach clock balance (actions ++ [last])).book.file id = some file)
  (fits : Fits i128 (file.invoice.amount * file.invoice.discountRate))
include law bounded stored fits

theorem completion_conserved (completes : Completes id (reach clock balance actions) last) :
    let spent := tally step (perCall id (spending contract id fun _ => true))
      (genesis clock balance) (actions ++ [last])
    let payout := netOf file.invoice.discountRate 10000 file.invoice.amount
    paidTo contract file.invoice.freelancer
      (movedFor id (reach clock balance actions) last) = payout ∧
      payout ≤ spent.1 ∧ spent.1 < payout + spent.2 := by
  intro spent payout
  obtain ⟨⟨env, funder, amount, verify, rfl⟩, other, now⟩ := completes
  have filed := reach_filed clock balance actions
  obtain ⟨_, _, before, after, invoked, _, made, _, status, change⟩ :=
    step_changed filed (by decide) other now
  cases invoked
  have same : some file = some after := by rw [← stored, reach, exec_snoc, made]
  cases same
  have sound := exec_fileSound clock balance id law bounded file stored
  have positive := sound.amountPos
  have typed := discounted_eq_netOf (by omega) sound.amountFits fits
  have nonneg : 0 ≤ payout :=
    netOf_nonneg (by decide) (by have half := bounded.last.file stored; omega) (by omega)
  have total := exec_spentOn clock balance law bounded stored (.inl fits)
  obtain ⟨whole, paid⟩ := change.completes status
  have enough := total.enough
  rw [whole] at enough
  refine ⟨by rw [paid, typed, max_eq_right nonneg], enough, ?_⟩
  rcases total.close with close | ⟨_, nothing⟩
  · rwa [whole] at close
  · omega

theorem cancellation_conserved
    (cancels : CancelsShort id (reach clock balance actions) last) (funder : Address) :
    let spent :=
      tally step (perCall id (spending contract id fun address => decide (address = funder)))
      (genesis clock balance) (actions ++ [last])
    let refund := paidTo contract funder (movedFor id (reach clock balance actions) last)
    refund ≤ spent.1 ∧ spent.1 - spent.2 ≤ refund := by
  intro spent refund
  obtain ⟨other, now, short⟩ := cancels
  have filed := reach_filed clock balance actions
  obtain ⟨_, _, before, after, _, found, made, open_, status, change⟩ :=
    step_changed filed (by decide) other now
  have same : some file = some after := by rw [← stored, reach, exec_snoc, made]
  cases same
  have earlier : RecordSound before := by
    refine exec_fileSound clock balance id ?_ bounded.append before found
    intro action member
    exact law action (List.mem_append_left _ member)
  have half := bounded.append.last.file found
  have shortBefore : before.invoice.amountFunded < before.invoice.amount := by
    obtain ⟨invoice, kept, rfl⟩ := Option.map_eq_some_iff.mp found
    exact short invoice kept
  obtain ⟨invoice, funders, paid⟩ := change.cancelsShort earlier status open_ shortBefore
  have owed := exec_owedTo clock balance law bounded stored
    (fun address => decide (address = funder)) (by rw [invoice]; exact shortBefore) (.inl fits)
  have covered := owed.covered
  have close := owed.close
  have refunded : refund = heldBy (fun address => decide (address = funder))
      file.invoice.discountRate file.funders := by
    rw [invoice, funders]
    refine (paid funder).trans ?_
    split
    · rename_i pending
      rw [heldBy_zero _ (earlier.contributions_zero (earlier.pending pending))]
      rfl
    · refine paidTo_refunds _ earlier half (.inl ?_) funder
      rwa [invoice] at fits
  rw [refunded]
  exact ⟨covered, close⟩

end Conservation

/-- What providers are charged covers the freelancer's payout and exceeds it by less than the number
of calls; a refund before completion returns what its funder was charged up to one unit per call. -/
theorem funding_conserved (clock : Clock) (balance : Balances) (actions : List (Action contract))
    (last : Action contract) (id : Nat) (invoice : Invoice)
    (law : ∀ action ∈ actions ++ [last], action.RefusesNegative)
    (bounded : Throughout step (DiscountBounded id) (genesis clock balance) (actions ++ [last]))
    (stored : (reach clock balance (actions ++ [last])).book.invoices id = some invoice)
    (fits : Fits i128 (invoice.amount * invoice.discountRate)) :
    let before := reach clock balance actions
    let spent := fun who : Address → Bool =>
      tally step (perCall id (spending contract id who)) (genesis clock balance) (actions ++ [last])
    let payout := invoice.amount - invoice.amount * invoice.discountRate / 10000
    (Completes id before last →
      paidTo contract invoice.freelancer (movedFor id before last) = payout ∧
      payout ≤ (spent fun _ => true).1 ∧
      (spent fun _ => true).1 < payout + (spent fun _ => true).2) ∧
    (CancelsShort id before last → ∀ funder, paidTo contract funder (movedFor id before last) ≤
        (spent fun address => decide (address = funder)).1 ∧
      (spent fun address => decide (address = funder)).1 -
          (spent fun address => decide (address = funder)).2 ≤
        paidTo contract funder (movedFor id before last)) :=
  ⟨completion_conserved clock balance law bounded (file_of_invoice stored) fits,
    cancellation_conserved clock balance law bounded (file_of_invoice stored) fits⟩

def unevenParts : List (Action ⟨0⟩) :=
  openingCalls 1000000 333 ++
    [signedBy [3] (.fundInvoice ⟨3⟩ 1 333333 false), signedBy [4] (.fundInvoice ⟨4⟩ 1 333333 false)]

def lastPart : Action ⟨0⟩ := signedBy [3] (.fundInvoice ⟨3⟩ 1 333334 false)

def unevenInvoice : Invoice :=
  { newInvoice 1 (bill 1000000 333) 50 with
    status := .funded, funder := some ⟨3⟩, fundedAt := some 1000, amountFunded := 1000000 }

theorem funding_conserved_of_unevenParts :
    let spent := tally step (perCall 1 (spending ⟨0⟩ 1 fun _ => true)) market
      (unevenParts ++ [lastPart])
    spent = (966702, 3) ∧ (1000000 : Int) - 1000000 * 333 / 10000 ≤ spent.1 := by
  have law : ∀ action ∈ unevenParts ++ [lastPart], action.RefusesNegative := by
    simp [unevenParts, lastPart, openingCalls]
  have bounded : Throughout step (DiscountBounded 1) market (unevenParts ++ [lastPart]) := by
    decide +kernel
  have stored : (traded (unevenParts ++ [lastPart])).book.invoices 1 = some unevenInvoice := by
    decide +kernel
  have conserved := funding_conserved ⟨1000, 10⟩ marketBalances unevenParts lastPart 1 unevenInvoice
    law bounded stored (by decide)
  have completes : Completes 1 (traded unevenParts) lastPart :=
    ⟨⟨_, _, _, _, rfl⟩, by decide +kernel, by decide +kernel⟩
  exact ⟨by decide +kernel, (conserved.1 completes).2.1⟩

end InvoiceLiquidity
