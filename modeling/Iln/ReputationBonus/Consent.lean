import Iln.ReputationBonus.Counters

/-! What a call can do to an address that has not signed it. `submit_invoice` asks only the
freelancer and `handle_default` asks nobody and does not look at the due date, so a stranger can
dilute the score of the payer it names and can default an invoice early. -/
namespace ReputationBonus

open Outcome FixedWidth Transition Function
open InvoiceLiquidity (Address)

variable {invoice : Invoice} {id : Nat} {status : InvoiceStatus}
  {count : ReputationScore → ReputationScore}

/-- The score of the address has fallen, or an invoice of theirs was moved to Defaulted before it
was due. -/
def Damaged (address : Address) (before after : World) : Prop :=
  (readReputation after address).score < (readReputation before address).score ∨
    ∃ id invoice closed, before.invoices id = some invoice ∧ after.invoices id = some closed ∧
      (invoice.freelancer = address ∨ invoice.payer = address) ∧
      invoice.status ≠ .defaulted ∧ closed.status = .defaulted ∧ before.timestamp < invoice.dueDate

def Intrudes (address : Address) (world : World) : Action → Prop
  | .invoke signed (.submitInvoice freelancer payer amount dueDate rate) =>
    (∃ next, invoke signed world (.submitInvoice freelancer payer amount dueDate rate) = .ok next) ∧
      payer = address ∧ (readReputation world address).invoicesSubmitted < u32Max ∧
      (readReputation world address).invoicesPaid * 100 /
          ((readReputation world address).invoicesSubmitted + 1) <
        (readReputation world address).score
  | .invoke signed (.handleDefault id) =>
    (∃ next, invoke signed world (.handleDefault id) = .ok next) ∧ ∃ invoice ∈ world.invoices id,
      (invoice.freelancer = address ∨ invoice.payer = address) ∧ world.timestamp < invoice.dueDate
  | _ => False

section Steps

variable {signed : Address → Bool} {world next : World} {address : Address}

theorem not_damaged_of_same (scores : next.reputation = world.reputation)
    (invoices : next.invoices = world.invoices) : ¬ Damaged address world next := by
  rintro (fallen | ⟨id, invoice, closed, stored, now, _, unclosed, defaulted, _⟩)
  · rw [readReputation, readReputation, scores] at fallen
    exact absurd fallen (lt_irrefl _)
  · rw [invoices] at now
    cases now.symm.trans stored
    exact unclosed defaulted

theorem addInvoice_score (counters : Counters world) (pending : invoice.status = .pending)
    (foreign : invoice.freelancer ≠ address) :
    (readReputation (addInvoice world invoice) address).score =
      if invoice.payer = address ∧ (readReputation world address).invoicesSubmitted < u32Max then
        (readReputation world address).invoicesPaid * 100 /
          ((readReputation world address).invoicesSubmitted + 1)
      else (readReputation world address).score := by
  have counted := readReputation_addInvoice invoice (counters.settled address)
  by_cases payer : invoice.payer = address
  · have once : invoice.roles address = 1 := by simp [Invoice.roles, foreign, payer]
    have score := (counters.submitted pending).score address
    rw [counted, once] at score
    have raised : (readReputation (addInvoice world invoice) address).score =
        (readReputation world address).invoicesPaid * 100 /
          max (addCapped u32Max (readReputation world address).invoicesSubmitted 1) 1 := by
      rw [counted, once]
      exact score
    rw [raised]
    have bounded : (readReputation world address).invoicesSubmitted ≤ u32Max :=
      (counters.tallies .submitted address).le.trans (min_le_left _ _)
    split
    · rename_i room
      have more : max (addCapped u32Max (readReputation world address).invoicesSubmitted 1) 1 =
          (readReputation world address).invoicesSubmitted + 1 := by
        unfold addCapped
        omega
      rw [more]
    · rename_i full
      have same : addCapped u32Max (readReputation world address).invoicesSubmitted 1 =
          (readReputation world address).invoicesSubmitted := by
        have top : ¬ (readReputation world address).invoicesSubmitted < u32Max :=
          fun room => full ⟨payer, room⟩
        unfold addCapped
        omega
      rw [same, counters.score]
  · have never : invoice.roles address = 0 := by simp [Invoice.roles, foreign, payer]
    rw [counted, never, if_neg fun both => payer both.1]
    exact congrArg ReputationScore.score (counters.settled address)

theorem addInvoice_damaged_iff (counters : Counters world) (pending : invoice.status = .pending)
    (foreign : invoice.freelancer ≠ address) :
    Damaged address world (addInvoice world invoice) ↔ invoice.payer = address ∧
      (readReputation world address).invoicesSubmitted < u32Max ∧
      (readReputation world address).invoicesPaid * 100 /
          ((readReputation world address).invoicesSubmitted + 1) <
        (readReputation world address).score := by
  have score := addInvoice_score counters pending foreign
  constructor
  · rintro (fallen | ⟨id, before, closed, stored, now, _, unclosed, defaulted, _⟩)
    · rw [score] at fallen
      split at fallen
      · rename_i named
        exact ⟨named.1, named.2, fallen⟩
      · exact absurd fallen (lt_irrefl _)
    -- the new invoice has a number of its own, and the others are as they were
    · have used := counters.used stored
      have same : (addInvoice world invoice).invoices id = world.invoices id :=
        update_of_ne (by omega) _ _
      cases (now.symm.trans same).trans stored
      exact absurd defaulted unclosed
  · rintro ⟨payer, room, lower⟩
    left
    rw [score, if_pos ⟨payer, room⟩]
    exact lower

theorem closeInvoice_score (counter : Counter) (closing : Counter.submitted ≠ counter)
    (counters : Counters world)
    (later : Counters (closeInvoice world id invoice status counter.count)) (address : Address) :
    (readReputation world address).score ≤
      (readReputation (closeInvoice world id invoice status counter.count) address).score := by
  have bounded : ∀ other : Counter, other.read (readReputation world address) ≤ u32Max :=
    fun other => (counters.tallies other address).le.trans (min_le_left _ _)
  have counted : ∀ other : Counter,
      other.read (readReputation (closeInvoice world id invoice status counter.count) address) =
        other.read (counter.count^[invoice.roles address] (readReputation world address)) := by
    intro other
    rw [readReputation_closeInvoice id invoice status counter (counters.settled address),
      Counter.read_recalculateScore]
  have submitted := counted .submitted
  rw [Counter.read_iterate (bounded counter), if_neg closing] at submitted
  have paid : Counter.read .paid (readReputation world address) ≤
      Counter.read .paid
        (readReputation (closeInvoice world id invoice status counter.count) address) := by
    rw [counted, Counter.read_iterate (bounded counter)]
    have low := bounded .paid
    split
    · rename_i same
      rw [← same]
      omega
    · exact le_rfl
  rw [counters.score, later.score]
  show _ ≤ Counter.read .paid _ * 100 / max (Counter.read .submitted _) 1
  rw [submitted]
  exact Nat.div_le_div_right (Nat.mul_le_mul_right 100 paid)

theorem closeInvoice_elsewhere {id other : Nat} {invoice before closed : Invoice}
    (apart : other ≠ id) (stored : world.invoices other = some before)
    (now : (closeInvoice world id invoice status count).invoices other = some closed) :
    closed = before := by
  have same : (closeInvoice world id invoice status count).invoices other = world.invoices other :=
    update_of_ne apart _ _
  exact Option.some.inj ((now.symm.trans same).trans stored)

theorem closeInvoice_here {invoice closed : Invoice}
    (now : (closeInvoice world id invoice status count).invoices id = some closed) :
    closed = { invoice with status } := by
  have written : (closeInvoice world id invoice status count).invoices id =
    some { invoice with status } := update_self ..
  exact Option.some.inj (now.symm.trans written)

theorem paid_undamaged (counters : Counters world)
    (later : Counters (closeInvoice world id invoice .paid countPaid)) :
    ¬ Damaged address world (closeInvoice world id invoice .paid countPaid) := by
  rintro (fallen | ⟨other, before, closed, stored, now, _, unclosed, defaulted, _⟩)
  · have kept := closeInvoice_score .paid (by decide) counters later address
    exact absurd fallen (not_lt.mpr kept)
  · by_cases here : other = id
    · subst here
      rw [closeInvoice_here now] at defaulted
      cases defaulted
    · rw [closeInvoice_elsewhere here stored now] at defaulted
      exact unclosed defaulted

theorem defaulted_damaged_iff (counters : Counters world)
    (later : Counters (closeInvoice world id invoice .defaulted countDefaulted))
    (stored : world.invoices id = some invoice)
    (unclosed : invoice.status = .pending ∨ invoice.status = .funded) :
    Damaged address world (closeInvoice world id invoice .defaulted countDefaulted) ↔
      (invoice.freelancer = address ∨ invoice.payer = address) ∧
      world.timestamp < invoice.dueDate := by
  constructor
  · rintro (fallen | ⟨other, before, closed, found, now, party, open_, defaulted, early⟩)
    · have kept := closeInvoice_score .defaulted (by decide) counters later address
      exact absurd fallen (not_lt.mpr kept)
    · by_cases here : other = id
      · subst here
        cases stored.symm.trans found
        exact ⟨party, early⟩
      · rw [closeInvoice_elsewhere here found now] at defaulted
        exact absurd defaulted open_
  · rintro ⟨party, early⟩
    have open_ : invoice.status ≠ .defaulted := by
      rcases unclosed with pending | funded
      · rw [pending]
        decide
      · rw [funded]
        decide
    exact .inr ⟨id, invoice, _, stored, update_self .., party, open_, rfl, early⟩

theorem invoke_damaged_iff {call : Call} (counters : Counters world)
    (unauthorised : signed address = false) (ran : invoke signed world call = .ok next) :
    Damaged address world next ↔ Intrudes address world (.invoke signed call) := by
  have later := (invoke_records ran).counters counters
  cases invoke_records ran with
  | administrative records scores admin =>
    refine ⟨fun damaged => absurd damaged (not_damaged_of_same scores records.1),
      fun intrudes => ?_⟩
    rcases admin with ⟨_, rfl⟩ | ⟨_, rfl⟩ | ⟨_, _, rfl⟩
    · exact intrudes.elim
    · exact intrudes.elim
    · exact intrudes.elim
  | submitted freelancer payer amount dueDate rate invoice authorised parties pending result =>
    obtain ⟨rfl, rfl⟩ := parties
    have foreign : invoice.freelancer ≠ address := by
      rintro rfl
      cases authorised.symm.trans unauthorised
    rw [result, addInvoice_damaged_iff counters pending foreign]
    exact ⟨fun lowered => ⟨⟨next, ran⟩, lowered⟩, fun intrudes => intrudes.2⟩
  | paid id invoice _ _ _ result =>
    subst result
    exact ⟨fun damaged => absurd damaged (paid_undamaged counters later),
      fun intrudes => intrudes.elim⟩
  | defaulted id invoice stored unclosed result =>
    subst result
    rw [defaulted_damaged_iff counters later stored unclosed]
    constructor
    · exact fun early => ⟨⟨_, ran⟩, invoice, stored, early⟩
    · rintro ⟨_, found, loaded, early⟩
      cases stored.symm.trans loaded
      exact early

end Steps

/-- In every run, a call that an address has not signed damages it exactly when it is a submission
that names the address as payer and lowers its percentage, or a default of one of its invoices
before the due date. -/
theorem stranger_damages_iff (timestamp : Nat) (actions : List Action) (last : Action)
    (address : Address) (unauthorised : last.authorisedBy address = false) :
    Damaged address (exec step (genesis timestamp) actions)
    (step (exec step (genesis timestamp) actions) last) ↔
      Intrudes address (exec step (genesis timestamp) actions) last := by
  have counters := exec_counters timestamp actions
  generalize exec step (genesis timestamp) actions = world at counters
  cases last with
  | advance => exact ⟨fun damaged => absurd damaged (not_damaged_of_same rfl rfl),
      fun intrudes => intrudes.elim⟩
  | invoke signed call =>
    cases ran : invoke signed world call with
    | ok next =>
      have reached : step world (.invoke signed call) = next := by simp only [step, ran]
      rw [reached]
      exact invoke_damaged_iff counters unauthorised ran
    | error =>
      have reached : step world (.invoke signed call) = world := by simp only [step, ran]
      rw [reached]
      refine ⟨fun damaged => absurd damaged (not_damaged_of_same rfl rfl), fun intrudes => ?_⟩
      cases call with
      | submitInvoice | handleDefault =>
        obtain ⟨⟨next, done⟩, _⟩ := intrudes
        cases ran.symm.trans done
      | _ => exact intrudes.elim

def bonusOverdue : List Action := bonusOpening ++ [.advance 500]

/-- From the due date on, whoever defaults the invoice damages nobody. -/
theorem late_default_undamaged : ¬ Damaged ⟨3⟩ (exec step (genesis 0) bonusOverdue)
      (step (exec step (genesis 0) bonusOverdue) (signedBy [9] (.handleDefault 1))) := by
  intro damaged
  obtain ⟨_, invoice, stored, _, early⟩ :=
    (stranger_damages_iff 0 bonusOverdue (signedBy [9] (.handleDefault 1)) ⟨3⟩ rfl).mp damaged
  have due : ∀ invoice ∈ (exec step (genesis 0) bonusOverdue).invoices 1,
      invoice.dueDate ≤ (exec step (genesis 0) bonusOverdue).timestamp := by decide +kernel
  exact absurd early (not_lt.mpr (due invoice stored))

/-- Payer 3 has paid its only invoice. Account 9 submits one that names them as payer, and their
score of 100 is halved. Account 9 also defaults an open invoice of theirs 500 seconds before it is
due. -/
theorem strangers_damage :
    let settled := exec step (genesis 0) (bonusOpening ++ [signedBy [3] (.markPaid 1)])
    let diluting := signedBy [9] (.submitInvoice ⟨9⟩ ⟨3⟩ 1000 500 300)
    let opened := exec step (genesis 0) bonusOpening
    let early := signedBy [9] (.handleDefault 1)
    (diluting.authorisedBy ⟨3⟩ = false ∧ (readReputation settled ⟨3⟩).score = 100 ∧
        (readReputation (step settled diluting) ⟨3⟩).score = 50) ∧
      early.authorisedBy ⟨3⟩ = false ∧ opened.timestamp = 0 ∧
        opened.invoices 1 = some ⟨1, ⟨2⟩, ⟨3⟩, 1000, 500, 300, 300, .pending⟩ ∧
        (step opened early).invoices 1 = some ⟨1, ⟨2⟩, ⟨3⟩, 1000, 500, 300, 300, .defaulted⟩ := by
  decide +kernel

end ReputationBonus
