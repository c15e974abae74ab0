import Iln.Foundation.Numbered
import Iln.ReputationBonus.Administration

/-! The counters and the score of an address in `reputation_bonus`. Each of the three counters is
the number of roles the address has on the stored invoices of one kind, up to the saturation at
`u32::MAX`. So no more invoices are paid than submitted, and the score is a percentage. -/
namespace ReputationBonus

open Outcome FixedWidth Transition Function
open InvoiceLiquidity (Address)

variable {invoice : Invoice} {address : Address}

section Effects

def addInvoice (world : World) (invoice : Invoice) : World :=
  updateReputation (updateReputation { world with
    invoiceCount := some (world.invoiceCount.getD 0 + 1)
    invoices := update world.invoices (world.invoiceCount.getD 0 + 1) (some invoice) }
      invoice.freelancer countSubmitted) invoice.payer countSubmitted

inductive RecordEffect (signed : Address → Bool) (world next : World) : Call → Prop
  | administrative {call : Call}
      (records : next.invoices = world.invoices ∧ next.invoiceCount = world.invoiceCount)
      (scores : next.reputation = world.reputation)
      (admin : (∃ admin, call = .init admin) ∨ (∃ config, call = .setConfig config) ∨
        ∃ caller config, call = .updateConfig caller config) :
      RecordEffect signed world next call
  | submitted (freelancer payer : Address) (amount : Int) (dueDate rate : Nat) (invoice : Invoice)
      (authorised : signed freelancer = true)
      (parties : invoice.freelancer = freelancer ∧ invoice.payer = payer)
      (pending : invoice.status = .pending) (result : next = addInvoice world invoice) :
      RecordEffect signed world next (.submitInvoice freelancer payer amount dueDate rate)
  | paid (id : Nat) (invoice : Invoice) (stored : world.invoices id = some invoice)
      (unclosed : invoice.status = .pending ∨ invoice.status = .funded)
      (authorised : signed invoice.payer = true)
      (result : next = closeInvoice world id invoice .paid countPaid) :
      RecordEffect signed world next (.markPaid id)
  | defaulted (id : Nat) (invoice : Invoice) (stored : world.invoices id = some invoice)
      (unclosed : invoice.status = .pending ∨ invoice.status = .funded)
      (result : next = closeInvoice world id invoice .defaulted countDefaulted) :
      RecordEffect signed world next (.handleDefault id)

variable {signed : Address → Bool} {world next : World} {call : Call}

theorem loadOpenInvoice_ok {id : Nat} (loaded : loadOpenInvoice world id = .ok invoice) :
    world.invoices id = some invoice ∧ (invoice.status = .pending ∨ invoice.status = .funded) := by
  simp only [loadOpenInvoice, ok_iff] at loaded
  obtain ⟨_, stored, _, unclosed, rfl⟩ := loaded
  exact ⟨stored, unclosed⟩

theorem invoke_records (ran : invoke signed world call = .ok next) :
    RecordEffect signed world next call := by
  simp only [invoke, ok_iff] at ran
  obtain ⟨_, _, ran⟩ := ran
  cases call with
  | init admin =>
    cases ran
    exact .administrative ⟨rfl, rfl⟩ rfl (.inl ⟨admin, rfl⟩)
  | setConfig config =>
    obtain ⟨store, _, rfl⟩ := configVia_eq_ok.mp ran
    exact .administrative ⟨rfl, rfl⟩ rfl (.inr (.inl ⟨config, rfl⟩))
  | updateConfig caller config =>
    obtain ⟨store, _, rfl⟩ := configVia_eq_ok.mp ran
    exact .administrative ⟨rfl, rfl⟩ rfl (.inr (.inr ⟨caller, config, rfl⟩))
  | submitInvoice freelancer payer amount dueDate rate =>
    simp only [dispatch, ok_iff, submitInvoice] at ran
    obtain ⟨_, ⟨_, authorised, _, _, _, _, _, _, rfl⟩, rfl⟩ := ran
    exact .submitted freelancer payer amount dueDate rate _ authorised ⟨rfl, rfl⟩ rfl rfl
  | markPaid id =>
    simp only [dispatch, markPaid, ok_iff] at ran
    obtain ⟨invoice, loaded, _, authorised, rfl⟩ := ran
    obtain ⟨stored, unclosed⟩ := loadOpenInvoice_ok loaded
    exact .paid id invoice stored unclosed authorised rfl
  | handleDefault id =>
    simp only [dispatch, handleDefault, ok_iff] at ran
    obtain ⟨invoice, loaded, rfl⟩ := ran
    obtain ⟨stored, unclosed⟩ := loadOpenInvoice_ok loaded
    exact .defaulted id invoice stored unclosed rfl

theorem step_keeps (property : World → Prop) {action : Action}
    (called : ∀ signed call, action = .invoke signed call →
      RecordEffect signed world (step world action) call → property (step world action))
    (start : property world) (aside : ∀ timestamp, property { world with timestamp }) :
    property (step world action) := by
  cases action with
  | advance => exact aside _
  | invoke signed call =>
    cases ran : invoke signed world call with
    | error =>
      have same : step world (.invoke signed call) = world := by simp only [step, ran]
      rw [same]
      exact start
    | ok next =>
      have reached : step world (.invoke signed call) = next := by simp only [step, ran]
      exact called signed call rfl (reached ▸ invoke_records ran)

end Effects

inductive Counter where
  | submitted | paid | defaulted
  deriving DecidableEq

def Counter.read : Counter → ReputationScore → Nat
  | .submitted => ReputationScore.invoicesSubmitted
  | .paid => ReputationScore.invoicesPaid
  | .defaulted => ReputationScore.invoicesDefaulted

def Counter.count : Counter → ReputationScore → ReputationScore
  | .submitted => countSubmitted
  | .paid => countPaid
  | .defaulted => countDefaulted

def Counter.counts : Counter → InvoiceStatus → Bool
  | .submitted, _ => true
  | .paid, status => decide (status = .paid)
  | .defaulted, status => decide (status = .defaulted)

def Invoice.roles (invoice : Invoice) (address : Address) : Nat :=
  (if invoice.freelancer = address then 1 else 0) + (if invoice.payer = address then 1 else 0)

def Counter.weight (counter : Counter) (address : Address) (invoice : Invoice) : Nat :=
  if counter.counts invoice.status = true then invoice.roles address else 0

def World.roles (world : World) (counter : Counter) (address : Address) : Nat :=
  Numbered.total (counter.weight address) world.invoices (world.invoiceCount.getD 0 + 1)

theorem Counter.read_recalculateScore (counter : Counter) (reputation : ReputationScore) :
    counter.read (recalculateScore reputation) = counter.read reputation := by
  cases counter with
  | _ => rfl

theorem Counter.read_count (counter other : Counter) (reputation : ReputationScore) :
    other.read (counter.count reputation) =
      if other = counter then
        addCapped u32Max (counter.read reputation) 1 else other.read reputation := by
  cases counter with
  | _ => cases other with
    | _ => rfl

theorem Counter.recalculateScore_count (counter : Counter) (reputation : ReputationScore) :
    recalculateScore (counter.count (recalculateScore reputation)) =
      recalculateScore (counter.count reputation) := by
  cases counter with
  | _ => rfl

theorem Counter.read_iterate {counter : Counter} {reputation : ReputationScore}
    (bounded : counter.read reputation ≤ u32Max) (times : Nat) (other : Counter) :
    other.read (counter.count^[times] reputation) =
      if other = counter then
        min u32Max (counter.read reputation + times) else other.read reputation := by
  induction times generalizing other with
  | zero =>
    split
    · rename_i same
      rw [same]
      exact (min_eq_right bounded).symm
    · rfl
  | succ times ih =>
    rw [Function.iterate_succ_apply', read_count, ih counter, ih other, if_pos rfl]
    split
    · unfold addCapped
      omega
    · rfl

theorem Counter.weight_unclosed (unclosed : invoice.status = .pending ∨ invoice.status = .funded)
    (counter : Counter) (address : Address) :
    counter.weight address invoice = if counter = .submitted then invoice.roles address else 0 := by
  unfold Counter.weight
  rcases unclosed with pending | funded
  · rw [pending]
    cases counter with
    | _ => rfl
  · rw [funded]
    cases counter with
    | _ => rfl

theorem Counter.weight_paid (invoice : Invoice) (counter : Counter) (address : Address) :
    counter.weight address { invoice with status := .paid } =
      (if counter = .submitted then invoice.roles address else 0) +
        if counter = .paid then invoice.roles address else 0 := by
  cases counter with
  | submitted => exact (add_zero _).symm
  | paid => exact (zero_add _).symm
  | defaulted => rfl

theorem Counter.weight_defaulted (invoice : Invoice) (counter : Counter) (address : Address) :
    counter.weight address { invoice with status := .defaulted } =
      (if counter = .submitted then invoice.roles address else 0) +
        if counter = .defaulted then invoice.roles address else 0 := by
  cases counter with
  | submitted => exact (add_zero _).symm
  | paid => rfl
  | defaulted => exact (zero_add _).symm

section Invariant

variable {world next : World}

theorem readReputation_update (world : World) (address other : Address)
    (count : ReputationScore → ReputationScore) :
    readReputation (updateReputation world address count) other =
      if other = address then
        recalculateScore (count (readReputation world address)) else readReputation
          world other := by
  show (update world.reputation address _ other).getD newScore = _
  by_cases own : other = address
  · subst own
    rw [update_self, if_pos rfl]
    rfl
  · rw [update_of_ne own, if_neg own]
    rfl

theorem readReputation_both (world : World) (counter : Counter) (one two : Address)
    (settled : recalculateScore (readReputation world address) = readReputation world address) :
    readReputation (updateReputation (updateReputation world one counter.count) two counter.count)
        address =
      recalculateScore
        (counter.count^[(if one = address then 1 else 0) + (if two = address then 1 else 0)]
          (readReputation world address)) := by
  rw [readReputation_update, readReputation_update, readReputation_update]
  by_cases first : one = address
  · subst first
    by_cases second : two = one
    · subst second
      simp [counter.recalculateScore_count]
    · simp [second, Ne.symm second]
  · by_cases second : two = address
    · subst second
      simp [first, Ne.symm first]
    · simp [first, second, Ne.symm first, Ne.symm second, settled]

theorem readReputation_addInvoice (invoice : Invoice)
    (settled : recalculateScore (readReputation world address) = readReputation world address) :
    readReputation (addInvoice world invoice) address =
      recalculateScore (countSubmitted^[invoice.roles address] (readReputation world address)) :=
  readReputation_both _ .submitted invoice.freelancer invoice.payer settled

theorem readReputation_closeInvoice (id : Nat) (invoice : Invoice) (status : InvoiceStatus)
    (counter : Counter)
    (settled : recalculateScore (readReputation world address) = readReputation world address) :
    readReputation (closeInvoice world id invoice status counter.count) address =
      recalculateScore (counter.count^[invoice.roles address] (readReputation world address)) := by
  have counted := readReputation_both { world with
    invoices := update world.invoices id (some { invoice with status }) }
    counter invoice.payer invoice.freelancer settled
  rw [add_comm] at counted
  exact counted

structure Counters (world : World) : Prop where
  below : ∀ id, world.invoiceCount.getD 0 < id → world.invoices id = none
  tallies : ∀ (counter : Counter) address,
    counter.read (readReputation world address) = min u32Max (world.roles counter address)
  settled : ∀ address, recalculateScore (readReputation world address) =
    readReputation world address

theorem Counters.counted (counters : Counters world) (kind : Counter) (times : Address → Nat)
    (below : ∀ id, next.invoiceCount.getD 0 < id → next.invoices id = none)
    (roles : ∀ (counter : Counter) address,
      next.roles counter address = world.roles counter address +
        if counter = kind then times address else 0)
    (scores : ∀ address, readReputation next address =
      recalculateScore (kind.count^[times address] (readReputation world address))) :
        Counters next := by
  refine ⟨below, ?_, ?_⟩
  · intro counter address
    have bounded : kind.read (readReputation world address) ≤ u32Max := by
      rw [counters.tallies]
      exact min_le_left _ _
    rw [scores, Counter.read_recalculateScore, Counter.read_iterate bounded, roles]
    split
    · rename_i same
      subst same
      rw [counters.tallies]
      omega
    · rw [counters.tallies, add_zero]
  · intro address
    rw [scores]
    rfl

theorem Counters.used (counters : Counters world) {id : Nat}
    (stored : world.invoices id = some invoice) : id < world.invoiceCount.getD 0 + 1 := by
  by_contra late
  rw [counters.below id (by omega)] at stored
  cases stored

theorem Counters.submitted (counters : Counters world) (pending : invoice.status = .pending) :
    Counters (addInvoice world invoice) := by
  refine counters.counted .submitted invoice.roles ?_ ?_ ?_
  · intro id late
    have later : world.invoiceCount.getD 0 + 1 < id := late
    show update world.invoices _ _ id = none
    rw [update_of_ne (by omega), counters.below id (by omega)]
  · intro counter address
    rw [← counter.weight_unclosed (.inl pending) address]
    exact Numbered.total_push (counter.weight address) world.invoices _ invoice
  · exact fun address => readReputation_addInvoice invoice (counters.settled address)

theorem Counters.closed (counters : Counters world) {id : Nat} {status : InvoiceStatus}
    (kind : Counter) (stored : world.invoices id = some invoice)
    (unclosed : invoice.status = .pending ∨ invoice.status = .funded)
    (weight : ∀ (counter : Counter) address, counter.weight address { invoice with status } =
        (if counter = .submitted then invoice.roles address else 0) + if counter =
          kind then invoice.roles address else 0)
    (result : next = closeInvoice world id invoice status kind.count) : Counters next := by
  subst result
  refine counters.counted kind invoice.roles ?_ ?_ ?_
  · intro other late
    have used := counters.used stored
    have later : world.invoiceCount.getD 0 < other := late
    show update world.invoices _ _ other = none
    rw [update_of_ne (by omega), counters.below other later]
  · intro counter address
    have changed := Numbered.total_update (counter.weight address) world.invoices
      (counters.used stored) { invoice with status }
    rw [stored, weight, Option.elim_some, counter.weight_unclosed unclosed] at changed
    have reached : (closeInvoice world id invoice status kind.count).roles counter address =
        Numbered.total (counter.weight address)
          (update world.invoices id (some { invoice with status }))
          (world.invoiceCount.getD 0 + 1) := rfl
    rw [reached, World.roles]
    omega
  · exact fun address => readReputation_closeInvoice id invoice status kind
      (counters.settled address)

theorem RecordEffect.counters {signed : Address → Bool} {call : Call}
    (effect : RecordEffect signed world next call) (counters : Counters world) : Counters next := by
  cases effect with
  | administrative records scores =>
    have same : ∀ address, readReputation next address = readReputation world address := by
      intro address
      rw [readReputation, readReputation, scores]
    constructor
    · rw [records.1, records.2]
      exact counters.below
    · intro counter address
      rw [same, World.roles, records.1, records.2]
      exact counters.tallies counter address
    · intro address
      rw [same]
      exact counters.settled address
  | submitted _ _ _ _ _ invoice _ _ pending result =>
    subst result
    exact counters.submitted pending
  | paid id invoice stored unclosed _ result =>
    exact counters.closed .paid stored unclosed (Counter.weight_paid invoice) result
  | defaulted id invoice stored unclosed result =>
    exact counters.closed .defaulted stored unclosed (Counter.weight_defaulted invoice) result

theorem step_counters (action : Action) (counters : Counters world) :
    Counters (step world action) := by
  refine step_keeps Counters ?_ counters fun _ =>
    ⟨counters.below, counters.tallies, counters.settled⟩
  intro signed call _ effect
  exact effect.counters counters

theorem genesis_counters (timestamp : Nat) : Counters (genesis timestamp) := by
  have empty : recalculateScore newScore = newScore := by decide
  refine ⟨fun _ _ => rfl, ?_, fun _ => empty⟩
  intro counter address
  cases counter with
  | _ => rfl

theorem exec_counters (timestamp : Nat) (actions : List Action) :
    Counters (exec step (genesis timestamp) actions) :=
  invariant Counters (fun _ action counters => step_counters action counters) actions
  (genesis_counters timestamp)

theorem Counters.paid_le_submitted (counters : Counters world) (address : Address) :
    (readReputation world address).invoicesPaid ≤
      (readReputation world address).invoicesSubmitted := by
  have fewer : world.roles .paid address ≤ world.roles .submitted address := by
    have each : ∀ invoice, Counter.weight .paid address invoice ≤
        Counter.weight .submitted address invoice := by
      intro invoice
      show (if _ then invoice.roles address else 0) ≤ invoice.roles address
      split
      · exact le_rfl
      · exact Nat.zero_le _
    exact Numbered.total_mono each world.invoices _
  have paid := counters.tallies .paid address
  have submitted := counters.tallies .submitted address
  show Counter.read .paid _ ≤ Counter.read .submitted _
  omega

/-- The score is the percentage of paid invoices; neither the width of the quotient nor the cap
matters. -/
theorem Counters.score (counters : Counters world) (address : Address) :
    (readReputation world address).score = (readReputation world address).invoicesPaid * 100 /
      max (readReputation world address).invoicesSubmitted 1 := by
  have fewer := counters.paid_le_submitted address
  have narrow : (readReputation world address).invoicesPaid ≤ u32Max :=
    (counters.tallies .paid address).le.trans (min_le_left _ _)
  generalize held : readReputation world address = reputation at fewer narrow ⊢
  have settled := counters.settled address
  rw [held] at settled
  have percent : reputation.invoicesPaid * 100 / max reputation.invoicesSubmitted 1 ≤ 100 :=
    Nat.div_le_of_le_mul (by have large := le_max_left reputation.invoicesSubmitted 1; omega)
  have fits : reputation.invoicesPaid * 100 ≤ u64Max := by
    have wide : u32Max * 100 ≤ u64Max := by decide
    omega
  have low : 100 < u32Max + 1 := by decide
  rw [← settled]
  show min (if reputation.invoicesPaid * 100 ≤ u64Max then _ else _) 100 = _
  rw [if_pos fits, Nat.mod_eq_of_lt (percent.trans_lt low), min_eq_left percent]
  rfl

theorem Counters.percent (counters : Counters world) (address : Address) :
    (readReputation world address).score ≤ 100 := by
  rw [← counters.settled address]
  exact min_le_right _ _

/-- In every reachable state each counter of an address is its number of roles on the stored
invoices it counts, unless it has saturated, and the score is the percentage of paid ones. -/
theorem counters_are_roles (timestamp : Nat) (actions : List Action) (address : Address) :
    let world := exec step (genesis timestamp) actions
    let reputation := readReputation world address
    (∀ id, world.invoiceCount.getD 0 < id → world.invoices id = none) ∧
      (∀ counter : Counter, world.roles counter address ≤ u32Max →
        counter.read reputation = world.roles counter address) ∧
      reputation.score = 100 * reputation.invoicesPaid / max 1 reputation.invoicesSubmitted ∧
      reputation.score ≤ 100 := by
  intro world reputation
  have counters : Counters world := exec_counters timestamp actions
  have score : reputation.score = 100 * reputation.invoicesPaid / max 1
      reputation.invoicesSubmitted := by
    rw [mul_comm, max_comm]
    exact counters.score address
  refine ⟨counters.below, ?_, score, counters.percent address⟩
  intro counter unsaturated
  rw [counters.tallies]
  exact min_eq_right unsaturated

def selfInvoice : List Action :=
  bonusOpening ++ [signedBy [3] (.submitInvoice ⟨3⟩ ⟨3⟩ 1000 500 300), signedBy [3] (.markPaid 2)]

theorem counters_are_roles_of_selfInvoice :
    let world := exec step (genesis 0) selfInvoice
    (readReputation world ⟨3⟩).invoicesSubmitted = world.roles .submitted ⟨3⟩ ∧
      world.roles .submitted ⟨3⟩ = 3 ∧
      (readReputation world ⟨3⟩).invoicesPaid = world.roles .paid ⟨3⟩ ∧ world.roles .paid ⟨3⟩ = 2 :=
  have counts := (counters_are_roles 0 selfInvoice ⟨3⟩).2.1
  ⟨counts .submitted (by decide +kernel), by decide +kernel, counts .paid (by decide +kernel),
    by decide +kernel⟩

end Invariant

end ReputationBonus
