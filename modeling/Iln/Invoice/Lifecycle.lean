import Iln.Invoice.Effect

/-! The status of an invoice over its whole life. Every call moves it along an edge of one fixed
graph or leaves it alone, and the records kept for disputes and appeals bound how often its two
cycles can be taken. -/
namespace InvoiceLiquidity

open Transition

variable {contract : Address} {world : World} {status : InvoiceStatus} {record : File → Bool}

def InvoiceStatus.edge : InvoiceStatus → InvoiceStatus → Bool
  | .pending, .partiallyFunded | .pending, .funded | .pending, .expired | .pending, .cancelled
  | .pending, .disputed => true
  | .partiallyFunded, .funded | .partiallyFunded, .cancelled | .partiallyFunded, .disputed => true
  | .funded, .paid | .funded, .defaulted | .funded, .disputed => true
  | .disputed, .cancelled | .disputed, .funded | .disputed, .partiallyFunded
  | .disputed, .pending => true
  | .defaulted, .appealed => true
  | .appealed, .defaulted => true
  | _, _ => false

def InvoiceStatus.final : InvoiceStatus → Bool
  | .paid | .expired | .cancelled => true
  | _ => false

theorem edge_of_final {status next : InvoiceStatus} (closed : status.final = true) :
    status.edge next = false := by
  cases status <;> cases next <;> first | rfl | cases closed

def InvoiceStatus.MayBecome (status next : InvoiceStatus) : Prop :=
  next = status ∨ status.edge next = true

theorem restoredStatus_edge (invoice : Invoice) :
    InvoiceStatus.disputed.edge invoice.restoredStatus = true := by
  unfold Invoice.restoredStatus
  split
  · rfl
  · split <;> rfl

theorem Change.mayBecome {env : Env contract} {id : Nat} {call : Call} {file after : File}
    {moves : List Movement} (change : Change env world id call file after moves) :
    file.invoice.status.MayBecome after.invoice.status := by
  cases change with
  | edited | renamed | instalment => exact .inl rfl
  | contributed _ _ _ fundable =>
    rcases fundable with pending | partly
    · exact .inr (by rw [pending]; rfl)
    · exact .inl partly.symm
  | completed _ _ _ fundable | cancelled fundable =>
    rcases fundable with pending | partly
    · exact .inr (by rw [pending]; rfl)
    · exact .inr (by rw [partly]; rfl)
  | expired pending => exact .inr (by rw [pending]; rfl)
  | settled _ _ _ funded | defaulted _ funded => exact .inr (by rw [funded]; rfl)
  | appealed _ _ defaulted => exact .inr (by rw [defaulted]; rfl)
  | reviewed _ appealed => exact .inr (by rw [appealed]; rfl)
  | disputed _ _ disputable =>
    rcases disputable with pending | partly | funded
    · exact .inr (by rw [pending]; rfl)
    · exact .inr (by rw [partly]; rfl)
    · exact .inr (by rw [funded]; rfl)
  | upheld disputed => exact .inr (by rw [disputed]; rfl)
  | restored _ disputed =>
    refine .inr ?_
    rw [disputed]
    exact restoredStatus_edge file.invoice

/-- An existing file survives every action, and its status moves along an edge if at all. -/
theorem step_mayBecome (action : Action contract) (filed : Filed world.book) {id : Nat}
    {file : File} (stored : world.book.file id = some file) :
    ∃ after, (step world action).book.file id = some after ∧
      file.invoice.status.MayBecome after.invoice.status := by
  cases step_touch action filed id with
  | same unchanged => exact ⟨file, by rw [unchanged, stored], .inl rfl⟩
  | fresh _ absent =>
    rw [absent] at stored
    cases stored
  | changed _ _ _ after _ _ _ found now change =>
    rw [found] at stored
    cases stored
    exact ⟨after, now, change.mayBecome⟩

def World.statusOf (world : World) (id : Nat) : Option InvoiceStatus :=
    (world.book.invoices id).map (·.status)

theorem statusOf_eq_file (world : World) (id : Nat) :
    world.statusOf id = (world.book.file id).map (·.invoice.status) := by
  simp [World.statusOf, Book.file, Function.comp_def]

def enters (status : InvoiceStatus) (id : Nat) (world : World) (action : Action contract) : Nat :=
  if (step world action).statusOf id = some status ∧ world.statusOf id ≠ some status then 1 else 0

/-- A status whose entry writes a record that has to be missing before, and that is never
removed. -/
structure Recorded (contract : Address) (status : InvoiceStatus) (record : File → Bool) : Prop where
  initial : status ≠ .pending
  lasting : ∀ {env : Env contract} {world id call file after moves},
    Change env world id call file after moves → record file = true → record after = true
  entry : ∀ {env : Env contract} {world id call file after moves},
    Change env world id call file after moves → after.invoice.status = status →
      file.invoice.status = status ∨ (record file = false ∧ record after = true)

theorem Recorded.lasts (recorded : Recorded contract status record) (action : Action contract)
    (filed : Filed world.book) (id : Nat) (held : (world.book.file id).any record = true) :
    ((step world action).book.file id).any record = true := by
  cases step_touch action filed id with
  | same unchanged =>
    rw [unchanged]
    exact held
  | fresh file absent =>
    rw [absent] at held
    cases held
  | changed _ _ file after _ _ _ stored now change =>
    rw [stored] at held
    rw [now]
    exact recorded.lasting change held

theorem Recorded.enters_marks (recorded : Recorded contract status record)
    (action : Action contract) (filed : Filed world.book) (id : Nat) :
    enters status id world action = 0 ∨ enters status id world action = 1 ∧
      ¬ (world.book.file id).any record = true ∧ ((step world action).book.file id).any record =
        true := by
  unfold enters
  split
  · rename_i entered
    simp only [statusOf_eq_file] at entered
    refine .inr ⟨rfl, ?_⟩
    cases step_touch action filed id with
    | same unchanged =>
      rw [unchanged] at entered
      exact absurd entered.1 entered.2
    | fresh file absent now fresh =>
      obtain ⟨_, _, _, rfl, _⟩ := fresh
      rw [now] at entered
      exact absurd (Option.some.inj entered.1).symm recorded.initial
    | changed _ _ file after _ _ _ stored now change =>
      rw [stored, now] at entered ⊢
      rcases recorded.entry change (Option.some.inj entered.1) with already | ⟨before, written⟩
      · exact absurd (congrArg some already) entered.2
      · exact ⟨by simp [before], written⟩
  · exact .inl rfl

theorem entered_once (recorded : Recorded contract status record)
    (clock : Clock) (balance : Balances) (actions : List (Action contract)) (id : Nat) :
    tally step (enters status id) (genesis clock balance) actions ≤ 1 := by
  apply tally_le_one (fun world : World => Filed world.book) fun world =>
    (world.book.file id).any record = true
  · exact fun world action filed => (step_effect action filed).2
  · exact fun world action filed held => recorded.lasts action filed id held
  · exact fun world action filed => recorded.enters_marks action filed id
  · exact genesis_filed clock balance

theorem restoredStatus_ne {invoice : Invoice}
    (other : status ≠ .funded ∧ status ≠ .partiallyFunded ∧ status ≠ .pending) :
    invoice.restoredStatus ≠ status := by
  obtain ⟨funded, partly, pending⟩ := other
  unfold Invoice.restoredStatus
  split
  · exact Ne.symm funded
  · split
    · exact Ne.symm partly
    · exact Ne.symm pending

theorem claims_recorded : Recorded contract .disputed (fun file => file.dispute.isSome) ∧
    Recorded contract .appealed (fun file => file.appeal.isSome) := by
  constructor
  all_goals
    refine ⟨by decide, ?_, ?_⟩
    · intro env world id call file after moves change held
      cases change <;> first | exact held | rfl
    · intro env world id call file after moves change entered
      cases change with
      | disputed _ _ _ fresh | appealed _ _ _ fresh =>
        first | exact .inr ⟨by simp [fresh], rfl⟩ | cases entered
      | restored => exact absurd entered (restoredStatus_ne (by decide))
      | edited | renamed | instalment => exact .inl entered
      | _ => cases entered

/-- In every reachable state every action keeps each invoice and moves its status along an edge of
the life cycle if at all; the final statuses stay; `Disputed` and `Appealed` are entered at most
once. -/
theorem lifecycle_respected (clock : Clock) (balance : Balances)
    (actions : List (Action contract)) :
    (∀ (action : Action contract) (id : Nat) (invoice : Invoice),
      (reach clock balance actions).book.invoices id = some invoice →
      ∃ after, (step (reach clock balance actions) action).book.invoices id =
        some after ∧ invoice.status.MayBecome after.status ∧
        (invoice.status.final = true → after.status = invoice.status)) ∧
    ∀ id, tally step (enters .disputed id) (genesis clock balance) actions ≤ 1 ∧
      tally step (enters .appealed id) (genesis clock balance) actions ≤ 1 := by
  have filed := reach_filed clock balance actions
  refine ⟨?_, ?_⟩
  · intro action id invoice stored
    obtain ⟨after, now, edge⟩ := step_mayBecome action filed (file_of_invoice stored)
    obtain ⟨changed, found, rfl⟩ := Option.map_eq_some_iff.mp now
    refine ⟨changed, found, edge, ?_⟩
    intro closed
    -- no edge leaves a final status
    rcases edge with same | along
    · exact same
    · rw [edge_of_final closed] at along
      cases along
  · intro id
    exact ⟨entered_once claims_recorded.1 clock balance actions id,
      entered_once claims_recorded.2 clock balance actions id⟩

end InvoiceLiquidity
