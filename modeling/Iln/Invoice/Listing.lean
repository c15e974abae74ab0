import Iln.Foundation.Paging
import Iln.Invoice.Indexes

/-! `list_invoices_by_submitter` and `list_invoices_by_lp`. A page is a slice of an index with every
invoice loaded, which traps when one is missing. The indexes are right in every reachable state, so
no page traps. -/
namespace InvoiceLiquidity

open Outcome FixedWidth Transition

variable {contract : Address} {book : Book} {ids : List Nat}

def listInvoices (book : Book) (ids : List Nat) (page pageSize : Nat) : Result (List Invoice) :=
  let pageSize := min pageSize 50
  let start := min u32Max (page * pageSize)
  if start ≥ ids.length then .ok []
  else
    let stop := min (min u32Max (start + pageSize)) ids.length
    ((ids.drop start).take (stop - start)).mapM fun id => orFail (book.invoices id) .trap

def listInvoicesBySubmitter (world : World) (submitter : Address) :
    (page pageSize : Nat) → Result (List Invoice) :=
  listInvoices world.book (world.index.submitterInvoices submitter)

def listInvoicesByLp (world : World) (lp : Address) : (page pageSize : Nat) →
    Result (List Invoice) :=
  listInvoices world.book (world.index.lpInvoices lp)

theorem mapM_load (stored : ∀ id ∈ ids, (book.invoices id).isSome = true) :
    ids.mapM (fun id => (orFail (book.invoices id) .trap : Result Invoice)) =
      .ok (ids.filterMap book.invoices) := by
  induction ids with
  | nil => rfl
  | cons id rest ih =>
    obtain ⟨_, found⟩ := Option.isSome_iff_exists.mp (stored id List.mem_cons_self)
    rw [List.mapM_cons, ih fun other member => stored other (List.mem_cons_of_mem _ member), found,
      List.filterMap_cons_some found]
    rfl

/-- The saturating bounds do not show, since the index has no more entries than a `u32` counts. -/
theorem listInvoices_eq (fits : ids.length ≤ u32Max)
    (stored : ∀ id ∈ ids, (book.invoices id).isSome = true) (page pageSize : Nat) :
    listInvoices book ids page pageSize =
      .ok (((ids.drop (page * min pageSize 50)).take (min pageSize 50)).filterMap
        book.invoices) := by
  unfold listInvoices
  dsimp only
  generalize min pageSize 50 = size
  split
  · rw [List.drop_eq_nil_of_le (by omega), List.take_nil]
    rfl
  · have start : min u32Max (page * size) = page * size := by omega
    have sameSlice : (ids.drop (page * size)).take (min (min u32Max (page * size + size))
      ids.length - page * size) =
        (ids.drop (page * size)).take size := by
      rw [List.take_eq_take_iff, List.length_drop]
      omega
    rw [start, sameSlice, mapM_load]
    intro id member
    exact stored id (List.mem_of_mem_drop (List.mem_of_mem_take member))

/-- Every page is answered, and as many as the index needs hold each invoice that belongs to it
once. -/
def PagesHold (book : Book) (fetch : (page pageSize : Nat) → Result (List Invoice))
    (total pageSize : Nat) (belongs : Nat → Prop) : Prop :=
  ∃ fetched : Nat → List Invoice, (∀ page, fetch page pageSize = .ok (fetched page)) ∧
    ∀ pages, total ≤ pages * min pageSize 50 → ((List.range pages).flatMap fetched).Nodup ∧
      ∀ invoice, invoice ∈ (List.range pages).flatMap fetched ↔
        book.invoices invoice.id = some invoice ∧ belongs invoice.id

theorem pagesHold_of_counts (filed : Filed book) (fits : ids.length ≤ u32Max) (pageSize : Nat)
    {belongs : Nat → Prop} [DecidablePred belongs]
    (counts : ∀ id, ids.count id = if belongs id then 1 else 0)
    (stored : ∀ id, belongs id → (book.invoices id).isSome = true) :
    PagesHold book (listInvoices book ids) ids.length pageSize belongs := by
  have listed : ∀ id, id ∈ ids ↔ belongs id := by
    intro id
    rw [← List.count_pos_iff, counts]
    split <;> simp [*]
  have distinct : ids.Nodup := by
    rw [List.nodup_iff_count_le_one]
    intro id
    rw [counts]
    split <;> omega
  refine ⟨_, fun page => listInvoices_eq fits (fun id member => stored id ((listed id).mp member))
    page pageSize, ?_⟩
  intro pages enough
  rw [← List.filterMap_flatMap, Paging.flatMap_slices, List.take_of_length_le enough]
  constructor
  · refine distinct.filterMap fun first second invoice here there => ?_
    exact (filed.named first invoice here).symm.trans (filed.named second invoice there)
  · intro invoice
    simp only [List.mem_filterMap, listed]
    constructor
    · rintro ⟨id, held, found⟩
      rw [filed.named id invoice found]
      exact ⟨found, held⟩
    · rintro ⟨found, held⟩
      exact ⟨invoice.id, held, found⟩

/-- In every reachable state both listings answer every page, and read to the end they show each
invoice of the address once: those it is the freelancer of, and those it has funded. -/
theorem listing_complete (clock : Clock) (balance : Balances) (actions : List (Action contract))
    (address : Address) (pageSize : Nat)
    (fits : ((reach clock balance actions).index.submitterInvoices address).length ≤
      u32Max ∧ ((reach clock balance actions).index.lpInvoices address).length ≤ u32Max) :
    let world := reach clock balance actions
    PagesHold world.book (listInvoicesBySubmitter world address)
        (world.index.submitterInvoices address).length pageSize
        (fun id => world.book.submitter id = some address) ∧
      PagesHold world.book (listInvoicesByLp world address)
        (world.index.lpInvoices address).length pageSize
        (fun id => address ∈ world.book.lps id) := by
  intro world
  have filed : Filed world.book := reach_filed clock balance actions
  have indexed : Indexed world := reach_indexed clock balance actions
  constructor
  · apply pagesHold_of_counts filed fits.1 pageSize fun id => indexed.submitter id address
    intro id own
    obtain ⟨_, found, _⟩ := Option.map_eq_some_iff.mp own
    exact Option.isSome_of_eq_some found
  · apply pagesHold_of_counts filed fits.2 pageSize fun id => indexed.lp id address
    intro id listed
    refine Option.isSome_iff_ne_none.mpr fun absent => ?_
    rw [Book.lps, (filed.blank id absent).1] at listed
    cases listed

def threeBills : List (Action ⟨0⟩) :=
  openingCalls 1000000 300 ++
    [signedBy [5] (.submitInvoice (bill 2000000 300)),
      signedBy [5] (.submitInvoice (bill 3000000 300)),
      signedBy [3] (.fundInvoice ⟨3⟩ 1 1000000 false),
      signedBy [3] (.fundInvoice ⟨3⟩ 3 1000000 false)]

theorem listing_complete_of_threeBills :
    let world := traded threeBills
    PagesHold world.book (listInvoicesBySubmitter world ⟨5⟩) 3 2
        (fun id => world.book.submitter id = some ⟨5⟩) ∧
      (listInvoicesBySubmitter world ⟨5⟩ 0 2).map (List.map Invoice.id) = .ok [1, 2] ∧
      (listInvoicesBySubmitter world ⟨5⟩ 1 2).map (List.map Invoice.id) = .ok [3] ∧
      PagesHold world.book (listInvoicesByLp world ⟨3⟩) 2 1 (fun id => ⟨3⟩ ∈ world.book.lps id) :=
  ⟨(listing_complete ⟨1000, 10⟩ marketBalances threeBills ⟨5⟩ 2 (by decide +kernel)).1,
    by decide +kernel, by decide +kernel,
    (listing_complete ⟨1000, 10⟩ marketBalances threeBills ⟨3⟩ 1 (by decide +kernel)).2⟩

end InvoiceLiquidity
