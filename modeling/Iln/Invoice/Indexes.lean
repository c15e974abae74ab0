import Iln.Invoice.Terms

/-! The two invoice indexes. The list of an address as submitter holds the invoices it is the
freelancer of, and its list as liquidity provider those it has a funder entry in, each exactly once.
Adding to the first list appends without looking, so it depends on the removal that a transfer makes
before; adding to the second looks first. -/
namespace InvoiceLiquidity

open Outcome Transition Function

variable {contract : Address} {invoice : Invoice} {amount : Int} {moves : List Movement}
variable {funders : List (Address × Int)}

section Tables

variable (table : Address → List Nat) (owner : Address) (id : Nat)

theorem count_update_append (address : Address) (other : Nat) :
    (update table owner (table owner ++ [id]) address).count other =
      (table address).count other + if address = owner ∧ other = id then 1 else 0 := by
  by_cases own : address = owner
  · subst own
    rw [update_self, List.count_append]
    by_cases same : other = id
    · simp [same]
    · simp [same, Ne.symm same]
  · rw [update_of_ne own]
    simp [own]

theorem count_update_filter (address : Address) (other : Nat) :
    (update table owner ((table owner).filter (· ≠ id)) address).count other =
      if address = owner ∧ other = id then 0 else (table address).count other := by
  by_cases own : address = owner
  · subst own
    rw [update_self]
    by_cases same : other = id
    · subst same
      rw [if_pos ⟨rfl, rfl⟩, List.count_eq_zero]
      simp
    · rw [if_neg (fun both => same both.2)]
      exact List.count_filter (by simpa using same)
  · rw [update_of_ne own, if_neg (fun both => own both.1)]

end Tables

section Operations

variable (index : IndexStore) (owner : Address) (id : Nat) (address : Address) (other : Nat)

theorem addInvoiceToSubmitter_count :
    ((addInvoiceToSubmitter index owner id).submitterInvoices address).count other =
      (index.submitterInvoices address).count other + if address = owner ∧
      other = id then 1 else 0 :=
  count_update_append index.submitterInvoices owner id address other

theorem removeInvoiceFromSubmitter_count :
    ((removeInvoiceFromSubmitter index owner id).submitterInvoices address).count other =
      if address = owner ∧ other = id then 0 else (index.submitterInvoices address).count other :=
  count_update_filter index.submitterInvoices owner id address other

theorem removeInvoiceFromLp_count :
    ((removeInvoiceFromLp index owner id).lpInvoices address).count other =
      if address = owner ∧ other = id then 0 else (index.lpInvoices address).count other :=
  count_update_filter index.lpInvoices owner id address other

theorem addInvoiceToLp_count (single : (index.lpInvoices owner).count id ≤ 1) :
    ((addInvoiceToLp index owner id).lpInvoices address).count other =
      if address = owner ∧ other = id then 1 else (index.lpInvoices address).count other := by
  unfold addInvoiceToLp
  split
  · rename_i listed
    have once := List.count_pos_iff.mpr listed
    split
    · rename_i same
      rw [same.1, same.2]
      omega
    · rfl
  · rename_i fresh
    have none := List.count_eq_zero.mpr fresh
    show (update index.lpInvoices owner (index.lpInvoices owner ++ [id]) address).count other = _
    rw [count_update_append]
    split
    · rename_i same
      rw [same.1, same.2, none]
    · rfl

end Operations

section Parties

def Book.submitter (book : Book) (id : Nat) : Option Address :=
    (book.invoices id).map Invoice.freelancer

def Book.lps (book : Book) (id : Nat) : List Address := (book.funders id).map Prod.fst

def Call.reindexes : Call → Bool
  | .submitInvoice _ | .submitInvoicesBatch _ | .transferInvoice _ _ | .fundInvoice _ _ _ _
  | .transferLpPosition _ _ => true
  | _ => false

theorem Book.submitter_of_file (book : Book) (id : Nat) :
    book.submitter id = (book.file id).map fun file => file.invoice.freelancer := by
  simp [Book.submitter, Book.file, Function.comp_def]

theorem Filed.lps {book : Book} (filed : Filed book) (id : Nat) :
    book.lps id = (book.file id).elim [] fun file => file.funders.map Prod.fst := by
  unfold Book.lps Book.file
  cases stored : book.invoices id with
  | none => simp [(filed.blank id stored).1]
  | some => rfl

variable {env : Env contract} {world next : World} {call : Call} {id : Nat}

theorem Change.same_parties {file after : File} (change : Change env world id call file after moves)
    (plain : call.reindexes = false) (unedited : call.edits = false) :
    after.invoice.freelancer = file.invoice.freelancer ∧ after.funders = file.funders := by
  cases change with
  | edited _ _ _ _ _ edits =>
    rw [unedited] at edits
    cases edits
  | contributed | completed | renamed => cases plain
  | _ => exact ⟨rfl, rfl⟩

theorem Change.edited_funders {file after : File}
    (change : Change env world id call file after moves) (edits : call.edits = true) :
    after.funders = file.funders := by
  cases change with
  | edited | restored => rfl
  | _ => cases edits

theorem edited_submitter (filed : Filed world.book) (edits : call.edits = true)
    (plain : call.reindexes = false) (aimed : call.target = some id)
    (stored : world.book.invoices id = some invoice) (ran : invoke env world call = .ok next) :
    next.book.submitter id = some invoice.freelancer := by
  cases call with
  | updateInvoice =>
    cases aimed
    have updated := invoke_runs rfl ran
    rw [Book.submitter, (updateInvoice_spec filed stored updated).1]
    rfl
  | convertInvoiceToken =>
    cases aimed
    have converted := invoke_runs rfl ran
    rw [Book.submitter, (convertInvoiceToken_spec filed stored converted).1]
    rfl
  | transferInvoice => cases plain
  | _ => cases edits

theorem invoke_parties (filed : Filed world.book) (ran : invoke env world call = .ok next)
    (plain : call.reindexes = false) (id : Nat) :
    next.book.submitter id = world.book.submitter id ∧ next.book.lps id = world.book.lps id := by
  obtain rfl := step_of_invoke ran
  have nextFiled := (step_effect (.invoke env call) filed).2
  rw [filed.lps, nextFiled.lps]
  cases step_touch (.invoke env call) filed id with
  | same file =>
    rw [Book.submitter_of_file, Book.submitter_of_file, file]
    exact ⟨rfl, rfl⟩
  | fresh file absent now =>
    have missing := file_eq_none.mp absent
    have made := invoice_of_file now
    -- nothing is submitted by such a call
    obtain ⟨⟨_, listed, _⟩, _⟩ := invoke_added ran (target_of_fresh filed missing made)
      missing made
    cases call with
    | submitInvoice | submitInvoicesBatch => cases plain
    | _ => cases listed
  | changed _ _ file after invoked aimed _ stored now change =>
    cases invoked
    rw [now, stored]
    cases edits : call.edits with
    | false =>
      obtain ⟨freelancer, funders⟩ := change.same_parties plain edits
      rw [Book.submitter_of_file, Book.submitter_of_file, now, stored]
      exact ⟨congrArg some freelancer, congrArg (List.map Prod.fst) funders⟩
    | true =>
      have found := invoice_of_file stored
      refine ⟨(edited_submitter filed edits plain aimed found ran).trans ?_,
        congrArg (List.map Prod.fst) (change.edited_funders edits)⟩
      rw [Book.submitter, found]
      rfl

theorem parties_here (nextFiled : Filed next.book) {after : File}
    (files : next.book.file = update world.book.file id (some after)) :
    next.book.submitter id = some after.invoice.freelancer ∧ next.book.lps id =
      after.funders.map Prod.fst := by
  rw [Book.submitter_of_file, nextFiled.lps, files, update_self]
  exact ⟨rfl, rfl⟩

theorem parties_elsewhere (filed : Filed world.book) (nextFiled : Filed next.book) {after : File}
    {other : Nat} (files : next.book.file = update world.book.file id (some after))
    (different : other ≠ id) :
    next.book.submitter other = world.book.submitter other ∧ next.book.lps other =
      world.book.lps other := by
  rw [Book.submitter_of_file, Book.submitter_of_file, nextFiled.lps, filed.lps, files,
    update_of_ne different]
  exact ⟨rfl, rfl⟩

end Parties

section FunderLists

theorem mem_addContribution {funder address : Address} :
    address ∈ (addContribution funder amount funders).map Prod.fst ↔
      address = funder ∨ address ∈ funders.map Prod.fst := by
  induction funders with
  | nil => simp [addContribution]
  | cons entry rest ih =>
    rw [addContribution]
    split
    · rename_i own
      simp only [List.map_cons, List.mem_cons, own]
      tauto
    · simp only [List.map_cons, List.mem_cons, ih]
      tauto

theorem mem_renameFunder {current new address : Address} :
    address ∈ (renameFunder current new funders).map Prod.fst ↔
      address ∈ funders.map Prod.fst ∧ address ≠ current ∨ address = new ∧
      current ∈ funders.map Prod.fst := by
  induction funders with
  | nil => simp [renameFunder]
  | cons entry rest ih =>
    have tail : address ∈ (renameFunder current new (entry :: rest)).map Prod.fst ↔
        address = (if entry.1 = current then new else entry.1) ∨
          address ∈ (renameFunder current new rest).map Prod.fst := by
      rw [renameFunder, List.map_cons, List.map_cons, List.mem_cons]
      split <;> rfl
    rw [tail, ih, List.map_cons, List.mem_cons, List.mem_cons]
    split
    · rename_i own
      subst own
      tauto
    · rename_i other
      constructor
      · rintro (rfl | ⟨listed, different⟩ | ⟨taken, held⟩)
        · exact .inl ⟨.inl rfl, other⟩
        · exact .inl ⟨.inr listed, different⟩
        · exact .inr ⟨taken, .inr held⟩
      · rintro (⟨rfl | listed, different⟩ | ⟨taken, rfl | held⟩)
        · exact .inl rfl
        · exact .inr (.inl ⟨listed, different⟩)
        · exact absurd rfl other
        · exact .inr (.inr ⟨taken, held⟩)

def FunderListed (file : File) : Prop := ∀ current ∈ file.invoice.funder,
    current ∈ file.funders.map Prod.fst

variable {env : Env contract} {world : World} {call : Call} {id : Nat} {file after : File}

theorem Change.funderListed (change : Change env world id call file after moves)
    (listed : FunderListed file) : FunderListed after := by
  cases change with
  | contributed => exact fun current held => mem_addContribution.mpr (.inr (listed current held))
  | completed =>
    intro current held
    cases held
    exact mem_addContribution.mpr (.inl rfl)
  | renamed current newLp _ held =>
    intro holder taken
    cases taken
    exact mem_renameFunder.mpr (.inr ⟨rfl, listed current held⟩)
  | _ => exact listed

theorem Change.funding_parties {funder : Address} {target : Nat} {verify : Bool}
    (change : Change env world id (.fundInvoice funder target amount verify) file after moves) :
    after.invoice.freelancer = file.invoice.freelancer ∧ after.funders =
      addContribution funder amount file.funders := by
  cases change with
  | edited _ _ _ _ _ edits => cases edits
  | contributed | completed => exact ⟨rfl, rfl⟩
  | restored restores => cases restores

theorem Change.position_parties {target : Nat} {newLp : Address}
    (change : Change env world id (.transferLpPosition target newLp) file after moves) :
    after.invoice.freelancer = file.invoice.freelancer ∧
      ∃ current, file.invoice.funder = some current ∧ after.funders =
        renameFunder current newLp file.funders := by
  cases change with
  | edited _ _ _ _ _ edits => cases edits
  | renamed current _ _ held => exact ⟨rfl, current, held, rfl⟩
  | restored restores => cases restores

end FunderLists

section Invariant

structure Indexed (world : World) : Prop where
  submitter : ∀ id address, (world.index.submitterInvoices address).count id =
    if world.book.submitter id = some address then 1 else 0
  lp : ∀ id address, (world.index.lpInvoices address).count id =
    if address ∈ world.book.lps id then 1 else 0

variable {env : Env contract} {world next : World} {call : Call} {id : Nat}

theorem Indexed.of_same (indexed : Indexed world) (index : next.index = world.index)
    (parties : ∀ id, next.book.submitter id = world.book.submitter id ∧
      next.book.lps id = world.book.lps id) :
    Indexed next := by
  constructor
  · intro id address
    rw [index, (parties id).1]
    exact indexed.submitter id address
  · intro id address
    rw [index, (parties id).2]
    exact indexed.lp id address

theorem Indexed.single (indexed : Indexed world) (id : Nat) (address : Address) :
    (world.index.lpInvoices address).count id ≤ 1 := by
  rw [indexed.lp]
  split <;> omega

theorem Indexed.submitted {params : InvoiceParams} (submission : Submission world next params)
    (held : Indexed world ∧ ∀ id, world.book.nextId ≤ id → world.book.invoices id = none) :
    Indexed next ∧ ∀ id, next.book.nextId ≤ id → next.book.invoices id = none := by
  obtain ⟨indexed, below⟩ := held
  obtain ⟨reputation, invoices⟩ := submission.invoices
  have vacant : world.book.submitter world.book.nextId = none := by
    rw [Book.submitter, below _ le_rfl]
    rfl
  refine ⟨⟨?_, ?_⟩, ?_⟩
  · intro id address
    rw [submission.index, addInvoiceToSubmitter_count, indexed.submitter]
    by_cases new : id = world.book.nextId
    · subst new
      have now : next.book.submitter world.book.nextId = some params.freelancer := by
        rw [Book.submitter, invoices, update_self]
        rfl
      rw [vacant, now]
      simp [eq_comm]
    · have same : next.book.submitter id = world.book.submitter id := by
        rw [Book.submitter, invoices, update_of_ne new]
        rfl
      rw [same]
      simp [new]
  · intro id address
    rw [submission.index, Book.lps, submission.funders]
    exact indexed.lp id address
  · intro id late
    rw [submission.nextId] at late
    rw [invoices, update_of_ne (by omega)]
    exact below id (by omega)

theorem SideEffect.index_of_plain (effect : SideEffect world next call)
    (plain : call.reindexes = false) : next.index = world.index := by
  cases effect with
  | unrelated _ sides | instalment _ _ _ _ _ sides | settled _ _ _ _ _ _ _ sides
  | defaulted _ _ _ _ sides | appealed _ _ _ _ _ _ sides | reviewed _ _ _ _ _ sides
  | read _ sides => exact congrArg Sides.index sides
  | submitted submits =>
    cases call with
    | submitInvoice | submitInvoicesBatch => cases plain
    | _ => cases submits
  | handedOver | funded | renamed => cases plain

theorem Indexed.handedOver {newFreelancer : Address} (indexed : Indexed world)
    (filed : Filed world.book) (nextFiled : Filed next.book)
    (stored : world.book.invoices id = some invoice)
    (ran : invoke env world (.transferInvoice id newFreelancer) = .ok next)
    (index : next.index = addInvoiceToSubmitter (removeInvoiceFromSubmitter world.index
      invoice.freelancer id)
      newFreelancer id) : Indexed next := by
  obtain ⟨file, after, moves, found, files, change⟩ := invoke_files filed rfl ran
  have funders := change.edited_funders rfl
  have lps := filed.lps id
  rw [found] at lps
  have submitter : next.book.submitter id = some newFreelancer := by
    have transferred := invoke_runs rfl ran
    rw [Book.submitter, transferInvoice_spec filed stored transferred]
    rfl
  have before : world.book.submitter id = some invoice.freelancer := by
    rw [Book.submitter, stored]
    rfl
  constructor
  · intro other address
    rw [index, addInvoiceToSubmitter_count, removeInvoiceFromSubmitter_count, indexed.submitter]
    by_cases here : other = id
    · subst here
      rw [submitter, before]
      grind
    · rw [(parties_elsewhere filed nextFiled files here).1]
      simp [here]
  · intro other address
    rw [index]
    show (world.index.lpInvoices address).count other = _
    rw [indexed.lp]
    by_cases here : other = id
    · subst here
      rw [(parties_here nextFiled files).2, funders, lps]
      rfl
    · rw [(parties_elsewhere filed nextFiled files here).2]

theorem Indexed.funded {funder : Address} {verify : Bool} (indexed : Indexed world)
    (filed : Filed world.book) (nextFiled : Filed next.book)
    (ran : invoke env world (.fundInvoice funder id amount verify) = .ok next)
    (index : next.index = addInvoiceToLp world.index funder id) : Indexed next := by
  obtain ⟨file, after, moves, found, files, change⟩ := invoke_files filed rfl ran
  obtain ⟨freelancer, funders⟩ := change.funding_parties
  have lps := filed.lps id
  rw [found] at lps
  constructor
  · intro other address
    have unindexed : next.index.submitterInvoices = world.index.submitterInvoices := by
      rw [index, addInvoiceToLp]
      split <;> rfl
    rw [unindexed, indexed.submitter]
    by_cases here : other = id
    · subst here
      rw [(parties_here nextFiled files).1, freelancer, Book.submitter_of_file, found]
      rfl
    · rw [(parties_elsewhere filed nextFiled files here).1]
  · intro other address
    rw [index, addInvoiceToLp_count _ _ _ _ _ (indexed.single id funder), indexed.lp]
    by_cases here : other = id
    · subst here
      rw [(parties_here nextFiled files).2, funders, lps]
      simp only [mem_addContribution, Option.elim]
      grind
    · rw [(parties_elsewhere filed nextFiled files here).2]
      simp [here]

theorem Indexed.renamed {newLp current : Address} (indexed : Indexed world)
    (filed : Filed world.book) (nextFiled : Filed next.book)
    (listed : ∀ file ∈ world.book.file id, FunderListed file)
    (stored : world.book.invoices id = some invoice) (held : invoice.funder = some current)
    (different : current ≠ newLp) (ran : invoke env world (.transferLpPosition id newLp) = .ok next)
    (index : next.index = addInvoiceToLp (removeInvoiceFromLp world.index current id) newLp id) :
    Indexed next := by
  obtain ⟨file, after, moves, found, files, change⟩ := invoke_files filed rfl ran
  obtain ⟨freelancer, holder, holds, funders⟩ := change.position_parties
  have same : file.invoice = invoice := by
    have loaded := invoices_of_file world.book id
    rw [found, stored] at loaded
    exact Option.some.inj loaded
  rw [same, held] at holds
  cases holds
  have member := listed file found current (by rw [same, held]; rfl)
  have lps := filed.lps id
  rw [found] at lps
  constructor
  · intro other address
    have unindexed : next.index.submitterInvoices = world.index.submitterInvoices := by
      rw [index, addInvoiceToLp]
      split <;> rfl
    rw [unindexed, indexed.submitter]
    by_cases here : other = id
    · subst here
      rw [(parties_here nextFiled files).1, freelancer, Book.submitter_of_file, found]
      rfl
    · rw [(parties_elsewhere filed nextFiled files here).1]
  · intro other address
    have single : ((removeInvoiceFromLp world.index current id).lpInvoices newLp).count id ≤ 1 := by
      rw [removeInvoiceFromLp_count, if_neg (fun both => different both.1.symm)]
      exact indexed.single id newLp
    rw [index, addInvoiceToLp_count _ _ _ _ _ single, removeInvoiceFromLp_count, indexed.lp]
    by_cases here : other = id
    · subst here
      rw [(parties_here nextFiled files).2, funders, lps]
      simp only [mem_renameFunder, Option.elim]
      grind
    · rw [(parties_elsewhere filed nextFiled files here).2]
      simp [here]

theorem step_indexed (action : Action contract) (filed : Filed world.book)
    (listed : ∀ id, ∀ file ∈ world.book.file id, FunderListed file) (indexed : Indexed world) :
    Indexed (step world action) := by
  have nextFiled := (step_effect action filed).2
  refine step_keeps Indexed action ?_ fun _ _ => ⟨indexed.submitter, indexed.lp⟩
  rintro env call rfl ran
  have effect := invoke_sides filed ran
  cases plain : call.reindexes with
  | false => exact indexed.of_same (effect.index_of_plain plain) (invoke_parties filed ran plain)
  | true =>
    generalize reached : step world (.invoke env call) = next at effect ran nextFiled ⊢
    cases effect with
    | unrelated unwritten =>
      cases call with
      | _ => first | (cases unwritten; done) | cases plain
    | submitted _ recorded =>
      exact (recorded.keeps (fun _ _ _ _ => Indexed.submitted) ⟨indexed, filed.below⟩).1
    | handedOver _ _ _ stored sides =>
      exact indexed.handedOver filed nextFiled stored ran (congrArg Sides.index sides)
    | funded _ _ _ _ _ _ _ _ _ _ _ _ sides =>
      exact indexed.funded filed nextFiled ran (congrArg Sides.index sides)
    | renamed id _ _ _ stored held different sides =>
      exact indexed.renamed filed nextFiled (listed id) stored held different ran
        (congrArg Sides.index sides)
    | instalment | settled | defaulted | appealed | reviewed | read => cases plain

theorem step_funderListed (action : Action contract) (filed : Filed world.book)
    (listed : ∀ id, ∀ file ∈ world.book.file id, FunderListed file) :
    ∀ id, ∀ file ∈ (step world action).book.file id, FunderListed file := by
  intro id file now
  cases step_touch action filed id with
  | same unchanged => exact listed id file (unchanged ▸ now)
  | fresh made _ found isFresh =>
    cases found.symm.trans now
    obtain ⟨_, _, _, rfl, _⟩ := isFresh
    exact (by rintro _ ⟨⟩)
  | changed env call before after invoked _ _ stored found change =>
    cases found.symm.trans now
    exact change.funderListed (listed id before stored)

theorem reach_indexed (clock : Clock) (balance : Balances) (actions : List (Action contract)) :
    Indexed (reach clock balance actions) :=
  (filed_invariant
    (fun world => Indexed world ∧ ∀ id, ∀ file ∈ world.book.file id, FunderListed file)
    (fun world action filed held _ =>
      ⟨step_indexed action filed held.2 held.1, step_funderListed action filed held.2⟩)
    (genesis_filed clock balance) ⟨⟨fun _ _ => rfl, fun _ _ => rfl⟩, (by rintro _ _ ⟨⟩)⟩
    (Along.always : Along step (fun _ _ => True) (genesis clock balance) actions)).1

/-- In every reachable state an invoice is in the submitter list of an address exactly once if the
address is its freelancer, in its provider list exactly once if the address is among its funders,
and otherwise not at all. -/
theorem indexes_match (clock : Clock) (balance : Balances) (actions : List (Action contract))
    (id : Nat) (address : Address) :
    let world := reach clock balance actions
    (world.index.submitterInvoices address).count id =
        (if (world.book.invoices id).map Invoice.freelancer = some address then 1 else 0) ∧
      (world.index.lpInvoices address).count id =
        if address ∈ (world.book.funders id).map Prod.fst then 1 else 0 := by
  have indexed := reach_indexed clock balance actions
  exact ⟨indexed.submitter id address, indexed.lp id address⟩

end Invariant

end InvoiceLiquidity
