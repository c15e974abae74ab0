import Iln.Invoice.Housekeeping
import Iln.Invoice.Lifecycle

/-! The invoice NFT against the invoice it stands for (the invariant at the head of `nft.rs`). Every
call that moves a status synchronises the NFT afterwards, apart from the three that only act on
pending invoices, which carry none, and `cancel_invoice`, which also accepts a partially funded
invoice and leaves its NFT behind. -/
namespace InvoiceLiquidity

open Outcome FixedWidth Transition Function

variable {contract : Address}

/-- The earliest of the largest contributors. -/
def Leads (holder : Address) (funders : List (Address × Int)) : Prop :=
  ∃ earlier amount later, funders = earlier ++ (holder, amount) :: later ∧
    (∀ entry ∈ earlier, entry.2 < amount) ∧ ∀ entry ∈ later, entry.2 ≤ amount

def HoldsClaim (invoice : Invoice) (funders : List (Address × Int)) (holder : Address) : Prop :=
  match invoice.funder with
  | some lp => holder = lp
  | none => if funders = [] then holder = invoice.freelancer else Leads holder funders

theorem leadFunder_leads (earlier later rest : List (Address × Int)) (lead : Address × Int)
    (before : ∀ entry ∈ earlier, entry.2 < lead.2) (after : ∀ entry ∈ later, entry.2 ≤ lead.2) :
    Leads (leadFunder lead rest) (earlier ++ lead :: (later ++ rest)) := by
  induction rest generalizing earlier lead later with
  | nil =>
    rw [List.append_nil]
    exact ⟨earlier, lead.2, later, rfl, before, after⟩
  | cons entry rest ih =>
    simp only [leadFunder]
    by_cases larger : lead.2 < entry.2
    · -- everything up to the new lead is smaller
      rw [if_pos larger]
      have scanned := ih (earlier ++ lead :: later) [] entry ?_ (by simp)
      · simpa using scanned
      · intro other member
        rw [List.mem_append, List.mem_cons] at member
        rcases member with early | rfl | late
        · exact (before other early).trans larger
        · exact larger
        · exact (after other late).trans_lt larger
    · rw [if_neg larger]
      have scanned := ih earlier (later ++ [entry]) lead before ?_
      · simpa using scanned
      · intro other member
        rw [List.mem_append, List.mem_singleton] at member
        rcases member with late | rfl
        · exact after other late
        · exact not_lt.mp larger

theorem nftOwner_holdsClaim (invoice : Invoice) (funders : List (Address × Int)) :
    HoldsClaim invoice funders (nftOwner invoice funders) := by
  unfold HoldsClaim nftOwner
  cases invoice.funder with
  | some => rfl
  | none =>
    cases funders with
    | nil => exact (if_pos rfl).mpr rfl
    | cons first rest =>
      have leads := leadFunder_leads [] [] rest first (by simp) (by simp)
      simpa using leads

section Synchronisation

variable {clock : Clock} {book : Book} {nft next : NftStore} {id : Nat} {invoice : Invoice}

structure Represents (metadata : InvoiceNftMetadata) (invoice : Invoice)
    (funders : List (Address × Int)) : Prop where
  owner : metadata.owner = nftOwner invoice funders
  amount : metadata.amount = invoice.amount
  dueDate : metadata.dueDate = invoice.dueDate
  discountRate : metadata.discountRate = invoice.discountRate
  token : metadata.token = invoice.token

theorem syncNftState_other {other : Nat} (elsewhere : other ≠ id)
    (ran : syncNftState clock book nft id = .ok next) :
    next.invoiceNft other = nft.invoiceNft other := by
  have burnt : ∀ {owner}, burnInvoiceNft nft id owner = .ok next →
      next.invoiceNft other = nft.invoiceNft other := by
    intro owner burnt
    simp only [burnInvoiceNft, ok_iff] at burnt
    obtain ⟨_, _, _, _, rfl⟩ := burnt
    exact update_of_ne elsewhere _ _
  simp only [syncNftState] at ran
  split at ran
  · split at ran
    · obtain ⟨_, _, ran⟩ := bind_eq_ok.mp ran
      exact burnt ran
    · cases ran
      rfl
  · split at ran
    · split at ran
      · obtain ⟨owner, _, moved⟩ := bind_eq_ok.mp ran
        split at moved
        · cases moved
          rfl
        · simp only [transferInvoiceNft, ok_iff] at moved
          obtain ⟨_, _, _, _, rfl⟩ := moved
          exact update_of_ne elsewhere _ _
      · simp only [mintInvoiceNft, ok_iff] at ran
        obtain ⟨_, _, rfl⟩ := ran
        exact update_of_ne elsewhere _ _
    · split at ran
      · obtain ⟨_, _, ran⟩ := bind_eq_ok.mp ran
        exact burnt ran
      · cases ran
        rfl

theorem syncNftState_burnt (loaded : book.tryLoadInvoice id = some invoice)
    (unclaimed : invoice.status.carriesNft = false)
    (ran : syncNftState clock book nft id = .ok next) : next.invoiceNft id = none := by
  simp only [syncNftState, loaded, unclaimed, Bool.false_eq_true, if_false] at ran
  split at ran
  · obtain ⟨_, _, burnt⟩ := bind_eq_ok.mp ran
    simp only [burnInvoiceNft, ok_iff] at burnt
    obtain ⟨_, _, _, _, rfl⟩ := burnt
    exact update_self _ _ _
  · rename_i absent
    cases ran
    simpa using absent

/-- With a claim there is one, minted from the invoice or kept with its owner brought up to date. -/
theorem syncNftState_represents (sound : NftSound nft)
    (loaded : book.tryLoadInvoice id = some invoice) (claimed : invoice.status.carriesNft = true)
    (kept : ∀ metadata, nft.invoiceNft id = some metadata →
      metadata.amount = invoice.amount ∧ metadata.dueDate = invoice.dueDate ∧
        metadata.discountRate = invoice.discountRate ∧ metadata.token = invoice.token)
    (ran : syncNftState clock book nft id = .ok next) :
    ∃ metadata, next.invoiceNft id = some metadata ∧
      Represents metadata invoice (book.funders id) := by
  simp only [syncNftState, loaded, claimed, if_true] at ran
  cases minted : nft.invoiceNft id with
  | none =>
    simp only [minted, Option.isSome_none, Bool.false_eq_true, if_false, mintInvoiceNft,
      ok_iff] at ran
    obtain ⟨_, _, rfl⟩ := ran
    exact ⟨_, update_self _ _ _, rfl, rfl, rfl, rfl, rfl⟩
  | some metadata =>
    obtain ⟨amount, dueDate, discountRate, token⟩ := kept metadata minted
    simp only [minted, Option.isSome_some, if_true, sound id metadata minted, ok_iff] at ran
    obtain ⟨_, owned, moved⟩ := ran
    cases owned
    split at moved
    · rename_i same
      cases moved
      exact ⟨metadata, minted, same, amount, dueDate, discountRate, token⟩
    · simp only [transferInvoiceNft, minted, ok_iff] at moved
      obtain ⟨_, same, _, _, rfl⟩ := moved
      cases same
      exact ⟨_, update_self _ _ _, rfl, amount, dueDate, discountRate, token⟩

end Synchronisation

section Calls

variable {env : Env contract} {world next : World} {id : Nat} {call : Call} {file after : File}
  {moves : List Movement}

theorem invokeControl_syncs {result : Result Control}
    (controlled : invokeControl env world call = some result) : call.syncs = none := by
  cases call <;> first | rfl | cases controlled

theorem invoke_follows (ran : invoke env world call = .ok next) : Follows call world next := by
  rcases invoke_routed ran with ⟨_, routed, rfl⟩ | ⟨_, ran⟩
  · simp only [Follows, invokeControl_syncs routed]
  · by_cases fresh : ∃ admin usdc eurc xlm, call = .initializeContract admin usdc eurc xlm
    · obtain ⟨admin, usdc, eurc, xlm, rfl⟩ := fresh
      simp only [invokeWorld, initializeContract, ok_iff] at ran
      obtain ⟨_, _, rfl⟩ := ran
      exact rfl
    · refine ((invokeWorld_writes ran).kept ?_).nft
      intro admin usdc eurc xlm same
      exact fresh ⟨admin, usdc, eurc, xlm, same⟩

theorem Call.target_of_syncs {id : Nat} (syncs : call.syncs = some id) : call.target = some id := by
  cases call <;> first | exact syncs | cases syncs

theorem Follows.elsewhere (follows : Follows call world next) (untargeted : call.target ≠ some id) :
    next.nft.invoiceNft id = world.nft.invoiceNft id := by
  unfold Follows at follows
  split at follows
  · rename_i other syncs
    refine syncNftState_other ?_ follows
    rintro rfl
    exact untargeted (Call.target_of_syncs syncs)
  · rw [follows]

/-- Apart from the edits of a pending invoice, no call touches what the NFT repeats. -/
theorem Change.nft_terms (change : Change env world id call file after moves)
    (plain : call.edits = false) :
    after.invoice.amount = file.invoice.amount ∧ after.invoice.dueDate = file.invoice.dueDate ∧
      after.invoice.discountRate = file.invoice.discountRate ∧
      after.invoice.token = file.invoice.token := by
  cases change with
  | edited _ _ _ _ _ edits =>
    rw [plain] at edits
    cases edits
  | _ => exact ⟨rfl, rfl, rfl, rfl⟩

/-- A change without synchronisation is one of a pending invoice, or a cancellation. -/
theorem Change.unsynced (change : Change env world id call file after moves)
    (aimed : call.target = some id) (unsynced : call.syncs ≠ some id) :
    (file.invoice.status = .pending ∨ call = .cancelInvoice id ∧
      file.invoice.status = .partiallyFunded) ∧
      after.invoice.status.carriesNft = false := by
  cases change with
  | edited _ _ _ _ _ _ pending => exact ⟨.inl pending, by rw [pending]; rfl⟩
  | cancelled fundable => exact ⟨fundable.imp_right fun partly => ⟨rfl, partly⟩, rfl⟩
  | expired pending => exact ⟨.inl pending, rfl⟩
  | restored restores => cases call <;> first | exact absurd aimed unsynced | cases restores
  | _ => exact absurd rfl unsynced

end Calls

section Invariant

variable {world : World} {id : Nat}

def Tracks (minted : Option InvoiceNftMetadata) : Option File → Prop
  | none => minted = none
  | some file =>
    if file.invoice.status.carriesNft = true then
      ∃ metadata, minted = some metadata ∧ Represents metadata file.invoice file.funders
    else minted = none

theorem tracks_unclaimed {minted : Option InvoiceNftMetadata} {file : File}
    (unclaimed : file.invoice.status.carriesNft = false) : Tracks minted (some file) ↔
      minted = none := by
  simp [Tracks, unclaimed]

/-- Cancellations that do not meet the invoice partially funded. -/
def SparesPartial (id : Nat) (world : World) : Action contract → Prop
  | .invoke _ (.cancelInvoice other) => other = id → world.statusOf id ≠ some .partiallyFunded
  | _ => True

theorem tracks_synced {env : Env contract} {next : World} {call : Call} {file after : File}
    {moves : List Movement} (filed : Filed next.book) (sound : NftSound world.nft)
    (now : next.book.file id = some after) (change : Change env world id call file after moves)
    (tracks : Tracks (world.nft.invoiceNft id) (some file)) (syncs : call.syncs = some id)
    (follows : Follows call world next) : Tracks (next.nft.invoiceNft id) (some after) := by
  simp only [Follows, syncs] at follows
  obtain ⟨invoice, found, rfl⟩ := Option.map_eq_some_iff.mp now
  have loaded : next.book.tryLoadInvoice id = some invoice := by rw [filed.tryLoadInvoice, found]
  cases claimed : invoice.status.carriesNft with
  | false =>
    rw [tracks_unclaimed claimed]
    exact syncNftState_burnt loaded claimed follows
  | true =>
    simp only [Tracks, claimed, if_true]
    refine syncNftState_represents sound loaded claimed ?_ follows
    intro metadata minted
    -- an NFT that is already there repeats the terms the invoice had before
    simp only [Tracks, minted] at tracks
    split at tracks
    · obtain ⟨_, same, represents⟩ := tracks
      cases same
      have plain : call.edits = false := by cases call <;> first | rfl | cases syncs
      obtain ⟨amount, dueDate, discountRate, token⟩ := change.nft_terms plain
      exact ⟨represents.amount.trans amount.symm, represents.dueDate.trans dueDate.symm,
        represents.discountRate.trans discountRate.symm, represents.token.trans token.symm⟩
    · cases tracks

theorem step_tracks (action : Action contract) (filed : Filed world.book)
    (sound : NftSound world.nft) (tracks : Tracks (world.nft.invoiceNft id) (world.book.file id))
    (spares : SparesPartial id world action) :
    Tracks ((step world action).nft.invoiceNft id) ((step world action).book.file id) := by
  -- an action that is not about the invoice, or failed, leaves the NFT as it is
  have still : action.target ≠ some id ∨ succeeds world action = false →
      (step world action).nft.invoiceNft id = world.nft.invoiceNft id := by
    intro quiet
    cases action with
    | credit | advance => rfl
    | invoke env call =>
      cases finished : succeeds world (.invoke env call) with
      | false => rw [step_of_failed finished]
      | true =>
        have untargeted : call.target ≠ some id := quiet.resolve_right (by simp [finished])
        exact (invoke_follows (invoke_of_succeeds finished)).elsewhere untargeted
  cases step_touch action filed id with
  | same file _ quiet =>
    rw [file, still quiet]
    exact tracks
  | fresh file absent now isFresh _ untargeted =>
    obtain ⟨_, _, _, rfl, _⟩ := isFresh
    rw [absent] at tracks
    rw [now, still (.inl untargeted), tracks_unclaimed rfl]
    exact tracks
  | changed env call file after invoked aimed ran stored now change =>
    subst invoked
    have follows := invoke_follows (invoke_of_succeeds ran)
    rw [stored] at tracks
    rw [now]
    by_cases syncs : call.syncs = some id
    · exact tracks_synced (step_effect _ filed).2 sound now change tracks syncs follows
    · obtain ⟨origin, unclaimed⟩ := change.unsynced aimed syncs
      have none : call.syncs = none := by
        cases other : call.syncs with
        | none => rfl
        | some other =>
          have both := (Call.target_of_syncs other).symm.trans aimed
          cases both
          exact absurd other syncs
      simp only [Follows, none] at follows
      rw [tracks_unclaimed unclaimed, follows]
      rcases origin with pending | ⟨rfl, partly⟩
      · rwa [tracks_unclaimed (by rw [pending]; rfl)] at tracks
      · refine absurd ?_ (spares rfl)
        rw [statusOf_eq_file, stored]
        simp [partly]

def NftAgrees (world : World) (id : Nat) : Prop :=
  ∀ invoice, world.book.tryLoadInvoice id = some invoice →
    ((world.nft.invoiceNft id).isSome = true ↔
      invoice.status ∈ [InvoiceStatus.funded, .partiallyFunded, .defaulted, .appealed, .disputed]) ∧
    ∀ metadata, world.nft.invoiceNft id = some metadata →
      world.nft.invoiceNftOwner id = some metadata.owner ∧
      HoldsClaim invoice (world.book.funders id) metadata.owner ∧ metadata.amount = invoice.amount ∧
      metadata.dueDate = invoice.dueDate ∧ metadata.discountRate = invoice.discountRate ∧
      metadata.token = invoice.token

theorem carriesNft_iff (status : InvoiceStatus) : status.carriesNft = true ↔
    status ∈ [InvoiceStatus.funded, .partiallyFunded, .defaulted, .appealed, .disputed] := by
  cases status <;> decide

theorem nftAgrees_of_tracks (filed : Filed world.book) (sound : NftSound world.nft)
    (tracks : Tracks (world.nft.invoiceNft id) (world.book.file id)) : NftAgrees world id := by
  intro invoice loaded
  rw [filed.tryLoadInvoice] at loaded
  rw [file_of_invoice loaded] at tracks
  rw [← carriesNft_iff]
  cases claimed : invoice.status.carriesNft with
  | false =>
    rw [tracks_unclaimed claimed] at tracks
    refine ⟨by simp [tracks], ?_⟩
    intro metadata minted
    rw [tracks] at minted
    cases minted
  | true =>
    simp only [Tracks, claimed, if_true] at tracks
    obtain ⟨metadata, minted, represents⟩ := tracks
    refine ⟨by simp [minted], ?_⟩
    intro other same
    rw [minted] at same
    cases same
    have holds := nftOwner_holdsClaim invoice (world.book.funders id)
    rw [← represents.owner] at holds
    exact ⟨sound id metadata minted, holds, represents.amount, represents.dueDate,
      represents.discountRate, represents.token⟩

/-- As long as nobody cancels the invoice while it is partially funded, its NFT agrees with it in
every state of the run. -/
theorem nft_agrees (clock : Clock) (balance : Balances) (id : Nat)
    {actions : List (Action contract)}
    (spared : Along step (SparesPartial id) (genesis clock balance) actions) :
    Throughout step (fun world => NftAgrees world id) (genesis clock balance) actions := by
  have kept : Throughout step (fun world : World => (Filed world.book ∧ Orderly world) ∧
      Tracks (world.nft.invoiceNft id) (world.book.file id)) (genesis clock balance) actions := by
    refine throughout_along _ ?_ ⟨⟨genesis_filed clock balance, genesis_orderly clock balance⟩, rfl⟩
      spared
    rintro world action ⟨⟨filed, orderly⟩, tracks⟩ spares
    exact ⟨⟨(step_effect action filed).2, step_orderly action orderly⟩,
      step_tracks action filed orderly.nft tracks spares⟩
  refine kept.mono ?_
  rintro world ⟨⟨filed, orderly⟩, tracks⟩
  exact nftAgrees_of_tracks filed orderly.nft tracks

def cancelledHalf : List (Action ⟨0⟩) :=
  openingCalls 1000000 500 ++
    [signedBy [3] (.fundInvoice ⟨3⟩ 1 200000 false), signedBy [4] (.fundInvoice ⟨4⟩ 1 300000 false),
      signedBy [5] (.cancelInvoice 1)]

/-- Before the cancellation the larger contributor holds the NFT. -/
theorem nft_agrees_of_halfFunded : Along step (SparesPartial 1) market (cancelledHalf.take 4) ∧
      (traded (cancelledHalf.take 4)).nft.invoiceNftOwner 1 = some ⟨4⟩ ∧
      Throughout step (fun world => NftAgrees world 1) market (cancelledHalf.take 4) := by
  have spared : Along step (SparesPartial 1) market (cancelledHalf.take 4) := by
    simp only [cancelledHalf, openingCalls, List.take, List.append, Along, SparesPartial,
      signedBy, and_self, HAppend.hAppend, Append.append]
  exact ⟨spared, by decide +kernel, nft_agrees ⟨1000, 10⟩ marketBalances 1 spared⟩

/-- The cancelled invoice keeps its NFT. -/
theorem cancelledHalf_keeps_nft : ¬ NftAgrees (traded cancelledHalf) 1 := by
  have stored : (traded cancelledHalf).statusOf 1 = some .cancelled := by decide +kernel
  have minted : ((traded cancelledHalf).nft.invoiceNft 1).isSome = true := by decide +kernel
  have filed : Filed (traded cancelledHalf).book := exec_filed (genesis_filed _ _) _
  intro agrees
  obtain ⟨invoice, found, cancelled⟩ := Option.map_eq_some_iff.mp stored
  have listed := (agrees invoice (by rw [filed.tryLoadInvoice, found])).1.mp minted
  rw [cancelled] at listed
  revert listed
  decide

end Invariant

end InvoiceLiquidity
