import Iln.Invoice.Frame

/-! Order in the stores over whole runs: the reentrancy lock is open between calls, the key
`InvoiceCount` is never written, nothing is configured before there is an administrator, and the
invoice NFT and its owner entry are written together. -/
namespace InvoiceLiquidity

open Outcome FixedWidth Transition Function

variable {contract : Address}

section InvoiceNfts

def NftSound (nft : NftStore) : Prop :=
  ∀ id metadata, nft.invoiceNft id = some metadata → nft.invoiceNftOwner id = some metadata.owner

theorem NftSound.update {nft : NftStore} (sound : NftSound nft) (id : Nat)
    (minted : Option InvoiceNftMetadata) :
    NftSound ⟨update nft.invoiceNft id minted,
      update nft.invoiceNftOwner id (minted.map InvoiceNftMetadata.owner)⟩ := by
  intro other metadata stored
  by_cases same : other = id
  · subst same
    simp only [update_self] at stored ⊢
    rw [stored]
    rfl
  · simp only [update_of_ne same] at stored ⊢
    exact sound other metadata stored

variable {clock : Clock} {book : Book} {nft next : NftStore} {id : Nat}

theorem burnInvoiceNft_sound {owner : Address} (sound : NftSound nft)
    (ran : burnInvoiceNft nft id owner = .ok next) : NftSound next := by
  simp only [burnInvoiceNft, ok_iff] at ran
  obtain ⟨_, _, _, _, rfl⟩ := ran
  exact sound.update id none

theorem syncNftState_sound (sound : NftSound nft)
    (ran : syncNftState clock book nft id = .ok next) : NftSound next := by
  simp only [syncNftState] at ran
  split at ran
  · split at ran
    · obtain ⟨_, _, burnt⟩ := bind_eq_ok.mp ran
      exact burnInvoiceNft_sound sound burnt
    · cases ran
      exact sound
  · split at ran
    · split at ran
      · obtain ⟨owner, _, moved⟩ := bind_eq_ok.mp ran
        split at moved
        · cases moved
          exact sound
        · simp only [transferInvoiceNft, ok_iff] at moved
          obtain ⟨metadata, _, _, _, rfl⟩ := moved
          exact sound.update id (some { metadata with owner := _ })
      · simp only [mintInvoiceNft, ok_iff] at ran
        obtain ⟨_, _, rfl⟩ := ran
        exact sound.update id (some _)
    · split at ran
      · obtain ⟨_, _, burnt⟩ := bind_eq_ok.mp ran
        exact burnInvoiceNft_sound sound burnt
      · cases ran
        exact sound

/-- In a sound store the owner entry is never missing and always right, so the update returns. -/
theorem syncNftState_returns (sound : NftSound nft) (clock : Clock) (book : Book) (id : Nat) :
    ∃ after, syncNftState clock book nft id = .ok after := by
  unfold syncNftState
  cases minted : nft.invoiceNft id with
  | none =>
    cases book.tryLoadInvoice id with
    | none => exact ⟨nft, rfl⟩
    | some invoice =>
      by_cases carries : invoice.status.carriesNft = true
      · simp [carries, mintInvoiceNft, minted, require]
      · simp [carries]
  | some metadata =>
    have owned := sound id metadata minted
    have burnt : ∃ after, burnInvoiceNft nft id metadata.owner = .ok after := by
      simp [burnInvoiceNft, minted]
    cases book.tryLoadInvoice id with
    | none => simpa [owned] using burnt
    | some invoice =>
      by_cases carries : invoice.status.carriesNft = true
      · by_cases same : metadata.owner = nftOwner invoice (book.funders id)
        · simp [carries, owned, same]
        · simp [carries, owned, same, transferInvoiceNft, minted]
      · simpa [carries, owned] using burnt

structure Tidy (before after : World) : Prop where
  control : Keeps before.control after.control
  nft : NftSound before.nft → NftSound after.nft

theorem Follows.sound {call : Call} {before after : World} (follows : Follows call before after)
    (sound : NftSound before.nft) : NftSound after.nft := by
  unfold Follows at follows
  split at follows
  · exact syncNftState_sound sound follows
  · rw [follows]
    exact sound

theorem Kept.tidy {call : Call} {before after : World} (kept : Kept call before after) :
    Tidy before after :=
  ⟨kept.control, kept.nft.sound⟩

end InvoiceNfts

section Runs

/-- The lock is open, the key `InvoiceCount` was never written, nothing was configured before there
was an administrator, and the NFT store is sound. -/
structure Orderly (world : World) : Prop where
  unlocked : world.control.reentrancyLock = false
  uncounted : world.control.invoiceCount = none
  unset : world.control.admin = none →
    world.control.feeRate = none ∧ world.control.feeTiers = [] ∧ world.control.multisig.admin = none
  nft : NftSound world.nft

variable {env : Env contract} {world next : World}

theorem Orderly.tidy (orderly : Orderly world) (tidy : Tidy world next) : Orderly next where
  unlocked := tidy.control.lock.trans orderly.unlocked
  uncounted := tidy.control.count.trans orderly.uncounted
  unset := by
    intro absent
    rw [tidy.control.admin] at absent
    obtain ⟨rate, tiers, multisig⟩ := orderly.unset absent
    have kept := tidy.control.ungoverned (by simp [Control.Governed, absent, multisig])
    exact ⟨kept.1.trans rate, kept.2.1.trans tiers, kept.2.2.trans multisig⟩
  nft := tidy.nft orderly.nft

theorem invoke_cases {call : Call} (ran : invoke env world call = .ok next) :
    (∃ admin usdc eurc xlm, call = .initializeContract admin usdc eurc xlm ∧
      initializeContract world admin usdc eurc xlm = .ok next) ∨
    (∃ newAdmin begun, call = .setAdmin newAdmin ∧
      beginAdminCall env world.clock world.control .setAdmin adminChangeCooldownLedgers =
        .ok begun ∧
      next = { world with control := { begun with admin := some newAdmin } }) ∨
    Tidy world next := by
  rcases invoke_routed ran with ⟨control, routed, rfl⟩ | ⟨_, ran⟩
  · by_cases replaced : ∃ newAdmin, call = .setAdmin newAdmin
    · obtain ⟨newAdmin, rfl⟩ := replaced
      simp only [invokeControl, setAdmin, Option.some.injEq, ok_iff] at routed
      obtain ⟨begun, passed, rfl⟩ := routed
      exact .inr (.inl ⟨newAdmin, begun, rfl, passed, rfl⟩)
    · exact .inr (.inr ⟨(invokeControl_write routed).spares.guards (not_exists.mp replaced), id⟩)
  · by_cases fresh : ∃ admin usdc eurc xlm, call = .initializeContract admin usdc eurc xlm
    · obtain ⟨admin, usdc, eurc, xlm, rfl⟩ := fresh
      exact .inl ⟨admin, usdc, eurc, xlm, rfl, ran⟩
    · refine .inr (.inr ((invokeWorld_writes ran).kept ?_).tidy)
      intro admin usdc eurc xlm same
      exact fresh ⟨admin, usdc, eurc, xlm, same⟩

theorem step_orderly (action : Action contract) (orderly : Orderly world) :
    Orderly (step world action) := by
  cases action with
  | credit | advance => exact ⟨orderly.unlocked, orderly.uncounted, orderly.unset, orderly.nft⟩
  | invoke env call =>
    cases ran : invoke env world call with
    | error =>
      simp only [step, ran]
      exact orderly
    | ok =>
      simp only [step, ran]
      rcases invoke_cases ran with ⟨_, _, _, _, _, done⟩ | ⟨_, _, _, passed, rfl⟩ | tidy
      · simp only [initializeContract, ok_iff] at done
        obtain ⟨_, _, rfl⟩ := done
        exact ⟨orderly.unlocked, orderly.uncounted, (by rintro ⟨⟩), orderly.nft⟩
      · have kept := (beginAdminCall_begun passed).steady
        exact ⟨kept.lock.trans orderly.unlocked, kept.count.trans orderly.uncounted,
          (by rintro ⟨⟩), orderly.nft⟩
      · exact orderly.tidy tidy

theorem genesis_orderly (clock : Clock) (balance : Balances) : Orderly (genesis clock balance) :=
  ⟨rfl, rfl, fun _ => ⟨rfl, rfl, rfl⟩, fun _ _ stored => by cases stored⟩

theorem exec_orderly (orderly : Orderly world) (actions : List (Action contract)) :
    Orderly (exec step world actions) :=
  invariant Orderly (fun _ action held => step_orderly action held) actions orderly

end Runs

end InvoiceLiquidity
