import Iln.Invoice.Settlement

/-! Errors that say one thing. `InvoiceExpired` and `NotYetDefaulted` answer a question about the
deadline and `Reentrancy` one about the lock: the helpers that the entry points share return none
of them. -/
namespace InvoiceLiquidity

open Outcome FixedWidth

variable {contract : Address}

def ContractError.singular : ContractError → Bool
  | .invoiceExpired | .notYetDefaulted | .reentrancy => true
  | _ => false

variable {env : Env contract} {error : ContractError}

theorem trap_ne_returned (error : ContractError) : (Failure.trap : Failure) ≠ .returned error := by
  intro same
  cases same

theorem returned_ne {other : ContractError} (single : error.singular = true)
    (plain : other.singular = false) : Failure.returned other ≠ .returned error := by
  intro same
  cases same
  rw [plain] at single
  cases single

variable {α β : Type} {other : ContractError} {condition : Prop} [Decidable condition]

theorem avoids_trapping {rest : Unit → Result β}
    (later : condition → Avoids (.returned error) (rest ())) :
    Avoids (.returned error) (require condition .trap >>= rest) :=
  (avoids_require (trap_ne_returned error)).bind fun _ passed => later (require_eq_ok.mp passed)

theorem avoids_asking (answer : other = error → condition) :
    Avoids (Failure.returned error) (require condition (.returned other)) := by
  by_cases asked : other = error
  · exact avoids_require_of_holds (answer asked)
  · exact avoids_require fun same => asked (Failure.returned.inj same)

theorem lockReentrancy_avoids {control : Control}
    (admitted : .reentrancy = error → control.reentrancyLock = false) :
    Avoids (.returned error) (lockReentrancy control) :=
  (avoids_asking admitted).bind fun _ _ => avoids_ok _ _

theorem notifyDistribution_avoids (control : Control) :
    Avoids (.returned error) (notifyDistribution env control) := by
  unfold notifyDistribution
  split
  · exact avoids_ok _ _
  · exact avoids_require (trap_ne_returned error)

variable (single : error.singular = true)
include single

theorem avoids_guarding {rest : Unit → Result β} (plain : other.singular = false)
    (later : condition → Avoids (.returned error) (rest ())) :
    Avoids (.returned error) (require condition (.returned other) >>= rest) :=
  (avoids_require (returned_ne single plain)).bind fun _ passed => later (require_eq_ok.mp passed)

theorem avoids_finding {rest : α → Result β} {value : Option α} (plain : other.singular = false)
    (later : ∀ found, value = some found → Avoids (.returned error) (rest found)) :
    Avoids (.returned error) (orFail value (.returned other) >>= rest) :=
  (avoids_orFail (returned_ne single plain)).bind fun found loaded =>
  later found (orFail_eq_ok.mp loaded)

theorem requireUnpaused_avoids (control : Control) : Avoids (.returned error)
    (requireUnpaused control) :=
  avoids_require (returned_ne single rfl)

theorem loadInvoice_avoids (book : Book) (id : Nat) : Avoids (.returned error)
    (loadInvoice book id) :=
  avoids_orFail (returned_ne single rfl)

theorem requireSubmitter_avoids (caller : Address) (invoice : Invoice) :
    Avoids (.returned error) (requireSubmitter env caller invoice) :=
  avoids_trapping fun _ => avoids_require (returned_ne single rfl)

theorem validateInvoiceTermsWithToken_avoids (clock : Clock) (control : Control) (amount : Int)
    (dueDate discountRate : Nat) (token : Address) :
    Avoids (.returned error)
    (validateInvoiceTermsWithToken clock control amount dueDate discountRate token) := by
  refine avoids_finding single rfl fun _ _ => ?_
  refine avoids_guarding single rfl fun _ => ?_
  refine avoids_guarding single rfl fun _ => ?_
  refine avoids_guarding single rfl fun _ => ?_
  refine avoids_guarding single rfl fun _ => ?_
  refine avoids_guarding single rfl fun _ => ?_
  exact avoids_require (returned_ne single rfl)

theorem requireAuthorized_avoids (token holder : Address) :
    Avoids (.returned error) (requireAuthorized env token holder) := by
  unfold requireAuthorized
  split
  · exact avoids_ok _ _
  · exact avoids_error (returned_ne single rfl)
  · split
    · exact avoids_error (returned_ne single rfl)
    · exact avoids_error (returned_ne single rfl)

theorem transferOutStrict_avoids (treasury : Treasury) (token recipient : Address) (amount : Int) :
    Avoids (.returned error) (transferOutStrict env treasury token recipient amount) := by
  unfold transferOutStrict
  split
  · exact avoids_ok _ _
  · refine avoids_guarding single rfl fun _ => ?_
    refine Avoids.bind (requireAuthorized_avoids single token recipient) fun _ _ => ?_
    exact avoids_trapping fun _ => avoids_ok _ _

theorem payOrEscrow_avoids (treasury : Treasury) (token recipient : Address) (amount : Int) :
    Avoids (.returned error) (payOrEscrow env treasury token recipient amount) := by
  unfold payOrEscrow
  split
  · exact avoids_ok _ _
  · refine avoids_guarding single rfl fun _ => ?_
    split
    · exact avoids_trapping fun _ => avoids_ok _ _
    · refine avoids_finding single rfl fun _ _ => ?_
      exact avoids_finding single rfl fun _ _ => avoids_ok _ _

theorem payEach_avoids (token : Address) (payout : Int → Int) (treasury : Treasury)
    (funders : List (Address × Int)) :
    Avoids (.returned error) (payEach env token payout treasury funders) :=
  avoids_forEach (fun _ _ => payOrEscrow_avoids single _ _ _ _) _ _

theorem burnInvoiceNft_avoids (nft : NftStore) (id : Nat) (owner : Address) :
    Avoids (.returned error) (burnInvoiceNft nft id owner) := by
  refine avoids_finding single rfl fun _ _ => ?_
  exact avoids_guarding single rfl fun _ => avoids_ok _ _

theorem transferInvoiceNft_avoids (nft : NftStore) (id : Nat) (source target : Address) :
    Avoids (.returned error) (transferInvoiceNft nft id source target) := by
  refine avoids_finding single rfl fun _ _ => ?_
  exact avoids_guarding single rfl fun _ => avoids_ok _ _

theorem syncNftState_avoids (clock : Clock) (book : Book) (nft : NftStore) (id : Nat) :
    Avoids (.returned error) (syncNftState clock book nft id) := by
  simp only [syncNftState]
  split
  · split
    · exact (avoids_orFail (trap_ne_returned error)).bind fun _ _ =>
        burnInvoiceNft_avoids single _ _ _
    · exact avoids_ok _ _
  · split
    · split
      · refine avoids_finding single rfl fun _ _ => ?_
        split
        · exact avoids_ok _ _
        · exact transferInvoiceNft_avoids single _ _ _ _
      · exact avoids_guarding single rfl fun _ => avoids_ok _ _
    · split
      · exact avoids_finding single rfl fun _ _ => burnInvoiceNft_avoids single _ _ _
      · exact avoids_ok _ _

theorem requirePayerReputation_avoids (world : World) (payer : Address) :
    Avoids (.returned error) (requirePayerReputation world payer) := by
  unfold requirePayerReputation
  split
  · exact avoids_guarding single rfl fun _ => avoids_ok _ _
  · exact avoids_ok _ _

theorem requireVerifiedPayer_avoids (clock : Clock) (control : Control) (invoice : Invoice)
    (requested : Bool) :
    Avoids (.returned error) (requireVerifiedPayer env clock control invoice requested) := by
  unfold requireVerifiedPayer
  split
  · refine Avoids.bind ?_ fun answer _ => ?_
    · unfold evaluateIdentityVerification
      dsimp only
      split
      · exact avoids_ok _ _
      · exact avoids_ok _ _
      · split
        · exact avoids_ok _ _
        · exact avoids_ok _ _
        · refine Avoids.bind (avoids_orFail (trap_ne_returned error)) fun _ _ => ?_
          split
          · exact avoids_ok _ _
          · split
            · exact avoids_ok _ _
            · split
              · exact avoids_ok _ _
              · split <;> exact avoids_ok _ _
    · refine Avoids.bind (avoids_require (returned_ne single ?_)) fun _ _ => avoids_ok _ _
      cases answer.2 <;> rfl
  · exact avoids_ok _ _

theorem requireVolumeBelowCap_avoids (control : Control) (stats : StatStore) (token : Address)
    (amount : Int) :
    Avoids (.returned error) (requireVolumeBelowCap control stats token amount) := by
  unfold requireVolumeBelowCap
  split
  · refine avoids_finding single rfl fun _ _ => ?_
    exact avoids_require (returned_ne single rfl)
  · exact avoids_ok _ _

theorem recordFunding_avoids (clock : Clock) (treasury : Treasury) (invoice : Invoice)
    (funder : Address) (prospective : Int) : Avoids (.returned error)
    (recordFunding env clock treasury invoice funder prospective) := by
  unfold recordFunding
  split
  · refine Avoids.bind (transferOutStrict_avoids single _ _ _ _) fun _ _ => ?_
    exact avoids_trapping fun _ => avoids_ok _ _
  · exact avoids_ok _ _

section EntryPoints

variable {world : World} {id : Nat}
  (admitted : .reentrancy = error → world.control.reentrancyLock = false)
include admitted

theorem fundInvoice_avoids (timely : ∀ invoice, world.book.tryLoadInvoice id = some invoice →
      (.invoiceExpired = error → ¬ (invoice.status = .pending ∧
        invoice.dueDate < world.clock.timestamp)) ∧
      (invoice.status.refusal = error → invoice.status = .pending ∨
        invoice.status = .partiallyFunded))
    (funder : Address) (amount : Int) (verify : Bool) :
    Avoids (.returned error) (fundInvoice env world funder id amount verify) := by
  refine Avoids.bind (lockReentrancy_avoids admitted) fun control _ => ?_
  refine Avoids.bind ?_ fun checked _ => ?_
  · refine Avoids.bind (requireUnpaused_avoids single _) fun _ _ => ?_
    refine avoids_trapping fun _ => ?_
    refine avoids_finding single rfl fun found loaded => ?_
    refine avoids_guarding single rfl fun _ => ?_
    refine avoids_guarding single rfl fun _ => ?_
    refine Avoids.bind (requirePayerReputation_avoids single _ _) fun _ _ => ?_
    refine Avoids.bind (requireVerifiedPayer_avoids single _ _ _ _) fun _ _ => ?_
    refine Avoids.bind (avoids_asking (timely found loaded).1) fun _ _ => ?_
    refine Avoids.bind (avoids_asking (timely found loaded).2) fun _ _ => ?_
    refine avoids_finding single rfl fun _ _ => ?_
    refine avoids_guarding single rfl fun _ => ?_
    refine Avoids.bind (requireVolumeBelowCap_avoids single _ _ _ _) fun _ _ => ?_
    refine Avoids.bind (requireAuthorized_avoids single _ _) fun _ _ => ?_
    refine Avoids.bind ?_ fun _ _ => avoids_ok _ _
    unfold requireDeliverable
    split
    · exact requireAuthorized_avoids single _ _
    · exact avoids_ok _ _
  · refine Avoids.bind ?_ fun _ _ => ?_
    · exact avoids_trapping fun _ => avoids_ok _ _
    refine Avoids.bind (recordFunding_avoids single _ _ _ _ _) fun _ _ => ?_
    refine Avoids.bind (syncNftState_avoids single _ _ _ _) fun _ _ => ?_
    exact (notifyDistribution_avoids _).bind fun _ _ => avoids_ok _ _

theorem claimDefault_avoids (reached : ∀ invoice, loadInvoice world.book id = .ok invoice →
      (.notYetDefaulted = error → invoice.dueDate ≤ world.clock.timestamp) ∧
      (invoice.status.refusal = error → invoice.status = .funded)) (funder : Address) :
    Avoids (.returned error) (claimDefault env world funder id) := by
  refine Avoids.bind (lockReentrancy_avoids admitted) fun _ _ => ?_
  refine Avoids.bind (requireUnpaused_avoids single _) fun _ _ => ?_
  refine avoids_trapping fun _ => ?_
  refine Avoids.bind (loadInvoice_avoids single _ _) fun found loaded => ?_
  refine avoids_guarding single rfl fun _ => ?_
  refine Avoids.bind (avoids_asking (reached found loaded).1) fun _ _ => ?_
  refine Avoids.bind (avoids_asking (reached found loaded).2) fun _ _ => ?_
  refine Avoids.bind (syncNftState_avoids single _ _ _ _) fun _ _ => ?_
  exact (payEach_avoids single _ _ _ _).bind fun _ _ => avoids_ok _ _

end EntryPoints

end InvoiceLiquidity
