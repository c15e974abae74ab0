import Iln.Invoice.Distribution

/-! Disputes that are not upheld. A dispute overwrites the status of an invoice, and rejecting it
works the old status out from the amounts, so the two undo each other only while a partial funding
is a positive part of the amount. -/
namespace InvoiceLiquidity

open FixedWidth Transition

variable {contract : Address}

def AddsPositive (id : Nat) : Action contract → Prop
  | .invoke _ (.fundInvoice _ target amount _) => target = id → 0 < amount
  | _ => True

def Call.rejectsDispute (id : Nat) : Call → Bool
  | .resolveDispute target resolution => target == id && resolution == 2
  | .autoResolveDispute target => target == id
  | _ => false

theorem Call.rejectsDispute_target {id : Nat} (call : Call)
    (rejects : call.rejectsDispute id = true) : call.target = some id := by
  cases call with
  | resolveDispute =>
    obtain ⟨same, _⟩ := Bool.and_eq_true_iff.mp rejects
    exact congrArg some (beq_iff_eq.mp same)
  | autoResolveDispute => exact congrArg some (beq_iff_eq.mp rejects)
  | _ => cases rejects

section Positive

variable {env : Env contract} {world : World} {id : Nat} {call : Call} {file after : File}
  {moves : List Movement}

def PartlyPositive (file : File) : Prop :=
  file.invoice.status = .partiallyFunded → 0 < file.invoice.amountFunded

theorem restoredStatus_partly {invoice : Invoice}
    (partly : invoice.restoredStatus = .partiallyFunded) : 0 < invoice.amountFunded := by
  unfold Invoice.restoredStatus at partly
  split at partly
  · cases partly
  · split at partly
    · assumption
    · cases partly

theorem Change.partlyPositive (change : Change env world id call file after moves)
    (sound : RecordSound file) (part : PartlyPositive file) (added : call.Adds id (0 < ·)) :
    PartlyPositive after := by
  intro partly
  cases change with
  | contributed funder amount verify =>
    have low := sound.fundedNonneg
    have more := added funder amount verify rfl
    show 0 < file.invoice.amountFunded + amount
    omega
  | restored => exact restoredStatus_partly partly
  | edited | renamed | instalment => exact part partly
  | _ => cases partly

theorem exec_partlyPositive {actions : List (Action contract)} (clock : Clock) (balance : Balances)
    (added : ∀ action ∈ actions, AddsPositive id action) :
    ∀ file ∈ (reach clock balance actions).book.file id, RecordSound file ∧
      PartlyPositive file := by
  refine file_induct (fun file => RecordSound file ∧ PartlyPositive file) ?_ ?_ clock balance
    (Along.of_forall added)
  · intro file fresh
    refine ⟨fresh.recordSound, ?_⟩
    obtain ⟨_, _, _, rfl, _⟩ := fresh
    intro partly
    cases partly
  · rintro env world call file after moves positive stored change ⟨sound, part⟩
    have more : call.Adds id (0 < ·) := by
      rintro funder amount verify rfl
      exact positive rfl
    exact ⟨change.recordSound sound fun funder amount verify same =>
      (more funder amount verify same).le, change.partlyPositive sound part more⟩

end Positive

section RoundTrip

variable {env : Env contract} {world : World} {id : Nat} {call : Call} {file after : File}
  {moves : List Movement}

theorem restoredStatus_of_sound (sound : RecordSound file) (part : PartlyPositive file)
    (disputable : file.invoice.Disputable) : file.invoice.restoredStatus = file.invoice.status := by
  unfold Invoice.restoredStatus
  rcases disputable with pending | partly | funded
  · have none := sound.pending pending
    have positive := sound.amountPos
    rw [if_neg (by omega), if_neg (by omega), pending]
  · have short := sound.partly partly
    have some := part partly
    rw [if_neg (by omega), if_pos some, partly]
  · rw [if_pos (sound.funded funded), funded]

theorem Change.dispute_spec {reasonHash : Hash}
    (change : Change env world id (.disputeInvoice id reasonHash) file after moves) :
    file.invoice.Disputable ∧
      after.invoice = { file.invoice with status := .disputed } ∧ after.dispute.isSome = true := by
  cases change with
  | disputed _ _ disputable => exact ⟨disputable, rfl, rfl⟩
  | edited _ _ _ _ _ edits => cases edits
  | restored restores => cases restores

theorem Change.reject_spec (change : Change env world id call file after moves)
    (rejects : call.rejectsDispute id = true) :
    file.invoice.status = .disputed ∧
      after.invoice = { file.invoice with status := file.invoice.restoredStatus } := by
  cases change with
  | restored _ disputed => exact ⟨disputed, rfl⟩
  | edited _ _ _ _ _ edits => cases call <;> cases edits <;> cases rejects
  | upheld => simp [Call.rejectsDispute] at rejects
  | _ => cases rejects

theorem Change.leaves_dispute (change : Change env world id call file after moves)
    (disputed : file.invoice.status = .disputed) : after.invoice.status ≠ .disputed := by
  intro still
  cases change with
  | restored => exact restoredStatus_ne (by decide) still
  | edited _ _ _ _ _ _ pending => rw [disputed] at pending; cases pending
  | renamed _ _ funded | instalment _ funded => rw [disputed] at funded; cases funded
  | disputed _ _ disputable => simp [disputed] at disputable
  | _ => cases still

def DisputeHeld (id : Nat) (file : File) (world : World) : Prop :=
  world.book.file id = some file ∨
    ∃ later, world.book.file id = some later ∧ later.dispute.isSome = true ∧
      later.invoice.status ≠ .disputed

theorem step_disputeHeld (action : Action contract) (filed : Filed world.book)
    (disputed : file.invoice.status = .disputed) (recorded : file.dispute.isSome = true)
    (held : DisputeHeld id file world) : DisputeHeld id file (step world action) := by
  cases step_touch action filed id with
  | same unchanged =>
    unfold DisputeHeld
    rw [unchanged]
    exact held
  | fresh _ absent =>
    rcases held with stored | ⟨_, stored, _⟩ <;> rw [absent] at stored <;> cases stored
  | changed env call before after _ _ _ stored now change =>
    refine .inr ⟨after, now, ?_⟩
    rcases held with same | ⟨_, same, kept, ended⟩
    · cases stored.symm.trans same
      exact ⟨claims_recorded.1.lasting change recorded, change.leaves_dispute disputed⟩
    · cases stored.symm.trans same
      refine ⟨claims_recorded.1.lasting change kept, ?_⟩
      intro again
      rcases claims_recorded.1.entry change again with already | ⟨missing, _⟩
      · exact ended already
      · rw [kept] at missing
        cases missing

theorem exec_disputeHeld (actions : List (Action contract)) (filed : Filed world.book)
    (disputed : file.invoice.status = .disputed) (recorded : file.dispute.isSome = true)
    (stored : world.book.file id = some file) : DisputeHeld id file (exec step world actions) := by
  refine filed_invariant (DisputeHeld id file) ?_ filed (.inl stored) Along.always
  intro world action filed held _
  exact step_disputeHeld action filed disputed recorded held

end RoundTrip

/-- If every contribution to an invoice was positive, a partly funded invoice has a positive part of
its amount, and a dispute that is later rejected leaves the record exactly as it was. -/
theorem dispute_round_trip (clock : Clock) (balance : Balances) (actions : List (Action contract))
    (id : Nat) (added : ∀ action ∈ actions, AddsPositive id action) {invoice : Invoice}
    (stored : (reach clock balance actions).book.invoices id = some invoice) :
    let disputed (env : Env contract) (reasonHash : Hash) (between : List (Action contract)) :=
      exec step (reach clock balance actions)
        (.invoke env (.disputeInvoice id reasonHash) :: between)
    (invoice.status = .partiallyFunded →
        0 < invoice.amountFunded ∧ invoice.amountFunded < invoice.amount) ∧
      ∀ (env admin : Env contract) (reasonHash : Hash) (between : List (Action contract))
        (call : Call),
        succeeds (reach clock balance actions) (.invoke env (.disputeInvoice id reasonHash)) =
            true →
        call.rejectsDispute id = true →
        succeeds (disputed env reasonHash between) (.invoke admin call) = true →
        (step (disputed env reasonHash between) (.invoke admin call)).book.invoices id =
          some invoice := by
  have filed := reach_filed clock balance actions
  have found := file_of_invoice stored
  obtain ⟨sound, part⟩ := exec_partlyPositive clock balance added _ found
  refine ⟨fun partly => ⟨part partly, sound.partly partly⟩, ?_⟩
  intro env admin reasonHash between call opened rejects ran
  -- the dispute only overwrites the status
  obtain ⟨frozen, _, now, dispute⟩ := step_change filed rfl opened found
  obtain ⟨disputable, overwritten, recorded⟩ := dispute.dispute_spec
  have status : frozen.invoice.status = .disputed := by rw [overwritten]
  have later := (step_effect (.invoke env (.disputeInvoice id reasonHash)) filed).2
  have held := exec_disputeHeld between later status recorded now
  -- a rejection that returns found the invoice disputed, so it is still the same dispute
  have latest := exec_filed later between
  have aimed := call.rejectsDispute_target rejects
  rcases held with same | ⟨_, same, _, ended⟩
  · obtain ⟨_, _, restored, change⟩ := step_change latest aimed ran same
    obtain ⟨_, undone⟩ := change.reject_spec rejects
    obtain ⟨_, kept, rfl⟩ := Option.map_eq_some_iff.mp restored
    refine kept.trans (congrArg some (undone.trans ?_))
    rw [overwritten]
    exact congrArg (fun status => { invoice with status })
      (restoredStatus_of_sound sound part disputable)
  · obtain ⟨_, _, _, change⟩ := step_change latest aimed ran same
    exact absurd (change.reject_spec rejects).1 ended

def halfFunded : List (Action ⟨0⟩) :=
  openingCalls 1000000 300 ++ [signedBy [3] (.fundInvoice ⟨3⟩ 1 400000 false)]

theorem dispute_round_trip_of_halfFunded :
    let disputed := exec step (traded halfFunded)
      [signedBy [2] (.disputeInvoice 1 7), signedBy [1] (.setMinPayerReputation 10)]
    (traded halfFunded).statusOf 1 = some .partiallyFunded ∧
      disputed.statusOf 1 = some .disputed ∧
      (step disputed (signedBy [1] (.resolveDispute 1 2))).book.invoices 1 =
        (traded halfFunded).book.invoices 1 := by
  have added : ∀ action ∈ halfFunded, AddsPositive 1 action := by
    simp [halfFunded, openingCalls, signedBy, AddsPositive]
  obtain ⟨_, stored⟩ := Option.isSome_iff_exists.mp
    (show ((traded halfFunded).book.invoices 1).isSome = true by decide +kernel)
  have trip := (dispute_round_trip ⟨1000, 10⟩ marketBalances halfFunded 1 added stored).2
  refine ⟨by decide +kernel, by decide +kernel, Eq.trans ?_ stored.symm⟩
  exact trip _ _ 7 [signedBy [1] (.setMinPayerReputation 10)] (.resolveDispute 1 2)
    (by decide +kernel) rfl (by decide +kernel)

def nothingFunded : List (Action ⟨0⟩) :=
  openingCalls 1000000 300 ++ [signedBy [3] (.fundInvoice ⟨3⟩ 1 0 false)]

/-- The empty contribution makes the invoice partly funded with nothing, and a rejected dispute
turns it back into a pending one. -/
theorem empty_contribution_forgotten :
    let funded := traded nothingFunded
    let disputed := step funded (signedBy [2] (.disputeInvoice 1 7))
    let rejected := step disputed (signedBy [1] (.resolveDispute 1 2))
    (funded.book.invoices 1).map (fun invoice => (invoice.status, invoice.amountFunded)) =
        some (.partiallyFunded, 0) ∧
      disputed.statusOf 1 = some .disputed ∧ rejected.statusOf 1 = some .pending := by
  decide +kernel

end InvoiceLiquidity
