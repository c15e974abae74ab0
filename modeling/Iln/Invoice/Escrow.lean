import Iln.Invoice.Effect

/-! The payout escrow over whole runs: the counter of every token is exactly the sum of the entries
under it, and the contract holds at least that much. A claim empties one entry. -/
namespace InvoiceLiquidity

open Outcome FixedWidth Transition

variable {contract : Address} {world : World} {env : Env contract} {recipient token : Address}

def Action.RefusesNegative : Action contract → Prop
  | .invoke env _ => RejectsNegative env
  | .credit _ _ _ | .advance _ _ => True

@[simp] theorem refusesNegative_invoke (env : Env contract) (call : Call) :
    (Action.invoke env call).RefusesNegative ↔ RejectsNegative env := Iff.rfl

@[simp] theorem refusesNegative_advance (seconds ledgers : Nat) :
    (Action.advance seconds ledgers : Action contract).RefusesNegative := trivial

@[simp] theorem stellarHost_rejectsNegative (contract : Address) (signers frozen : List Address) :
    RejectsNegative (stellarHost contract signers frozen) := by
  intro balance token source target amount ran
  exact (of_decide_eq_true ran).1

@[simp] theorem signedBy_refusesNegative (signers : List Nat) (call : Call) :
    (signedBy signers call).RefusesNegative :=
  stellarHost_rejectsNegative _ _ _

theorem creditHolder_held (treasury : Treasury) (token holder asset : Address) (amount : Int) :
    treasury.balance asset contract ≤
      (creditHolder contract treasury token holder amount).balance asset contract := by
  unfold creditHolder
  split
  · exact le_rfl
  · rename_i allowed
    dsimp only
    split
    · rename_i own
      have nonneg : ¬ amount < 0 := fun negative => allowed ⟨own.2.symm, negative⟩
      omega
    · omega

theorem creditHolder_reserved (treasury : Treasury) (token holder asset : Address) (amount : Int) :
    (creditHolder contract treasury token holder amount).reserved asset =
      treasury.reserved asset := by
  unfold creditHolder
  split <;> rfl

theorem creditHolder_sound {treasury : Treasury} (sound : EscrowSound contract treasury)
    (token holder : Address) (amount : Int) :
    EscrowSound contract (creditHolder contract treasury token holder amount) := by
  have entries : (creditHolder contract treasury token holder amount).pendingPayout =
      treasury.pendingPayout := by
    unfold creditHolder
    split <;> rfl
  refine ⟨?_, ?_, ?_, ?_⟩
  · intro asset
    rw [creditHolder_reserved, entries]
    exact sound.exact asset
  · rw [entries]
    exact sound.positive
  · intro asset
    rw [creditHolder_reserved]
    exact sound.fits asset
  · intro asset
    rw [creditHolder_reserved]
    exact (sound.covered asset).trans (creditHolder_held treasury token holder asset amount)

theorem step_escrowSound (action : Action contract) (filed : Filed world.book)
    (law : action.RefusesNegative) (sound : EscrowSound contract world.treasury) :
    EscrowSound contract (step world action).treasury := by
  cases (step_effect action filed).1 with
  | idle _ money | submitted _ _ _ _ money => rwa [money]
  | credited token holder amount _ money =>
    rw [money]
    exact creditHolder_sound sound token holder amount
  | probed _ _ _ _ _ _ carried | changed _ _ _ _ _ _ _ _ _ _ _ carried =>
    exact (carried.balanced law sound).sound
  | claimed _ _ _ _ _ money => exact (claimPending_claimed sound money).sound sound

theorem genesis_escrowSound (clock : Clock) (balance : Balances)
    (start : ∀ token, 0 ≤ balance token contract) :
    EscrowSound contract (genesis clock balance).treasury where
  exact := fun _ => rfl
  positive := fun _ _ stored => by simp [genesis] at stored
  fits := fun _ => i128.pos.le
  covered := start

theorem exec_escrowSound {actions : List (Action contract)} (filed : Filed world.book)
    (sound : EscrowSound contract world.treasury)
    (law : ∀ action ∈ actions, action.RefusesNegative) :
    EscrowSound contract (exec step world actions).treasury := by
  refine filed_invariant (fun world => EscrowSound contract world.treasury) ?_ filed sound
    (Along.of_forall law)
  intro world action filed held refuses
  exact step_escrowSound action filed refuses held

theorem claimPendingPayout_step {world next : World} {amount : Int}
    (ran : claimPendingPayout env world recipient token = .ok (next, amount)) :
    step world (.invoke env (.claimPendingPayout recipient token)) = next := by
  have invoked : invoke env world (.claimPendingPayout recipient token) = .ok next := by
    simp only [invoke, invokeControl, invokeWorld, ok_iff]
    exact ⟨(), rfl, _, ran, rfl⟩
  simp only [step, invoked]

theorem claimPendingPayout_fails {failure : Failure}
    (refused : claimPendingPayout env world recipient token = .error failure) :
    step world (.invoke env (.claimPendingPayout recipient token)) = world := by
  have invoked : invoke env world (.claimPendingPayout recipient token) = .error failure := by
    simp only [invoke, invokeControl, invokeWorld, refused]
    rfl
  simp only [step, invoked]

def ClaimExact (env : Env contract) (world : World) (recipient token : Address) : Prop :=
  match claimPendingPayout env world recipient token with
  | .ok (next, amount) =>
    step world (.invoke env (.claimPendingPayout recipient token)) = next ∧
    Claimed contract recipient token amount world.treasury next.treasury ∧
    next.treasury.owed recipient token = 0 ∧ next.book = world.book
  | .error _ => step world (.invoke env (.claimPendingPayout recipient token)) = world

theorem claim_exact (sound : EscrowSound contract world.treasury)
    (recipient token : Address) : ClaimExact env world recipient token := by
  unfold ClaimExact
  cases ran : claimPendingPayout env world recipient token with
  | error => exact claimPendingPayout_fails ran
  | ok result =>
    obtain ⟨_, _⟩ := result
    refine ⟨claimPendingPayout_step ran, ?_⟩
    simp only [claimPendingPayout, ok_iff, Prod.mk.injEq] at ran
    obtain ⟨_, _, _, _, _, _, ⟨_, _⟩, claimed, rfl, rfl⟩ := ran
    have exactly := claimPending_claimed sound claimed
    refine ⟨exactly, ?_, rfl⟩
    simp [Treasury.owed, exactly.entries]

/-- The escrow is exact and covered after every run, and claims pay exactly what is owed. -/
theorem escrow_exact_and_covered (clock : Clock) (balance : Balances)
    (actions : List (Action contract)) (start : ∀ token, 0 ≤ balance token contract)
    (law : ∀ action ∈ actions, action.RefusesNegative) :
    let world := reach clock balance actions
    (∀ token, world.treasury.reserved token = AssocSum.total
      (owedIn token) world.treasury.pendingPayout) ∧
    (∀ recipient token amount,
      world.treasury.pendingPayout.lookup (recipient, token) = some amount → 0 < amount) ∧
    (∀ token, world.treasury.reserved token ≤ world.treasury.balance token contract) ∧
    ∀ (env : Env contract) recipient token, ClaimExact env world recipient token := by
  have sound := exec_escrowSound (genesis_filed clock balance)
    (genesis_escrowSound clock balance start) law
  refine ⟨sound.exact, ?_, sound.covered, ?_⟩
  · intro recipient token amount stored
    exact sound.positive (recipient, token) amount stored
  · intro env recipient token
    exact claim_exact sound recipient token

def frozenSettlement : List (Action ⟨0⟩) :=
  openingCalls 1000000 300 ++
    [signedBy [3] (.fundInvoice ⟨3⟩ 1 1000000 false),
     .invoke (stellarHost ⟨0⟩ [⟨2⟩] [⟨3⟩]) (.markPaid 1 1000000)]

theorem escrow_exact_after_frozenSettlement :
    (traded frozenSettlement).treasury.owed ⟨3⟩ ⟨10⟩ = 1000000 ∧
      (traded frozenSettlement).treasury.reserved ⟨10⟩ =
        AssocSum.total (owedIn ⟨10⟩)
        (traded frozenSettlement).treasury.pendingPayout := by
  refine ⟨by decide +kernel, ?_⟩
  exact (escrow_exact_and_covered ⟨1000, 10⟩ marketBalances frozenSettlement
    (fun token => by simp [marketBalances])
    (by simp [frozenSettlement, openingCalls])).1 ⟨10⟩

end InvoiceLiquidity
