import Iln.Invoice.Answers
import Iln.Invoice.Housekeeping

/-! The reentrancy lock. The six entry points that move money take it before anything else and
release it where they succeed; an error leaves it to the rollback. Between two calls it is open, and
while one of them runs it is closed, whatever the contracts do that are called from there. -/
namespace InvoiceLiquidity

open Outcome Transition

variable {contract : Address} {env : Env contract} {world mid : World} {call : Call}

def Call.guarded : Call → Bool
  | .fundInvoice _ _ _ _ | .markPaid _ _ | .cancelInvoice _ | .claimDefault _ _
  | .resolveDispute _ _ | .claimPendingPayout _ _ => true
  | _ => false

section Admission

theorem refusal_ne (status : InvoiceStatus) : status.refusal ≠ .reentrancy := by
  cases status <;> decide

theorem checkPayment_admitted (world : World) (control : Control) (id : Nat) (amount : Int) :
    Avoids (.returned .reentrancy) (checkPayment env world control id amount) := by
  refine Avoids.bind (requireUnpaused_avoids rfl _) fun _ _ => ?_
  refine avoids_guarding rfl rfl fun _ => ?_
  refine avoids_finding rfl rfl fun _ _ => ?_
  refine Avoids.bind (loadInvoice_avoids rfl _ _) fun _ _ => ?_
  refine avoids_trapping fun _ => ?_
  refine Avoids.bind (avoids_asking fun same => absurd same (refusal_ne _)) fun _ _ => ?_
  refine avoids_guarding rfl rfl fun _ => ?_
  refine avoids_finding rfl rfl fun _ _ => ?_
  refine avoids_finding rfl rfl fun _ _ => ?_
  exact (requireAuthorized_avoids rfl _ _).bind fun _ _ => avoids_ok _ _

theorem settleInFull_admitted (world : World) (control : Control) (treasury : Treasury)
    (invoice : Invoice) (id : Nat) (primary : Address × Int) :
    Avoids (.returned .reentrancy)
    (settleInFull env world control treasury invoice id primary) := by
  refine Avoids.bind ?_ fun _ _ => ?_
  · unfold payFee
    split
    · exact (avoids_orFail (trap_ne_returned _)).bind fun _ _ => payOrEscrow_avoids rfl _ _ _ _
    · exact avoids_ok _ _
  refine avoids_finding rfl rfl fun _ _ => ?_
  refine avoids_trapping fun _ => ?_
  refine Avoids.bind (syncNftState_avoids rfl _ _ _ _) fun _ _ => ?_
  refine Avoids.bind (payEach_avoids rfl _ _ _ _) fun _ _ => ?_
  exact (notifyDistribution_avoids _).bind fun _ _ => avoids_ok _ _

variable (unlocked : world.control.reentrancyLock = false)
include unlocked

theorem cancelInvoice_admitted (id : Nat) : Avoids (.returned .reentrancy)
    (cancelInvoice env world id) := by
  refine Avoids.bind (lockReentrancy_avoids fun _ => unlocked) fun _ _ => ?_
  refine Avoids.bind (requireUnpaused_avoids rfl _) fun _ _ => ?_
  refine Avoids.bind (loadInvoice_avoids rfl _ _) fun invoice _ => ?_
  refine Avoids.bind (requireSubmitter_avoids rfl _ _) fun _ _ => ?_
  refine Avoids.bind (avoids_asking fun same => absurd same (refusal_ne _)) fun _ _ => ?_
  refine Avoids.bind ?_ fun _ _ => avoids_ok _ _
  unfold refundCancelled
  split
  · exact payEach_avoids rfl _ _ _ _
  · exact avoids_ok _ _

theorem claimPendingPayout_admitted (recipient token : Address) :
    Avoids (.returned .reentrancy) (claimPendingPayout env world recipient token) := by
  refine Avoids.bind (lockReentrancy_avoids fun _ => unlocked) fun _ _ => ?_
  refine Avoids.bind (requireUnpaused_avoids rfl _) fun _ _ => ?_
  refine avoids_trapping fun _ => ?_
  refine Avoids.bind ?_ fun _ _ => avoids_ok _ _
  refine avoids_guarding rfl rfl fun _ => ?_
  refine Avoids.bind (requireAuthorized_avoids rfl _ _) fun _ _ => ?_
  refine avoids_guarding rfl rfl fun _ => ?_
  exact Avoids.bind (avoids_trapping fun _ => avoids_ok _ _) fun _ _ => avoids_ok _ _

theorem resolveDispute_admitted (id resolution : Nat) :
    Avoids (.returned .reentrancy) (resolveDispute env world id resolution) := by
  refine Avoids.bind (lockReentrancy_avoids fun _ => unlocked) fun _ _ => ?_
  refine Avoids.bind (avoids_finding rfl rfl fun _ _ => avoids_require (trap_ne_returned _))
    fun _ _ => ?_
  refine Avoids.bind (loadInvoice_avoids rfl _ _) fun invoice _ => ?_
  refine avoids_guarding rfl rfl fun _ => ?_
  refine Avoids.bind ?_ fun _ _ => (syncNftState_avoids rfl _ _ _ _).bind fun _ _ => avoids_ok _ _
  unfold decideDispute
  split
  · refine Avoids.bind ?_ fun _ _ => avoids_ok _ _
    refine Avoids.bind (payEach_avoids rfl _ _ _ _) fun _ _ => ?_
    split
    · exact payOrEscrow_avoids rfl _ _ _ _
    · exact avoids_ok _ _
  · exact avoids_ok _ _
  · exact avoids_error (by nofun)

theorem markPaid_admitted (id : Nat) (amount : Int) :
    Avoids (.returned .reentrancy) (markPaid env world id amount) := by
  refine Avoids.bind (lockReentrancy_avoids fun _ => unlocked) fun _ _ => ?_
  refine Avoids.bind (checkPayment_admitted _ _ _ _) fun _ _ => ?_
  refine Avoids.bind (avoids_trapping fun _ => avoids_ok _ _) fun _ _ => ?_
  dsimp only
  split
  · exact Avoids.bind ((syncNftState_avoids rfl _ _ _ _).bind fun _ _ => avoids_ok _ _)
      fun _ _ => avoids_ok _ _
  · exact (settleInFull_admitted _ _ _ _ _ _).bind fun _ _ => avoids_ok _ _

theorem guarded_admitted (guarded : call.guarded = true) :
    Avoids (.returned .reentrancy) (invoke env world call) := by
  have refused (status : InvoiceStatus) {condition : Prop} : status.refusal = .reentrancy →
    condition := fun same => absurd same (refusal_ne status)
  refine avoids_trapping fun _ => ?_
  cases call with
  | fundInvoice =>
    exact fundInvoice_avoids rfl (fun _ => unlocked) (fun _ _ => ⟨by nofun, refused _⟩) _ _ _
  | claimDefault =>
    exact claimDefault_avoids rfl (fun _ => unlocked) (fun _ _ => ⟨by nofun, refused _⟩) _
  | markPaid => exact (markPaid_admitted unlocked _ _).map
  | cancelInvoice => exact cancelInvoice_admitted unlocked _
  | resolveDispute => exact resolveDispute_admitted unlocked _ _
  | claimPendingPayout => exact (claimPendingPayout_admitted unlocked _ _).map
  | _ => cases guarded

end Admission

section Nesting

theorem guarded_refused (locked : world.control.reentrancyLock = true)
    (guarded : call.guarded = true) : ∃ failure, invoke env world call = .error failure := by
  cases ran : invoke env world call with
  | error failure => exact ⟨failure, rfl⟩
  | ok =>
    have run := invoke_runs (by cases call <;> first | rfl | cases guarded) ran
    cases call <;> cases guarded
    all_goals simp only [invokeWorld, fundInvoice, markPaid, cancelInvoice, claimDefault,
      resolveDispute, claimPendingPayout, ok_iff, lockReentrancy_ok, locked, reduceCtorEq,
      false_and, exists_false] at run

/-- The states in which a contract that is called from one of the six finds this one. -/
inductive During (contract : Address) (world : World) : World → Prop
  | entered {locked : Control} (passed : lockReentrancy world.control = .ok locked) :
      During contract world { world with control := locked }
  -- between its first line and its last the running call does not write the lock
  | wrote {mid later : World} (during : During contract world mid)
      (lock : later.control.reentrancyLock = mid.control.reentrancyLock) :
        During contract world later
  | nested {mid : World} (during : During contract world mid) (action : Action contract) :
      During contract world (step mid action)

theorem step_lock (action : Action contract) :
    (step world action).control.reentrancyLock = world.control.reentrancyLock := by
  refine step_keeps (fun next => next.control.reentrancyLock = world.control.reentrancyLock) action
    ?_ fun _ _ => rfl
  intro env call _ ran
  rcases invoke_cases ran with ⟨_, _, _, _, _, done⟩ | ⟨_, _, _, passed, same⟩ | tidy
  · simp only [initializeContract, ok_iff] at done
    obtain ⟨_, _, same⟩ := done
    rw [← same]
  · rw [same]
    exact (beginAdminCall_begun passed).steady.lock
  · exact tidy.control.lock

theorem During.locked (during : During contract world mid) : mid.control.reentrancyLock = true := by
  induction during with
  | entered passed =>
    obtain ⟨_, rfl⟩ := lockReentrancy_ok.mp passed
    rfl
  | wrote _ lock held => exact lock.trans held
  | nested _ action held => exact (step_lock action).trans held

end Nesting

/-- Between calls the lock is open, and none of the six refuses with `Reentrancy`. While one of them
runs, a call of any of them fails. -/
theorem reentrancy_lock_sound (clock : Clock) (balance : Balances)
    (actions : List (Action contract)) :
    let world := reach clock balance actions
    world.control.reentrancyLock = false ∧
    ∀ (env : Env contract) (call : Call), call.guarded = true →
      invoke env world call ≠ .error (.returned .reentrancy) ∧
      ∀ mid, During contract world mid → ∃ failure, invoke env mid call = .error failure := by
  have unlocked := (exec_orderly (genesis_orderly clock balance) actions).unlocked
  refine ⟨unlocked, fun env call guarded => ⟨guarded_admitted unlocked guarded, ?_⟩⟩
  exact fun mid during => guarded_refused during.locked guarded

end InvoiceLiquidity
