import Iln.Invoice.Housekeeping

/-! Whether the contract can be set up a second time. `initialize` asks for the key `InvoiceCount`,
which no call ever writes, so it succeeds for any caller at any time and replaces the
administrator. -/
namespace InvoiceLiquidity

open Outcome Transition

variable {contract : Address}

def Action.initialises : Action contract → Bool
  | .invoke _ (.initializeContract _ _ _ _) => true
  | _ => false

def Action.setsAdmin (admin : Address) : Action contract → Bool
  | .invoke env (.setAdmin _) => env.signed admin
  | _ => false

/-- What an initialised contract owes to its administrator: `initialize` fails without a trace, and
only `set_admin` with the stored administrator's signature replaces it. -/
def Sealed (world : World) (action : Action contract) : Prop :=
  (action.initialises = true → succeeds world action = false ∧ step world action = world) ∧
  ((step world action).control.admin ≠ world.control.admin →
    ∃ admin, world.control.admin = some admin ∧ action.setsAdmin admin = true)

variable {world : World}

theorem initialises_succeeds (orderly : Orderly world) {action : Action contract}
    (init : action.initialises = true) : succeeds world action = true := by
  cases action with
  | credit | advance => rfl
  | invoke env call =>
    cases call with
    | initializeContract =>
      simp [succeeds, invoke, invokeControl, invokeWorld, initializeContract,
        Call.wellTyped, require, orderly.uncounted, bind, Except.bind, pure, Except.pure,
        Except.isOk, Except.toBool]
    | _ => cases init

theorem step_sealed {action : Action contract} (other : action.initialises = false) :
    Sealed world action := by
  refine ⟨fun init => absurd init (by simp [other]), ?_⟩
  intro replaced
  cases action with
  | credit | advance => exact absurd rfl replaced
  | invoke env call =>
    cases ran : invoke env world call with
    | error =>
      simp only [step, ran] at replaced
      exact absurd rfl replaced
    | ok =>
      simp only [step, ran] at replaced
      rcases invoke_cases ran with ⟨_, _, _, _, rfl, _⟩ | ⟨_, _, rfl, passed, _⟩ | tidy
      · cases other
      · obtain ⟨_, admin, stored, signed⟩ := beginAdminCall_admin passed
        exact ⟨admin, stored, signed⟩
      · exact absurd tidy.control.admin replaced

/-- After a first `initialize` the contract is sealed exactly in the runs that never call it
again. -/
theorem initialisation_sealed_iff (clock : Clock) (balance : Balances)
    (earlier later : List (Action contract)) (env : Env contract) (admin usdc eurc xlm : Address) :
    let first := Action.invoke env (.initializeContract admin usdc eurc xlm)
    succeeds (reach clock balance earlier) first = true ∧
      (Along step Sealed (reach clock balance (earlier ++ [first])) later ↔
        ∀ action ∈ later, action.initialises = false) := by
  intro first
  refine ⟨initialises_succeeds (exec_orderly (genesis_orderly clock balance) earlier) rfl, ?_⟩
  have orderly : Orderly (reach clock balance (earlier ++ [first])) :=
    exec_orderly (genesis_orderly clock balance) _
  generalize reach clock balance (earlier ++ [first]) = world at orderly ⊢
  induction later generalizing world with
  | nil => simp [Along]
  | cons action rest ih =>
    have remaining := ih (step world action) (step_orderly action orderly)
    simp only [Along, remaining, List.forall_mem_cons]
    refine and_congr_left fun _ => ⟨?_, step_sealed⟩
    intro sealing
    by_contra again
    have init : action.initialises = true := by simpa using again
    have failed := (sealing.1 init).1
    rw [initialises_succeeds orderly init] at failed
    cases failed

def takeover : List (Action ⟨0⟩) :=
  [opening, signedBy [] (.initializeContract ⟨9⟩ ⟨10⟩ ⟨11⟩ ⟨12⟩)]

theorem takeover_replaces_admin : (traded (takeover.take 1)).control.admin = some ⟨1⟩ ∧
    (traded takeover).control.admin = some ⟨9⟩ := by
  decide +kernel

end InvoiceLiquidity
