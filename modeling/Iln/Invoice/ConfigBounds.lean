import Iln.Invoice.Initialisation

/-! The bounds on the stored configuration. `update_config` checks them, but `update_decay_params`
stores any rate, so they hold exactly as long as no successful call of it sets one above the
bound. -/
namespace InvoiceLiquidity

open Outcome Transition

variable {contract : Address} {world next : World} {call : Call}

def Configured (control : Control) : Prop := ∃ config, control.config = some config ∧ config.Bounded

/-- No decay rate above the bound of `update_config` is accepted. -/
def Call.Modest (call : Call) : Prop :=
  ∀ rateBps periodLedgers, call = .updateDecayParams rateBps periodLedgers → rateBps ≤ 500

def Modest (world : World) (action : Action contract) : Prop :=
  succeeds world action = true → ∀ env call, action = .invoke env call → call.Modest

theorem initialConfig_bounded (usdc eurc xlm : Address) :
    (initialConfig usdc eurc xlm).Bounded := by
  constructor <;> simp [initialConfig]

theorem Tuned.bounded {old new : Option Config} (tuned : Tuned call old new) (modest : call.Modest)
    (stored : ∃ config, old = some config ∧ config.Bounded) :
    ∃ config, new = some config ∧ config.Bounded := by
  cases tuned with
  | kept => exact stored
  | decay old rateBps periodLedgers =>
    obtain ⟨_, ⟨⟩, bounded⟩ := stored
    exact ⟨_, rfl, bounded.bonus, bounded.discount, modest rateBps periodLedgers rfl,
      bounded.threshold⟩
  | oracle =>
    obtain ⟨_, ⟨⟩, bounded⟩ := stored
    exact ⟨_, rfl, bounded.bonus, bounded.discount, bounded.decay, bounded.threshold⟩

theorem ControlWrite.configured {clock : Clock} {before after : Control}
    (write : ControlWrite clock before call after) (modest : call.Modest)
    (stored : Configured before) : Configured after := by
  cases write with
  | settings started _ tuned =>
    obtain ⟨_, _, _, _, rfl, _⟩ := started
    exact tuned.bounded modest stored
  | rewired _ _ _ bounded =>
    exact ⟨_, rfl, bounded.bonus, bounded.discount, bounded.decay, bounded.threshold⟩
  | admin _ started | dropped _ started | registered started | oracle started =>
    obtain ⟨_, _, _, _, rfl, _⟩ := started
    exact stored
  | multisig | voted | observed => exact stored

theorem invoke_configured {env : Env contract} (returned : invoke env world call = .ok next)
    (modest : call.Modest) (stored : Configured world.control) : Configured next.control := by
  rcases invoke_routed returned with ⟨_, routed, rfl⟩ | ⟨_, ran⟩
  · exact (invokeControl_write routed).configured modest stored
  · cases call with
    | initializeContract admin usdc eurc xlm =>
      simp only [invokeWorld, initializeContract, ok_iff] at ran
      obtain ⟨_, _, rfl⟩ := ran
      exact ⟨_, rfl, initialConfig_bounded usdc eurc xlm⟩
    | _ =>
      rw [Configured, ((invokeWorld_writes ran).kept (by rintro _ _ _ _ ⟨⟩)).config]
      exact stored

theorem step_config_bounded (action : Action contract) (modest : Modest world action)
    (stored : Configured world.control) : Configured (step world action).control := by
  refine step_keeps (fun world => Configured world.control) action (fun env call same ran => ?_)
    fun _ _ => stored
  subst same
  exact invoke_configured ran (modest (succeeds_of_invoke ran) env call rfl) stored

theorem modest_of_configured (action : Action contract)
    (stored : Configured (step world action).control) : Modest world action := by
  rintro finished env _ rfl rateBps periodLedgers rfl
  obtain ⟨_, ran⟩ := returns_of_succeeds finished
  rw [step_of_invoke ran] at stored
  simp only [invoke, invokeControl, updateDecayParams, ok_iff] at ran
  obtain ⟨_, _, _, ⟨_, _, _, _, rfl⟩, rfl⟩ := ran
  obtain ⟨_, ⟨⟩, bounded⟩ := stored
  exact bounded.decay

/-- From the first `initialize` on, a configuration is stored and within its bounds in exactly the
runs whose calls of `update_decay_params` keep to them. -/
theorem config_bounded_iff (clock : Clock) (balance : Balances)
    (earlier later : List (Action contract)) (env : Env contract) (admin usdc eurc xlm : Address) :
    let first := Action.invoke env (.initializeContract admin usdc eurc xlm)
    let opened := reach clock balance (earlier ++ [first])
    Throughout step (fun world => Configured world.control) opened later ↔
      Along step Modest opened later := by
  intro first opened
  have orderly := exec_orderly (genesis_orderly clock balance) earlier
  obtain ⟨next, returned⟩ := returns_of_succeeds
    (initialises_succeeds orderly (show first.initialises = true from rfl))
  refine throughout_iff (fun world : World => Configured world.control) (fun _ stored => stored)
    (fun _ action stored modest => step_config_bounded action modest stored)
    (fun _ action _ => modest_of_configured action) ?_ later
  rw [show opened = next from (exec_snoc _ _ _).trans (step_of_invoke returned)]
  have ran := invoke_runs rfl returned
  simp only [invokeWorld, initializeContract, ok_iff] at ran
  obtain ⟨_, _, rfl⟩ := ran
  exact ⟨_, rfl, initialConfig_bounded usdc eurc xlm⟩

/-- The administrator stores a decay rate of 100 percent, where `update_config` allows 5. -/
theorem decay_rate_unbounded :
    (traded [opening, signedBy [1] (.updateDecayParams 10000 1)]).control.config.map
      Config.decayRateBps = some 10000 := by
  decide +kernel

end InvoiceLiquidity
