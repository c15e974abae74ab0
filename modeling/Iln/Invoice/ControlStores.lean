import Iln.Invoice.Frame

/-! Who writes the multisig store and who writes the oracle store: a handful of calls write the one,
the registry calls, the diagnostics and `fund_invoice` the other. -/
namespace InvoiceLiquidity

open Outcome

variable {contract : Address}

structure Confined (request : Call) (before after : Control) : Prop where
  multisig : request.onMultisig = false → after.multisig = before.multisig
  oracle : request.onOracle = false → after.oracle = before.oracle

section Calls

variable {env : Env contract} {world next : World} {request : Call} {after : Control}

theorem ControlWrite.confined {clock : Clock} {before : Control}
    (write : ControlWrite clock before request after) : Confined request before after := by
  cases write with
  | admin _ started | settings started | dropped _ started | rewired _ _ started
  | registered started =>
    obtain ⟨_, _, _, _, rfl, _⟩ := started
    exact ⟨fun _ => rfl, fun _ => rfl⟩
  | multisig _ on | voted _ _ on => exact ⟨fun other => (by cases on.symm.trans other),
      fun _ => rfl⟩
  | oracle started on =>
    obtain ⟨_, _, _, _, rfl, _⟩ := started
    exact ⟨fun _ => rfl, fun other => (by cases on.symm.trans other)⟩
  | observed on => exact ⟨fun _ => rfl, fun other => (by cases on.symm.trans other)⟩

theorem invokeWorld_confined (ran : invokeWorld env world request = .ok next) :
    Confined request world.control next.control := by
  cases request with
  | initializeContract =>
    simp only [invokeWorld, initializeContract, ok_iff] at ran
    obtain ⟨_, _, rfl⟩ := ran
    exact ⟨fun _ => rfl, fun _ => rfl⟩
  | _ =>
    have kept := (invokeWorld_writes ran).kept (by rintro _ _ _ _ ⟨⟩)
    exact ⟨fun _ => kept.multisig, kept.oracle⟩

theorem invoke_confined (ran : invoke env world request = .ok next) :
    Confined request world.control next.control := by
  rcases invoke_routed ran with ⟨_, routed, rfl⟩ | ⟨_, ran⟩
  · exact (invokeControl_write routed).confined
  · exact invokeWorld_confined ran

end Calls

end InvoiceLiquidity
