import Iln.Invoice.Frame

/-! The administrator's audit log. A ring of fifty slots gives back the newest entries without a
gap, but not every entry point that asks for the administrator writes one. -/
namespace InvoiceLiquidity

open Outcome Transition

variable {contract : Address} {env : Env contract} {world next : World} {call : Call}

def Call.administrative : Call → Bool
  | .initializeMultisigAdmin _ _ | .updateConfig _ _ | .setMaxInvoiceAmount _
  | .setTokenVolumeCap _ _ => true
  | .checkOracleHealth _ _ _ | .checkOracleVerification _ _ _ | .fundInvoice _ _ _ _ => false
  | call => call.onOracle || call.logs.isSome

/-- Entry points of the administrator that write no audit record. -/
def Action.unrecorded : Action contract → Bool
  | .invoke _ call => call.administrative && call.logs.isNone
  | _ => false

/-- Every successful call of the administrator, with the record that belongs to it. -/
def noteAdmin (world : World) (action : Action contract) (notes : List (Option AdminActionRecord)) :
    List (Option AdminActionRecord) :=
  match action with
  | .invoke _ call =>
    if call.administrative = true ∧ succeeds world action = true then notes ++ [do
      let name ← call.logs
      let admin ← world.control.admin
      return ⟨notes.length, name, admin, world.clock.sequence, world.clock.timestamp⟩]
    else notes
  | _ => notes

theorem ControlWrite.audited {clock : Clock} {before after : Control}
    (write : ControlWrite clock before call after) :
    Audited clock before after.audit call.logs := by
  have silent (on : call.onMultisig = true ∨ call.onOracle = true) : call.logs = none := by
    cases call with
    | _ => first | rfl | cases on with | _ on => cases on
  cases write with
  | admin _ started | settings started | dropped _ started | rewired _ _ started
  | registered started | oracle started =>
    obtain ⟨_, _, _, _, _, audited⟩ := started
    exact audited
  | multisig _ on | voted _ _ on =>
    rw [silent (.inl on)]
    rfl
  | observed on =>
    rw [silent (.inr on)]
    rfl

theorem invoke_audited (returned : invoke env world call = .ok next) :
    Audited world.clock world.control next.control.audit call.logs := by
  rcases invoke_routed returned with ⟨_, routed, rfl⟩ | ⟨_, ran⟩
  · exact (invokeControl_write routed).audited
  · exact (invokeWorld_writes ran).audited

theorem administrative_of_logs {name : AdminCall} (logs : call.logs = some name) :
    call.administrative = true := by
  cases call with
  | _ => first | rfl | cases logs

theorem step_recorded {action : Action contract} {records : List AdminActionRecord}
    (holds : world.control.audit.Holds adminActionLogCapacity records)
    (recorded : action.unrecorded = true → succeeds world action = false) :
    ∃ later, (step world action).control.audit.Holds adminActionLogCapacity later ∧
      noteAdmin world action (records.map some) = later.map some := by
  cases action with
  | credit | advance => exact ⟨records, holds, rfl⟩
  | invoke env call =>
    cases finished : succeeds world (.invoke env call) with
    | false =>
      rw [step_of_failed finished]
      exact ⟨records, holds, if_neg (by simp [finished])⟩
    | true =>
      have audited := invoke_audited (invoke_of_succeeds finished)
      cases logs : call.logs with
      | none =>
        have idle : call.administrative = false := by simpa [Action.unrecorded, logs,
          finished] using recorded
        rw [logs] at audited
        rw [show _ = _ from audited]
        exact ⟨records, holds, if_neg (by simp [idle])⟩
      | some =>
        rw [logs] at audited
        obtain ⟨_, stored, pushed⟩ := audited
        rw [pushed]
        refine ⟨_, holds.push _, ?_⟩
        have counted : world.control.adminActionCount = records.length := holds.counted
        simp [noteAdmin, finished, administrative_of_logs logs, logs, stored, counted]

/-- Until the first unrecorded call of the administrator the log is the tail of all of theirs,
newest first. -/
theorem admin_log_complete (clock : Clock) (balance : Balances) (actions : List (Action contract))
    (limit : Nat)
      (recorded : Along step (fun world action => action.unrecorded = true →
        succeeds world action = false) (genesis clock balance) actions) :
    (getRecentAdminActions (reach clock balance actions).control limit).map some =
      (noted step noteAdmin [] (genesis clock balance) actions).reverse.take (min limit 50) := by
  obtain ⟨records, holds, noted⟩ : ∃ records,
      (reach clock balance actions).control.audit.Holds adminActionLogCapacity
        records ∧ noted step noteAdmin [] (genesis clock balance) actions = records.map some := by
    refine noted_induct (fun notes world => ∃ records : List AdminActionRecord,
      world.control.audit.Holds adminActionLogCapacity records ∧ notes = records.map some)
      ?_ ?_ recorded
    · rintro _ world action ⟨records, holds, rfl⟩ recorded
      exact step_recorded holds recorded
    · exact ⟨[], ⟨rfl, nofun⟩, rfl⟩
  rw [noted, ← List.map_reverse, ← List.map_take]
  exact congrArg (List.map some) (holds.recent limit)

theorem admin_log_complete_of_pause :
    (getRecentAdminActions (traded [opening,
      signedBy [1] .pause, signedBy [1] .unpause]).control 1).map some =
        [some ⟨1, .unpause, ⟨1⟩, 10, 1000⟩] :=
  (admin_log_complete _ _ _ 1 (by decide +kernel)).trans (by decide +kernel)

/-- A successful `set_max_invoice_amount` leaves no record. -/
theorem max_amount_unrecorded : let run : List (Action ⟨0⟩) :=
      [opening, signedBy [1] (.setMaxInvoiceAmount 7)]
    (traded run).control.maxInvoiceAmount = 7 ∧
    (noted step noteAdmin [] market run).length = 1 ∧
      getRecentAdminActions (traded run).control 50 = [] := by
  decide +kernel

end InvoiceLiquidity
