import Iln.Invoice.State

/-! Guards of `access.rs`: signatures, the stored administrator, the reentrancy lock, rate
limits and the ring buffer of administrative actions. A missing signature traps; every other
refusal is a returned error. -/
namespace InvoiceLiquidity

open Outcome FixedWidth

variable {contract : Address} {env : Env contract} {passed : Unit} {control next : Control}

def requireAuth (env : Env contract) (address : Address) : Result Unit :=
  require (env.signed address = true) .trap

def requireAdmin (env : Env contract) (control : Control) : Result Unit := do
  let admin ← orFail control.admin (.returned .unauthorized)
  requireAuth env admin

def lockReentrancy (control : Control) : Result Control := do
  require (control.reentrancyLock = false) (.returned .reentrancy)
  return { control with reentrancyLock := true }

def unlockReentrancy (control : Control) : Control := { control with reentrancyLock := false }

def requireUnpaused (control : Control) : Result Unit :=
  require (control.paused = false) (.returned .contractPaused)

def checkRateLimit (clock : Clock) (control : Control) (call : AdminCall) (cooldownLedgers : Nat) :
    Result Control := do
  require (∀ last ∈ control.rateLimit call, addCapped u32Max last cooldownLedgers ≤ clock.sequence)
    (.returned .rateLimited)
  return { control with rateLimit := Function.update control.rateLimit call (some clock.sequence) }

def adminActionLogCapacity : Nat := 50

def recordAdminAction (clock : Clock) (control : Control) (action : AdminCall) : Control :=
  match control.admin with
  | none => control
  | some admin =>
    let seq := control.adminActionCount
    { control with
      adminActionLog := Function.update control.adminActionLog (seq % adminActionLogCapacity)
        (some ⟨seq, action, admin, clock.sequence, clock.timestamp⟩)
      adminActionCount := seq + 1 }

def getRecentAdminActions (control : Control) (limit : Nat) : List AdminActionRecord :=
  let total := control.adminActionCount
  let count := min (min limit adminActionLogCapacity) total
  (List.range count).filterMap fun i => control.adminActionLog
    ((total - 1 - i) % adminActionLogCapacity)

/-- `require_admin`, then the rate limit, then the audit record: how most setters begin. -/
def beginAdminCall (env : Env contract) (clock : Clock) (control : Control) (call : AdminCall)
    (cooldownLedgers : Nat) : Result Control := do
  requireAdmin env control
  let control ← checkRateLimit clock control call cooldownLedgers
  return recordAdminAction clock control call

/-- The oracle registry's setters begin the same way without an audit record. -/
def beginOracleCall (env : Env contract) (clock : Clock) (control : Control) (call : AdminCall) :
    Result Control := do
  requireAdmin env control
  checkRateLimit clock control call defaultRateLimitLedgers

@[simp] theorem requireAuth_ok {address : Address} :
    requireAuth env address = .ok passed ↔ env.signed address = true := by
  simp [requireAuth]

@[simp] theorem requireAdmin_ok {control : Control} :
    requireAdmin env control = .ok passed ↔ ∃ admin, control.admin = some admin ∧
      env.signed admin = true := by
  simp [requireAdmin]

@[simp] theorem lockReentrancy_ok {control locked : Control} : lockReentrancy control = .ok locked ↔
      control.reentrancyLock = false ∧ { control with reentrancyLock := true } = locked := by
  simp [lockReentrancy]

@[simp] theorem requireUnpaused_ok {control : Control} :
    requireUnpaused control = .ok passed ↔ control.paused = false := by
  simp [requireUnpaused]

@[simp] theorem recordAdminAction_admin (clock : Clock) (control : Control) (action : AdminCall) :
    (recordAdminAction clock control action).admin = control.admin := by
  unfold recordAdminAction
  split <;> rfl

@[simp] theorem recordAdminAction_config (clock : Clock) (control : Control) (action : AdminCall) :
    (recordAdminAction clock control action).config = control.config := by
  unfold recordAdminAction
  split <;> rfl

@[simp] theorem recordAdminAction_decimals (clock : Clock) (control : Control)
    (action : AdminCall) :
    (recordAdminAction clock control action).tokenDecimals = control.tokenDecimals := by
  unfold recordAdminAction
  split <;> rfl

theorem beginAdminCall_admin {clock : Clock} {call : AdminCall}
    {cooldown : Nat} (passed : beginAdminCall env clock control call cooldown = .ok next) :
    next.admin = control.admin ∧ ∃ admin, control.admin = some admin ∧ env.signed admin = true := by
  simp only [beginAdminCall, checkRateLimit, ok_iff, requireAdmin_ok] at passed
  obtain ⟨_, stored, _, ⟨_, _, rfl⟩, rfl⟩ := passed
  rw [recordAdminAction_admin]
  exact ⟨rfl, stored⟩

end InvoiceLiquidity
