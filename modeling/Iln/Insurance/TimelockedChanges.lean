import Iln.Insurance.Effect

/-! Coverage, risk multiplier and administrator over a run. Each is a value with a timelock beside
it, so one argument is made for a `Slot`: a value that changes after the initialisation was proposed
by the administrator of that moment, waited for its delay with the lock untouched, and was executed.
Coverage and multiplier can also be set at once. -/
namespace InsurancePool

open Outcome FixedWidth Transition
open InvoiceLiquidity (Address Balances Clock)

variable {pool : Address} {ν : Type}

structure Slot (ν : Type) where
  stored : World → Option ν
  lock : World → Timelock ν
  proposes : Call → Option ν
  execute : Call
  cancel : Call
  sets : Call → Option ν

def coverageSlot : Slot Int where
  stored world := world.settings.coverage
  lock world := world.timelocks.coverage
  proposes
    | .proposeCoverageChange newCoverage => some newCoverage
    | _ => none
  execute := .executeCoverageChange
  cancel := .cancelCoverageChange
  sets
    | .setCoverageViaGovernance newCoverage => some newCoverage
    | _ => none

def riskMultiplierSlot : Slot RiskMultiplier where
  stored world := world.risk.multiplier
  lock world := world.timelocks.riskMultiplier
  proposes
    | .proposeRiskMultiplier numerator denominator => some ⟨numerator, denominator⟩
    | _ => none
  execute := .executeRiskMultiplier
  cancel := .cancelRiskMultiplier
  sets
    | .setRiskMultiplier numerator denominator => some ⟨numerator, denominator⟩
    | _ => none

def adminSlot : Slot Address where
  stored world := world.settings.admin
  lock world := world.timelocks.admin
  proposes
    | .proposeAdminTransfer newAdmin => some newAdmin
    | _ => none
  execute := .executeAdminTransfer
  cancel := .cancelAdminTransfer
  sets _ := none

def Slot.locks (slot : Slot ν) (call : Call) : Bool :=
  (slot.proposes call).isSome || call == slot.execute || call == slot.cancel

def Slot.touches (slot : Slot ν) (world : World) : Action pool → Bool
  | .invoke env call => succeeds world (.invoke env call) && slot.locks call
  | _ => false

inductive SlotChange (slot : Slot ν) (env : Env pool) (world : World) (call : Call) (next : World) :
    Prop where
  | idle (stored : slot.stored next = slot.stored world) (lock : slot.lock next = slot.lock world)
      (quiet : slot.locks call = false)
  | opened (uninitialised : world.settings.admin = none) (lock : slot.lock next = slot.lock world)
      (quiet : slot.locks call = false)
  | set (value : ν) (sets : slot.sets call = some value) (signed : AdminSigned env world)
      (stored : slot.stored next = some value) (lock : slot.lock next = slot.lock world)
      (quiet : slot.locks call = false)
  | proposed (value : ν) (proposes : slot.proposes call = some value)
      (signed : AdminSigned env world) (stored : slot.stored next = slot.stored world)
      (lock : slot.lock next = propose world.clock value)
  | executed (value : ν) (executes : call = slot.execute)
      (due : executable world.clock (slot.lock world) = .ok value)
      (stored : slot.stored next = some value) (lock : slot.lock next = .empty)
  | cancelled (stored : slot.stored next = slot.stored world) (lock : slot.lock next = .empty)

section Calls

variable {env : Env pool} {world next : World} {call : Call}

theorem Change.coverageSlot (change : Change env world call next) :
    SlotChange coverageSlot env world call next := by
  cases change with
  | opened uninitialised => exact .opened uninitialised rfl rfl
  | coverageSet signed => exact .set _ rfl signed rfl rfl rfl
  | coverageProposed signed => exact .proposed _ rfl signed rfl rfl
  | coverageExecuted due => exact .executed _ rfl due rfl rfl
  | coverageCancelled => exact .cancelled rfl rfl
  | paid =>
    rw [tripCircuitIfBreached_eq]
    exact .idle rfl rfl rfl
  | _ => exact .idle rfl rfl rfl

theorem Change.riskMultiplierSlot (change : Change env world call next) :
    SlotChange riskMultiplierSlot env world call next := by
  cases change with
  | multiplierSet signed => exact .set _ rfl signed rfl rfl rfl
  | multiplierProposed signed => exact .proposed _ rfl signed rfl rfl
  | multiplierExecuted due => exact .executed _ rfl due rfl rfl
  | multiplierCancelled => exact .cancelled rfl rfl
  | defaultCounted _ multiplier | pairCounted _ multiplier => exact .idle multiplier rfl rfl
  | paid =>
    rw [tripCircuitIfBreached_eq]
    exact .idle rfl rfl rfl
  | _ => exact .idle rfl rfl rfl

theorem Change.adminSlot (change : Change env world call next) :
    SlotChange adminSlot env world call next := by
  cases change with
  | opened uninitialised => exact .opened uninitialised rfl rfl
  | adminProposed signed => exact .proposed _ rfl signed rfl rfl
  | adminExecuted due => exact .executed _ rfl due rfl rfl
  | adminCancelled => exact .cancelled rfl rfl
  | paid =>
    rw [tripCircuitIfBreached_eq]
    exact .idle rfl rfl rfl
  | _ => exact .idle rfl rfl rfl

end Calls

section Traces

def Timelock.entry (lock : Timelock ν) : Option (ν × Nat) :=
  lock.pending.bind fun value => lock.eta.map fun eta => (value, eta)

def Slot.Proposes (slot : Slot ν) (world : World) (action : Action pool) (entry : ν × Nat) : Prop :=
  ∃ env call, action = .invoke env call ∧ succeeds world action = true ∧
    slot.proposes call = some entry.1 ∧
    AdminSigned env world ∧ entry.2 = addCapped u64Max world.clock.timestamp timelockDelaySeconds

/-- The action executes a proposal that its administrator made in the run, that has waited for the
delay and that nothing has cancelled, replaced or executed since. -/
def Slot.Matured (slot : Slot ν) (start : World) (actions : List (Action pool))
    (action : Action pool) : Prop :=
  ∃ value eta before proposal since, actions = before ++ proposal :: since ∧
    slot.Proposes (exec step start before) proposal (value, eta) ∧
    Along step (fun world action => ¬ slot.touches world action = true)
      (exec step start (before ++ [proposal])) since ∧
    eta ≤ (exec step start actions).clock.timestamp ∧ (∃ env, action = .invoke env slot.execute) ∧
    slot.stored (step (exec step start actions) action) = some value

def Slot.SetAtOnce (slot : Slot ν) (world : World) (action : Action pool) : Prop :=
  ∃ env call value, action = .invoke env call ∧ slot.sets call = some value ∧
    AdminSigned env world ∧ slot.stored (step world action) = some value

/-- Calls act on the slot as `SlotChange` says, and nothing else does. -/
structure Slot.Lawful (pool : Address) (slot : Slot ν) : Prop where
  changes {env : Env pool} {world next : World} {call : Call} :
    Change env world call next → SlotChange slot env world call next
  stored_ambient (world : World) (clock : Clock) (tokens : Balances) :
    slot.stored { world with clock, tokens } = slot.stored world
  lock_ambient (world : World) (clock : Clock) (tokens : Balances) :
    slot.lock { world with clock, tokens } = slot.lock world
  fresh (clock : Clock) (tokens : Balances) : slot.lock (genesis clock tokens) = .empty

theorem coverageSlot_lawful : coverageSlot.Lawful pool :=
  ⟨Change.coverageSlot, fun _ _ _ => rfl, fun _ _ _ => rfl, fun _ _ => rfl⟩

theorem riskMultiplierSlot_lawful : riskMultiplierSlot.Lawful pool :=
  ⟨Change.riskMultiplierSlot, fun _ _ _ => rfl, fun _ _ _ => rfl, fun _ _ => rfl⟩

theorem adminSlot_lawful : adminSlot.Lawful pool :=
  ⟨Change.adminSlot, fun _ _ _ => rfl, fun _ _ _ => rfl, fun _ _ => rfl⟩

variable {slot : Slot ν} (lawful : slot.Lawful pool)
include lawful

theorem Slot.Lawful.moves (world : World) (action : Action pool) :
    (∃ env call, action = .invoke env call ∧ succeeds world action = true ∧
      SlotChange slot env world call (step world action)) ∨
    slot.stored (step world action) = slot.stored world ∧
      slot.lock (step world action) = slot.lock world ∧
      slot.touches world action = false := by
  cases finished : succeeds world action with
  | false =>
    rw [step_of_failed finished]
    refine .inr ⟨rfl, rfl, ?_⟩
    cases action with
    | invoke => simp only [Slot.touches, finished, Bool.false_and]
    | credit | advance => rfl
  | true =>
    cases action with
    | invoke env call =>
      exact .inl ⟨env, call, rfl, rfl, lawful.changes
        (invoke_change (invoke_of_succeeds finished)).2⟩
    | credit token holder amount | advance seconds ledgers =>
          exact .inr ⟨lawful.stored_ambient world _ _, lawful.lock_ambient world _ _, rfl⟩

theorem Slot.Lawful.entry_step (world : World) (action : Action pool) (entry : ν × Nat)
    (found : (slot.lock (step world action)).entry = some entry) :
    slot.Proposes world action entry ∨ (slot.lock world).entry = some entry ∧
      ¬ slot.touches world action = true := by
  rcases lawful.moves world action with ⟨env, call, rfl, finished, change⟩ | ⟨_, lock, untouched⟩
  · have quietly : slot.locks call = false →
        slot.lock (step world (.invoke env call)) = slot.lock world →
        (slot.lock world).entry = some entry ∧ ¬ slot.touches world (.invoke env call) = true := by
      intro quiet lock
      rw [lock] at found
      exact ⟨found, by simp [Slot.touches, quiet]⟩
    cases change with
    | idle _ lock quiet | opened _ lock quiet | set _ _ _ _ lock quiet =>
      exact .inr (quietly quiet lock)
    | proposed value proposes signed _ lock =>
      rw [lock] at found
      cases found
      exact .inl ⟨env, call, rfl, finished, proposes, signed, rfl⟩
    | executed _ _ _ _ lock | cancelled _ lock =>
      rw [lock] at found
      cases found
  · rw [lock] at found
    exact .inr ⟨found, by simp [untouched]⟩

/-- A changed value was executed from the lock or set at once, unless the pool was just
initialised. -/
theorem Slot.Lawful.changed_step (world : World) (action : Action pool)
    (initialised : world.settings.admin ≠ none)
    (changed : slot.stored (step world action) ≠ slot.stored world) :
    (∃ env value eta, action = .invoke env slot.execute ∧
      (slot.lock world).entry = some (value, eta) ∧ eta ≤ world.clock.timestamp ∧
      slot.stored (step world action) = some value) ∨
    slot.SetAtOnce world action := by
  rcases lawful.moves world action with ⟨env, call, rfl, _, change⟩ | ⟨stored, _⟩
  · cases change with
    | idle stored | proposed _ _ _ stored | cancelled stored => exact absurd stored changed
    | opened uninitialised => exact absurd uninitialised initialised
    | set value sets signed stored => exact .inr ⟨env, call, value, rfl, sets, signed, stored⟩
    | executed value executes due stored =>
      obtain ⟨pending, eta, known, waited⟩ := executable_eq_ok.mp due
      refine .inl ⟨env, value, eta, congrArg _ executes, ?_, waited, stored⟩
      simp [Timelock.entry, pending, known]
  · exact absurd stored changed

theorem Slot.Lawful.traced (clock : Clock) (tokens : Balances) (actions : List (Action pool))
    {entry : ν × Nat}
    (found : (slot.lock (exec step (genesis clock tokens) actions)).entry = some entry) :
    ∃ before proposal since, actions = before ++ proposal :: since ∧
      slot.Proposes (exec step (genesis clock tokens) before) proposal entry ∧
      Along step (fun world action => ¬ slot.touches world action = true)
        (exec step (genesis clock tokens) (before ++ [proposal])) since := by
  refine last_write (fun world => (slot.lock world).entry)
    (fun world action => slot.Proposes world action)
    (fun world action => slot.touches world action = true)
    (fun world action entry => lawful.entry_step world action entry) ?_ actions found
  rw [lawful.fresh]
  rfl

theorem Slot.Lawful.changed (clock : Clock) (tokens : Balances) (actions : List (Action pool))
    (action : Action pool) :
    let world := exec step (genesis clock tokens) actions
    world.settings.admin ≠ none → slot.stored (step world action) ≠ slot.stored world →
      slot.Matured (genesis clock tokens) actions action ∨ slot.SetAtOnce world action := by
  intro world initialised changed
  rcases lawful.changed_step _ action initialised changed with ⟨env, value, eta, executes, found,
    waited, stored⟩ | set
  · obtain ⟨before, proposal, since, split, proposes, untouched⟩ :=
      lawful.traced clock tokens actions found
    exact .inl ⟨value, eta, before, proposal, since, split, proposes, untouched, waited,
      ⟨env, executes⟩, stored⟩
  · exact .inr set

end Traces

/-- After the initialisation the administrator changes only by executing a proposal of the
administrator of its time that has waited for the delay and was neither cancelled nor replaced.
Coverage and risk multiplier change in that way or by a setter that the administrator signs. -/
theorem changes_by_timelock_or_setter (clock : Clock) (tokens : Balances)
    (actions : List (Action pool)) (action : Action pool) :
    let world := exec step (genesis clock tokens) actions
    world.settings.admin ≠ none →
    ((step world action).settings.coverage ≠ world.settings.coverage →
      coverageSlot.Matured (genesis clock tokens) actions action ∨
      coverageSlot.SetAtOnce world action) ∧
    ((step world action).risk.multiplier ≠ world.risk.multiplier →
      riskMultiplierSlot.Matured (genesis clock tokens) actions action ∨
        riskMultiplierSlot.SetAtOnce world action) ∧
    ((step world action).settings.admin ≠ world.settings.admin →
      adminSlot.Matured (genesis clock tokens) actions action) := by
  intro world initialised
  refine ⟨coverageSlot_lawful.changed clock tokens actions action initialised,
    riskMultiplierSlot_lawful.changed clock tokens actions action initialised, fun changed => ?_⟩
  rcases adminSlot_lawful.changed clock tokens actions action initialised changed with matured | ⟨_,
    _, _, _, sets, _⟩
  · exact matured
  · cases sets

def handedOver : List (Action ⟨0⟩) :=
  [signedBy [1] (.initializeContract ⟨1⟩ 100 ⟨9⟩), signedBy [1] (.proposeAdminTransfer ⟨4⟩),
    .advance 259200 10]

theorem changes_by_timelock_or_setter_of_handedOver :
    let world := exec step (genesis ⟨1000, 10⟩ fun _ _ => 0) handedOver
    world.settings.admin = some ⟨1⟩ ∧
      (step world (signedBy [] .executeAdminTransfer)).settings.admin = some ⟨4⟩ ∧
      adminSlot.Matured (genesis ⟨1000, 10⟩ fun _ _ => 0) handedOver
        (signedBy [] .executeAdminTransfer) := by
  refine ⟨by decide +kernel, by decide +kernel, ?_⟩
  exact (changes_by_timelock_or_setter ⟨1000, 10⟩ (fun _ _ => 0) handedOver
    (signedBy [] .executeAdminTransfer) (by decide +kernel)).2.2 (by decide +kernel)

/-- Nothing was ever proposed, and yet the coverage and the risk multiplier change. -/
theorem changes_without_proposal :
    let opened := [signedBy [1] (.initializeContract ⟨1⟩ 100 ⟨9⟩)]
    let world := exec step (genesis ⟨1000, 10⟩ fun _ _ => 0) opened
    let raises := signedBy [1] (.setCoverageViaGovernance 200)
    let reprices := signedBy [1] (.setRiskMultiplier 3 2)
    world.settings.admin = some ⟨1⟩ ∧
      (step world raises).settings.coverage = some 200 ∧ world.settings.coverage = some 100 ∧
      ¬ coverageSlot.Matured (genesis ⟨1000, 10⟩ fun _ _ => 0) opened raises ∧
      (step world reprices).risk.multiplier = some ⟨3, 2⟩ ∧ world.risk.multiplier = none ∧
      ¬ riskMultiplierSlot.Matured (genesis ⟨1000, 10⟩ fun _ _ => 0) opened reprices := by
  refine ⟨by decide +kernel, by decide +kernel, by decide +kernel,
    ?_, by decide +kernel, by decide +kernel, ?_⟩
  · rintro ⟨_, _, _, _, _, _, _, _, _, ⟨_, executes⟩, _⟩
    cases executes
  · rintro ⟨_, _, _, _, _, _, _, _, _, ⟨_, executes⟩, _⟩
    cases executes

end InsurancePool
