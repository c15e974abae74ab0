import Iln.Foundation.RingLog
import Iln.Invoice.Contract

/-! The calls that act on `Control` alone, by what they write. Most begin with the administrator,
the rate limit and the audit log and then write settings; a few drop a token, wire the configuration
or register decimals; the rest write the multisig or the oracle store. Everything about a control
call is read off `ControlWrite`. -/
namespace InvoiceLiquidity

open Outcome

variable {contract : Address}

def Call.registersDecimals : Call → Bool
  | .initializeContract _ _ _ _ | .addToken _ _ | .correctTokenDecimals _ _ | .migrate => true
  | _ => false

def Call.onMultisig : Call → Bool
  | .initializeMultisigAdmin _ _ | .propose _ _ | .signProposal _ _ | .executeProposal _ _
  | .finalizeSignerRotation _ | .cancelSignerRotation _ => true
  | _ => false

def Call.onOracle : Call → Bool
  | .registerOracle _ _ | .removeOracle _ | .registerTokenOracle _ _ _ | .removeTokenOracle _ _
  | .checkOracleHealth _ _ _ | .checkOracleVerification _ _ _ | .resetOracleCircuit _ _
  | .addPriceSource _ _ | .removePriceSource _ _ | .setMaxPriceDeviationBps _
  | .addIdentityOracle _ _ | .removeIdentityOracle _ _ | .setIdentityQuorum _ | .setTwapEnabled _ _
  | .setTwapWindow _ | .recordTwapSample _ _ _ | .fundInvoice _ _ _ _ => true
  | _ => false

def Config.sacAddresses (config : Config) : List Address :=
  [config.usdcSacAddress, config.eurcSacAddress, config.xlmSacAddress]

def Call.opened : Call → Option (List Address)
  | .initializeContract _ usdc eurc xlm => some [usdc, eurc, xlm]
  | _ => none

def Call.rewired : Call → Option (List Address)
  | .updateConfig _ wanted => some wanted.sacAddresses
  | _ => none

def Call.Unwired (call : Call) : Prop := call.opened = none ∧ call.rewired = none

/-- Someone may administer: there is an administrator or a multisig. -/
def Control.Governed (control : Control) : Prop :=
  control.admin.isSome = true ∨ control.multisig.admin.isSome = true

def Call.logs : Call → Option AdminCall
  | .setAdmin _ => some .setAdmin
  | .updateFeeRate _ => some .updateFeeRate
  | .updateMaxDiscount _ => some .updateMaxDiscount
  | .updateDecayParams _ _ => some .updateDecayParams
  | .setDistributionContract _ => some .setDistributionContract
  | .setPriceOracle _ => some .setPriceOracle
  | .setMaxOracleAge _ => some .setMaxOracleAge
  | .setInsurancePool _ => some .setInsurancePool
  | .addToken _ _ => some .addToken
  | .removeToken _ => some .removeToken
  | .correctTokenDecimals _ _ => some .correctTokenDecimals
  | .pause => some .pause
  | .unpause => some .unpause
  | .upgrade => some .upgrade
  | .migrate => some .migrate
  | .rehearseRollback => some .rehearseRollback
  | .updateFeeTiers _ => some .updateFeeTiers
  | .resolveAppeal _ _ => some .resolveAppeal
  | .resolveDispute _ _ => some .resolveDispute
  | .setMinPayerReputation _ => some .setMinPayerReputation
  | _ => none

def Control.audit (control : Control) : RingLog AdminActionRecord :=
    ⟨control.adminActionCount, control.adminActionLog⟩

def Audited (clock : Clock) (before : Control) (after : RingLog AdminActionRecord) :
    Option AdminCall → Prop
  | none => after = before.audit
  | some action => ∃ admin, before.admin = some admin ∧ after =
      before.audit.push adminActionLogCapacity
      ⟨before.adminActionCount, action, admin, clock.sequence, clock.timestamp⟩

theorem Control.Governed.of_signer {env : Env contract} {control : Control} {signer : Address}
    {config : MultisigAdmin} (passed : requireSigner env control.multisig signer = .ok config) :
    control.Governed := by
  simp only [requireSigner, ok_iff] at passed
  obtain ⟨_, stored, _⟩ := passed
  exact .inr (by rw [stored]; rfl)

section Guards

/-- Someone may administer, the rate limit was taken, and the call logged if it is one that is. -/
def Begun (clock : Clock) (logs : Option AdminCall) (before begun : Control) : Prop :=
  before.Governed ∧ ∃ limits count log,
    begun = { before with
      rateLimit := limits, adminActionCount := count, adminActionLog := log } ∧
    Audited clock before begun.audit logs

variable {env : Env contract} {clock : Clock} {control begun : Control} {call : AdminCall}
  {cooldown : Nat}

theorem checkRateLimit_begun (governed : control.Governed)
    (passed : checkRateLimit clock control call cooldown = .ok begun) :
    Begun clock none control begun := by
  simp only [checkRateLimit, ok_iff] at passed
  obtain ⟨_, _, rfl⟩ := passed
  exact ⟨governed, _, _, _, rfl, rfl⟩

section Admin

variable (admin : ∃ admin, control.admin = some admin ∧ env.signed admin = true)
include admin

theorem Control.Governed.of_admin : control.Governed := by
  obtain ⟨admin, stored, _⟩ := admin
  exact .inl (by rw [stored]; rfl)

theorem recordAdminAction_logged (clock : Clock) (action : AdminCall) : ∃ count log,
    recordAdminAction clock control action =
      { control with adminActionCount := count, adminActionLog := log } ∧
      Audited clock control (recordAdminAction clock control action).audit (some action) := by
  obtain ⟨admin, stored, _⟩ := admin
  unfold recordAdminAction
  split
  next missing => cases stored.symm.trans missing
  next found => exact ⟨_, _, rfl, _, found, rfl⟩

theorem recordAdminAction_begun (clock : Clock) (action : AdminCall) :
    Begun clock (some action) control (recordAdminAction clock control action) := by
  obtain ⟨_, _, logged, audited⟩ := recordAdminAction_logged admin clock action
  exact ⟨.of_admin admin, _, _, _, logged, audited⟩

theorem Begun.of_limited (limited : checkRateLimit clock control call cooldown = .ok begun)
    (action : AdminCall) :
    Begun clock (some action) control (recordAdminAction clock begun action) := by
  obtain ⟨governed, limits, _, _, rfl, silent⟩ := checkRateLimit_begun (.of_admin admin) limited
  cases silent
  obtain ⟨_, _, logged, audited⟩ :=
    @recordAdminAction_logged _ _ { control with rateLimit := limits } admin clock action
  exact ⟨governed, _, _, _, logged, audited⟩

end Admin

theorem beginAdminCall_begun (passed : beginAdminCall env clock control call cooldown = .ok begun) :
    Begun clock (some call) control begun := by
  simp only [beginAdminCall, ok_iff, requireAdmin_ok] at passed
  obtain ⟨_, admin, _, allowed, rfl⟩ := passed
  exact .of_limited admin allowed call

theorem beginOracleCall_begun (passed : beginOracleCall env clock control call = .ok begun) :
    Begun clock none control begun := by
  simp only [beginOracleCall, ok_iff, requireAdmin_ok] at passed
  obtain ⟨_, admin, allowed⟩ := passed
  exact checkRateLimit_begun (.of_admin admin) allowed

theorem beginOracleCall_oracle (passed : beginOracleCall env clock control call = .ok begun) :
    begun.oracle = control.oracle := by
  obtain ⟨_, _, _, _, rfl, _⟩ := beginOracleCall_begun passed
  rfl

end Guards

theorem isSome_update {κ : Type} (table : Address → Option κ) (token : Address) (value : κ)
    {other : Address} (found : (table other).isSome = true) :
    (Function.update table token (some value) other).isSome = true := by
  rw [Function.update_apply]
  split
  · rfl
  · exact found

structure Config.Bounded (config : Config) : Prop where
  bonus : config.bonusBps ≤ 500
  discount : config.minDiscountRateBps ≠ 0 ∧ config.minDiscountRateBps < 10000
  decay : config.decayRateBps ≤ 500
  threshold : config.highRepThreshold ≤ 100

inductive Tuned : Call → Option Config → Option Config → Prop
  | kept {request : Call} {config : Option Config} : Tuned request config config
  | decay (old : Config) (rateBps periodLedgers : Nat) :
      Tuned (.updateDecayParams rateBps periodLedgers) (some old)
      (some { old with decayRateBps := rateBps, decayPeriodLedgers := periodLedgers })
  | oracle {request : Call} (old : Config) (priceOracle : Option Address)
      (maxOracleAgeLedgers : Nat) :
      Tuned request (some old)
        (some { old with priceOracle, maxOracleAgeLedgers })

theorem Tuned.wires {request : Call} {old new : Option Config} (tuned : Tuned request old new) :
    new.elim [] Config.sacAddresses = old.elim [] Config.sacAddresses := by
  cases tuned <;> rfl

inductive ControlWrite (clock : Clock) (before : Control) : Call → Control → Prop
  | admin {begun : Control} (newAdmin : Address)
      (started : Begun clock (some .setAdmin) before begun) :
      ControlWrite clock before (.setAdmin newAdmin) { begun with admin := some newAdmin }
  | settings {request : Call} {begun : Control} {config : Option Config}
      {feeRate maxDiscountRate : Option Nat} {feeTiers : List (Int × Nat)}
      {distributionContract insurancePool : Option Address} {paused : Bool}
      {lastPauseTimestamp minPayerReputation : Nat} {maxInvoiceAmount : Int}
      {tokenVolumeCap : Address → Int} (started : Begun clock request.logs before begun)
      (unwired : request.Unwired) (tuned : Tuned request begun.config config) :
      ControlWrite clock before request { begun with
        config, feeRate, feeTiers, maxDiscountRate, distributionContract, insurancePool, paused
        lastPauseTimestamp, minPayerReputation, maxInvoiceAmount, tokenVolumeCap }
  | dropped {request : Call} {begun : Control} (token : Address)
      (started : Begun clock request.logs before begun) (unwired : request.Unwired) :
      ControlWrite clock before request (dropToken begun token)
  | rewired {begun : Control} {priceOracle : Option Address} {maxOracleAgeLedgers : Nat}
      (caller : Address) (wanted : Config) (started : Begun clock none before begun)
      (bounded : wanted.Bounded) :
      ControlWrite clock before (.updateConfig caller wanted)
        { begun with config := some { wanted with priceOracle, maxOracleAgeLedgers } }
  | registered {request : Call} {begun : Control} {table : Address → Option Nat}
      {version : Option Nat} (started : Begun clock request.logs before begun)
      (registers : request.registersDecimals = true) (unwired : request.Unwired)
      (grows : ∀ token, (before.tokenDecimals token).isSome = true → (table token).isSome = true) :
      ControlWrite clock before request
        { begun with tokenDecimals := table, storageVersion := version }
  | multisig {request : Call} {store : MultisigStore} {feeRate maxDiscountRate : Option Nat}
      {paused : Bool} {lastPauseTimestamp : Nat} (governed : before.Governed)
      (on : request.onMultisig = true) (unwired : request.Unwired) :
      ControlWrite clock before request
        { before with multisig := store, feeRate, maxDiscountRate, paused, lastPauseTimestamp }
  | voted {request : Call} {store : MultisigStore} (token : Address) (governed : before.Governed)
      (on : request.onMultisig = true) (unwired : request.Unwired) :
      ControlWrite clock before request { dropToken before token with multisig := store }
  | oracle {request : Call} {begun : Control} {store : OracleStore}
      (started : Begun clock request.logs before begun) (on : request.onOracle = true)
      (unwired : request.Unwired) :
      ControlWrite clock before request { begun with oracle := store }
  | observed {request : Call} {store : OracleStore} (on : request.onOracle = true)
      (unwired : request.Unwired) :
      ControlWrite clock before request { before with oracle := store }

section Calls

variable {env : Env contract} {clock : Clock} {world : World} {request : Call}
variable {control after : Control}

theorem registerMissingDecimals_grows (table : Address → Option Nat) (token : Address)
    (decimals : Nat) {other : Address} (registered : (table other).isSome = true) :
    (registerMissingDecimals table token decimals other).isSome = true := by
  unfold registerMissingDecimals
  split
  · exact registered
  · exact isSome_update table token decimals registered

theorem migrate_write (ran : migrate env clock control = .ok after) :
    ControlWrite clock control .migrate after := by
  simp only [migrate, ok_iff, requireAdmin_ok] at ran
  obtain ⟨_, admin, moved⟩ := ran
  have started : Begun clock (Call.logs .migrate) control _ :=
    recordAdminAction_begun admin clock .migrate
  obtain ⟨_, _, _, _, logged, _⟩ := id started
  rw [logged] at started moved
  split at moved
  · cases moved
    exact .registered started rfl ⟨rfl, rfl⟩ fun _ registered => registered
  · cases moved
    refine .registered started rfl ⟨rfl, rfl⟩ fun token registered => ?_
    cases control.config with
    | none => exact registered
    | some =>
      exact registerMissingDecimals_grows _ _ _ (registerMissingDecimals_grows _ _ _
        (registerMissingDecimals_grows _ _ _ registered))

theorem applyAdminAction_write {store : MultisigStore} {action : AdminAction}
    (governed : control.Governed) (on : request.onMultisig = true) (unwired : request.Unwired)
    (ran : applyAdminAction clock { control with multisig := store } action = .ok after) :
    ControlWrite clock control request after := by
  cases action with
  | removeToken token =>
    cases ran
    exact .voted token governed on unwired
  | updateMultisig =>
    simp only [applyAdminAction, ok_iff] at ran
    obtain ⟨_, _, rfl⟩ := ran
    exact .multisig governed on unwired
  | rotateSigner =>
    simp only [applyAdminAction, scheduleRotation, ok_iff] at ran
    obtain ⟨_, _, _, _, _, _, _, _, rfl⟩ := ran
    exact .multisig governed on unwired
  | _ =>
    cases ran
    exact .multisig governed on unwired

theorem invokeControl_write (ran : invokeControl env world request = some (.ok after)) :
    ControlWrite world.clock world.control request after := by
  cases request <;> simp only [invokeControl, Option.some.injEq, reduceCtorEq] at ran
  case setAdmin newAdmin =>
    simp only [setAdmin, ok_iff] at ran
    obtain ⟨_, passed, rfl⟩ := ran
    exact .admin newAdmin (beginAdminCall_begun passed)
  case updateFeeRate | updateMaxDiscount | setDistributionContract | setInsurancePool |
  setMinPayerReputation =>
    simp only [updateFeeRate, updateMaxDiscount, setDistributionContract, setInsurancePool,
      setMinPayerReputation, ok_iff] at ran
    obtain ⟨_, passed, rfl⟩ := ran
    exact .settings (beginAdminCall_begun passed) ⟨rfl, rfl⟩ .kept
  case removeToken token =>
    simp only [removeToken, ok_iff] at ran
    obtain ⟨_, passed, rfl⟩ := ran
    exact .dropped token (beginAdminCall_begun passed) ⟨rfl, rfl⟩
  case upgrade =>
    simp only [upgrade, ok_iff] at ran
    obtain ⟨_, passed, _, _, rfl⟩ := ran
    exact .settings (beginAdminCall_begun passed) ⟨rfl, rfl⟩ .kept
  case updateDecayParams =>
    simp only [updateDecayParams, ok_iff] at ran
    obtain ⟨_, passed, _, stored, rfl⟩ := ran
    exact .settings (beginAdminCall_begun passed) ⟨rfl, rfl⟩ (stored ▸ .decay _ _ _)
  case setPriceOracle | setMaxOracleAge =>
    simp only [setPriceOracle, setMaxOracleAge, ok_iff] at ran
    obtain ⟨_, passed, _, stored, rfl⟩ := ran
    exact .settings (beginAdminCall_begun passed) ⟨rfl, rfl⟩ (stored ▸ .oracle _ _ _)
  case
    removeOracle | removeTokenOracle | resetOracleCircuit | removePriceSource | removeIdentityOracle
    | setTwapEnabled =>
    simp only [removeOracle, removeTokenOracle, resetOracleCircuit, removePriceSource,
      removeIdentityOracle, setTwapEnabled, ok_iff] at ran
    obtain ⟨_, passed, rfl⟩ := ran
    exact .oracle (beginOracleCall_begun passed) rfl ⟨rfl, rfl⟩
  case
    registerOracle | registerTokenOracle | addPriceSource | setMaxPriceDeviationBps |
    addIdentityOracle | setIdentityQuorum | setTwapWindow =>
    simp only [registerOracle, registerTokenOracle, addPriceSource, setMaxPriceDeviationBps,
      addIdentityOracle, setIdentityQuorum, setTwapWindow, ok_iff] at ran
    obtain ⟨_, passed, _, _, rfl⟩ := ran
    exact .oracle (beginOracleCall_begun passed) rfl ⟨rfl, rfl⟩
  case recordTwapSample =>
    simp only [recordTwapSample, ok_iff] at ran
    obtain ⟨_, _, _, _, rfl⟩ := ran
    exact .observed rfl ⟨rfl, rfl⟩
  case correctTokenDecimals token decimals =>
    simp only [correctTokenDecimals, ok_iff, requireAdmin_ok] at ran
    obtain ⟨_, admin, _, _, _, limited, _, _, rfl⟩ := ran
    have started := Begun.of_limited admin limited .correctTokenDecimals
    refine .registered started rfl ⟨rfl, rfl⟩ fun _ registered => ?_
    apply isSome_update
    obtain ⟨_, _, _, _, same, _⟩ := started
    rw [same]
    exact registered
  case pause | unpause =>
    simp only [pause, unpause, ok_iff, requireAdmin_ok] at ran
    obtain ⟨_, admin, rfl⟩ := ran
    exact .settings (recordAdminAction_begun admin _ _) ⟨rfl, rfl⟩ .kept
  case migrate =>
    exact migrate_write ran
  case rehearseRollback =>
    simp only [rehearseRollback, ok_iff, requireAdmin_ok] at ran
    obtain ⟨_, admin, _, _, rfl⟩ := ran
    exact .settings (recordAdminAction_begun admin _ _) ⟨rfl, rfl⟩ .kept
  case updateFeeTiers =>
    simp only [updateFeeTiers, ok_iff, requireAdmin_ok] at ran
    obtain ⟨_, admin, _, _, _, limited, rfl⟩ := ran
    exact .settings (.of_limited admin limited _) ⟨rfl, rfl⟩ .kept
  case setMaxInvoiceAmount | setTokenVolumeCap =>
    simp only [setMaxInvoiceAmount, setTokenVolumeCap, ok_iff, requireAdmin_ok] at ran
    obtain ⟨_, admin, _, limited, rfl⟩ := ran
    exact .settings (checkRateLimit_begun (.of_admin admin) limited) ⟨rfl, rfl⟩ .kept
  case updateConfig caller wanted =>
    simp only [updateConfig, ok_iff] at ran
    obtain ⟨_, limited, _, stored, _, _, _, _, _, _, _, bonus, _, discount, _, decay, _,
      threshold, rfl⟩ := ran
    refine .rewired caller wanted (checkRateLimit_begun (.inl ?_) limited)
      ⟨bonus, discount, decay, threshold⟩
    simp only [checkRateLimit, ok_iff] at limited
    obtain ⟨_, _, rfl⟩ := limited
    exact Option.isSome_iff_exists.mpr ⟨_, stored⟩
  case initializeMultisigAdmin =>
    simp only [initializeMultisigAdmin, ok_iff, requireAdmin_ok] at ran
    obtain ⟨_, _, _, _, _, admin, rfl⟩ := ran
    exact .multisig (.of_admin admin) rfl ⟨rfl, rfl⟩
  case propose =>
    simp only [propose, ok_iff] at ran
    obtain ⟨_, ⟨_, passed, _, _, rfl⟩, rfl⟩ := ran
    exact .multisig (.of_signer passed) rfl ⟨rfl, rfl⟩
  case cancelSignerRotation =>
    simp only [cancelSignerRotation, ok_iff] at ran
    obtain ⟨_, passed, _, _, rfl⟩ := ran
    exact .multisig (.of_signer passed) rfl ⟨rfl, rfl⟩
  case signProposal | finalizeSignerRotation =>
    simp only [signProposal, finalizeSignerRotation, ok_iff] at ran
    obtain ⟨_, passed, _, _, _, _, rfl⟩ := ran
    exact .multisig (.of_signer passed) rfl ⟨rfl, rfl⟩
  case executeProposal =>
    simp only [executeProposal, ok_iff] at ran
    obtain ⟨_, passed, _, _, _, _, applied⟩ := ran
    exact applyAdminAction_write (.of_signer passed) rfl ⟨rfl, rfl⟩ applied
  case checkOracleHealth =>
    simp only [checkOracleHealth] at ran
    split at ran
    · cases ran
      exact .observed rfl ⟨rfl, rfl⟩
    · simp only [ok_iff] at ran
      obtain ⟨_, _, rfl⟩ := ran
      exact .observed rfl ⟨rfl, rfl⟩
  case checkOracleVerification =>
    simp only [checkOracleVerification, ok_iff] at ran
    obtain ⟨_, _, rfl⟩ := ran
    exact .observed rfl ⟨rfl, rfl⟩

end Calls

end InvoiceLiquidity
