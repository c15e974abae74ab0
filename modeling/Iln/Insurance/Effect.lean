import Iln.Insurance.Contract

/-! What each successful call does. `Change` has one constructor for each entry point, with the
guards that were passed and the world that was written; the invariants of the pool are read off it
by cases. -/
namespace InsurancePool

open Outcome FixedWidth
open InvoiceLiquidity (Address Hash Balances Clock move)

variable {pool : Address}

def AdminSigned (env : Env pool) (world : World) : Prop :=
  ∃ admin, world.settings.admin = some admin ∧ env.signed admin = true

def backstopShare (world : World) (amount : Int) : Int :=
  (saturate i128 (amount * getBackstopFundingBps world)).tdiv 10000

def drawnFromBalance (world : World) (payout : Int) : Int :=
  if payout < getPoolBalance world then payout else getPoolBalance world

def drawnFromBackstop (world : World) (payout : Int) : Int :=
  saturate i128 (payout - drawnFromBalance world payout)

def fundsAfter (world : World) (invoiceId : Nat) (payout : Int) : Funds :=
  { world.funds with
    balance := some (getPoolBalance world - drawnFromBalance world payout)
    backstopBalance :=
      if drawnFromBackstop world payout > 0 then some (getBackstopBalance world -
        drawnFromBackstop world payout)
      else world.funds.backstopBalance
    claimed := Function.update world.funds.claimed invoiceId true }

/-- Every guard of a claim that pays `payout` in `token`. -/
structure Paying (env : Env pool) (world : World) (invoiceId : Nat) (lp token : Address)
    (payout : Int) : Prop where
  signed : AdminSigned env world
  unclaimed : world.funds.claimed invoiceId = false
  closed : world.guards.solvencyCircuitOpen = false
  reviewed : enforceClaimReviewGate world invoiceId = .ok ()
  available : 0 < getTotalReserve world
  payout_eq : payout = payoutOf world lp (getTotalReserve world)
  initialised : world.tokenAddress = some token
  accepted : env.transferReturns world.tokens token pool lp payout = true

/-- Every guard of a deposit; `enrolled` are the funds with the provider marked. -/
structure Depositing (env : Env pool) (world : World) (lp : Address) (amount : Int)
    (enrolled : Funds) (token : Address) : Prop where
  signed : env.signed lp = true
  positive : 0 < amount
  marked : markEnrolled world.funds lp = .ok enrolled
  premium : Fits i128 ((enrolled.premiums lp).getD 0 + amount)
  balance : Fits i128 (enrolled.balance.getD 0 + saturate i128
    (amount - backstopShare world amount))
  backstop : 0 < backstopShare world amount →
    Fits i128 (enrolled.backstopBalance.getD 0 + backstopShare world amount)
  uncapped : ∀ cap ∈ world.guards.balanceCap,
    enrolled.balance.getD 0 + saturate i128 (amount - backstopShare world amount) ≤ cap
  initialised : world.tokenAddress = some token
  accepted : env.transferReturns world.tokens token lp pool amount = true

def fundsWithPremium (world : World) (lp : Address) (amount : Int) (enrolled : Funds) : Funds :=
  { enrolled with
    premiums := Function.update enrolled.premiums lp (some ((enrolled.premiums lp).getD 0 + amount))
    balance := some (enrolled.balance.getD 0 + saturate i128 (amount - backstopShare world amount))
    backstopBalance :=
      if 0 < backstopShare world amount then some (enrolled.backstopBalance.getD 0 +
        backstopShare world amount)
      else enrolled.backstopBalance }

inductive Change (env : Env pool) (world : World) : Call → World → Prop where
  | opened {admin : Address} {coverage : Int} {token : Address}
      (uninitialised : world.settings.admin = none)
      (positive : 0 < coverage) (signed : env.signed admin = true) :
      Change env world (.initializeContract admin coverage token)
        { world with
          settings := { world.settings with admin := some admin, coverage := some coverage }
          funds := { world.funds with balance := some 0 }
          tokenAddress := some token }
  | rateSet {rateBps : Nat} (signed : AdminSigned env world) :
      Change env world (.setBasePremiumRateBps rateBps)
        { world with settings := { world.settings with basePremiumRateBps := some rateBps } }
  | multiplierSet {numerator denominator : Int} (signed : AdminSigned env world) :
      Change env world (.setRiskMultiplier numerator denominator)
        { world with risk := { world.risk with multiplier := some ⟨numerator, denominator⟩ } }
  | reputationSet {contract : Address} (signed : AdminSigned env world) :
      Change env world (.setReputationContract contract)
        { world with risk := { world.risk with reputationContract := some contract } }
  | multiplierProposed {numerator denominator : Int} (signed : AdminSigned env world) :
      Change env world (.proposeRiskMultiplier numerator denominator)
        { world with
          timelocks := { world.timelocks with riskMultiplier := propose world.clock ⟨numerator,
            denominator⟩ } }
  | multiplierExecuted {multiplier : RiskMultiplier}
      (due : executable world.clock world.timelocks.riskMultiplier = .ok multiplier) :
      Change env world .executeRiskMultiplier
        { world with
          risk := { world.risk with multiplier := some multiplier }
          timelocks := { world.timelocks with riskMultiplier := .empty } }
  | multiplierCancelled (signed : AdminSigned env world) :
      Change env world .cancelRiskMultiplier
        { world with timelocks := { world.timelocks with riskMultiplier := .empty } }
  | defaultCounted {lp : Address} {risk : Risk} (signed : AdminSigned env world)
      (multiplier : risk.multiplier = world.risk.multiplier) :
      Change env world (.incrementDefaultCount lp) { world with risk }
  | coverageProposed {newCoverage : Int} (signed : AdminSigned env world)
      (positive : 0 < newCoverage) : Change env world (.proposeCoverageChange newCoverage)
        { world with timelocks := { world.timelocks with
          coverage := propose world.clock newCoverage } }
  | coverageExecuted {newCoverage : Int}
      (due : executable world.clock world.timelocks.coverage = .ok newCoverage) :
      Change env world .executeCoverageChange
        { world with
          settings := { world.settings with coverage := some newCoverage }
          timelocks := { world.timelocks with coverage := .empty } }
  | coverageCancelled (signed : AdminSigned env world) :
      Change env world .cancelCoverageChange
        { world with timelocks := { world.timelocks with coverage := .empty } }
  | adminProposed {newAdmin : Address} (signed : AdminSigned env world) :
      Change env world (.proposeAdminTransfer newAdmin)
        { world with timelocks := { world.timelocks with admin := propose world.clock newAdmin } }
  | adminExecuted {newAdmin : Address}
      (due : executable world.clock world.timelocks.admin = .ok newAdmin) :
      Change env world .executeAdminTransfer
        { world with
          settings := { world.settings with admin := some newAdmin }
          timelocks := { world.timelocks with admin := .empty } }
  | adminCancelled (signed : AdminSigned env world) :
      Change env world .cancelAdminTransfer
        { world with timelocks := { world.timelocks with admin := .empty } }
  | coverageSet {newCoverage : Int} (signed : AdminSigned env world) (positive : 0 < newCoverage) :
      Change env world (.setCoverageViaGovernance newCoverage)
        { world with settings := { world.settings with coverage := some newCoverage } }
  | rateGoverned {rateBps : Nat} (signed : AdminSigned env world) :
      Change env world (.setPremiumRateViaGovernance rateBps)
        { world with settings := { world.settings with basePremiumRateBps := some rateBps } }
  | capSet {cap : Int} (signed : AdminSigned env world) :
      Change env world (.setBalanceCap cap)
        { world with guards := { world.guards with
          balanceCap := if cap = 0 then none else some cap } }
  | minimumSet {bps : Nat} (signed : AdminSigned env world) :
      Change env world (.setMinReserveRatioBps bps)
        { world with guards := { world.guards with minReserveRatioBps := some bps } }
  | circuitReset (signed : AdminSigned env world) :
      Change env world .resetSolvencyCircuit
        { world with guards := { world.guards with solvencyCircuitOpen := false } }
  | shareSet {bps : Nat} (signed : AdminSigned env world) (bounded : bps ≤ 10000) :
      Change env world (.setBackstopFundingBps bps)
        { world with guards := { world.guards with backstopFundingBps := some bps } }
  | toppedUp {source : Address} {amount : Int} {token : Address} (signed : AdminSigned env world)
      (positive : 0 < amount) (agreed : env.signed source = true)
      (fits : Fits i128 (getBackstopBalance world + amount))
      (initialised : world.tokenAddress = some token)
      (accepted : env.transferReturns world.tokens token source pool amount = true) :
      Change env world (.topUpBackstop source amount)
        { world with
          funds := { world.funds with backstopBalance := some (getBackstopBalance world + amount) }
          tokens := move world.tokens token source pool amount }
  | evidenced {invoiceId : Nat} {evidenceHash : Hash} {evidence : Nat → Option ClaimEvidence}
      (signed : AdminSigned env world) :
      Change env world (.submitClaimEvidence invoiceId evidenceHash)
        { world with guards := { world.guards with claimEvidence := evidence } }
  | windowSet {seconds : Nat} (signed : AdminSigned env world) :
      Change env world (.setReviewWindowSeconds seconds)
        { world with guards := { world.guards with reviewWindowSeconds := some seconds } }
  | pairCounted {lp payer : Address} {risk : Risk} (signed : AdminSigned env world)
      (multiplier : risk.multiplier = world.risk.multiplier) :
      Change env world (.recordPairDefault lp payer) { world with risk }
  | enrolled {lp : Address} {funds : Funds} (signed : env.signed lp = true)
      (marked : markEnrolled world.funds lp = .ok funds) :
      Change env world (.enroll lp) { world with funds }
  | deposited {lp : Address} {amount : Int} {enrolled : Funds} {token : Address}
      (depositing : Depositing env world lp amount enrolled token) :
      Change env world (.depositPremium lp amount)
        { world with
          funds := fundsWithPremium world lp amount enrolled
          tokens := move world.tokens token lp pool amount }
  | paid {invoiceId : Nat} {lp token : Address} {payout : Int}
      (paying : Paying env world invoiceId lp token payout) :
      Change env world (.claim invoiceId lp)
        (tripCircuitIfBreached { world with
          funds := fundsAfter world invoiceId payout
          tokens := move world.tokens token pool lp payout })

section Inversion

variable {env : Env pool} {world next : World}

theorem requireAdmin_eq_ok {passed : Unit} : requireAdmin env world = .ok passed ↔
    AdminSigned env world := by
  simp [requireAdmin, AdminSigned]

variable {amount : Int} {lp : Address} {ν : Type} {lock : Timelock ν}

theorem transferToken_eq_ok {tokens after : Balances} {token source target : Address} :
    transferToken env tokens token source target amount = .ok after ↔
      env.transferReturns tokens token source target amount = true ∧
      move tokens token source target amount = after := by
  simp [transferToken]

theorem incrementDefaultCount_spec (ran : incrementDefaultCount env world lp = .ok next) :
    AdminSigned env world ∧ ∃ risk : Risk, risk.multiplier = world.risk.multiplier ∧
      next = { world with risk } := by
  simp only [incrementDefaultCount, ok_iff, requireAdmin_eq_ok] at ran
  obtain ⟨_, signed, _, _, _, _, rfl⟩ := ran
  refine ⟨signed, _, ?_, rfl⟩
  rfl

theorem recordPairDefault_spec {payer : Address}
    (ran : recordPairDefault env world lp payer = .ok next) :
    AdminSigned env world ∧ ∃ risk : Risk, risk.multiplier = world.risk.multiplier ∧
      next = { world with risk } := by
  simp only [recordPairDefault, ok_iff, requireAdmin_eq_ok] at ran
  obtain ⟨_, signed, _, counts, rfl⟩ := ran
  obtain ⟨_, risk, multiplier, rfl⟩ := incrementDefaultCount_spec counts
  refine ⟨signed, _, ?_, rfl⟩
  exact multiplier

theorem tripCircuitIfBreached_eq (world : World) : tripCircuitIfBreached world = { world with
        guards := { world.guards with
          solvencyCircuitOpen := world.guards.solvencyCircuitOpen ||
            decide (getMinReserveRatioBps world ≠ 0 ∧ getReserveRatioBps world <
              getMinReserveRatioBps world) } } := by
  simp only [tripCircuitIfBreached]
  by_cases breached : getMinReserveRatioBps world ≠ 0 ∧ getReserveRatioBps world <
    getMinReserveRatioBps world
  · rw [if_neg breached.1, if_neg (not_le.mpr breached.2), decide_eq_true breached, Bool.or_true]
    split
    · rename_i tripped
      rw [← tripped]
    · rfl
  · rw [decide_eq_false breached, Bool.or_false]
    split
    · rfl
    · rename_i armed
      rw [if_pos (not_lt.mp fun missed => breached ⟨armed, missed⟩), ite_self]

theorem executable_eq_ok {clock : Clock} {value : ν} :
    executable clock lock = .ok value ↔
      lock.pending = some value ∧ ∃ eta, lock.eta = some eta ∧ eta ≤ clock.timestamp := by
  simp only [executable, ok_iff, not_lt]
  constructor
  · rintro ⟨_, pending, eta, stored, _, due, rfl⟩
    exact ⟨pending, eta, stored, due⟩
  · rintro ⟨pending, eta, stored, due⟩
    exact ⟨value, pending, eta, stored, (), due, rfl⟩

theorem creditBackstop_spec {backstop after : Option Int} {share : Int}
    (ran : creditBackstop backstop share = .ok after) :
    (0 < share → Fits i128 (backstop.getD 0 + share)) ∧
      after = if 0 < share then some (backstop.getD 0 + share) else backstop := by
  unfold creditBackstop at ran
  split at ran
  · rename_i positive
    simp only [ok_iff, checked_eq_some] at ran
    obtain ⟨_, ⟨fits, rfl⟩, rfl⟩ := ran
    exact ⟨fun _ => fits, (if_pos positive).symm⟩
  · rename_i small
    cases ran
    exact ⟨fun positive => absurd positive small, (if_neg small).symm⟩

theorem debitBackstop_spec {backstop after : Option Int} {share : Int}
    (ran : debitBackstop backstop share = .ok after) :
    after = if share > 0 then some (backstop.getD 0 - share) else backstop := by
  unfold debitBackstop at ran
  split at ran
  · rename_i positive
    simp only [ok_iff, checked_eq_some] at ran
    obtain ⟨_, ⟨_, rfl⟩, rfl⟩ := ran
    exact (if_pos positive).symm
  · rename_i small
    cases ran
    exact (if_neg small).symm

theorem topUpBackstop_change {source : Address}
    (ran : topUpBackstop env world source amount = .ok next) :
    Change env world (.topUpBackstop source amount) next := by
  simp only [topUpBackstop, getTokenAddress, ok_iff, requireAdmin_eq_ok, checked_eq_some,
    transferToken_eq_ok, not_le] at ran
  obtain ⟨_, signed, _, positive, _, agreed, _, ⟨fits, rfl⟩, _, initialised, _,
    ⟨accepted, rfl⟩, rfl⟩ := ran
  exact .toppedUp signed positive agreed fits initialised accepted

theorem depositPremium_change (ran : depositPremium env world lp amount = .ok next) :
    Change env world (.depositPremium lp amount) next := by
  simp only [depositPremium, getTokenAddress, ok_iff, checked_eq_some, transferToken_eq_ok,
    not_le, gt_iff_lt, not_lt] at ran
  obtain ⟨_, signed, _, positive, _, marked, _, ⟨premium, rfl⟩, _, ⟨balance, rfl⟩, _,
    uncapped, after, credited, token, initialised, _, ⟨accepted, rfl⟩, rfl⟩ := ran
  obtain ⟨backstop, rfl⟩ := creditBackstop_spec credited
  exact .deposited ⟨signed, positive, marked, premium, balance, backstop, uncapped,
    initialised, accepted⟩

theorem claim_spec {invoiceId : Nat} {payout : Int}
    (ran : claim env world invoiceId lp = .ok (next, payout)) :
    ∃ token, Paying env world invoiceId lp token payout ∧ next = tripCircuitIfBreached { world with
        funds := fundsAfter world invoiceId payout
        tokens := move world.tokens token pool lp payout } := by
  simp only [claim, getTokenAddress, ok_iff, requireAdmin_eq_ok, checked_eq_some,
    transferToken_eq_ok, Prod.mk.injEq] at ran
  obtain ⟨_, signed, _, unclaimed, _, closed, _, reviewed, _, available, _, ⟨_, rfl⟩, _, drawn,
    token, initialised, _, ⟨accepted, rfl⟩, rfl, rfl⟩ := ran
  cases debitBackstop_spec drawn
  exact ⟨token, ⟨signed, unclaimed, closed, reviewed, available, rfl, initialised, accepted⟩, rfl⟩

theorem administered_eq_ok {written : World} :
    (requireAdmin env world >>= fun _ => pure written) = .ok next ↔ AdminSigned env world ∧
      written = next := by
  simp [requireAdmin_eq_ok]

theorem administered_checked_eq_ok {condition : Prop} [Decidable condition] {failure : Failure}
    {written : World} :
    (requireAdmin env world >>= fun _ => require condition failure >>= fun _ => pure written) =
      .ok next ↔ AdminSigned env world ∧ condition ∧ written = next := by
  simp [requireAdmin_eq_ok]

theorem administered_cancel {written : Timelock ν → World}
    (ran : (requireAdmin env world >>= fun _ => cancel lock >>= fun after => pure (written after)) =
      .ok next) :
    AdminSigned env world ∧ written .empty = next := by
  simp only [cancel, ok_iff, requireAdmin_eq_ok] at ran
  obtain ⟨_, signed, _, ⟨_, _, rfl⟩, rfl⟩ := ran
  exact ⟨signed, rfl⟩

theorem executed_eq_ok {written : ν → World} :
    (executable world.clock lock >>= fun value => pure (written value)) = .ok next ↔
      ∃ value, executable world.clock lock = .ok value ∧ written value = next := by
  simp

end Inversion

theorem dispatch_change {env : Env pool} {world next : World} {call : Call}
    (ran : dispatch env world call = .ok next) : Change env world call next := by
  cases call with
  | initializeContract =>
    simp only [dispatch, initializeContract, ok_iff, not_le] at ran
    obtain ⟨_, uninitialised, _, positive, _, signed, rfl⟩ := ran
    exact .opened uninitialised positive signed
  | setBasePremiumRateBps =>
    obtain ⟨signed, _, rfl⟩ := administered_checked_eq_ok.mp ran
    exact .rateSet signed
  | setRiskMultiplier =>
    obtain ⟨signed, _, rfl⟩ := administered_checked_eq_ok.mp ran
    exact .multiplierSet signed
  | setReputationContract =>
    obtain ⟨signed, rfl⟩ := administered_eq_ok.mp ran
    exact .reputationSet signed
  | proposeRiskMultiplier =>
    obtain ⟨signed, _, rfl⟩ := administered_checked_eq_ok.mp ran
    exact .multiplierProposed signed
  | executeRiskMultiplier =>
    obtain ⟨multiplier, due, rfl⟩ := executed_eq_ok.mp ran
    exact .multiplierExecuted due
  | cancelRiskMultiplier =>
    obtain ⟨signed, rfl⟩ := administered_cancel ran
    exact .multiplierCancelled signed
  | incrementDefaultCount =>
    obtain ⟨signed, risk, multiplier, rfl⟩ := incrementDefaultCount_spec ran
    exact .defaultCounted signed multiplier
  | proposeCoverageChange =>
    obtain ⟨signed, positive, rfl⟩ := administered_checked_eq_ok.mp ran
    exact .coverageProposed signed (not_le.mp positive)
  | executeCoverageChange =>
    obtain ⟨_, due, rfl⟩ := executed_eq_ok.mp ran
    exact .coverageExecuted due
  | cancelCoverageChange =>
    obtain ⟨signed, rfl⟩ := administered_cancel ran
    exact .coverageCancelled signed
  | proposeAdminTransfer =>
    obtain ⟨signed, rfl⟩ := administered_eq_ok.mp ran
    exact .adminProposed signed
  | executeAdminTransfer =>
    obtain ⟨_, due, rfl⟩ := executed_eq_ok.mp ran
    exact .adminExecuted due
  | cancelAdminTransfer =>
    obtain ⟨signed, rfl⟩ := administered_cancel ran
    exact .adminCancelled signed
  | setCoverageViaGovernance =>
    simp only [dispatch, setVia, setCoverageViaGovernance, ok_iff, not_le] at ran
    obtain ⟨_, ⟨_, positive, admin, stored, _, signed, rfl⟩, rfl⟩ := ran
    exact .coverageSet ⟨admin, stored, signed⟩ positive
  | setPremiumRateViaGovernance =>
    simp only [dispatch, setVia, setPremiumRateViaGovernance, ok_iff] at ran
    obtain ⟨_, ⟨admin, stored, _, signed, _, _, rfl⟩, rfl⟩ := ran
    exact .rateGoverned ⟨admin, stored, signed⟩
  | setBalanceCap =>
    obtain ⟨signed, _, rfl⟩ := administered_checked_eq_ok.mp ran
    exact .capSet signed
  | setMinReserveRatioBps =>
    obtain ⟨signed, _, rfl⟩ := administered_checked_eq_ok.mp ran
    exact .minimumSet signed
  | resetSolvencyCircuit =>
    obtain ⟨signed, rfl⟩ := administered_eq_ok.mp ran
    exact .circuitReset signed
  | setBackstopFundingBps =>
    obtain ⟨signed, bounded, rfl⟩ := administered_checked_eq_ok.mp ran
    exact .shareSet signed (not_lt.mp bounded)
  | topUpBackstop => exact topUpBackstop_change ran
  | submitClaimEvidence =>
    obtain ⟨signed, rfl⟩ := administered_eq_ok.mp ran
    exact .evidenced signed
  | setReviewWindowSeconds =>
    obtain ⟨signed, rfl⟩ := administered_eq_ok.mp ran
    exact .windowSet signed
  | recordPairDefault =>
    obtain ⟨signed, risk, multiplier, rfl⟩ := recordPairDefault_spec ran
    exact .pairCounted signed multiplier
  | enroll =>
    simp only [dispatch, enroll, ok_iff] at ran
    obtain ⟨_, signed, _, marked, rfl⟩ := ran
    exact .enrolled signed marked
  | depositPremium => exact depositPremium_change ran
  | claim =>
    simp only [dispatch, ok_iff] at ran
    obtain ⟨⟨_, _⟩, claims, rfl⟩ := ran
    obtain ⟨_, paying, rfl⟩ := claim_spec claims
    exact .paid paying

theorem invoke_change {env : Env pool} {world next : World} {call : Call}
    (ran : invoke env world call = .ok next) : call.wellTyped = true ∧
      Change env world call next := by
  simp only [invoke, ok_iff] at ran
  obtain ⟨_, typed, runs⟩ := ran
  exact ⟨typed, dispatch_change runs⟩

/-- A property of the world that every change keeps, and that does not look at the clock or what
others hold, is kept by every action. -/
theorem step_keeps (property : World → Prop)
    (changes : ∀ {env : Env pool} {world next : World} {call : Call}, call.wellTyped = true →
      Change env world call next → property world → property next)
    (credits : ∀ (world : World) (token holder : Address) (amount : Int), property world →
      property { world with tokens := creditHolder pool world.tokens token holder amount })
    (passes : ∀ (world : World) (clock : Clock), property world → property { world with clock })
    (world : World) (action : Action pool) (held : property world) :
    property (step world action) := by
  cases action with
  | invoke env call =>
    simp only [step]
    cases ran : invoke env world call with
    | error => exact held
    | ok =>
      obtain ⟨typed, change⟩ := invoke_change ran
      exact changes typed change held
  | credit token holder amount => exact credits world token holder amount held
  | advance => exact passes world _ held

end InsurancePool
