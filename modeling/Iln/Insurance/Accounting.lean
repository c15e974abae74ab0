import Iln.Insurance.Effect

/-! The books of the pool against its calls. The liquid balance and the backstop together are what
came in by premiums and top-ups less what claims paid, and the pool holds at least that much of its
token. An invoice is paid for once, the least of the provider's tier and the reserve. -/
namespace InsurancePool

open Outcome FixedWidth Transition
open InvoiceLiquidity (Address Hash Balances Clock move move_target move_other le_move_source)

variable {invoiceId : Nat} {lp : Address} {payout : Int} {tokens : Balances} {amount : Int}
  {token : Address}
variable {pool : Address}

def World.reserve (world : World) : Int := getPoolBalance world + getBackstopBalance world

structure Payout where
  invoiceId : Nat
  lp : Address
  amount : Int
  deriving DecidableEq, Repr

def paidBy (world : World) : Action pool → Option Payout
  | .invoke env (.claim invoiceId lp) =>
    if (Call.claim invoiceId lp).wellTyped then
      (claim env world invoiceId lp).toOption.map fun result => ⟨invoiceId, lp, result.2⟩
    else none
  | _ => none

def premiumOf (world : World) : Action pool → Int
  | .invoke env (.depositPremium lp amount) =>
    if succeeds world (.invoke env (.depositPremium lp amount)) then amount else 0
  | _ => 0

def topUpOf (world : World) : Action pool → Int
  | .invoke env (.topUpBackstop source amount) =>
    if succeeds world (.invoke env (.topUpBackstop source amount)) then amount else 0
  | _ => 0

def paidOut (world : World) (action : Action pool) : Int :=
  ((paidBy world action).map Payout.amount).getD 0

def payoutsFor (invoiceId : Nat) (world : World) (action : Action pool) : Nat :=
  if (paidBy world action).any (fun payout => payout.invoiceId == invoiceId) then 1 else 0

structure Sound (pool : Address) (world : World) : Prop where
  liquid : 0 ≤ getPoolBalance world
  backstop : 0 ≤ getBackstopBalance world
  coverage : 0 ≤ getCoverage world.settings ∧ getCoverage world.settings ≤ i128.hi
  pending : ∀ value ∈ world.timelocks.coverage.pending, 0 ≤ value ∧ value ≤ i128.hi
  share : getBackstopFundingBps world ≤ 10000
  held : ∀ token, world.tokenAddress = some token → world.reserve ≤ world.tokens token pool
  nonneg : ∀ token, 0 ≤ world.tokens token pool
  unopened : world.settings.admin = none → world.tokenAddress = none
  empty : world.tokenAddress = none → getPoolBalance world = 0 ∧ getBackstopBalance world = 0

section Amounts

variable {world : World} (sound : Sound pool world)
include sound

theorem Sound.tiered (lp : Address) : 0 ≤ getTieredCoverage world lp ∧ getTieredCoverage world lp ≤
    i128.hi := by
  obtain ⟨nonneg, bounded⟩ := sound.coverage
  have scaled : ∀ factor : Int, 0 ≤ factor →
      0 ≤ (saturate i128 (getCoverage world.settings * factor)).tdiv 100 ∧
        (saturate i128 (getCoverage world.settings * factor)).tdiv 100 ≤ i128.hi := by
    intro factor positive
    have clamped : 0 ≤ saturate i128 (getCoverage world.settings * factor) :=
      saturate_nonneg (mul_nonneg nonneg positive)
    exact ⟨Int.tdiv_nonneg clamped (by decide), (Int.tdiv_le_self 100 clamped).trans
      (saturate_le_hi _)⟩
  simp only [getTieredCoverage]
  split
  · exact scaled 150 (by decide)
  · split
    · exact ⟨nonneg, bounded⟩
    · split
      · exact scaled 75 (by decide)
      · exact scaled 50 (by decide)

theorem Sound.reserve_nonneg : 0 ≤ world.reserve := Int.add_nonneg sound.liquid sound.backstop

/-- Clamping the reserve does not show in a payout, since no tier is above `i128`. -/
theorem Sound.payoutOf_eq (lp : Address) :
    payoutOf world lp (getTotalReserve world) = min (getTieredCoverage world lp) world.reserve := by
  have tiered := (sound.tiered lp).2
  have total : getTotalReserve world = min i128.hi world.reserve :=
    saturate_of_nonneg sound.reserve_nonneg
  unfold payoutOf
  rw [total]
  split <;> omega

theorem Sound.payout_between (lp : Address) :
    0 ≤ payoutOf world lp (getTotalReserve world) ∧ payoutOf world lp (getTotalReserve world) ≤
      world.reserve := by
  have tiered := (sound.tiered lp).1
  have reserve := sound.reserve_nonneg
  rw [sound.payoutOf_eq lp]
  omega

theorem Sound.drawn (nonneg : 0 ≤ payout) (bounded : payout ≤ i128.hi) :
    drawnFromBalance world payout = min payout (getPoolBalance world) ∧
      drawnFromBackstop world payout = payout - min payout (getPoolBalance world) := by
  have liquid := sound.liquid
  have borne : drawnFromBalance world payout = min payout (getPoolBalance world) := by
    unfold drawnFromBalance
    split <;> omega
  refine ⟨borne, ?_⟩
  have typed : Fits i128 payout := ⟨i128.nonpos.trans nonneg, bounded⟩
  rw [drawnFromBackstop, borne]
  exact saturate_of_fits (fits_of_nonneg_le typed (by omega) (by omega))

theorem Sound.backstopShare_between (positive : 0 < amount) :
    0 ≤ backstopShare world amount ∧ backstopShare world amount ≤ amount := by
  have share : ((getBackstopFundingBps world : Nat) : Int) ≤ 10000 := by exact_mod_cast sound.share
  have product : 0 ≤ amount * (getBackstopFundingBps world : Int) :=
    mul_nonneg positive.le (Int.natCast_nonneg _)
  have scaled : amount * (getBackstopFundingBps world : Int) ≤ amount * 10000 :=
    mul_le_mul_of_nonneg_left share positive.le
  have clamped : saturate i128 (amount * (getBackstopFundingBps world : Int)) ≤ amount * 10000 :=
    saturate_le_of_le (i128.nonpos.trans (by omega)) scaled
  refine ⟨Int.tdiv_nonneg (saturate_nonneg product) (by decide), ?_⟩
  rw [backstopShare, Int.tdiv_eq_ediv_of_nonneg (saturate_nonneg product)]
  omega

end Amounts

section Calls

variable {env : Env pool} {world next : World} {call : Call}

theorem markEnrolled_spec {funds after : Funds} (marked : markEnrolled funds lp = .ok after) :
    after = { funds with enrolled := after.enrolled, enrolledCount := after.enrolledCount } := by
  unfold markEnrolled at marked
  split at marked
  · cases marked
    rfl
  · simp only [ok_iff] at marked
    obtain ⟨_, _, rfl⟩ := marked
    rfl

def Call.movesMoney : Call → Bool
  | .depositPremium _ _ | .topUpBackstop _ _ | .claim _ _ => true
  | _ => false

theorem Change.kept (change : Change env world call next) (sound : Sound pool world)
    (still : call.movesMoney = false) :
    getPoolBalance next = getPoolBalance world ∧
      getBackstopBalance next = getBackstopBalance world ∧ next.tokens = world.tokens := by
  cases change with
  | opened uninitialised => exact ⟨(sound.empty (sound.unopened uninitialised)).1.symm, rfl, rfl⟩
  | enrolled _ marked =>
    have same := markEnrolled_spec marked
    exact ⟨by simp only [getPoolBalance]; rw [same], by simp only [getBackstopBalance]; rw [same],
      rfl⟩
  | toppedUp | deposited | paid => cases still
  | _ => exact ⟨rfl, rfl, rfl⟩

theorem Depositing.books {enrolled : Funds}
    (depositing : Depositing env world lp amount enrolled token) (sound : Sound pool world)
    (typed : Fits i128 amount) :
    (fundsWithPremium world lp amount enrolled).balance.getD 0 =
        getPoolBalance world + (amount - backstopShare world amount) ∧
      (fundsWithPremium world lp amount enrolled).backstopBalance.getD 0 =
        getBackstopBalance world + backstopShare world amount := by
  obtain ⟨nonneg, bounded⟩ := sound.backstopShare_between depositing.positive
  have same := markEnrolled_spec depositing.marked
  have rest : saturate i128 (amount - backstopShare world amount) = amount -
    backstopShare world amount := saturate_of_fits (fits_of_nonneg_le typed (by omega) (by omega))
  refine ⟨?_, ?_⟩
  · rw [same]
    simp only [fundsWithPremium, Option.getD_some, rest]
    rfl
  · rw [same]
    simp only [fundsWithPremium]
    split
    · rfl
    · have none : backstopShare world amount = 0 := by omega
      rw [none, add_zero]
      rfl

theorem Paying.books {lp token : Address}
    (paying : Paying env world invoiceId lp token payout) (sound : Sound pool world) :
    (fundsAfter world invoiceId payout).balance.getD 0 =
        getPoolBalance world - min payout (getPoolBalance world) ∧
      (fundsAfter world invoiceId payout).backstopBalance.getD 0 =
        getBackstopBalance world - (payout - min payout (getPoolBalance world)) := by
  have between := sound.payout_between lp
  have tiered := (sound.tiered lp).2
  have least := sound.payoutOf_eq lp
  rw [← paying.payout_eq] at between least
  obtain ⟨liquid, rest⟩ := sound.drawn between.1 (by omega)
  refine ⟨by simp only [fundsAfter, liquid, Option.getD_some], ?_⟩
  simp only [fundsAfter, rest]
  split
  · rfl
  · have spared : payout - min payout (getPoolBalance world) = 0 := by omega
    rw [spared, sub_zero]
    rfl

end Calls

section Flows

variable {env : Env pool} {world next : World} {call : Call}

theorem invoke_claim (typed : (Call.claim invoiceId lp).wellTyped = true)
    (claims : claim env world invoiceId lp = .ok (next, payout)) :
    invoke env world (.claim invoiceId lp) = .ok next := by
  simp only [invoke, dispatch, ok_iff]
  exact ⟨(), typed, (next, payout), claims, rfl⟩

theorem paidBy_eq_some {action : Action pool} {payout : Payout} :
    paidBy world action = some payout ↔
      ∃ env next, action = .invoke env (.claim payout.invoiceId payout.lp) ∧
        (Call.claim payout.invoiceId payout.lp).wellTyped = true ∧
        claim env world payout.invoiceId payout.lp = .ok (next, payout.amount) := by
  constructor
  · intro paid
    cases action with
    | invoke env call =>
      cases call with
      | claim =>
        simp only [paidBy] at paid
        split at paid
        · rename_i typed
          obtain ⟨⟨next, _⟩, claims, rfl⟩ := Option.map_eq_some_iff.mp paid
          exact ⟨env, next, rfl, typed, toOption_eq_some.mp claims⟩
        · cases paid
      | _ => cases paid
    | credit | advance => cases paid
  · rintro ⟨env, next, rfl, typed, claims⟩
    simp [paidBy, typed, claims, Except.toOption]

theorem paidBy_spec {action : Action pool} {payout : Payout}
    (paid : paidBy world action = some payout) :
    ∃ env token, action = .invoke env (.claim payout.invoiceId payout.lp) ∧
      Paying env world payout.invoiceId payout.lp token payout.amount ∧
      step world action = tripCircuitIfBreached { world with
        funds := fundsAfter world payout.invoiceId payout.amount
        tokens := move world.tokens token pool payout.lp payout.amount } := by
  obtain ⟨env, _, rfl, typed, claims⟩ := paidBy_eq_some.mp paid
  obtain ⟨token, paying, written⟩ := claim_spec claims
  refine ⟨env, token, rfl, paying, ?_⟩
  simp only [step, invoke_claim typed claims]
  exact written

theorem paidBy_of_invoke (ran : invoke env world (.claim invoiceId lp) = .ok next) :
    paidBy world (.invoke env (.claim invoiceId lp)) =
      some ⟨invoiceId, lp, payoutOf world lp (getTotalReserve world)⟩ := by
  simp only [invoke, dispatch, ok_iff] at ran
  obtain ⟨_, typed, ⟨after, _⟩, claims, rfl⟩ := ran
  obtain ⟨_, paying, _⟩ := claim_spec claims
  rw [← paying.payout_eq]
  exact paidBy_eq_some.mpr ⟨env, after, rfl, typed, claims⟩

theorem step_of_unpaid (unpaid : paidBy world (.invoke env (.claim invoiceId lp)) = none) :
    step world (.invoke env (.claim invoiceId lp)) = world := by
  cases ran : invoke env world (.claim invoiceId lp) with
  | ok =>
    rw [paidBy_of_invoke ran] at unpaid
    cases unpaid
  | error => simp only [step, ran]

theorem flows_of_still (world : World) (action : Action pool)
    (still : ∀ env call, action = .invoke env call → succeeds world action = true →
      call.movesMoney = false) :
    premiumOf world action = 0 ∧ topUpOf world action = 0 ∧ paidBy world action = none := by
  cases action with
  | credit | advance => exact ⟨rfl, rfl, rfl⟩
  | invoke env call =>
    have settled := still env call rfl
    cases call with
    | depositPremium =>
      refine ⟨if_neg fun finished => ?_, rfl, rfl⟩
      cases settled finished
    | topUpBackstop =>
      refine ⟨rfl, if_neg fun finished => ?_, rfl⟩
      cases settled finished
    | claim =>
      refine ⟨rfl, rfl, Option.eq_none_iff_forall_ne_some.mpr fun payout paid => ?_⟩
      obtain ⟨_, _, invoked, typed, claims⟩ := paidBy_eq_some.mp paid
      cases invoked
      have finished : succeeds world (.invoke env (.claim payout.invoiceId payout.lp)) = true := by
        simp only [succeeds, invoke_claim typed claims]
        rfl
      cases settled finished
    | _ => exact ⟨rfl, rfl, rfl⟩

theorem Change.reserve (change : Change env world call next) (sound : Sound pool world)
    (ran : invoke env world call = .ok next) :
    next.reserve = world.reserve + premiumOf world (.invoke env call) +
      topUpOf world (.invoke env call) - paidOut world (.invoke env call) := by
  have finished : succeeds world (.invoke env call) = true := by simp only [succeeds, ran]; rfl
  cases moves : call.movesMoney with
  | false =>
    obtain ⟨liquid, backstop, _⟩ := change.kept sound moves
    obtain ⟨premium, topUp, paid⟩ := flows_of_still world (.invoke env call)
      fun _ _ same _ => by cases same; exact moves
    simp [paidOut, premium, topUp, paid, World.reserve, liquid, backstop]
  | true =>
    have typed := (invoke_change ran).1
    cases change with
    | @deposited lp amount enrolled token depositing =>
      obtain ⟨liquid, backstop⟩ := depositing.books sound (of_decide_eq_true typed)
      simp only [premiumOf, topUpOf, paidOut, paidBy, finished, if_true, World.reserve]
      simp only [getPoolBalance, getBackstopBalance] at liquid backstop ⊢
      rw [liquid, backstop, Option.map_none, Option.getD_none]
      omega
    | @toppedUp source amount token =>
      simp only [premiumOf, topUpOf, paidOut, paidBy, finished, if_true, World.reserve,
        getPoolBalance, getBackstopBalance, Option.getD_some, Option.map_none, Option.getD_none]
      omega
    | @paid invoiceId lp token payout paying =>
      obtain ⟨liquid, backstop⟩ := paying.books sound
      rw [tripCircuitIfBreached_eq]
      simp only [premiumOf, topUpOf, paidOut, paidBy_of_invoke ran, ← paying.payout_eq,
        World.reserve, Option.map_some, Option.getD_some]
      simp only [getPoolBalance, getBackstopBalance] at liquid backstop ⊢
      rw [liquid, backstop]
      omega
    | _ => cases moves

theorem step_reserve (sound : Sound pool world) (action : Action pool) :
    (step world action).reserve =
      world.reserve + premiumOf world action + topUpOf world action - paidOut world action := by
  cases action with
  | credit | advance => simp [premiumOf, topUpOf, paidOut, paidBy, step, World.reserve,
      getPoolBalance, getBackstopBalance]
  | invoke env call =>
    cases ran : invoke env world call with
    | error =>
      obtain ⟨premium, topUp, paid⟩ := flows_of_still world (.invoke env call)
        fun _ _ _ finished => by simp [succeeds, ran, Except.isOk, Except.toBool] at finished
      simp [paidOut, premium, topUp, paid, step, ran]
    | ok =>
      simp only [step, ran]
      exact (invoke_change ran).2.reserve sound ran

end Flows

section Invariant

variable {env : Env pool} {world next : World} {call : Call}

theorem Sound.moved (sound : Sound pool world) {funds : Funds}
    (initialised : world.tokenAddress = some token) (liquid : 0 ≤ funds.balance.getD 0)
    (backstop : 0 ≤ funds.backstopBalance.getD 0)
    (held : funds.balance.getD 0 + funds.backstopBalance.getD 0 ≤ tokens token pool)
    (others : ∀ asset, asset ≠ token → world.tokens asset pool ≤ tokens asset pool) :
    Sound pool { world with funds, tokens } := by
  refine ⟨liquid, backstop, sound.coverage, sound.pending, sound.share, fun asset known => ?_,
    fun asset => ?_, sound.unopened, fun missing => ?_⟩
  · obtain rfl : token = asset := by
      have same : some token = some asset := initialised.symm.trans known
      exact Option.some.inj same
    exact held
  · by_cases here : asset = token
    · subst here
      exact (Int.add_nonneg liquid backstop).trans held
    · exact (sound.nonneg asset).trans (others asset here)
  · have absurd : some token = none := initialised.symm.trans missing
    cases absurd

theorem Sound.tripped (sound : Sound pool world) : Sound pool (tripCircuitIfBreached world) := by
  rw [tripCircuitIfBreached_eq]
  exact { sound with }

theorem Depositing.sound {enrolled : Funds}
    (depositing : Depositing env world lp amount enrolled token) (sound : Sound pool world)
    (typed : Fits i128 amount) :
    Sound pool { world with
      funds := fundsWithPremium world lp amount enrolled
      tokens := move world.tokens token lp pool amount } := by
  obtain ⟨nonneg, bounded⟩ := sound.backstopShare_between depositing.positive
  obtain ⟨liquid, backstop⟩ := depositing.books sound typed
  have before := sound.held token depositing.initialised
  have reserve : world.reserve = getPoolBalance world + getBackstopBalance world := rfl
  have apart : lp ≠ pool := by
    rintro rfl
    have signed := depositing.signed
    rw [env.unsigned] at signed
    cases signed
  refine sound.moved depositing.initialised ?_ ?_ ?_ fun asset other =>
    (move_other _ _ _ _ other _ _).ge
  · have := sound.liquid
    omega
  · have := sound.backstop
    omega
  · rw [move_target _ _ apart]
    omega

theorem Paying.sound {lp token : Address}
    (paying : Paying env world invoiceId lp token payout) (sound : Sound pool world) :
    Sound pool { world with
      funds := fundsAfter world invoiceId payout
      tokens := move world.tokens token pool lp payout } := by
  obtain ⟨liquid, backstop⟩ := paying.books sound
  obtain ⟨nonneg, bounded⟩ := sound.payout_between lp
  rw [← paying.payout_eq] at nonneg bounded
  have before := sound.held token paying.initialised
  have reserve : world.reserve = getPoolBalance world + getBackstopBalance world := rfl
  have left := le_move_source world.tokens token pool lp nonneg token
  refine sound.moved paying.initialised ?_ ?_ ?_ fun asset other =>
    (move_other _ _ _ _ other _ _).ge
  · omega
  · have := sound.backstop
    omega
  · omega

theorem Change.sound (change : Change env world call next) (typed : call.wellTyped = true)
    (sound : Sound pool world) : Sound pool next := by
  cases change with
  | opened uninitialised positive =>
    have fits : Fits i128 _ := of_decide_eq_true typed
    have idle := (sound.empty (sound.unopened uninitialised)).2
    refine ⟨le_rfl, sound.backstop, ⟨positive.le, fits.2⟩, sound.pending, sound.share,
      fun token _ => ?_, sound.nonneg, nofun, nofun⟩
    have none : getBackstopBalance world = 0 := idle
    calc _ = 0 + getBackstopBalance world := rfl
      _ = 0 := by rw [none, add_zero]
      _ ≤ _ := sound.nonneg token
  | coverageProposed _ positive =>
    have fits : Fits i128 _ := of_decide_eq_true typed
    refine { sound with pending := ?_ }
    rintro value ⟨⟩
    exact ⟨positive.le, fits.2⟩
  | coverageExecuted due =>
    exact { sound with coverage := sound.pending _ (executable_eq_ok.mp due).1, pending := nofun }
  | coverageCancelled => exact { sound with pending := nofun }
  | coverageSet _ positive =>
    have fits : Fits i128 _ := of_decide_eq_true typed
    exact { sound with coverage := ⟨positive.le, fits.2⟩ }
  | adminExecuted => exact { sound with unopened := nofun }
  | shareSet _ bounded => exact { sound with share := bounded }
  | @toppedUp source amount token _ positive agreed _ initialised =>
    have apart : source ≠ pool := by
      rintro rfl
      rw [env.unsigned] at agreed
      cases agreed
    have before := sound.held token initialised
    have backstop := sound.backstop
    refine sound.moved initialised sound.liquid ?_ ?_ fun asset other =>
      (move_other _ _ _ _ other _ _).ge
    · rw [Option.getD_some]
      omega
    · rw [move_target _ _ apart]
      have grown : world.funds.balance.getD 0 + (getBackstopBalance world + amount) =
        world.reserve + amount := (add_assoc _ _ _).symm
      exact grown.le.trans (Int.add_le_add_right before amount)
  | enrolled _ marked =>
    rw [markEnrolled_spec marked]
    exact { sound with }
  | deposited depositing => exact depositing.sound sound (of_decide_eq_true typed)
  | paid paying => exact (paying.sound sound).tripped
  | _ => exact { sound with }

theorem creditHolder_gains (pool : Address) (tokens : Balances) (token holder : Address)
    (amount : Int) (asset : Address) :
    tokens asset pool ≤ creditHolder pool tokens token holder amount asset pool := by
  unfold creditHolder
  split
  · exact le_rfl
  · rename_i allowed
    simp only
    split
    · rename_i here
      have nonneg : 0 ≤ amount := not_lt.mp fun negative => allowed ⟨here.2.symm, negative⟩
      omega
    · omega

theorem step_sound (world : World) (action : Action pool) (sound : Sound pool world) :
    Sound pool (step world action) := by
  refine step_keeps (Sound pool) (fun typed change sound => change.sound typed sound) ?_ ?_ world
    action sound
  · intro world token holder amount sound
    have gains := creditHolder_gains pool world.tokens token holder amount
    exact { sound with
      held := fun asset known => (sound.held asset known).trans (gains asset)
      nonneg := fun asset => (sound.nonneg asset).trans (gains asset) }
  · intro world clock sound
    exact { sound with }

theorem genesis_sound (clock : Clock) (solvent : ∀ token, 0 ≤ tokens token pool) :
    Sound pool (genesis clock tokens) where
  liquid := le_rfl
  backstop := le_rfl
  coverage := ⟨le_rfl, i128.pos.le⟩
  pending := nofun
  share := Nat.zero_le _
  held := nofun
  nonneg := solvent
  unopened _ := rfl
  empty _ := ⟨rfl, rfl⟩

theorem Change.keepsClaimed (change : Change env world call next)
    (before : world.funds.claimed invoiceId = true) : next.funds.claimed invoiceId = true := by
  cases change with
  | enrolled _ marked =>
    rw [markEnrolled_spec marked]
    exact before
  | deposited depositing =>
    simp only [fundsWithPremium]
    rw [markEnrolled_spec depositing.marked]
    exact before
  | @paid paidId =>
    rw [tripCircuitIfBreached_eq]
    by_cases here : invoiceId = paidId
    · simp [fundsAfter, here]
    · simpa [fundsAfter, here] using before
  | _ => exact before

theorem step_keepsClaimed (world : World) (action : Action pool)
    (before : world.funds.claimed invoiceId = true) :
    (step world action).funds.claimed invoiceId = true :=
  step_keeps (fun world => world.funds.claimed invoiceId = true)
  (fun _ change before => change.keepsClaimed before)
    (fun _ _ _ _ before => before) (fun _ _ before => before) world action before

theorem payoutsFor_marks (world : World) (action : Action pool) (invoiceId : Nat) :
    payoutsFor invoiceId world action = 0 ∨ payoutsFor invoiceId world action = 1 ∧
      ¬ world.funds.claimed invoiceId = true ∧ (step world action).funds.claimed invoiceId =
        true := by
  unfold payoutsFor
  cases paid : paidBy world action with
  | none => exact .inl rfl
  | some payout =>
    by_cases here : payout.invoiceId = invoiceId
    · obtain ⟨_, _, _, paying, after⟩ := paidBy_spec paid
      subst here
      refine .inr ⟨by simp, by simp [paying.unclaimed], ?_⟩
      rw [after, tripCircuitIfBreached_eq]
      simp [fundsAfter]
    · exact .inl (by simp [here])

end Invariant

theorem exec_sound (clock : Clock) (solvent : ∀ token, 0 ≤ tokens token pool)
    (actions : List (Action pool)) : Sound pool (exec step (genesis clock tokens) actions) :=
  invariant (Sound pool) step_sound actions (genesis_sound clock solvent)

theorem exec_reserve (clock : Clock) (solvent : ∀ token, 0 ≤ tokens token pool)
    (actions : List (Action pool)) :
    (exec step (genesis clock tokens) actions).reserve =
      tally step premiumOf (genesis clock tokens) actions + tally step topUpOf
        (genesis clock tokens) actions - tally step paidOut (genesis clock tokens) actions := by
  refine history_induct (fun past (world : World) => world.reserve =
      tally step premiumOf (genesis clock tokens) past + tally step topUpOf
        (genesis clock tokens) past - tally step paidOut (genesis clock tokens) past) ?_ rfl actions
  intro past action before
  have moved := step_reserve (exec_sound clock solvent past) action
  rw [tally_snoc, tally_snoc, tally_snoc]
  omega

theorem Sound.pays {world : World} (sound : Sound pool world) {action : Action pool}
    {payout : Payout} (paid : paidBy world action = some payout) :
    payout.amount = min (getTieredCoverage world payout.lp)
    (getPoolBalance world + getBackstopBalance world) ∧
      (∃ token, world.tokenAddress = some token ∧
        (step world action).tokens = move world.tokens token pool payout.lp payout.amount) ∧
      (getBackstopBalance (step world action) ≠ getBackstopBalance world →
        getPoolBalance (step world action) = 0) := by
  obtain ⟨env, token, _, paying, after⟩ := paidBy_spec paid
  obtain ⟨liquid, backstop⟩ := paying.books sound
  refine ⟨paying.payout_eq.trans (sound.payoutOf_eq payout.lp), ⟨token, paying.initialised, ?_⟩, ?_⟩
  · rw [after, tripCircuitIfBreached_eq]
  · rw [after, tripCircuitIfBreached_eq]
    intro touched
    have touched : (fundsAfter world payout.invoiceId payout.amount).backstopBalance.getD 0 ≠
      getBackstopBalance world := touched
    have spent : (fundsAfter world payout.invoiceId payout.amount).balance.getD 0 = 0 := by omega
    exact spent

/-- In every reachable state the two balances are not negative, add up to what came in less what was
paid, and are held in tokens. No invoice is paid for twice. The next claim, if it pays, pays the
least of the provider's tier and the reserve, and touches the backstop only when it leaves nothing
liquid. -/
theorem pool_accounting (clock : Clock) (tokens : Balances)
    (solvent : ∀ token, 0 ≤ tokens token pool) (actions : List (Action pool)) :
    let world := exec step (genesis clock tokens) actions
    0 ≤ getPoolBalance world ∧ 0 ≤ getBackstopBalance world ∧
    getPoolBalance world + getBackstopBalance world =
      tally step premiumOf (genesis clock tokens) actions + tally step topUpOf
        (genesis clock tokens) actions - tally step paidOut (genesis clock tokens) actions ∧
    (∀ token, world.tokenAddress = some token →
      getPoolBalance world + getBackstopBalance world ≤ world.tokens token pool) ∧
    (∀ invoiceId, tally step (payoutsFor invoiceId) (genesis clock tokens) actions ≤ 1) ∧
    ∀ action : Action pool, ∀ payout ∈ paidBy world action,
      payout.amount = min (getTieredCoverage world payout.lp)
      (getPoolBalance world + getBackstopBalance world) ∧
      (∃ token, world.tokenAddress = some token ∧
        (step world action).tokens = move world.tokens token pool payout.lp payout.amount) ∧
      (getBackstopBalance (step world action) ≠ getBackstopBalance world →
        getPoolBalance (step world action) = 0) := by
  have sound := exec_sound clock solvent actions
  refine ⟨sound.liquid, sound.backstop, exec_reserve clock solvent actions, sound.held,
    fun invoiceId => ?_, fun action payout paid => sound.pays paid⟩
  exact tally_le_one (fun _ => True) (fun world => world.funds.claimed invoiceId = true)
    (fun _ _ _ => trivial) (fun world action _ before => step_keepsClaimed world action before)
    (fun world action _ => payoutsFor_marks world action invoiceId) actions trivial

def endowment : Balances := fun token holder =>
  if token = ⟨9⟩ ∧ (holder = ⟨1⟩ ∨ holder = ⟨2⟩) then 1000 else 0

def insured : List (Action ⟨0⟩) :=
  [signedBy [1] (.initializeContract ⟨1⟩ 100 ⟨9⟩), signedBy [1] (.setBackstopFundingBps 5000),
    signedBy [2] (.depositPremium ⟨2⟩ 60), signedBy [1] (.topUpBackstop ⟨1⟩ 5)]

theorem endowment_nonneg (token holder : Address) : 0 ≤ endowment token holder := by
  unfold endowment
  split <;> decide

theorem pool_accounting_of_insured :
    let world := exec step (genesis ⟨1000, 10⟩ endowment) insured
    let claims := signedBy [1] (.claim 7 ⟨2⟩)
    paidBy world claims = some ⟨7, ⟨2⟩, 65⟩ ∧
      getPoolBalance world + getBackstopBalance world = 60 + 5 - 0 ∧
      65 = min (getTieredCoverage world ⟨2⟩) (getPoolBalance world + getBackstopBalance world) ∧
      getPoolBalance (step world claims) = 0 ∧
      tally step (payoutsFor 7) (genesis ⟨1000, 10⟩ endowment) (insured ++ [claims, claims]) ≤
        1 := by
  have solvent : ∀ token, 0 ≤ endowment token ⟨0⟩ := fun token => endowment_nonneg token ⟨0⟩
  have accounts := pool_accounting ⟨1000, 10⟩ endowment solvent insured
  have paid : paidBy (exec step (genesis ⟨1000, 10⟩ endowment) insured)
      (signedBy [1] (.claim 7 ⟨2⟩)) = some ⟨7, ⟨2⟩, 65⟩ := by decide +kernel
  obtain ⟨amount, _, exhausted⟩ := accounts.2.2.2.2.2 _ _ paid
  refine ⟨paid, ?_, amount, exhausted (by decide +kernel), ?_⟩
  · rw [accounts.2.2.1]
    decide +kernel
  · exact (pool_accounting ⟨1000, 10⟩ endowment solvent _).2.2.2.2.1 7

end InsurancePool
