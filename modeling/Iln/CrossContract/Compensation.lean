import Iln.Insurance.Accounting
import Iln.Invoice.Contract

/-! `invoice_liquidity` and `insurance_pool` over one ledger of token balances. After its own work
`claim_default` asks the configured pool whether the funder is enrolled and tries a claim; a try
that fails is dropped. Nobody else can sign for a contract, so a pool administered by the invoice
contract pays only there. -/
namespace CrossContract

open Outcome Transition
open InvoiceLiquidity (Address Balances Clock move)
open InsurancePool (Payout paidBy isEnrolled)

variable {call : InvoiceLiquidity.Call} {next : InvoiceLiquidity.World}

structure Site where
  liquidity : Address
  pool : Address
  apart : liquidity ≠ pool

structure System where
  invoice : InvoiceLiquidity.World
  pool : InsurancePool.World

variable {site : Site}

structure Host (site : Site) where
  env : InvoiceLiquidity.Env site.liquidity
  unsigned : env.signed site.pool = false

structure PoolHost (site : Site) where
  env : InsurancePool.Env site.pool
  unsigned : env.signed site.liquidity = false

theorem Host.acting_unsigned (host : Host site) :
    (decide (site.pool = site.liquidity) || host.env.signed site.pool) = false := by
  simp [site.apart.symm, host.unsigned]

def Host.acting (host : Host site) : InsurancePool.Env site.pool where
  signed address := decide (address = site.liquidity) || host.env.signed address
  unsigned := host.acting_unsigned
  transferReturns := host.env.transferReturns

section Machine

variable (system : System)

def System.withInvoice (next : InvoiceLiquidity.World) : System :=
  ⟨next, { system.pool with tokens := next.treasury.balance }⟩

def System.withPool (next : InsurancePool.World) : System :=
  ⟨{ system.invoice with treasury := { system.invoice.treasury with balance := next.tokens } },
    next⟩

def triedClaim (host : Host site) : InvoiceLiquidity.Call → Option (InsurancePool.Action site.pool)
  | .claimDefault funder id =>
    if system.invoice.control.insurancePool = some site.pool ∧
      isEnrolled system.pool funder = true then some (.invoke host.acting (.claim id funder))
    else none
  | _ => none

def compensate (host : Host site) (call : InvoiceLiquidity.Call) : System :=
  match triedClaim system host call with
  | some tried => system.withPool (InsurancePool.step system.pool tried)
  | none => system

def invokeInvoice (host : Host site) (call : InvoiceLiquidity.Call) :
    InvoiceLiquidity.Result System := do
  let next ← InvoiceLiquidity.invoke host.env system.invoice call
  return compensate (system.withInvoice next) host call

inductive Action (site : Site) where
  | invoice (host : Host site) (call : InvoiceLiquidity.Call)
  | pool (host : PoolHost site) (call : InsurancePool.Call)
  | credit (token holder : Address) (amount : Int)
  | advance (seconds ledgers : Nat)

def step (system : System) : Action site → System
  | .invoice host call =>
    match invokeInvoice system host call with
    | .ok next => next
    | .error _ => system
  | .pool host call => system.withPool (InsurancePool.step system.pool (.invoke host.env call))
  | .credit token holder amount =>
    if holder = site.pool ∧ amount < 0 then system
    else
      let credit : InvoiceLiquidity.Action site.liquidity := .credit token holder amount
      system.withInvoice (InvoiceLiquidity.step system.invoice credit)
  | .advance seconds ledgers =>
    let invoice : InvoiceLiquidity.Action site.liquidity := .advance seconds ledgers
    let pool : InsurancePool.Action site.pool := .advance seconds ledgers
    ⟨InvoiceLiquidity.step system.invoice invoice, InsurancePool.step system.pool pool⟩

def genesis (clock : Clock) (balance : Balances) : System :=
  ⟨InvoiceLiquidity.genesis clock balance, InsurancePool.genesis clock balance⟩

def succeeds : Action site → Bool
  | .invoice host call => (invokeInvoice system host call).isOk
  | .pool host call => InsurancePool.succeeds system.pool (.invoke host.env call)
  | _ => true

def poolCall : Action site → Option (InsurancePool.World × InsurancePool.Action site.pool)
  | .invoice host call =>
    match InvoiceLiquidity.invoke host.env system.invoice call with
    | .ok next =>
      (triedClaim (system.withInvoice next) host call).map fun tried =>
        ((system.withInvoice next).pool, tried)
    | .error _ => none
  | .pool host call => some (system.pool, .invoke host.env call)
  | _ => none

def payout (action : Action site) : Option Payout :=
  (poolCall system action).bind fun called => paidBy called.1 called.2

end Machine

section Steps

variable {system : System}

variable {host : Host site} {id : Nat}

theorem invokeInvoice_ok (ran : InvoiceLiquidity.invoke host.env system.invoice call = .ok next) :
    invokeInvoice system host call = .ok (compensate (system.withInvoice next) host call) :=
  bind_eq_ok.mpr ⟨next, ran, rfl⟩

theorem step_pool (system : System) (action : Action site) :
    (∃ tokens called, poolCall system action = some ({ system.pool with tokens }, called) ∧
      (step system action).pool = InsurancePool.step { system.pool with tokens } called) ∨
    poolCall system action = none ∧
      ∃ clock tokens, (step system action).pool =
        { system.pool with clock, tokens } := by
  cases action with
  | invoice host call =>
    cases ran : InvoiceLiquidity.invoke host.env system.invoice call with
    | error =>
      refine .inr ⟨by simp only [poolCall, ran], system.pool.clock, system.pool.tokens, ?_⟩
      simp only [step, invokeInvoice, ran]
      rfl
    | ok next =>
      simp only [step, invokeInvoice_ok ran, poolCall, ran, compensate]
      cases tries : triedClaim (system.withInvoice next) host call with
      | none => exact .inr ⟨rfl, system.pool.clock, next.treasury.balance, rfl⟩
      | some tried => exact .inl ⟨next.treasury.balance, tried, rfl, rfl⟩
  | pool => exact .inl ⟨system.pool.tokens, _, rfl, rfl⟩
  | credit =>
    refine .inr ⟨rfl, system.pool.clock, ?_⟩
    simp only [step]
    split
    · exact ⟨system.pool.tokens, rfl⟩
    · exact ⟨_, rfl⟩
  | advance => exact .inr ⟨rfl, _, system.pool.tokens, rfl⟩

theorem triedClaim_eq_some {tried : InsurancePool.Action site.pool}
    (tries : triedClaim system host call = some tried) :
    ∃ funder id, call = .claimDefault funder id ∧ isEnrolled system.pool funder = true ∧
      tried = .invoke host.acting (.claim id funder) := by
  cases call with
  | claimDefault funder id =>
    simp only [triedClaim] at tries
    split at tries
    · rename_i enrolled
      cases tries
      exact ⟨funder, id, rfl, enrolled.2, rfl⟩
    · cases tries
  | _ => cases tries

def payoutsFor (id : Nat) (system : System) (action : Action site) : Nat :=
  if (payout system action).any (fun paid => paid.invoiceId == id) then 1 else 0

theorem step_keepsClaimed (system : System) (action : Action site)
    (before : system.pool.funds.claimed id = true) : (step system action).pool.funds.claimed id =
      true := by
  rcases step_pool system action with ⟨tokens, called, _, after⟩ | ⟨_, _, tokens, after⟩
  · rw [after]
    exact InsurancePool.step_keepsClaimed _ called before
  · rw [after]
    exact before

theorem payoutsFor_marks (system : System) (action : Action site) (id : Nat) :
    payoutsFor id system action = 0 ∨ payoutsFor id system action = 1 ∧
      ¬ system.pool.funds.claimed id = true ∧ (step system action).pool.funds.claimed id =
        true := by
  rcases step_pool system action with ⟨tokens, called, calls, after⟩ | ⟨none, _⟩
  · have same : payoutsFor id system action =
        InsurancePool.payoutsFor id { system.pool with tokens } called := by
      simp only [payoutsFor, payout, calls, Option.bind_some, InsurancePool.payoutsFor]
    rw [same, after]
    exact InsurancePool.payoutsFor_marks _ called id
  · exact .inl (by simp [payoutsFor, payout, none])

theorem payout_within_default {action : Action site} {paid : Payout}
    (administered : system.pool.settings.admin = some site.liquidity)
    (pays : payout system action = some paid) :
    ∃ host next, action = .invoice host (.claimDefault paid.lp paid.invoiceId) ∧
      InvoiceLiquidity.invoke host.env system.invoice (.claimDefault paid.lp paid.invoiceId) =
        .ok next ∧
      isEnrolled system.pool paid.lp = true ∧
      ∃ token, system.pool.tokenAddress = some token ∧
        (step system action).pool.tokens = move next.treasury.balance token site.pool paid.lp
          paid.amount := by
  obtain ⟨⟨pool, _⟩, calls, paidThere⟩ := Option.bind_eq_some_iff.mp pays
  obtain ⟨_, token, invoked, paying, after⟩ := InsurancePool.paidBy_spec paidThere
  simp only at invoked paying after
  cases action with
  | invoice host =>
    simp only [poolCall] at calls
    split at calls
    · rename_i next ran
      obtain ⟨tried, tries, same⟩ := Option.map_eq_some_iff.mp calls
      cases same
      obtain ⟨_, id, rfl, enrolled, tried⟩ := triedClaim_eq_some tries
      rw [invoked] at tried
      cases tried
      refine ⟨host, next, rfl, ran, enrolled, token, paying.initialised, ?_⟩
      simp only [step, invokeInvoice_ok ran, compensate, tries, System.withPool]
      rw [after, InsurancePool.tripCircuitIfBreached_eq]
      rfl
    · cases calls
  | pool host =>
    -- the invoice contract did not sign
    cases calls
    cases invoked
    obtain ⟨_, stored, signed⟩ := paying.signed
    rw [administered] at stored
    cases stored
    rw [host.unsigned] at signed
    cases signed
  | credit | advance => cases calls

theorem default_without_payout {funder : Address}
    (ran : InvoiceLiquidity.invoke host.env system.invoice (.claimDefault funder id) = .ok next)
    (unpaid : payout system (.invoice host (.claimDefault funder id)) = none) :
    step system (.invoice host (.claimDefault funder id)) = system.withInvoice next := by
  simp only [payout, poolCall, ran] at unpaid
  simp only [step, invokeInvoice_ok ran, compensate]
  cases tries : triedClaim (system.withInvoice next) host (.claimDefault funder id) with
  | none => rfl
  | some =>
    obtain ⟨_, _, same, _, rfl⟩ := triedClaim_eq_some tries
    cases same
    rw [tries] at unpaid
    have still : InsurancePool.step (system.withInvoice next).pool
        (.invoke host.acting (.claim id funder)) = (system.withInvoice next).pool :=
      InsurancePool.step_of_unpaid unpaid
    simp only [still]
    rfl

def Refuses (pool : InsurancePool.World) (id : Nat) : Prop :=
  pool.funds.claimed id = true ∨ InsurancePool.getTotalReserve pool ≤ 0 ∨
    pool.guards.solvencyCircuitOpen = true ∨ InsurancePool.enforceClaimReviewGate pool id ≠ .ok ()

theorem payout_of_refuses {funder : Address} (refuses : Refuses system.pool id) :
    payout system (.invoice host (.claimDefault funder id)) = none := by
  refine Option.eq_none_iff_forall_ne_some.mpr fun paid pays => ?_
  obtain ⟨⟨_, _⟩, calls, paidThere⟩ := Option.bind_eq_some_iff.mp pays
  obtain ⟨_, _, invoked, paying, _⟩ := InsurancePool.paidBy_spec paidThere
  simp only at invoked paying
  simp only [poolCall] at calls
  split at calls
  · rename_i next ran
    obtain ⟨tried, tries, same⟩ := Option.map_eq_some_iff.mp calls
    cases same
    obtain ⟨_, _, same, _, tried⟩ := triedClaim_eq_some tries
    cases same
    rw [invoked] at tried
    cases tried
    rcases refuses with claimed | empty | tripped | gated
    · have unclaimed : system.pool.funds.claimed paid.invoiceId = false := paying.unclaimed
      rw [claimed] at unclaimed
      cases unclaimed
    · exact absurd paying.available (not_lt.mpr empty)
    · have closed : system.pool.guards.solvencyCircuitOpen = false := paying.closed
      rw [tripped] at closed
      cases closed
    · exact gated paying.reviewed
  · cases calls

end Steps

/-- Over every run of the two contracts: while the invoice contract administers the pool, a payout
happens within a successful `claim_default` for its invoice and goes to the calling funder, who is
enrolled. No invoice gets a second payout. A claim that the pool refuses leaves the pool's storage
as it is, and `claim_default` succeeds. -/
theorem default_compensation (clock : Clock) (balance : Balances) (actions : List (Action site)) :
    let system := exec step (genesis clock balance) actions
    (system.pool.settings.admin = some site.liquidity →
      ∀ action : Action site, ∀ paid ∈ payout system action,
        ∃ host next, action = .invoice host (.claimDefault paid.lp paid.invoiceId) ∧
          InvoiceLiquidity.invoke host.env system.invoice (.claimDefault paid.lp paid.invoiceId) =
            .ok next ∧
          succeeds system action = true ∧ isEnrolled system.pool paid.lp = true ∧
          ∃ token, system.pool.tokenAddress = some token ∧
            (step system action).pool.tokens = move next.treasury.balance token site.pool paid.lp
              paid.amount) ∧
    (∀ id, tally step (payoutsFor id) (genesis clock balance) actions ≤ 1) ∧
    ∀ (host : Host site) (funder : Address) (id : Nat) (next : InvoiceLiquidity.World),
      InvoiceLiquidity.invoke host.env system.invoice (.claimDefault funder id) = .ok next →
      succeeds system (.invoice host (.claimDefault funder id)) = true ∧
      (Refuses system.pool id → payout system (.invoice host (.claimDefault funder id)) = none) ∧
      (payout system (.invoice host (.claimDefault funder id)) = none →
        (step system (.invoice host (.claimDefault funder id))).invoice = next ∧
        (step system (.invoice host (.claimDefault funder id))).pool =
          { system.pool with tokens := next.treasury.balance }) := by
  intro system
  have finishes : ∀ (host : Host site) (call : InvoiceLiquidity.Call)
      (next : InvoiceLiquidity.World),
      InvoiceLiquidity.invoke host.env system.invoice call = .ok next →
      succeeds system (.invoice host call) = true := by
    intro host call next ran
    simp only [succeeds, invokeInvoice_ok ran]
    rfl
  refine ⟨?_, ?_, ?_⟩
  · intro administered action paid pays
    obtain ⟨host, next, rfl, ran, enrolled, moved⟩ := payout_within_default administered pays
    exact ⟨host, next, rfl, ran, finishes host _ next ran, enrolled, moved⟩
  · intro id
    exact tally_le_one (fun _ => True) (fun system => system.pool.funds.claimed id = true)
      (fun _ _ _ => trivial) (fun system action _ before => step_keepsClaimed system action before)
      (fun system action _ => payoutsFor_marks system action id) actions trivial
  · intro host funder id next ran
    refine ⟨finishes host _ next ran, payout_of_refuses, fun unpaid => ?_⟩
    rw [default_without_payout ran unpaid]
    exact ⟨rfl, rfl⟩

theorem plainSite_apart : (⟨0⟩ : Address) ≠ ⟨50⟩ := by decide

def plainSite : Site := ⟨⟨0⟩, ⟨50⟩, plainSite_apart⟩

theorem plainSite_pool_unsigned (signers : List Nat) :
    (InvoiceLiquidity.stellarHost ⟨0⟩ ((signers.filter (· ≠ 50)).map Address.mk) []).signed ⟨50⟩ =
      false := by
  simp [InvoiceLiquidity.stellarHost]

theorem plainSite_liquidity_unsigned (signers : List Nat) :
    (InsurancePool.plainHost ⟨50⟩ ((signers.filter (· ≠ 0)).map Address.mk)).signed ⟨0⟩ =
      false := by
  simp [InsurancePool.plainHost]

def invoiceBy (signers : List Nat) (call : InvoiceLiquidity.Call) : Action plainSite :=
  .invoice ⟨InvoiceLiquidity.stellarHost ⟨0⟩ ((signers.filter (· ≠ 50)).map Address.mk) [],
    plainSite_pool_unsigned signers⟩ call

def poolBy (signers : List Nat) (call : InsurancePool.Call) : Action plainSite :=
  .pool ⟨InsurancePool.plainHost ⟨50⟩ ((signers.filter (· ≠ 0)).map Address.mk),
    plainSite_liquidity_unsigned signers⟩ call

/-- Account 1 sets the pool up and hands it to the invoice contract. Provider 3, enrolled by a
premium, funds an invoice, and its due date passes. -/
def handedPool : List (Action plainSite) :=
  [poolBy [1] (.initializeContract ⟨1⟩ 500000 ⟨10⟩), poolBy [1] (.proposeAdminTransfer ⟨0⟩),
    .advance 259200 100, poolBy [] .executeAdminTransfer,
    invoiceBy [] (.initializeContract ⟨1⟩ ⟨10⟩ ⟨11⟩ ⟨12⟩),
    invoiceBy [1] (.setInsurancePool ⟨50⟩), poolBy [3] (.depositPremium ⟨3⟩ 100000),
    invoiceBy [5] (.submitInvoice ⟨⟨5⟩, ⟨2⟩, 1000000, 400000, 300, ⟨10⟩, none⟩),
    invoiceBy [3] (.fundInvoice ⟨3⟩ 1 1000000 false), .credit ⟨10⟩ ⟨0⟩ 2000000, .advance 200000 100]

abbrev market : System := genesis ⟨1000, 10⟩ InvoiceLiquidity.marketBalances

theorem default_compensation_of_handedPool :
    let system := exec step market handedPool
    let claims := invoiceBy [3] (.claimDefault ⟨3⟩ 1)
    system.pool.settings.admin = some ⟨0⟩ ∧ payout system claims = some ⟨1, ⟨3⟩, 100000⟩ ∧
      isEnrolled system.pool ⟨3⟩ = true ∧ succeeds system claims = true ∧
      tally step (payoutsFor 1) market (handedPool ++ [claims]) ≤ 1 := by
  have administered : (exec step market handedPool).pool.settings.admin = some ⟨0⟩ := by
    decide +kernel
  have pays : payout (exec step market handedPool)
      (invoiceBy [3] (.claimDefault ⟨3⟩ 1)) = some ⟨1, ⟨3⟩, 100000⟩ := by decide +kernel
  have whole := default_compensation ⟨1000, 10⟩ InvoiceLiquidity.marketBalances handedPool
  obtain ⟨_, _, _, _, finished, enrolled, _⟩ := whole.1 administered _ _ pays
  exact ⟨administered, pays, enrolled, finished,
    (default_compensation ⟨1000, 10⟩ InvoiceLiquidity.marketBalances _).2.1 1⟩

end CrossContract
