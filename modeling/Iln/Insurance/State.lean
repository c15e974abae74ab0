import Iln.Insurance.Settings

/-! Storage of the `insurance_pool` contract (`insurance_pool/src/lib.rs`), grouped by what it
serves. The balances of the token are part of the world. The time of initialisation, which only a
view reads, is left out. -/
namespace InsurancePool

open InvoiceLiquidity (Address Hash Balances Clock)

structure ClaimEvidence where
  evidenceHash : Hash
  submittedAt : Nat
  deriving DecidableEq, Repr

/-- A proposed value and the time from which it may be executed, under keys of their own. -/
structure Timelock (ν : Type) where
  pending : Option ν
  eta : Option Nat
  deriving DecidableEq, Repr

/-- Numerator and denominator are two keys that are always written together. -/
structure RiskMultiplier where
  numerator : Int
  denominator : Int
  deriving DecidableEq, Repr

structure Timelocks where
  coverage : Timelock Int
  admin : Timelock Address
  riskMultiplier : Timelock RiskMultiplier

/-- `balance` is the liquid part, `backstopBalance` the capital held aside. -/
structure Funds where
  balance : Option Int
  backstopBalance : Option Int
  enrolled : Address → Bool
  enrolledCount : Option Nat
  premiums : Address → Option Int
  claimed : Nat → Bool

structure Risk where
  multiplier : Option RiskMultiplier
  defaultCount : Address → Option Nat
  totalDefaultCount : Option Nat
  pairDefaultCount : Address → Address → Option Nat
  reputationContract : Option Address

structure Guards where
  balanceCap : Option Int
  minReserveRatioBps : Option Nat
  solvencyCircuitOpen : Bool
  backstopFundingBps : Option Nat
  claimEvidence : Nat → Option ClaimEvidence
  reviewWindowSeconds : Option Nat

structure World where
  clock : Clock
  settings : Settings
  tokenAddress : Option Address
  funds : Funds
  timelocks : Timelocks
  risk : Risk
  guards : Guards
  tokens : Balances

/-- What one call takes from outside the contract deployed at `pool`. No call carries the signature
of the pool itself, since the host refuses to re-enter a running contract. -/
structure Env (pool : Address) where
  signed : Address → Bool
  unsigned : signed pool = false
  transferReturns : Balances → (token source target : Address) → Int → Bool

end InsurancePool
