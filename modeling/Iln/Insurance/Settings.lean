import Iln.Invoice.State

/-! The settings of `insurance_pool` that governance is meant to change: the coverage cap of a claim
and the base premium rate. Both setters ask for the authorisation of the stored administrator and
refuse values out of range. -/
namespace InsurancePool

open Outcome
open InvoiceLiquidity (Address)

inductive InsuranceError where
  | notInitialized | alreadyClaimed | invalidAmount | poolEmpty | alreadyInitialized
  | noPendingProposal | timelockNotExpired | arithmeticOverflow | balanceCapExceeded
  | solvencyCircuitOpen | invalidReserveRatio | evidenceRequired | reviewWindowNotElapsed
  | invalidBackstopAmount
  deriving DecidableEq, Repr

inductive Failure where
  | returned (error : InsuranceError)
  | trap
  deriving DecidableEq, Repr

instance : Coe InsuranceError Failure := ⟨.returned⟩

abbrev Result := Except Failure

structure Settings where
  admin : Option Address
  coverage : Option Int
  basePremiumRateBps : Option Nat
  deriving DecidableEq, Repr

variable (signed : Address → Bool) (settings : Settings)

/-- The amount is checked before the administrator. -/
def setCoverageViaGovernance (newCoverage : Int) : Result Settings := do
  require (¬ newCoverage ≤ 0) InsuranceError.invalidAmount
  let admin ← orFail settings.admin InsuranceError.notInitialized
  require (signed admin = true) .trap
  return { settings with coverage := some newCoverage }

def setPremiumRateViaGovernance (rateBps : Nat) : Result Settings := do
  let admin ← orFail settings.admin InsuranceError.notInitialized
  require (signed admin = true) .trap
  require (¬ (rateBps = 0 ∨ rateBps > 10000)) InsuranceError.invalidAmount
  return { settings with basePremiumRateBps := some rateBps }

def getCoverage : Int := settings.coverage.getD 0
def getBasePremiumRateBps : Nat := settings.basePremiumRateBps.getD 500

end InsurancePool
