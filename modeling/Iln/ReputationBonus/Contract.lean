import Iln.Foundation.Transition
import Iln.ReputationBonus.Config

/-! The `reputation_bonus` contract as a machine (`lib.rs`, `invoice.rs`, `reputation.rs`,
`rate_logic.rs`). It keeps invoices and scores of its own. No entry point reads the ledger time; it
is part of the world because due dates are compared with it. -/
namespace ReputationBonus

open Outcome FixedWidth Function
open InvoiceLiquidity (Address)

inductive ContractError where
  | arithmeticError | invoiceNotFound | illegalState | configErrorUnauthorized
  | configErrorInvalidBonusBps | configErrorInvalidMinDiscountRate | rateErrorArithmeticUnderflow
  | rateErrorArithmeticOverflow | configErrorInvalidHighRepThreshold
  deriving DecidableEq, Repr

inductive ContractFailure where
  | returned (error : ContractError)
  | trap
  deriving DecidableEq, Repr

instance : Coe ContractError ContractFailure := ⟨.returned⟩

structure ReputationScore where
  invoicesSubmitted : Nat
  invoicesPaid : Nat
  invoicesDefaulted : Nat
  score : Nat
  deriving DecidableEq, Repr

def newScore : ReputationScore := ⟨0, 0, 0, 0⟩

/-- The product is checked in `u64`; the quotient is cut to `u32` before it is capped. -/
def recalculateScore (reputation : ReputationScore) : ReputationScore :=
  let divisor := max reputation.invoicesSubmitted 1
  let percent :=
    if reputation.invoicesPaid * 100 ≤ u64Max then
      reputation.invoicesPaid * 100 / divisor % (u32Max + 1) else 0
  { reputation with score := min percent 100 }

def countSubmitted (reputation : ReputationScore) : ReputationScore :=
  { reputation with invoicesSubmitted := addCapped u32Max reputation.invoicesSubmitted 1 }

def countPaid (reputation : ReputationScore) : ReputationScore :=
  { reputation with invoicesPaid := addCapped u32Max reputation.invoicesPaid 1 }

def countDefaulted (reputation : ReputationScore) : ReputationScore :=
  { reputation with invoicesDefaulted := addCapped u32Max reputation.invoicesDefaulted 1 }

inductive RateError where
  | arithmeticUnderflow | arithmeticOverflow
  deriving DecidableEq, Repr

def calculateEffectiveRate (baseRateBps reputationScore : Nat) (config : Config) :
    Except RateError Nat :=
  if config.highRepThreshold ≤ reputationScore then
    .ok (max (baseRateBps - config.bonusBps) config.minDiscountRateBps)
  else .ok (max baseRateBps config.minDiscountRateBps)

inductive InvoiceStatus where
  | pending | funded | paid | defaulted
  deriving DecidableEq, Repr

structure Invoice where
  id : Nat
  freelancer : Address
  payer : Address
  amount : Int
  dueDate : Nat
  baseDiscountRateBps : Nat
  effectiveDiscountRateBps : Nat
  status : InvoiceStatus
  deriving DecidableEq, Repr

structure World where
  timestamp : Nat
  config : ConfigStore
  invoiceCount : Option Nat
  invoices : Nat → Option Invoice
  reputation : Address → Option ReputationScore

section EntryPoints

variable (signed : Address → Bool) (world : World)

def readReputation (address : Address) : ReputationScore := (world.reputation address).getD newScore

def writeReputation (address : Address) (reputation : ReputationScore) : World :=
  { world with reputation := update world.reputation address (some (recalculateScore reputation)) }

def updateReputation (address : Address) (count : ReputationScore → ReputationScore) : World :=
  writeReputation world address (count (readReputation world address))

def submitInvoice (freelancer payer : Address) (amount : Int) (dueDate baseDiscountRateBps : Nat) :
    Except ContractFailure (World × Invoice) := do
  require (signed freelancer = true) .trap
  let config ← orFail world.config.config ContractError.configErrorUnauthorized
  let score := (readReputation world freelancer).score
  let effectiveRate ← (calculateEffectiveRate baseDiscountRateBps score config).mapError
    fun _ => ContractFailure.returned .rateErrorArithmeticOverflow
  let count := world.invoiceCount.getD 0
  require (count + 1 ≤ u64Max) ContractError.arithmeticError
  let invoice : Invoice := {
    id := count + 1
    freelancer
    payer
    amount
    dueDate
    baseDiscountRateBps
    effectiveDiscountRateBps := effectiveRate
    status := .pending }
  let stored := { world with
    invoiceCount := some (count + 1)
    invoices := update world.invoices (count + 1) (some invoice) }
  return (updateReputation (updateReputation stored freelancer countSubmitted) payer countSubmitted,
    invoice)

def loadOpenInvoice (id : Nat) : Except ContractFailure Invoice := do
  let invoice ← orFail (world.invoices id) ContractError.invoiceNotFound
  require (invoice.status = .pending ∨ invoice.status = .funded) ContractError.illegalState
  return invoice

def closeInvoice (id : Nat) (invoice : Invoice) (status : InvoiceStatus)
    (count : ReputationScore → ReputationScore) : World :=
  let stored := { world with
    invoices := update world.invoices id (some { invoice with status }) }
  updateReputation (updateReputation stored invoice.payer count) invoice.freelancer count

def markPaid (id : Nat) : Except ContractFailure World := do
  let invoice ← loadOpenInvoice world id
  require (signed invoice.payer = true) .trap
  return closeInvoice world id invoice .paid countPaid

/-- Asks for no authorisation and does not look at the due date. -/
def handleDefault (id : Nat) : Except ContractFailure World := do
  let invoice ← loadOpenInvoice world id
  return closeInvoice world id invoice .defaulted countDefaulted

/-- Asks for no authorisation and does not look at the stored administrator. -/
def init (admin : Address) : World :=
    { world with config := { world.config with admin := some admin } }

def ConfigError.toContractError : ConfigError → ContractError
  | .invalidHighRepThreshold => .configErrorInvalidHighRepThreshold
  | .invalidBonusBps => .configErrorInvalidBonusBps
  | .invalidMinDiscountRate => .configErrorInvalidMinDiscountRate
  | .unauthorized => .configErrorUnauthorized

def Failure.toContractFailure : Failure → ContractFailure
  | .returned error => .returned error.toContractError
  | .trap => .trap

/-- The result of `config.rs` with its errors renamed, stored. -/
def configVia (result : Result ConfigStore) : Except ContractFailure World := do
  let store ← result.mapError Failure.toContractFailure
  return { world with config := store }

end EntryPoints

inductive Call where
  | init (admin : Address)
  | setConfig (config : Config)
  | updateConfig (caller : Address) (config : Config)
  | submitInvoice (freelancer payer : Address) (amount : Int) (dueDate baseDiscountRateBps : Nat)
  | markPaid (id : Nat)
  | handleDefault (id : Nat)
  deriving DecidableEq, Repr

def Config.wellTyped (config : Config) : Bool :=
  decide (config.highRepThreshold ≤ u32Max ∧ config.bonusBps ≤ u32Max ∧
    config.minDiscountRateBps ≤ u32Max)

def Call.wellTyped : Call → Bool
  | .init _ => true
  | .setConfig config | .updateConfig _ config => config.wellTyped
  | .submitInvoice _ _ amount dueDate rate =>
    decide (Fits i128 amount ∧ dueDate ≤ u64Max ∧ rate ≤ u32Max)
  | .markPaid id | .handleDefault id => decide (id ≤ u64Max)

def dispatch (signed : Address → Bool) (world : World) : Call → Except ContractFailure World
  | .init admin => .ok (init world admin)
  | .setConfig config => configVia world (setConfig world.config config)
  | .updateConfig caller config => configVia world (updateConfig signed world.config caller config)
  | .submitInvoice freelancer payer amount dueDate rate =>
    Prod.fst <$> submitInvoice signed world freelancer payer amount dueDate rate
  | .markPaid id => markPaid signed world id
  | .handleDefault id => handleDefault world id

def invoke (signed : Address → Bool) (world : World) (call : Call) :
    Except ContractFailure World := do
  require (call.wellTyped = true) .trap
  dispatch signed world call

inductive Action where
  | invoke (signed : Address → Bool) (call : Call)
  | advance (seconds : Nat)

/-- A call that fails leaves the world as it was. -/
def step (world : World) : Action → World
  | .invoke signed call =>
    match invoke signed world call with
    | .ok next => next
    | .error _ => world
  | .advance seconds => { world with timestamp := world.timestamp + seconds }

def genesis (timestamp : Nat) : World :=
    ⟨timestamp, ⟨none, none⟩, none, fun _ => none, fun _ => none⟩

end ReputationBonus
