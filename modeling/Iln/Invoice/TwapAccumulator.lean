import Iln.Foundation.Transition
import Iln.Invoice.Types

/-! The price accumulator of `twap_accumulator.rs`, which no entry point uses. A token without an
accumulator gets one that was last updated now, and an update is refused within sixty seconds of the
last one. So no observation is ever accepted, and `get_twap` is 0 for ever. -/
namespace InvoiceLiquidity

open Outcome FixedWidth Transition Function

namespace TwapAccumulator

def maxObservations : Nat := 50
def minObservationIntervalSecs : Nat := 60

structure PriceObservation where
  timestamp : Nat
  ledgerSequence : Nat
  price : Int
  deriving DecidableEq, Repr

structure TwapState where
  accumulatedPrice : Int
  observationCount : Nat
  windowStartTimestamp : Nat
  lastUpdateTimestamp : Nat
  lastLedgerSequence : Nat
  deriving DecidableEq, Repr

inductive TwapError where
  | negativePrice | monotonicOrderViolation | insufficientObservationInterval
  | maxObservationsExceeded
  deriving DecidableEq, Repr

inductive TwapFailure where
  | returned (error : TwapError)
  | trap
  deriving DecidableEq, Repr

instance : Coe TwapError TwapFailure := ⟨.returned⟩

abbrev Store := Address → Option TwapState

/-- The state that an observation of a token without a stored one starts from. -/
def initialState (currentTimestamp : Nat) : TwapState :=
    ⟨0, 0, currentTimestamp, currentTimestamp, 0⟩

def TwapState.update (state : TwapState) (seen : PriceObservation) : TwapState :=
  let timeDelta := seen.timestamp - state.lastUpdateTimestamp
  let priceDelta := saturate i128 (seen.price * (timeDelta : Nat))
  let count := addCapped u32Max state.observationCount 1
  { state with
    accumulatedPrice := saturate i128 (state.accumulatedPrice + priceDelta)
    observationCount := if count > maxObservations then maxObservations else count
    lastUpdateTimestamp := seen.timestamp
    lastLedgerSequence := seen.ledgerSequence }

def recordObservation (store : Store) (token : Address) (seen : PriceObservation) :
    Except TwapFailure (Store × TwapState) := do
  require (¬ seen.price < 0) TwapError.negativePrice
  let state := (store token).getD (initialState seen.timestamp)
  require (¬ seen.ledgerSequence ≤ state.lastLedgerSequence) TwapError.monotonicOrderViolation
  require (state.lastUpdateTimestamp + minObservationIntervalSecs ≤ u64Max) .trap
  require (¬ seen.timestamp < state.lastUpdateTimestamp + minObservationIntervalSecs)
    TwapError.insufficientObservationInterval
  return (update store token (some (state.update seen)), state.update seen)

def getTwap (currentTimestamp : Nat) (store : Store) (token : Address) (lookbackSeconds : Nat) :
    Int :=
  match store token with
  | none => 0
  | some state =>
    if state.lastUpdateTimestamp < currentTimestamp - lookbackSeconds then 0
    else if lookbackSeconds = 0 then 0
    else state.accumulatedPrice.tdiv lookbackSeconds

/-- The answer to an observation of a token without an accumulator. -/
def refusal (seen : PriceObservation) : TwapFailure :=
  if seen.price < 0 then TwapError.negativePrice
  else if seen.ledgerSequence = 0 then TwapError.monotonicOrderViolation
  else if u64Max < seen.timestamp + minObservationIntervalSecs then .trap
  else TwapError.insufficientObservationInterval

theorem recordObservation_missing {store : Store} {token : Address} (missing : store token = none)
    (seen : PriceObservation) : recordObservation store token seen = .error (refusal seen) := by
  simp only [recordObservation, missing, Option.getD_none, initialState, require, refusal]
  by_cases negative : seen.price < 0
  · rw [if_pos negative, if_neg (not_not.mpr negative)]
    rfl
  by_cases unordered : seen.ledgerSequence = 0
  · rw [if_neg negative, if_pos unordered, if_pos negative, if_neg (not_not.mpr unordered.le)]
    rfl
  have ordered : ¬ seen.ledgerSequence ≤ 0 := by omega
  by_cases wide : u64Max < seen.timestamp + minObservationIntervalSecs
  · rw [if_neg negative, if_neg unordered, if_pos wide, if_pos negative, if_pos ordered,
      if_neg (not_le.mpr wide)]
    rfl
  · -- the observation is taken as its own last update
    have early : seen.timestamp < seen.timestamp + minObservationIntervalSecs :=
      Nat.lt_add_of_pos_right (by decide)
    rw [if_neg negative, if_neg unordered, if_neg wide, if_pos negative, if_pos ordered,
      if_pos (not_lt.mp wide), if_neg (not_not.mpr early)]
    rfl

def attempt (store : Store) (call : Address × PriceObservation) : Store :=
  match recordObservation store call.1 call.2 with
  | .ok next => next.1
  | .error _ => store

def recordAll (token : Address) (store : Store) (observations : List PriceObservation) :
    Except TwapFailure Store :=
  forEach (fun store seen => Prod.fst <$> recordObservation store token seen) store observations

theorem attempts_store_nothing (calls : List (Address × PriceObservation)) :
    exec attempt (fun _ => none) calls = fun _ => none := by
  refine invariant (fun store => store = fun _ => none) ?_ calls rfl
  rintro _ call rfl
  rw [attempt, recordObservation_missing rfl]

/-- Whatever was tried before and for whichever token, the first observation of a sequence is
refused. The sequence leaves no accumulator, and every lookback answers 0. -/
theorem accumulator_never_starts (earlier : List (Address × PriceObservation)) (token : Address)
    (seen : PriceObservation) (rest : List PriceObservation) :
    let store := exec attempt (fun _ => none) earlier
    let final := exec attempt store ((seen :: rest).map (token, ·))
    recordAll token store (seen :: rest) = .error (refusal seen) ∧ final token = none ∧
      ∀ currentTimestamp lookbackSeconds, getTwap currentTimestamp final token lookbackSeconds =
        0 := by
  intro store final
  have empty : store = fun _ => none := attempts_store_nothing earlier
  have untouched : final token = none := by
    show exec attempt store _ token = none
    rw [empty, attempts_store_nothing]
  refine ⟨?_, untouched, fun currentTimestamp lookbackSeconds => ?_⟩
  · rw [recordAll, forEach, empty, recordObservation_missing rfl]
    rfl
  · rw [getTwap, untouched]

/-- One observation that meets every condition, refused as too soon after itself. -/
theorem first_observation_refused :
    recordObservation (fun _ => none) ⟨9⟩ ⟨1000, 1, 100⟩ = .error
      (.returned .insufficientObservationInterval) ∧ getTwap 1000 (fun _ => none) ⟨9⟩ 60 = 0 :=
  ⟨rfl, rfl⟩

end TwapAccumulator

end InvoiceLiquidity
