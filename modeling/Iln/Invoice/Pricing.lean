import Iln.Foundation.Median
import Iln.Invoice.Oracle

/-! Price reads of the oracle registry (`oracle_registry.rs`, `twap.rs`): the health gate, the
windowed average and the cross-checked median of the price sources. Plain `i128` arithmetic that
leaves the range traps. The events of rejected prices are left out. -/
namespace InvoiceLiquidity

open Outcome FixedWidth

def ledgerSeconds : Nat := 5
def defaultTwapWindowLedgers : Nat := 720
def defaultMinTwapObservations : Nat := 2
def defaultMaxPriceDeviationBps : Nat := 500

/-- The answers of the price sources during one read. A source that traps, or returns something that
is no `i128`, has no answer. -/
structure PriceHost where
  price : (source token : Address) → Option Int
  typed : ∀ source token value, price source token = some value → Fits i128 value

def requireHealthyPriceFeed (oracle : OracleStore) (feed : OracleFeedType) (token : Address) :
    Result Unit := do
  require (oracle.circuitTripped feed token = false) (.returned .oracleCircuitOpen)
  require (∀ health ∈ oracle.health feed token, health.isStale = false) (.returned .oracleDataStale)

/-- The part of one pair of samples that lies in the window, added to the sums so far. -/
def addSegment (windowStart currentTime : Nat) (sums : Int × Nat) (pair : TwapSample × TwapSample) :
    Result (Int × Nat) :=
  let (first, second) := pair
  if second.timestamp < windowStart ∨ currentTime < first.timestamp then .ok sums else
  let start := max first.timestamp windowStart
  let stop := min second.timestamp currentTime
  if start < stop then do
    let sum ← orFail (checked i128 (first.price + second.price)) .trap
    let weighted := saturate i128 (sum.tdiv 2 * (stop - start : Nat))
    return (saturate i128 (sums.1 + weighted), addCapped u64Max sums.2 (stop - start))
  else .ok sums

def twapAverage (samples : List TwapSample) (windowStart currentTime : Nat) : Result (Option Int) :=
  if samples.length < 2 ∨ currentTime ≤ windowStart then .ok none else do
  let (weighted, weight) ← forEach (addSegment windowStart currentTime) (0, 0)
    (samples.zip samples.tail)
  return if 0 < weight then some (weighted.tdiv weight) else none

def getTwapPrice (clock : Clock) (oracle : OracleStore) (feed : OracleFeedType) (token : Address) :
    Result (Option Int) :=
  match requireHealthyPriceFeed oracle feed token with
  | .error _ => .ok none
  | .ok () =>
    let samples := oracle.twapSamples feed token
    if samples.length < oracle.minTwapObservations.getD defaultMinTwapObservations then
      .ok none else
    let window := min u64Max (oracle.twapWindowLedgers.getD defaultTwapWindowLedgers *
      ledgerSeconds)
    twapAverage samples (clock.timestamp - window) clock.timestamp

/-- The middle value, or the mean of the two middle ones rounded towards zero. -/
def median (values : List Int) : Result Int :=
  let sorted := Median.insertionLoop values
  if values.length % 2 = 1 then orFail sorted[values.length / 2]? .trap
  else do
    let left ← orFail sorted[values.length / 2 - 1]? .trap
    let right ← orFail sorted[values.length / 2]? .trap
    let sum ← orFail (checked i128 (left + right)) .trap
    return sum.tdiv 2

def deviationBps (price reference : Int) : Result Nat :=
  if reference = 0 then .ok (if price = 0 then 0 else u32Max)
  else do
    let difference ← orFail (checked i128 (price - reference)) .trap
    let distance ← orFail (checked i128 |difference|) .trap
    let magnitude ← orFail (checked i128 |reference|) .trap
    return (min ((saturate i128 (distance * 10000)).tdiv magnitude) u32Max).toNat

def getMaxPriceDeviationBps (oracle : OracleStore) : Nat :=
  oracle.maxPriceDeviationBps.getD defaultMaxPriceDeviationBps

def keepClose (overall : Int) (maxDeviation : Nat) (survivors : List Int) (price : Int) :
    Result (List Int) := do
  let deviation ← deviationBps price overall
  return if maxDeviation < deviation then survivors else survivors ++ [price]

def crossCheck (maxDeviation : Nat) (prices : List Int) : Result Int := do
  let overall ← median prices
  let survivors ← forEach (keepClose overall maxDeviation) [] prices
  require (survivors ≠ []) (.returned .allPriceSourcesRejected)
  median survivors

def reportedPrices (host : PriceHost) (oracle : OracleStore) (feed : OracleFeedType)
    (token : Address) : List Int :=
  (oracle.priceSources feed).filterMap fun source => host.price source token

def spotPrice (host : PriceHost) (oracle : OracleStore) (feed : OracleFeedType) (token : Address) :
    Result Int :=
  match reportedPrices host oracle feed token with
  | [] => .error (.returned .noPriceSource)
  -- a single source is not checked against anything
  | [price] => .ok price
  | prices => crossCheck (getMaxPriceDeviationBps oracle) prices

def getVerifiedPrice (host : PriceHost) (clock : Clock) (oracle : OracleStore)
    (feed : OracleFeedType) (token : Address) : Result Int := do
  requireHealthyPriceFeed oracle feed token
  let average ← if oracle.twapEnabled feed = true then getTwapPrice clock oracle feed token
    else .ok none
  match average with
  | some price => return price
  | none => spotPrice host oracle feed token

end InvoiceLiquidity
