import Iln.Invoice.Multisig
import Iln.Invoice.Oracle

/-! Initialisation and the administrator's setters (`lib.rs`, `config.rs`, `oracle_registry.rs`).
Each acts on `Control` alone, except `add_token`, which also probes the token with a transfer there
and back. Events are left out. -/
namespace InvoiceLiquidity

open Outcome FixedWidth Function

variable {contract : Address}

def maxFeeTiers : Nat := 20
def maxPriceSourcesPerFeed : Nat := 20
def maxIdentityOraclesPerFeed : Nat := 20
def oracleInterfaceVersion : Nat := 1
def minTwapWindowLedgers : Nat := 360
def maxTwapWindowLedgers : Nat := 17280
def maxTwapSamples : Nat := 100
def maxBonusBps : Nat := 500
def maxDecayRateBps : Nat := 500
def maxRepThreshold : Nat := 100
def maxMinDiscountRateBps : Nat := 10000
def rollbackSampleSize : Nat := 50

def initialConfig (usdc eurc xlm : Address) : Config where
  highRepThreshold := 70
  bonusBps := 100
  minDiscountRateBps := 100
  decayRateBps := 50
  decayPeriodLedgers := 10000
  disputeTimeoutLedgers := 10000
  xlmSacAddress := xlm
  usdcSacAddress := usdc
  eurcSacAddress := eurc
  priceOracle := none
  maxOracleAgeLedgers := defaultMaxOracleAgeLedgers

/-- The only guard is the key `InvoiceCount`. -/
def initializeContract (world : World) (admin usdc eurc xlm : Address) : Result World := do
  -- the key that the guard reads; no call writes it
  require (world.control.invoiceCount.isNone) (.returned .alreadyInitialized)
  let approve (table : Address → Option Bool) (token : Address) := update table token (some true)
  let decimals := update (update (update world.control.tokenDecimals
    usdc (some 6)) eurc (some 6)) xlm (some 7)
  return { world with
    control := { world.control with
      admin := some admin
      feeRate := some 0
      maxDiscountRate := some 5000
      config := some (initialConfig usdc eurc xlm)
      approvedToken := approve (approve (approve world.control.approvedToken usdc) eurc) xlm
      tokenDecimals := decimals
      tokenList := [usdc, xlm, eurc] }
    book := { world.book with nextInvoiceId := some world.book.nextId } }

section Setters

variable (env : Env contract) (clock : Clock) (control : Control)

def setAdmin (newAdmin : Address) : Result Control := do
  let control ← beginAdminCall env clock control .setAdmin adminChangeCooldownLedgers
  return { control with admin := some newAdmin }

def updateFeeRate (rate : Nat) : Result Control := do
  let control ← beginAdminCall env clock control .updateFeeRate economicParamCooldownLedgers
  -- any rate is accepted, above 10000 basis points as well
  return { control with feeRate := some rate }

def updateMaxDiscount (rate : Nat) : Result Control := do
  let control ← beginAdminCall env clock control .updateMaxDiscount economicParamCooldownLedgers
  return { control with maxDiscountRate := some rate }

def updateDecayParams (rateBps periodLedgers : Nat) : Result Control := do
  let control ← beginAdminCall env clock control .updateDecayParams economicParamCooldownLedgers
  let config ← orFail control.config (.returned .unauthorized)
  return { control with
    config := some { config with decayRateBps := rateBps, decayPeriodLedgers := periodLedgers } }

def setDistributionContract (distribution : Address) : Result Control := do
  let control ← beginAdminCall env clock control .setDistributionContract defaultRateLimitLedgers
  return { control with distributionContract := some distribution }

def setPriceOracle (oracle : Address) : Result Control := do
  let control ← beginAdminCall env clock control .setPriceOracle defaultRateLimitLedgers
  let config ← orFail control.config (.returned .unauthorized)
  return { control with config := some { config with priceOracle := some oracle } }

def setMaxOracleAge (maxAgeLedgers : Nat) : Result Control := do
  let control ← beginAdminCall env clock control .setMaxOracleAge defaultRateLimitLedgers
  let config ← orFail control.config (.returned .unauthorized)
  return { control with config := some { config with maxOracleAgeLedgers := maxAgeLedgers } }

def setInsurancePool (pool : Address) : Result Control := do
  let control ← beginAdminCall env clock control .setInsurancePool defaultRateLimitLedgers
  return { control with insurancePool := some pool }

def removeToken (token : Address) : Result Control := do
  let control ← beginAdminCall env clock control .removeToken defaultRateLimitLedgers
  return dropToken control token

def correctTokenDecimals (token : Address) (decimals : Nat) : Result Control := do
  requireAdmin env control
  require (isApprovedToken control token = true) (.returned .unauthorized)
  let control ← checkRateLimit clock control .correctTokenDecimals defaultRateLimitLedgers
  validateTokenDecimals env token decimals
  let control := recordAdminAction clock control .correctTokenDecimals
  return { control with tokenDecimals := update control.tokenDecimals token (some decimals) }

def pause : Result Control := do
  requireAdmin env control
  return setPaused clock (recordAdminAction clock control .pause) true

def unpause : Result Control := do
  requireAdmin env control
  return setPaused clock (recordAdminAction clock control .unpause) false

/-- The replaced code is outside the model; what the call writes is the rate limit and the log. -/
def upgrade : Result Control := do
  let control ← beginAdminCall env clock control .upgrade upgradeCooldownLedgers
  require (env.ttlFieldsHealthy = true) (.returned .upgradeRemovesTtlFields)
  return control

def registerMissingDecimals (table : Address → Option Nat) (token : Address) (decimals : Nat) :
    Address → Option Nat :=
  if (table token).isSome then table else update table token (some decimals)

def migrate : Result Control := do
  requireAdmin env control
  let control := recordAdminAction clock control .migrate
  if currentStorageVersion ≤ control.storageVersion.getD 1 then return control
  else
    let decimals := match control.config with
      | none => control.tokenDecimals
      | some config =>
        registerMissingDecimals (registerMissingDecimals
          (registerMissingDecimals control.tokenDecimals config.usdcSacAddress 6)
            config.eurcSacAddress 6) config.xlmSacAddress 7
    return { control with tokenDecimals := decimals, storageVersion := some currentStorageVersion }

def updateFeeTiers (tiers : List (Int × Nat)) : Result Control := do
  requireAdmin env control
  require (tiers.length ≤ maxFeeTiers) (.returned .tooManyFeeTiers)
  let control ← checkRateLimit clock control .updateFeeTiers economicParamCooldownLedgers
  return { recordAdminAction clock control .updateFeeTiers with feeTiers := tiers }

/-- The rate limit is taken before the caller is checked. -/
def updateConfig (caller : Address) (wanted : Config) : Result Control := do
  let control ← checkRateLimit clock control .updateConfig economicParamCooldownLedgers
  let admin ← orFail control.admin (.returned .unauthorized)
  let old ← orFail control.config (.returned .unauthorized)
  requireAuth env caller
  require (caller = admin) (.returned .unauthorized)
  require (wanted.bonusBps ≤ maxBonusBps) (.returned .invalidAmount)
  require (wanted.minDiscountRateBps ≠ 0 ∧ wanted.minDiscountRateBps < maxMinDiscountRateBps)
    (.returned .invalidDiscountRate)
  require (wanted.decayRateBps ≤ maxDecayRateBps) (.returned .invalidDecayRate)
  require (wanted.highRepThreshold ≤ maxRepThreshold) (.returned .invalidRepThreshold)
  return { control with
    config := some { wanted with
      priceOracle := old.priceOracle, maxOracleAgeLedgers := old.maxOracleAgeLedgers } }

def setMinPayerReputation (value : Nat) : Result Control := do
  let control ← beginAdminCall env clock control .setMinPayerReputation economicParamCooldownLedgers
  return { control with minPayerReputation := value }

/-- Neither cap setter writes an audit record. -/
def setMaxInvoiceAmount (value : Int) : Result Control := do
  requireAdmin env control
  let control ← checkRateLimit clock control .setMaxInvoiceAmount economicParamCooldownLedgers
  return { control with maxInvoiceAmount := value }

def setTokenVolumeCap (token : Address) (value : Int) : Result Control := do
  requireAdmin env control
  let control ← checkRateLimit clock control .setTokenVolumeCap economicParamCooldownLedgers
  return { control with tokenVolumeCap := update control.tokenVolumeCap token value }

end Setters

section OracleSetters

variable (env : Env contract) (clock : Clock) (control : Control)

def verifyOracleInterfaceVersion (oracle : Address) : Result Nat := do
  let version ← orFail (env.interfaceVersion oracle) (.returned .incompatibleInterfaceVersion)
  require (version = oracleInterfaceVersion) (.returned .incompatibleInterfaceVersion)
  return version

def registerOracle (feed : OracleFeedType) (oracle : Address) : Result Control := do
  let control ← beginOracleCall env clock control .registerOracle
  let version ← verifyOracleInterfaceVersion env oracle
  return { control with
    oracle := { control.oracle with
      registry := update control.oracle.registry feed (some oracle)
      interfaceVersion := update control.oracle.interfaceVersion feed (some version) } }

def removeOracle (feed : OracleFeedType) : Result Control := do
  let control ← beginOracleCall env clock control .removeOracle
  return { control with
    oracle := { control.oracle with registry := update control.oracle.registry feed none } }

def registerTokenOracle (feed : OracleFeedType) (token oracle : Address) : Result Control := do
  let control ← beginOracleCall env clock control .registerTokenOracle
  let version ← verifyOracleInterfaceVersion env oracle
  return { control with
    oracle := { control.oracle with
      tokenOracle := updateFeed control.oracle.tokenOracle feed token (some oracle)
      interfaceVersion := update control.oracle.interfaceVersion feed (some version) } }

def removeTokenOracle (feed : OracleFeedType) (token : Address) : Result Control := do
  let control ← beginOracleCall env clock control .removeTokenOracle
  return { control with
    oracle := { control.oracle with
      tokenOracle := updateFeed control.oracle.tokenOracle feed token none } }

def resetOracleCircuit (feed : OracleFeedType) (token : Address) : Result Control := do
  let control ← beginOracleCall env clock control .resetOracleCircuit
  return { control with
    oracle := { control.oracle with
      circuitTripped := updateFeed control.oracle.circuitTripped feed token false
      circuitRecovery := updateFeed control.oracle.circuitRecovery feed token none } }

/-- Append a new source to a bounded list; one already there changes nothing. -/
def addBounded (sources : List Address) (source : Address) (bound : Nat) (full : ContractError) :
    Result (List Address) :=
  if source ∈ sources then .ok sources
  else do
    require (sources.length < bound) (.returned full)
    return sources ++ [source]

def addPriceSource (feed : OracleFeedType) (source : Address) : Result Control := do
  let control ← beginOracleCall env clock control .addPriceSource
  let sources ← addBounded (control.oracle.priceSources feed) source maxPriceSourcesPerFeed
    .tooManyPriceSources
  return { control with
    oracle := { control.oracle with
      priceSources := update control.oracle.priceSources feed sources } }

def removePriceSource (feed : OracleFeedType) (source : Address) : Result Control := do
  let control ← beginOracleCall env clock control .removePriceSource
  return { control with
    oracle := { control.oracle with
      priceSources := update control.oracle.priceSources feed
        ((control.oracle.priceSources feed).filter (· ≠ source)) } }

def setMaxPriceDeviationBps (bps : Nat) : Result Control := do
  let control ← beginOracleCall env clock control .setMaxPriceDeviationBps
  require (bps ≠ 0 ∧ bps ≤ 10000) (.returned .invalidAmount)
  return { control with oracle := { control.oracle with maxPriceDeviationBps := some bps } }

def addIdentityOracle (feed : OracleFeedType) (source : Address) : Result Control := do
  let control ← beginOracleCall env clock control .addIdentityOracle
  let sources ← addBounded (control.oracle.identityOracles feed) source maxIdentityOraclesPerFeed
    .tooManyIdentityOracles
  return { control with
    oracle := { control.oracle with
      identityOracles := update control.oracle.identityOracles feed sources } }

def removeIdentityOracle (feed : OracleFeedType) (source : Address) : Result Control := do
  let control ← beginOracleCall env clock control .removeIdentityOracle
  return { control with
    oracle := { control.oracle with
      identityOracles := update control.oracle.identityOracles feed
        ((control.oracle.identityOracles feed).filter (· ≠ source)) } }

def setIdentityQuorum (quorum : Nat) : Result Control := do
  let control ← beginOracleCall env clock control .setIdentityQuorum
  require (quorum ≠ 0 ∧ quorum ≤ maxIdentityOraclesPerFeed) (.returned .invalidIdentityQuorum)
  return { control with oracle := { control.oracle with identityQuorum := some quorum } }

def setTwapEnabled (feed : OracleFeedType) (enabled : Bool) : Result Control := do
  let control ← beginOracleCall env clock control .setTwapEnabled
  return { control with
    oracle := { control.oracle with twapEnabled := update control.oracle.twapEnabled feed enabled }
      }

def setTwapWindow (windowLedgers : Nat) : Result Control := do
  let control ← beginOracleCall env clock control .setTwapWindow
  require (minTwapWindowLedgers ≤ windowLedgers ∧ windowLedgers ≤ maxTwapWindowLedgers)
    (.returned .invalidTwapWindow)
  return { control with oracle := { control.oracle with twapWindowLedgers := some windowLedgers } }

/-- `push_sample` keeps the most recent samples; this call is not rate limited. -/
def recordTwapSample (feed : OracleFeedType) (token : Address) (price : Int) : Result Control := do
  requireAdmin env control
  require (0 < price) (.returned .invalidAmount)
  let samples := control.oracle.twapSamples feed token ++ [⟨clock.timestamp, price⟩]
  return { control with
    oracle := { control.oracle with
      twapSamples := updateFeed control.oracle.twapSamples feed token
        (samples.drop (samples.length - maxTwapSamples)) } }

end OracleSetters

section WithStorage

variable (env : Env contract) (world : World)

def addToken (token : Address) (decimals : Nat) : Result World := do
  let control ← beginAdminCall env world.clock world.control .addToken defaultRateLimitLedgers
  let admin ← orFail control.admin .trap
  validateTokenDecimals env token decimals
  validateSacAuthorization env token admin
  let received ← transfer env world.treasury token admin contract 1000000
  require (received.balance token contract - world.treasury.balance token contract = 1000000)
    (.returned .feeOnTransferToken)
  let treasury ← transfer env received token contract admin 1000000
  return { world with
    treasury
    control := { control with
      approvedToken := update control.approvedToken token (some true)
      tokenDecimals := update control.tokenDecimals token (some decimals)
      tokenList := if token ∈ control.tokenList then control.tokenList else control.tokenList ++
        [token] } }

def Book.orphaned (book : Book) (id : Nat) : Bool :=
  (book.invoices id).isNone && ((book.core id).isSome != (book.metadata id).isSome)

def rehearseRollback : Result Control := do
  requireAdmin env world.control
  let last := world.book.nextId - 1
  let sample := (List.range (last + 1)).filter fun id => last - (rollbackSampleSize - 1) ≤ id
  require (last = 0 ∨ sample.any world.book.orphaned = false) (.returned .rollbackUnsafe)
  return recordAdminAction world.clock world.control .rehearseRollback

end WithStorage

end InvoiceLiquidity
