import Iln.Invoice.Records

/-! The oracle registry (`oracle_registry.rs`): resolution in priority order, health snapshots, the
circuit breaker with half-open recovery, the identity quorum and the verification gate that
`fund_invoice` shares with the permissionless diagnostics. -/
namespace InvoiceLiquidity

open Outcome FixedWidth

variable {contract : Address}

def maxConsecutiveStaleQueries : Nat := 3
def maxConsecutiveDuplicateUpdates : Nat := 3
def circuitRecoveryHealthyObservations : Nat := 3
def circuitRecoveryMinLedgers : Nat := 120
def defaultIdentityQuorum : Nat := 1

def updateFeed {β : Type} (table : OracleFeedType → Address → β) (feed : OracleFeedType)
    (token : Address) (value : β) : OracleFeedType → Address → β :=
  Function.update table feed (Function.update (table feed) token value)

def resolveOracle (control : Control) (feed : OracleFeedType) (token : Address) : Option Address :=
  (control.oracle.tokenOracle feed token).or <|
    (control.oracle.registry feed).or <|
      if feed = .identity then control.config.bind Config.priceOracle else none

def isOracleDataStale (currentLedger dataTimestamp maxAgeLedgers : Nat) : Bool :=
  if maxAgeLedgers = 0 then false
  else if currentLedger < dataTimestamp then true
  else maxAgeLedgers ≤ currentLedger - dataTimestamp

def isOracleDataTimestampRegression (oracle : OracleStore) (feed : OracleFeedType)
    (token source : Address) (dataTimestamp : Nat) : Bool :=
  (oracle.health feed token).any fun prev =>
    prev.oracle == source && decide (dataTimestamp < prev.lastDataTimestamp)

def isOracleDataDuplicateUpdate (oracle : OracleStore) (feed : OracleFeedType)
    (token source : Address) (dataTimestamp : Nat) : Bool :=
  (oracle.health feed token).any fun prev =>
    prev.oracle == source && dataTimestamp == prev.lastDataTimestamp &&
      decide (maxConsecutiveDuplicateUpdates ≤ prev.consecutiveDuplicateCount)

/-- Half-open recovery: only the oracle that tripped the breaker, observed fresh and advancing
often enough over a long enough window, closes it again. -/
def maybeRecoverOracleCircuit (clock : Clock) (oracle : OracleStore) (feed : OracleFeedType)
    (token source : Address) (isStale : Bool) (dataTimestamp : Nat)
    (previous : Option OracleHealthStatus) : OracleStore :=
  if oracle.circuitTripped feed token = false then oracle else
  match oracle.circuitRecovery feed token with
  | none => oracle
  | some state =>
    if state.trippedOracle ≠ source then oracle else
    let advanced := match previous with
      | some prev => if prev.oracle = source then decide (prev.lastDataTimestamp < dataTimestamp)
          else true
      | none => true
    if !isStale && advanced then
      let first := if state.consecutiveHealthy = 0 then clock.sequence else state.firstHealthyLedger
      let healthy := addCapped u32Max state.consecutiveHealthy 1
      if circuitRecoveryHealthyObservations ≤ healthy ∧ circuitRecoveryMinLedgers ≤
        clock.sequence - first then { oracle with
          circuitRecovery := updateFeed oracle.circuitRecovery feed token none
          circuitTripped := updateFeed oracle.circuitTripped feed token false }
      else
        { oracle with
          circuitRecovery := updateFeed oracle.circuitRecovery feed token
            (some ⟨state.trippedOracle, healthy, first⟩) }
    else
      { oracle with
        circuitRecovery := updateFeed oracle.circuitRecovery feed token
          (some ⟨state.trippedOracle, 0, 0⟩) }

def staleStreak (previous : Option OracleHealthStatus) (source : Address) (isStale : Bool) : Nat :=
  if isStale then
    match previous with
    | some prev => if prev.oracle = source then addCapped u32Max prev.consecutiveStaleCount 1 else 1
    | none => 1
  else 0

def duplicateStreak (previous : Option OracleHealthStatus) (source : Address)
    (dataTimestamp : Nat) : Nat :=
  match previous with
  | some prev =>
    if prev.oracle = source ∧ dataTimestamp = prev.lastDataTimestamp
    then addCapped u32Max prev.consecutiveDuplicateCount 1 else 0
  | none => 0

def recordOracleHealth (clock : Clock) (oracle : OracleStore) (feed : OracleFeedType)
    (token source : Address) (dataTimestamp maxAgeLedgers : Nat) : OracleStore :=
  let isStale := isOracleDataStale clock.sequence dataTimestamp maxAgeLedgers
  let previous := oracle.health feed token
  let stale := staleStreak previous source isStale
  let status : OracleHealthStatus := {
    oracle := source
    lastCheckedLedger := clock.sequence
    lastDataTimestamp := dataTimestamp
    lastDataAgeLedgers := clock.sequence - dataTimestamp
    isStale
    consecutiveStaleCount := stale
    consecutiveDuplicateCount := duplicateStreak previous source dataTimestamp }
  let recorded := { oracle with health := updateFeed oracle.health feed token (some status) }
  let tripped :=
    if isStale = true ∧ maxConsecutiveStaleQueries ≤ stale ∧
      recorded.circuitTripped feed token = false then { recorded with
        circuitTripped := updateFeed recorded.circuitTripped feed token true
        circuitRecovery := updateFeed recorded.circuitRecovery feed token (some ⟨source, 0, 0⟩) }
    else recorded
  maybeRecoverOracleCircuit clock tripped feed token source isStale dataTimestamp previous

inductive OracleResolution where
  | unconfigured
  | available (oracle : Address)
  | circuitOpen
  deriving DecidableEq, Repr

/-- The first candidate of the priority chain that is not the one whose health tripped the
breaker. -/
def resolveOracleForVerification (control : Control) (feed : OracleFeedType) (token : Address) :
    OracleResolution :=
  let tripped := control.oracle.circuitTripped feed token
  let excluded (address : Address) : Bool := tripped &&
    match control.oracle.health feed token with
    | some health => address == health.oracle
    | none => true
  let candidates := [control.oracle.tokenOracle feed token, control.oracle.registry feed,
    if feed = .identity then control.config.bind Config.priceOracle else none].filterMap id
  match candidates.find? fun address => !excluded address with
  | some address => .available address
  | none => if candidates = [] then .unconfigured else .circuitOpen

inductive FeederHealth where
  | verified | unverified | stale | unreachable
  deriving DecidableEq, Repr

def classifyIdentityFeeder (env : Env contract) (clock : Clock) (feeder payer : Address)
    (maxAgeLedgers : Nat) : FeederHealth :=
  match env.payerData feeder payer with
  | none => .unreachable
  | some response =>
    if isOracleDataStale clock.sequence response.timestamp maxAgeLedgers then .stale
    else if response.isVerified then .verified
    else .unverified

inductive IdentityQuorumOutcome where
  | notConfigured | verified | disagreement
  deriving DecidableEq, Repr

def checkIdentityQuorum (env : Env contract) (clock : Clock) (oracle : OracleStore)
    (feed : OracleFeedType) (payer : Address) (maxAgeLedgers : Nat) : IdentityQuorumOutcome :=
  let feeders := oracle.identityOracles feed
  if feeders = [] then .notConfigured else
  let agreed := feeders.countP fun feeder =>
    classifyIdentityFeeder env clock feeder payer maxAgeLedgers == .verified
  if oracle.identityQuorum.getD defaultIdentityQuorum ≤ agreed then .verified else .disagreement

inductive IdentityVerificationOutcome where
  | verified | stale | quorumDisagreement | timestampRegression | duplicateUpdate | circuitOpen
  | unverified
  deriving DecidableEq, Repr

def evaluateIdentityVerification (env : Env contract) (clock : Clock) (control : Control)
    (feed : OracleFeedType) (token payer : Address) (maxAgeLedgers : Nat) :
    Result (OracleStore × IdentityVerificationOutcome) :=
  let oracle := control.oracle
  match checkIdentityQuorum env clock oracle feed payer maxAgeLedgers with
  | .disagreement => .ok (oracle, .quorumDisagreement)
  | .verified => .ok (oracle, .verified)
  | .notConfigured =>
    match resolveOracleForVerification control feed token with
    | .circuitOpen => .ok (oracle, .circuitOpen)
    | .unconfigured => .ok (oracle, .verified)
    | .available source => do
      let response ← orFail (env.payerData source payer) .trap
      if isOracleDataTimestampRegression oracle feed token source response.timestamp then
        return (oracle, .timestampRegression)
      else if isOracleDataDuplicateUpdate oracle feed token source response.timestamp then
        return (oracle, .duplicateUpdate)
      else
        let recorded := recordOracleHealth clock oracle feed token source response.timestamp
          maxAgeLedgers
        if isOracleDataStale clock.sequence response.timestamp maxAgeLedgers then
          return (recorded, .stale)
        else if response.isVerified then return (recorded, .verified)
        else return (recorded, .unverified)

def maxOracleAge (control : Control) : Nat :=
  (control.config.map Config.maxOracleAgeLedgers).getD defaultMaxOracleAgeLedgers

/-- Diagnostic entry point; it returns without a change when no oracle resolves. -/
def checkOracleHealth (env : Env contract) (clock : Clock) (control : Control)
    (feed : OracleFeedType) (token payer : Address) : Result Control :=
  match resolveOracle control feed token with
  | none => .ok control
  | some source => do
    let response ← orFail (env.payerData source payer) .trap
    return { control with
      oracle := recordOracleHealth clock control.oracle feed token source response.timestamp
        (maxOracleAge control) }

def checkOracleVerification (env : Env contract) (clock : Clock) (control : Control)
    (feed : OracleFeedType) (token payer : Address) : Result Control := do
  let (oracle, _) ← evaluateIdentityVerification env clock control feed token payer
    (maxOracleAge control)
  return { control with oracle }

end InvoiceLiquidity
