import Iln.Invoice.ControlStores

/-! What the oracle registry keeps for one feed and one token, as a machine of its own. A channel
holds the last health snapshot, the breaker flag and the recovery record. `step_channel` says that
every action of the contract moves a channel by the event it carries for it, or leaves it alone. -/
namespace InvoiceLiquidity

open Outcome FixedWidth

variable {contract : Address} {oracle : OracleStore} {outcome : IdentityVerificationOutcome}
  {control : Control}

structure Channel where
  health : Option OracleHealthStatus
  tripped : Bool
  recovery : Option CircuitRecoveryState
  deriving DecidableEq, Repr

def OracleStore.channel (oracle : OracleStore) (feed : OracleFeedType) (token : Address) :
    Channel :=
  ⟨oracle.health feed token, oracle.circuitTripped feed token, oracle.circuitRecovery feed token⟩

structure Observation where
  source : Address
  dataTimestamp : Nat
  ledger : Nat
  isStale : Bool
  deriving DecidableEq, Repr

def CircuitRecoveryState.extend (state : CircuitRecoveryState) (ledger : Nat) :
    CircuitRecoveryState :=
  ⟨state.trippedOracle, addCapped u32Max state.consecutiveHealthy 1,
    if state.consecutiveHealthy = 0 then ledger else state.firstHealthyLedger⟩

abbrev CircuitRecoveryState.Complete (state : CircuitRecoveryState) (ledger : Nat) : Prop :=
  circuitRecoveryHealthyObservations ≤ state.consecutiveHealthy ∧
    circuitRecoveryMinLedgers ≤ ledger - state.firstHealthyLedger

namespace Channel

def snapshot (channel : Channel) (seen : Observation) : OracleHealthStatus where
  oracle := seen.source
  lastCheckedLedger := seen.ledger
  lastDataTimestamp := seen.dataTimestamp
  lastDataAgeLedgers := seen.ledger - seen.dataTimestamp
  isStale := seen.isStale
  consecutiveStaleCount := staleStreak channel.health seen.source seen.isStale
  consecutiveDuplicateCount := duplicateStreak channel.health seen.source seen.dataTimestamp

/-- The response is newer than the snapshot, if that is one of the same oracle. -/
abbrev Advances (channel : Channel) (seen : Observation) : Prop :=
  ∀ previous ∈ channel.health, previous.oracle = seen.source → previous.lastDataTimestamp <
    seen.dataTimestamp

def observe (channel : Channel) (seen : Observation) : Channel :=
  let health := some (channel.snapshot seen)
  match channel.tripped, channel.recovery with
  | false, recovery =>
    if seen.isStale = true ∧
        maxConsecutiveStaleQueries ≤ staleStreak channel.health seen.source seen.isStale then
      ⟨health, true, some ⟨seen.source, 0, 0⟩⟩
    else ⟨health, false, recovery⟩
  | true, none => ⟨health, true, none⟩
  | true, some state =>
    if state.trippedOracle ≠ seen.source then ⟨health, true, some state⟩
    else if seen.isStale = false ∧ channel.Advances seen then
      if (state.extend seen.ledger).Complete seen.ledger then ⟨health, false, none⟩
      else ⟨health, true, some (state.extend seen.ledger)⟩
    else ⟨health, true, some ⟨state.trippedOracle, 0, 0⟩⟩

def reset (channel : Channel) : Channel := { channel with tripped := false, recovery := none }

end Channel

theorem observe_health (channel : Channel) (seen : Observation) :
    (channel.observe seen).health = some (channel.snapshot seen) := by
  unfold Channel.observe
  dsimp only
  repeat' split
  all_goals rfl

inductive ChannelEvent where
  | observed (seen : Observation)
  | reset
  deriving DecidableEq, Repr

def Channel.after (channel : Channel) : Option ChannelEvent → Channel
  | none => channel
  | some (.observed seen) => channel.observe seen
  | some .reset => channel.reset

section Recording

variable {clock : Clock} {feed : OracleFeedType} {token source : Address} {stamp age : Nat}

@[simp] theorem updateFeed_same {β : Type} (table : OracleFeedType → Address → β)
    (feed : OracleFeedType) (token : Address) (value : β) :
    updateFeed table feed token value feed token = value := by
  simp [updateFeed]

theorem updateFeed_other {β : Type} (table : OracleFeedType → Address → β)
    {feed other : OracleFeedType} {token foreign : Address} (value : β)
    (different : ¬ (feed = other ∧ token = foreign)) :
    updateFeed table feed token value other foreign = table other foreign := by
  by_cases same : other = feed
  · subst same
    have apart : foreign ≠ token := fun equal => different ⟨rfl, equal.symm⟩
    simp [updateFeed, apart]
  · simp [updateFeed, same]

def observationAt (clock : Clock) (source : Address) (stamp age : Nat) : Observation :=
  ⟨source, stamp, clock.sequence, isOracleDataStale clock.sequence stamp age⟩

theorem maybeRecoverOracleCircuit_own {previous : Option OracleHealthStatus}
    {state : CircuitRecoveryState} {stale : Bool}
    (tripped : oracle.circuitTripped feed token = true)
    (recorded : oracle.circuitRecovery feed token = some state)
    (own : state.trippedOracle = source) :
    maybeRecoverOracleCircuit clock oracle feed token source stale stamp previous =
      if stale = false ∧ ∀ prev ∈ previous, prev.oracle = source → prev.lastDataTimestamp <
        stamp then if (state.extend clock.sequence).Complete clock.sequence then
          { oracle with
            circuitRecovery := updateFeed oracle.circuitRecovery feed token none
            circuitTripped := updateFeed oracle.circuitTripped feed token false }
        else { oracle with
          circuitRecovery := updateFeed oracle.circuitRecovery feed token
            (some (state.extend clock.sequence)) }
      else { oracle with
        circuitRecovery := updateFeed oracle.circuitRecovery feed token
          (some ⟨state.trippedOracle, 0, 0⟩) } := by
  unfold maybeRecoverOracleCircuit
  simp only [tripped, recorded, own, Bool.true_eq_false, if_false, ne_eq, not_true_eq_false]
  cases stale with
  | true => simp
  | false =>
    cases previous with
    | none => simp [CircuitRecoveryState.extend, own]
    | some previous =>
      by_cases same : previous.oracle = source
      · by_cases newer : previous.lastDataTimestamp < stamp
        · simp [same, newer, CircuitRecoveryState.extend, own]
        · simp [same, newer]
      · simp [same, CircuitRecoveryState.extend, own]

theorem recordOracleHealth_channel :
    (recordOracleHealth clock oracle feed token source stamp age).channel feed token =
      (oracle.channel feed token).observe (observationAt clock source stamp age) := by
  unfold recordOracleHealth observationAt
  generalize isOracleDataStale clock.sequence stamp age = stale
  cases tripped : oracle.circuitTripped feed token with
  | false =>
    by_cases trips : stale = true ∧ maxConsecutiveStaleQueries ≤
      staleStreak (oracle.health feed token) source stale
    · obtain ⟨rfl, long⟩ := trips
      simp [maybeRecoverOracleCircuit, Channel.observe, Channel.snapshot, OracleStore.channel,
        tripped, long]
    · simp [maybeRecoverOracleCircuit, Channel.observe, Channel.snapshot, OracleStore.channel,
        tripped, trips]
  | true =>
    cases recovery : oracle.circuitRecovery feed token with
    | none =>
      simp [maybeRecoverOracleCircuit, Channel.observe, Channel.snapshot, OracleStore.channel,
        tripped, recovery]
    | some state =>
      by_cases own : state.trippedOracle = source
      · simp only [tripped, Bool.true_eq_false, and_false, if_false]
        rw [maybeRecoverOracleCircuit_own (by exact tripped) (by exact recovery) own]
        simp only [Channel.observe, OracleStore.channel, tripped, recovery, own, ne_eq,
          not_true_eq_false, if_false, Channel.Advances]
        split
        · split
          · simp [Channel.snapshot]
          · simp [Channel.snapshot, tripped]
        · simp [Channel.snapshot, tripped]
      · simp [maybeRecoverOracleCircuit, Channel.observe, Channel.snapshot, OracleStore.channel,
          tripped, recovery, own]

structure OnChannel (feed : OracleFeedType) (token : Address) (before after : OracleStore) :
    Prop where
  rest : after = { before with
    health := after.health, circuitTripped := after.circuitTripped, circuitRecovery :=
      after.circuitRecovery }
  elsewhere : ∀ other foreign, ¬ (feed = other ∧ token = foreign) →
    after.channel other foreign = before.channel other foreign

theorem OnChannel.trans {first second third : OracleStore}
    (left : OnChannel feed token first second) (right : OnChannel feed token second third) :
    OnChannel feed token first third where
  rest := by
    rw [right.rest, left.rest]
  elsewhere := fun other foreign different =>
    (right.elsewhere other foreign different).trans (left.elsewhere other foreign different)

theorem OnChannel.refl (oracle : OracleStore) : OnChannel feed token oracle oracle :=
    ⟨rfl, fun _ _ _ => rfl⟩

theorem onChannel_health (status : Option OracleHealthStatus) :
    OnChannel feed token oracle
      { oracle with health := updateFeed oracle.health feed token status } := by
  refine ⟨rfl, fun other foreign different => ?_⟩
  simp only [OracleStore.channel, updateFeed_other _ _ different]

theorem onChannel_recovery (state : Option CircuitRecoveryState) :
    OnChannel feed token oracle
      { oracle with circuitRecovery := updateFeed oracle.circuitRecovery feed token state } := by
  refine ⟨rfl, fun other foreign different => ?_⟩
  simp only [OracleStore.channel, updateFeed_other _ _ different]

theorem onChannel_breaker (tripped : Bool) (state : Option CircuitRecoveryState) :
    OnChannel feed token oracle { oracle with
      circuitTripped := updateFeed oracle.circuitTripped feed token tripped
      circuitRecovery := updateFeed oracle.circuitRecovery feed token state } := by
  refine ⟨rfl, fun other foreign different => ?_⟩
  simp only [OracleStore.channel, updateFeed_other _ _ different]

theorem maybeRecoverOracleCircuit_onChannel (stale : Bool) (previous : Option OracleHealthStatus) :
    OnChannel feed token oracle
      (maybeRecoverOracleCircuit clock oracle feed token source stale stamp previous) := by
  cases tripped : oracle.circuitTripped feed token with
  | false => simpa [maybeRecoverOracleCircuit, tripped] using OnChannel.refl oracle
  | true =>
    cases recorded : oracle.circuitRecovery feed token with
    | none => simpa [maybeRecoverOracleCircuit, tripped, recorded] using OnChannel.refl oracle
    | some state =>
      by_cases own : state.trippedOracle = source
      · rw [maybeRecoverOracleCircuit_own tripped recorded own]
        split
        · split
          · exact onChannel_breaker false none
          · exact onChannel_recovery _
        · exact onChannel_recovery _
      · simpa [maybeRecoverOracleCircuit, tripped, recorded, own] using OnChannel.refl oracle

theorem recordOracleHealth_onChannel :
    OnChannel feed token oracle (recordOracleHealth clock oracle feed token source stamp age) := by
  unfold recordOracleHealth
  refine .trans ?_ (maybeRecoverOracleCircuit_onChannel _ _)
  split
  · exact (onChannel_health _).trans (onChannel_breaker true _)
  · exact onChannel_health _

end Recording

section Gate

variable {env : Env contract} {clock : Clock} {feed : OracleFeedType} {token payer : Address}

/-- The response that the verification gate records: that of the resolved oracle, unless a quorum
decides in its place or the response is refused as old or repeated. -/
def gateObservation (env : Env contract) (clock : Clock) (control : Control) (feed : OracleFeedType)
    (token payer : Address) : Option Observation :=
  match resolveOracleForVerification control feed token with
  | .available source =>
    if control.oracle.identityOracles feed = [] then
      (env.payerData source payer).bind fun response =>
        if isOracleDataTimestampRegression control.oracle feed token source response.timestamp =
          true ∨
          isOracleDataDuplicateUpdate control.oracle feed token source response.timestamp =
            true then none
        else some (observationAt clock source response.timestamp (maxOracleAge control))
    else none
  | _ => none

/-- What the gate does to the registry: it records its observation, if it has one. -/
theorem evaluateIdentityVerification_observes
    (ran : evaluateIdentityVerification env clock control feed token payer (maxOracleAge control) =
      .ok (oracle, outcome)) :
    gateObservation env clock control feed token payer = none ∧ oracle = control.oracle ∨
      ∃ source stamp, gateObservation env clock control feed token payer =
          some (observationAt clock source stamp (maxOracleAge control)) ∧
        oracle = recordOracleHealth clock control.oracle feed token source stamp
          (maxOracleAge control) := by
  unfold evaluateIdentityVerification checkIdentityQuorum at ran
  unfold gateObservation
  by_cases single : control.oracle.identityOracles feed = []
  · simp only [single, if_true] at ran ⊢
    cases resolved : resolveOracleForVerification control feed token with
    | unconfigured | circuitOpen =>
      rw [resolved] at ran
      cases ran
      exact .inl ⟨rfl, rfl⟩
    | available source =>
      simp only [resolved, ok_iff] at ran
      obtain ⟨response, answered, ran⟩ := ran
      simp only [answered, Option.bind_some]
      split at ran
      · rename_i regression
        cases ran
        exact .inl ⟨if_pos (.inl regression), rfl⟩
      split at ran
      · rename_i duplicate
        cases ran
        exact .inl ⟨if_pos (.inr duplicate), rfl⟩
      · rename_i advancing unrepeated
        refine .inr ⟨source, response.timestamp, if_neg (not_or.mpr ⟨advancing, unrepeated⟩), ?_⟩
        split at ran
        · cases ran
          rfl
        split at ran
        · cases ran
          rfl
        · cases ran
          rfl
  · left
    simp only [single, if_false] at ran ⊢
    refine ⟨by split <;> rfl, ?_⟩
    split at ran
    · cases ran
      rfl
    · cases ran
      rfl
    · rename_i undecided
      split at undecided <;> cases undecided

structure GateSees (env : Env contract) (clock : Clock) (control : Control) (feed : OracleFeedType)
    (token payer : Address) (seen : Observation) : Prop where
  single : control.oracle.identityOracles feed = []
  resolved : resolveOracleForVerification control feed token = .available seen.source
  answered : ∃ response, env.payerData seen.source payer = some response ∧
    seen = observationAt clock seen.source response.timestamp (maxOracleAge control)
  ordered : ∀ previous ∈ control.oracle.health feed token, previous.oracle = seen.source →
    previous.lastDataTimestamp ≤ seen.dataTimestamp

theorem gateObservation_sees {seen : Observation}
    (observed : gateObservation env clock control feed token payer = some seen) :
    GateSees env clock control feed token payer seen := by
  unfold gateObservation at observed
  split at observed
  · rename_i source resolved
    split at observed
    · rename_i single
      obtain ⟨response, answered, observed⟩ := Option.bind_eq_some_iff.mp observed
      split at observed
      · cases observed
      · rename_i accepted
        cases observed
        refine ⟨single, resolved, ⟨response, answered, rfl⟩, fun previous stored same => ?_⟩
        have ordered := (not_or.mp accepted).1
        rw [Option.mem_def] at stored
        simp only [isOracleDataTimestampRegression, stored, Option.any_some,
          Bool.and_eq_true, beq_iff_eq, decide_eq_true_eq, not_and, not_lt] at ordered
        exact ordered same
    · cases observed
  · cases observed

end Gate

section Steps

def callEvent (env : Env contract) (world : World) (feed : OracleFeedType) (token : Address) :
    Call → Option ChannelEvent
  | .checkOracleHealth on about payer =>
    if on = feed ∧ about = token then
      (resolveOracle world.control feed token).bind fun source =>
        (env.payerData source payer).map fun response =>
          .observed (observationAt world.clock source response.timestamp
            (maxOracleAge world.control))
    else none
  | .checkOracleVerification on about payer =>
    if on = feed ∧ about = token then
      (gateObservation env world.clock world.control feed token payer).map .observed
    else none
  | .fundInvoice _ id _ requireOracleVerification =>
    if requireOracleVerification = true ∧ .identity = feed then
      ((world.book.tryLoadInvoice id).filter (·.token = token)).bind fun invoice =>
        (gateObservation env world.clock world.control feed token invoice.payer).map .observed
    else none
  | .resetOracleCircuit on about => if on = feed ∧ about = token then some .reset else none
  | _ => none

def channelEvent (feed : OracleFeedType) (token : Address) (world : World) :
    Action contract → Option ChannelEvent
  | .invoke env call =>
    if succeeds world (.invoke env call) = true then callEvent env world feed token call else none
  | _ => none

variable {env : Env contract} {world next : World} {call : Call} {feed : OracleFeedType}
  {token : Address}

variable {clock : Clock} {event : OracleFeedType → Address → Option ChannelEvent}

theorem evaluateIdentityVerification_channel {on : OracleFeedType} {about payer : Address}
    (ran : evaluateIdentityVerification env clock control on about payer
      (maxOracleAge control) = .ok (oracle, outcome)) :
    OnChannel on about control.oracle oracle ∧ oracle.channel on about =
      (control.oracle.channel on about).after
        ((gateObservation env clock control on about payer).map .observed) := by
  rcases evaluateIdentityVerification_observes ran with ⟨unseen, rfl⟩ | ⟨_, _, seen, rfl⟩
  · rw [unseen]
    exact ⟨.refl _, rfl⟩
  · rw [seen]
    exact ⟨recordOracleHealth_onChannel, recordOracleHealth_channel⟩

/-- Calls that change what is registered and how it is read. -/
def Call.setsRegistry : Call → Bool
  | .registerOracle _ _ | .removeOracle _ | .registerTokenOracle _ _ _ | .removeTokenOracle _ _
  | .addPriceSource _ _ | .removePriceSource _ _ | .setMaxPriceDeviationBps _
  | .addIdentityOracle _ _ | .removeIdentityOracle _ _ | .setIdentityQuorum _ | .setTwapEnabled _ _
  | .setTwapWindow _ | .recordTwapSample _ _ _ => true
  | _ => false

/-- No channel moves; a new deviation is at most the whole, and one call writes the samples. -/
inductive RegistrySet (clock : Clock) (before : OracleStore) : Call → OracleStore → Prop where
  | kept {call : Call} {after : OracleStore}
      (channel : ∀ feed token, after.channel feed token = before.channel feed token)
      (deviation : ∀ bps ∈ after.maxPriceDeviationBps, bps ≤ 10000 ∨
        before.maxPriceDeviationBps = some bps)
      (asked : after.minTwapObservations = before.minTwapObservations)
      (samples : after.twapSamples = before.twapSamples)
      (other : ∀ on about price, call ≠ .recordTwapSample on about price) :
        RegistrySet clock before call after
  | sampled {on : OracleFeedType} {about : Address} {price : Int} {samples : List TwapSample}
      (positive : 0 < price)
      (extended : samples = before.twapSamples on about ++ [⟨clock.timestamp, price⟩]) :
      RegistrySet clock before (.recordTwapSample on about price) { before with
        twapSamples := updateFeed before.twapSamples on about
          (samples.drop (samples.length - maxTwapSamples)) }

theorem invokeControl_sets {after : Control} (setting : call.setsRegistry = true)
    (ran : invokeControl env world call = some (.ok after)) :
    RegistrySet world.clock world.control.oracle call after.oracle := by
  cases call with
  | removeOracle | removeTokenOracle | removePriceSource | removeIdentityOracle | setTwapEnabled =>
    simp only [invokeControl, Option.some.injEq, removeOracle, removeTokenOracle, removePriceSource,
      removeIdentityOracle, setTwapEnabled, ok_iff] at ran
    obtain ⟨_, passed, rfl⟩ := ran
    rw [← beginOracleCall_oracle passed]
    exact .kept (fun _ _ => rfl) (fun _ stored => .inr stored) rfl rfl (by rintro _ _ _ ⟨⟩)
  | registerOracle | registerTokenOracle | addPriceSource | addIdentityOracle | setIdentityQuorum
  | setTwapWindow =>
    simp only [invokeControl, Option.some.injEq, registerOracle, registerTokenOracle,
      addPriceSource, addIdentityOracle, setIdentityQuorum, setTwapWindow, ok_iff] at ran
    obtain ⟨_, passed, _, _, rfl⟩ := ran
    rw [← beginOracleCall_oracle passed]
    exact .kept (fun _ _ => rfl) (fun _ stored => .inr stored) rfl rfl (by rintro _ _ _ ⟨⟩)
  | setMaxPriceDeviationBps =>
    simp only [invokeControl, Option.some.injEq, setMaxPriceDeviationBps, ok_iff] at ran
    obtain ⟨_, passed, _, ⟨_, most⟩, rfl⟩ := ran
    rw [← beginOracleCall_oracle passed]
    refine .kept (fun _ _ => rfl) ?_ rfl rfl (by rintro _ _ _ ⟨⟩)
    rintro _ ⟨⟩
    exact .inl most
  | recordTwapSample =>
    simp only [invokeControl, Option.some.injEq, recordTwapSample, ok_iff] at ran
    obtain ⟨_, _, _, positive, rfl⟩ := ran
    exact .sampled positive rfl
  | _ => cases setting

theorem RegistrySet.channel {before after : OracleStore}
    (set : RegistrySet clock before call after) :
    after.channel feed token = before.channel feed token := by
  cases set with
  | kept channel => exact channel feed token
  | sampled => rfl

theorem RegistrySet.deviation {before after : OracleStore}
    (set : RegistrySet clock before call after) (bps : Nat)
    (stored : bps ∈ after.maxPriceDeviationBps) : bps ≤ 10000 ∨ before.maxPriceDeviationBps =
      some bps := by
  cases set with
  | kept _ deviation => exact deviation bps stored
  | sampled => exact .inr stored

def Carried (before after : OracleStore) (event : OracleFeedType → Address → Option ChannelEvent) :
    Prop :=
  ∃ on about, OnChannel on about before after ∧
    after.channel on about = (before.channel on about).after (event on about) ∧
    ∀ feed token, ¬ (on = feed ∧ about = token) → event feed token = none

theorem Carried.refl
    (unsent : ∀ feed token, event feed token = none) : Carried oracle oracle event :=
  ⟨.identity, ⟨0⟩, .refl oracle, by rw [unsent]; rfl, fun feed token _ => unsent feed token⟩

theorem Carried.channel {after : OracleStore} (carried : Carried oracle after event) :
    after.channel feed token = (oracle.channel feed token).after (event feed token) := by
  obtain ⟨on, about, written, moved, unsent⟩ := carried
  by_cases here : on = feed ∧ about = token
  · obtain ⟨rfl, rfl⟩ := here
    exact moved
  · rw [written.elsewhere feed token here, unsent feed token here]
    rfl

theorem callEvent_of_other (other : call.onOracle = false) :
    callEvent env world feed token call = none := by
  cases call with
  | checkOracleHealth | checkOracleVerification | resetOracleCircuit | fundInvoice => cases other
  | _ => rfl

theorem invokeControl_carried {after : Control} (other : call.setsRegistry = false)
    (ran : invokeControl env world call = some (.ok after)) :
    Carried world.control.oracle after.oracle fun feed token =>
      callEvent env world feed token call := by
  cases call with
  | checkOracleHealth on about =>
    refine ⟨on, about, ?_⟩
    simp only [invokeControl, Option.some.injEq, checkOracleHealth] at ran
    simp only [callEvent, and_self, if_true]
    split at ran
    · rename_i unresolved
      cases ran
      rw [unresolved]
      exact ⟨.refl _, rfl, fun _ _ apart => if_neg apart⟩
    · rename_i source resolved
      simp only [ok_iff] at ran
      obtain ⟨_, answered, rfl⟩ := ran
      rw [resolved, Option.bind_some, answered]
      exact ⟨recordOracleHealth_onChannel, recordOracleHealth_channel,
        fun _ _ apart => if_neg apart⟩
  | checkOracleVerification on about =>
    simp only [invokeControl, Option.some.injEq, checkOracleVerification, ok_iff] at ran
    obtain ⟨⟨_, _⟩, evaluated, rfl⟩ := ran
    obtain ⟨written, moved⟩ := evaluateIdentityVerification_channel evaluated
    refine ⟨on, about, written, ?_, fun _ _ apart => if_neg apart⟩
    simp only [callEvent, and_self, if_true]
    exact moved
  | resetOracleCircuit on about =>
    simp only [invokeControl, Option.some.injEq, resetOracleCircuit, ok_iff] at ran
    obtain ⟨_, passed, rfl⟩ := ran
    rw [← beginOracleCall_oracle passed]
    refine ⟨on, about, onChannel_breaker false none, ?_, fun _ _ apart => if_neg apart⟩
    simp only [callEvent, and_self, if_true, Channel.after, Channel.reset, OracleStore.channel,
      updateFeed_same]
  | removeOracle | removeTokenOracle | removePriceSource | removeIdentityOracle | setTwapEnabled
  | registerOracle | registerTokenOracle | addPriceSource | setMaxPriceDeviationBps
  | addIdentityOracle | setIdentityQuorum | setTwapWindow | recordTwapSample => cases other
  | fundInvoice => cases ran
  | _ =>
    rw [(invokeControl_write ran).confined.oracle rfl]
    exact .refl fun _ _ => rfl

theorem fundInvoice_carried {funder : Address} {id : Nat} {amount : Int} {verify : Bool}
    (ran : fundInvoice env world funder id amount verify = .ok next) :
    Carried world.control.oracle next.control.oracle fun feed token =>
      callEvent env world feed token (.fundInvoice funder id amount verify) := by
  simp only [fundInvoice, checkFunding, ok_iff, lockReentrancy_ok] at ran
  obtain ⟨_, ⟨_, rfl⟩, _, ⟨_, _, _, _, invoice, loaded, _, _, _, _, _, _, oracle, gated, _, _, _, _,
    _, _, _, _, _, _, _, _, _, _, rfl⟩, _, _, _, _, _, _, _, _, rfl⟩ := ran
  simp only [callEvent, loaded, Option.filter_some, decide_eq_true_eq]
  cases verify with
  | false =>
    have same : world.control.oracle = oracle := Except.ok.inj gated
    rw [← same]
    exact .refl fun _ _ => rfl
  | true =>
    simp only [requireVerifiedPayer, if_true, ok_iff] at gated
    obtain ⟨⟨oracle, _⟩, evaluated, _, _, rfl⟩ := gated
    -- the lock that `fund_invoice` has set is not read by the registry
    obtain ⟨written, moved⟩ := evaluateIdentityVerification_channel evaluated
    refine ⟨.identity, invoice.token, written, ?_, fun feed token apart => ?_⟩
    · simp only [and_self, if_true, Option.bind_some]
      exact moved
    · by_cases here : OracleFeedType.identity = feed
      · have foreign : invoice.token ≠ token := fun same => apart ⟨here, same⟩
        simp only [foreign, if_false, Option.bind_none, ite_self]
      · simp only [here, and_false, if_false]

/-- Of the calls that write the oracle store, only a funding is not routed through
`invokeControl`. -/
theorem funds_of_unrouted (routed : invokeControl env world call = none)
    (registry : call.onOracle = true) :
    ∃ funder id amount verify, call = .fundInvoice funder id amount verify := by
  cases call with
  | fundInvoice funder id amount verify => exact ⟨funder, id, amount, verify, rfl⟩
  | checkOracleHealth | checkOracleVerification | resetOracleCircuit | registerOracle
  | registerTokenOracle | addPriceSource | setMaxPriceDeviationBps | addIdentityOracle
  | setIdentityQuorum | setTwapWindow | removeOracle | removeTokenOracle | removePriceSource
  | removeIdentityOracle | setTwapEnabled | recordTwapSample => cases routed
  | _ => cases registry

theorem invoke_carried (other : call.setsRegistry = false)
    (ran : invoke env world call = .ok next) :
    Carried world.control.oracle next.control.oracle fun feed token =>
      callEvent env world feed token call := by
  rcases invoke_routed ran with ⟨_, routed, rfl⟩ | ⟨routed, ran⟩
  · exact invokeControl_carried other routed
  · by_cases registry : call.onOracle = true
    · obtain ⟨_, _, _, _, rfl⟩ := funds_of_unrouted routed registry
      exact fundInvoice_carried ran
    · have elsewhere := Bool.not_eq_true _ ▸ registry
      rw [(invokeWorld_confined ran).oracle elsewhere]
      exact .refl fun _ _ => callEvent_of_other elsewhere

theorem invoke_setting (sets : call.setsRegistry = true) (ran : invoke env world call = .ok next) :
    invokeControl env world call = some (.ok next.control) := by
  rcases invoke_routed ran with ⟨_, routed, rfl⟩ | ⟨routed, _⟩
  · exact routed
  · cases call with
    | removeOracle | removeTokenOracle | removePriceSource | removeIdentityOracle | setTwapEnabled
    | registerOracle | registerTokenOracle | addPriceSource | setMaxPriceDeviationBps
    | addIdentityOracle | setIdentityQuorum | setTwapWindow | recordTwapSample => cases routed
    | _ => cases sets

theorem callEvent_of_setting (sets : call.setsRegistry = true) :
    callEvent env world feed token call = none := by
  cases call with
  | checkOracleHealth | checkOracleVerification | resetOracleCircuit | fundInvoice => cases sets
  | _ => rfl

theorem step_channel (feed : OracleFeedType) (token : Address) (world : World)
    (action : Action contract) :
    (step world action).control.oracle.channel feed token =
      (world.control.oracle.channel feed token).after (channelEvent feed token world action) := by
  cases action with
  | credit | advance => rfl
  | invoke env call =>
    cases finished : succeeds world (.invoke env call) with
    | true =>
      rw [channelEvent, if_pos finished]
      have ran := invoke_of_succeeds finished
      cases setting : call.setsRegistry with
      | true =>
        rw [(invokeControl_sets setting (invoke_setting setting ran)).channel,
          callEvent_of_setting setting]
        rfl
      | false => exact (invoke_carried setting ran).channel
    | false =>
      rw [step_of_failed finished, channelEvent, finished]
      rfl

def OnSomeChannel (before after : OracleStore) : Prop := ∃ feed token,
    OnChannel feed token before after

theorem OnSomeChannel.refl (oracle : OracleStore) : OnSomeChannel oracle oracle :=
    ⟨.identity, ⟨0⟩, .refl oracle⟩

/-- What an action does to the oracle store: it sets the registry, or it writes one channel at
most. -/
inductive RegistryAction (world : World) : Action contract → Prop
  | quiet {action : Action contract}
      (unset : ∀ env call, action = .invoke env call → succeeds world action = true →
        call.setsRegistry = false)
      (written : OnSomeChannel world.control.oracle (step world action).control.oracle) :
        RegistryAction world action
  | sets {env : Env contract} {call : Call} (setting : call.setsRegistry = true)
      (finished : succeeds world (.invoke env call) = true)
      (returned : invokeControl env world call =
        some (.ok (step world (.invoke env call)).control)) :
      RegistryAction world (.invoke env call)

theorem step_oracle (world : World) (action : Action contract) : RegistryAction world action := by
  cases action with
  | credit | advance => exact .quiet ((by rintro _ _ ⟨⟩)) (.refl _)
  | invoke env call =>
    cases finished : succeeds world (.invoke env call) with
    | false =>
      refine .quiet (fun _ _ _ done => absurd done (by rw [finished]; decide)) ?_
      rw [step_of_failed finished]
      exact .refl _
    | true =>
      have ran := invoke_of_succeeds finished
      cases setting : call.setsRegistry with
      | true => exact .sets setting finished (invoke_setting setting ran)
      | false =>
        obtain ⟨on, about, written, _⟩ := invoke_carried setting ran
        refine .quiet ?_ ⟨on, about, written⟩
        intro _ _ same _
        cases same
        exact setting

end Steps

end InvoiceLiquidity
