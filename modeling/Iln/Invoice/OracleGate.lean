import Iln.Invoice.OracleBreaker

/-! The verification gate of `fund_invoice` next to the diagnostics that anyone may call. Both write
the snapshot that the gate compares with: a diagnostic counts as one more repetition, and it records
what the gate would refuse as older. -/
namespace InvoiceLiquidity

open Outcome FixedWidth Transition

variable {contract : Address} {action : Action contract} {before after : Control}

section Replay

variable {feed : OracleFeedType} {token source : Address} {world : World}

def suppliedStamp (feed : OracleFeedType) (token source : Address) (world : World) :
    Action contract → Option Nat
  | .invoke env (.fundInvoice funder id amount verify) =>
    (((channelEvent feed token world (.invoke env (.fundInvoice funder id amount verify))).bind
      ChannelEvent.observation).filter (·.source = source)).map Observation.dataTimestamp
  | _ => none

def noteSupply (feed : OracleFeedType) (token source : Address) (world : World)
    (action : Action contract) (stamps : List Nat) : List Nat :=
  stamps ++ (suppliedStamp feed token source world action).toList

/-- Only `check_oracle_health` records a response without comparing it with the snapshot first. -/
def Action.recordsUnchecked : Action contract → Bool
  | .invoke _ (.checkOracleHealth _ _ _) => true
  | _ => false

/-- A snapshot of the oracle is not replaced by one of another oracle, nor by a health check that
finds older data. -/
def KeepsBaseline (feed : OracleFeedType) (token source : Address) (world : World)
    (action : Action contract) : Prop :=
  ∀ seen ∈ (channelEvent feed token world action).bind ChannelEvent.observation,
    ∀ health ∈ world.control.oracle.health feed token, health.oracle = source →
      seen.source = source ∧ (action.recordsUnchecked = true →
        health.lastDataTimestamp ≤ seen.dataTimestamp)

instance (feed : OracleFeedType) (token source : Address) (world : World)
    (action : Action contract) : Decidable (KeepsBaseline feed token source world action) :=
  inferInstanceAs (Decidable (∀ seen ∈ (channelEvent feed token world action).bind
    ChannelEvent.observation, ∀ health ∈ world.control.oracle.health feed token, _ → _ ∧ (_ → _)))

structure Supplied (source : Address) (health : Option OracleHealthStatus) (stamps : List Nat) :
    Prop where
  sorted : stamps.IsChain (· ≤ ·)
  baseline : ∀ last ∈ stamps.getLast?, ∃ status, health = some status ∧ status.oracle = source ∧
    last ≤ status.lastDataTimestamp

/-- What the gate records is not older than the snapshot, if that is one of the same oracle. -/
theorem recorded_ordered {seen : Observation} (checked : action.recordsUnchecked = false)
    (observed : channelEvent feed token world action = some (.observed seen)) :
    ∀ previous ∈ world.control.oracle.health feed token, previous.oracle = seen.source →
      previous.lastDataTimestamp ≤ seen.dataTimestamp := by
  cases action with
  | credit | advance => cases observed
  | invoke env call =>
    rw [channelEvent] at observed
    split at observed
    · cases call with
      | checkOracleHealth => cases checked
      | checkOracleVerification =>
        rw [callEvent] at observed
        split at observed
        · obtain ⟨_, gate, same⟩ := Option.map_eq_some_iff.mp observed
          cases same
          exact (gateObservation_sees gate).ordered
        · cases observed
      | fundInvoice =>
        rw [callEvent] at observed
        split at observed
        · obtain ⟨_, _, mapped⟩ := Option.bind_eq_some_iff.mp observed
          obtain ⟨_, gate, same⟩ := Option.map_eq_some_iff.mp mapped
          cases same
          exact (gateObservation_sees gate).ordered
        · cases observed
      | resetOracleCircuit =>
        rw [callEvent] at observed
        split at observed <;> cases observed
      | _ => cases observed
    · cases observed

theorem suppliedStamp_spec {stamp : Nat}
    (supplied : suppliedStamp feed token source world action = some stamp) :
    ∃ seen, channelEvent feed token world action = some (.observed seen) ∧ seen.source = source ∧
      seen.dataTimestamp = stamp ∧ ∀ previous ∈ world.control.oracle.health feed token,
        previous.oracle = source → previous.lastDataTimestamp ≤ stamp := by
  unfold suppliedStamp at supplied
  split at supplied
  · obtain ⟨seen, kept, rfl⟩ := Option.map_eq_some_iff.mp supplied
    obtain ⟨found, own⟩ := Option.filter_eq_some_iff.mp kept
    obtain ⟨event, carried, observed⟩ := Option.bind_eq_some_iff.mp found
    cases event with
    | reset => cases observed
    | observed =>
      cases observed
      have named : seen.source = source := of_decide_eq_true own
      refine ⟨seen, carried, named, rfl, ?_⟩
      rw [← named]
      exact recorded_ordered rfl carried
  · cases supplied

theorem step_supplied (action : Action contract) {stamps : List Nat}
    (held : Supplied source (world.control.oracle.health feed token) stamps)
    (keeps : KeepsBaseline feed token source world action) :
    Supplied source ((step world action).control.oracle.health feed token)
      (noteSupply feed token source world action stamps) := by
  have moved : (step world action).control.oracle.health feed token = _ :=
    congrArg Channel.health (step_channel feed token world action)
  rw [moved]
  cases supplied : suppliedStamp feed token source world action with
  | some stamp =>
    obtain ⟨seen, event, named, rfl, ordered⟩ := suppliedStamp_spec supplied
    rw [event, Channel.after, observe_health, noteSupply, supplied, Option.toList_some]
    constructor
    case sorted =>
      refine List.isChain_append.mpr ⟨held.sorted, .singleton _, fun last final stamp here => ?_⟩
      obtain ⟨status, stored, own, newer⟩ := held.baseline last final
      obtain rfl : seen.dataTimestamp = stamp := by simpa using here
      exact newer.trans (ordered status stored own)
    case baseline =>
      intro last final
      obtain rfl : seen.dataTimestamp = last := by simpa using final
      exact ⟨_, rfl, named, le_rfl⟩
  | none =>
    have unchanged : noteSupply feed token source world action stamps =
      stamps := by simp [noteSupply, supplied]
    rw [unchanged]
    refine ⟨held.sorted, fun last final => ?_⟩
    obtain ⟨status, stored, own, newer⟩ := held.baseline last final
    cases carried : channelEvent feed token world action with
    | none => exact ⟨status, stored, own, newer⟩
    | some event =>
      cases event with
      | reset => exact ⟨status, stored, own, newer⟩
      | observed seen =>
        obtain ⟨same, unchecked⟩ := keeps seen (by rw [carried]; rfl) status stored own
        refine ⟨_, observe_health _ _, same, newer.trans ?_⟩
        cases recorded : action.recordsUnchecked with
        | true => exact unchecked recorded
        | false => exact recorded_ordered recorded carried status stored (own.trans same.symm)

/-- The timestamps that an oracle supplies to fundings of a token never go back as long as no health
check replaces a snapshot of that oracle by an older one, and nothing replaces it by one of another
oracle. -/
theorem supplied_nondecreasing (clock : Clock) (balance : Balances)
    (actions : List (Action contract)) (feed : OracleFeedType) (token source : Address)
    (keeps : Along step (KeepsBaseline feed token source) (genesis clock balance) actions) :
    (noted step (noteSupply feed token source) [] (genesis clock balance) actions).Pairwise
      (· ≤ ·) := by
  have supplied := noted_induct (fun stamps (world : World) =>
    Supplied source (world.control.oracle.health feed token) stamps)
    (fun _ _ action held kept => step_supplied action held kept)
    ⟨.nil, (by rintro _ ⟨⟩)⟩ keeps
  exact List.isChain_iff_pairwise.mp supplied.sorted

def gatedOpening : List (Action ⟨0⟩) :=
  openingCalls 1000000 300 ++ [signedBy [1] (.registerTokenOracle .identity ⟨10⟩ ⟨20⟩)]

def gatedFunding (stamp : Nat) : Action ⟨0⟩ :=
  .invoke (oracleHost [3] [(20, stamp)]) (.fundInvoice ⟨3⟩ 1 100000 true)

theorem supplied_nondecreasing_of_gatedOpening :
    (noted step (noteSupply .identity ⟨10⟩ ⟨20⟩) [] market
      (gatedOpening ++ [gatedFunding 4, healthCheck 5, gatedFunding 6])).Pairwise (· ≤ ·) :=
  supplied_nondecreasing ⟨1000, 10⟩ marketBalances _ .identity ⟨10⟩ ⟨20⟩ (by decide +kernel)

/-- A diagnostic records the older data, and the next funding accepts it. -/
theorem supplied_decreasing : noted step (noteSupply .identity ⟨10⟩ ⟨20⟩) [] market
      (gatedOpening ++ [gatedFunding 5, healthCheck 4, gatedFunding 4]) = [5, 4] := by
  decide +kernel

end Replay

section Diagnostics

/-- The oracles of the identity feed in order of priority. -/
def oracleChain (control : Control) (token : Address) : List Address :=
  [control.oracle.tokenOracle .identity token, control.oracle.registry .identity,
    control.config.bind Config.priceOracle].filterMap id

/-- Those that the gate may ask: with the breaker closed it never gets past the first. -/
def consulted (control : Control) (token : Address) : List Address :=
  if control.oracle.circuitTripped .identity token = true then oracleChain control token
  else (resolveOracle control .identity token).toList

/-- The oracle that a token resolves to, those that may be asked, and the fixed response of each. -/
structure Panel where
  source : Address
  asked : List Address
  response : Address → OracleVerificationResponse

abbrev Panel.stamp (panel : Panel) (oracle : Address) : Nat := (panel.response oracle).timestamp

abbrev Panel.Answers (panel : Panel) (env : Env contract) (payer : Address) : Prop :=
  ∀ oracle ∈ panel.asked, env.payerData oracle payer = some (panel.response oracle)

def Panel.repetitions (panel : Panel) (token : Address) (control : Control) (oracle : Address) :
    Nat :=
  duplicateStreak (control.oracle.health .identity token) oracle (panel.stamp oracle)

abbrev Panel.Exhausted (panel : Panel) (token : Address) (control : Control) (oracle : Address) :
    Prop :=
  maxConsecutiveDuplicateUpdates < panel.repetitions token control oracle

/-- No quorum is in use, and no response of an oracle that may be asked is older than its
snapshot. -/
structure SingleOracle (panel : Panel) (token : Address) (control : Control) : Prop where
  single : control.oracle.identityOracles .identity = []
  resolved : resolveOracle control .identity token = some panel.source
  covered : ∀ other ∈ consulted control token, other ∈ panel.asked
  ordered : ∀ health ∈ control.oracle.health .identity token, health.oracle ∈ panel.asked →
    health.lastDataTimestamp ≤ panel.stamp health.oracle

/-- What is left for the gate to decide when the responses are good: an open breaker takes any
oracle but the last one observed, and with the breaker closed the data must not have been repeated
too often. -/
def Serves (panel : Panel) (token : Address) (control : Control) : Prop :=
  if control.oracle.circuitTripped .identity token = true then
    ∃ health ∈ control.oracle.health .identity token, ∃ source ∈ oracleChain control token,
      source ≠ health.oracle
  else panel.repetitions token control panel.source ≤ maxConsecutiveDuplicateUpdates

instance (panel : Panel) (token : Address) (control : Control) :
    Decidable (Serves panel token control) := by
  unfold Serves
  infer_instance

/-- Waiting, and the diagnostics. Those about the token see the fixed responses, whoever the payer
is. -/
inductive Diagnostic (panel : Panel) (token : Address) : Action contract → Prop
  | pause (seconds ledgers : Nat) : Diagnostic panel token (.advance seconds ledgers)
  | health {env : Env contract} {feed : OracleFeedType} {about payer : Address}
      (answers : feed = .identity ∧ about = token → panel.Answers env payer) :
      Diagnostic panel token (.invoke env (.checkOracleHealth feed about payer))
  | verification {env : Env contract} {feed : OracleFeedType} {about payer : Address}
      (answers : feed = .identity ∧ about = token → panel.Answers env payer) :
      Diagnostic panel token (.invoke env (.checkOracleVerification feed about payer))

def probe (token : Address) (_ : World) : Action contract → Nat
  | .invoke _ (.checkOracleHealth feed about _)
  | .invoke _ (.checkOracleVerification feed about _) =>
    if feed = .identity ∧ about = token then 1 else 0
  | _ => 0

def Action.isPause : Action contract → Bool
  | .advance _ _ => true
  | _ => false

def gateAccepts (env : Env contract) (world : World) (invoice : Invoice) : Bool :=
  (requireVerifiedPayer env world.clock world.control invoice true).isOk

def AllFresh (panel : Panel) (world : World) : Prop :=
  ∀ oracle ∈ panel.asked, isOracleDataStale world.clock.sequence (panel.stamp oracle)
    (maxOracleAge world.control) = false

instance (panel : Panel) (world : World) : Decidable (AllFresh panel world) :=
  inferInstanceAs (Decidable (∀ oracle ∈ panel.asked, _))

variable {env : Env contract} {control : Control} {panel : Panel}
  {token source oracle payer : Address} {world : World}

theorem isOracleDataDuplicateUpdate_iff (panel : Panel) (token : Address) (control : Control)
    (oracle : Address) :
    isOracleDataDuplicateUpdate control.oracle .identity token oracle (panel.stamp oracle) = true ↔
      panel.Exhausted token control oracle := by
  unfold isOracleDataDuplicateUpdate Panel.Exhausted Panel.repetitions duplicateStreak
  cases control.oracle.health .identity token with
  | none => simp
  | some previous =>
    by_cases same : previous.oracle = oracle ∧ panel.stamp oracle = previous.lastDataTimestamp
    · obtain ⟨rfl, same⟩ := same
      simp only [Option.any_some, same, beq_self_eq_true, Bool.true_and, decide_eq_true_eq,
        and_self, if_true]
      simp only [addCapped, u32Max, maxConsecutiveDuplicateUpdates]
      omega
    · simp only [Option.any_some, Bool.and_eq_true, beq_iff_eq, decide_eq_true_eq, same,
        if_false, false_and]
      simp [maxConsecutiveDuplicateUpdates]

theorem resolveOracle_chain (control : Control) (token : Address) :
    resolveOracle control .identity token = (oracleChain control token).head? := by
  unfold resolveOracle oracleChain
  rw [if_pos rfl]
  cases control.oracle.tokenOracle .identity token with
  | some => rfl
  | none =>
    cases control.oracle.registry .identity with
    | some => rfl
    | none => cases control.config.bind Config.priceOracle <;> rfl

theorem resolveOracleForVerification_chain (control : Control) (token : Address) :
    resolveOracleForVerification control .identity token =
      match (oracleChain control token).find? fun address => !(control.oracle.circuitTripped
        .identity token && match control.oracle.health .identity token with
        | some health => address == health.oracle
        | none => true) with
      | some address => .available address
      | none => if oracleChain control token = [] then .unconfigured else .circuitOpen := rfl

theorem available_of_closed (closed : control.oracle.circuitTripped .identity token = false)
    (resolved : resolveOracle control .identity token = some source) :
    resolveOracleForVerification control .identity token = .available source := by
  rw [resolveOracle_chain] at resolved
  obtain ⟨_, chain⟩ := List.head?_eq_some_iff.mp resolved
  simp [resolveOracleForVerification_chain, closed, chain]

section Asked

variable (alone : SingleOracle panel token control)

include alone

theorem SingleOracle.consulted_source : panel.source ∈ consulted control token := by
  unfold consulted
  split
  · have first := alone.resolved
    rw [resolveOracle_chain] at first
    exact List.mem_of_head? first
  · simp [alone.resolved]

theorem SingleOracle.advancing (member : oracle ∈ panel.asked) :
    isOracleDataTimestampRegression control.oracle .identity token oracle (panel.stamp oracle) =
      false := by
  unfold isOracleDataTimestampRegression
  cases stored : control.oracle.health .identity token with
  | none => rfl
  | some previous =>
    by_cases same : previous.oracle = oracle
    · subst same
      simpa using alone.ordered previous stored member
    · simp [same]

variable (available : resolveOracleForVerification control .identity token = .available oracle)

include available

theorem SingleOracle.available_consulted : oracle ∈ consulted control token := by
  unfold consulted
  cases tripped : control.oracle.circuitTripped .identity token with
  | false =>
    rw [available_of_closed tripped alone.resolved] at available
    cases available
    simp [alone.resolved]
  | true =>
    rw [resolveOracleForVerification_chain] at available
    split at available
    · rename_i found
      cases available
      exact List.mem_of_find?_eq_some found
    · split at available <;> cases available

theorem SingleOracle.mem_asked : oracle ∈ panel.asked :=
  alone.covered oracle (alone.available_consulted available)

variable (answered : env.payerData oracle payer = some (panel.response oracle))

include answered

theorem SingleOracle.gateObservation (clock : Clock) :
    gateObservation env clock control .identity token payer =
      if panel.Exhausted token control oracle then none
      else some (observationAt clock oracle (panel.stamp oracle) (maxOracleAge control)) := by
  unfold InvoiceLiquidity.gateObservation
  simp only [available, alone.single, if_true, answered, Option.bind_some,
    alone.advancing (alone.mem_asked available), Bool.false_eq_true, false_or]
  exact if_congr (isOracleDataDuplicateUpdate_iff _ _ _ _) rfl rfl

theorem SingleOracle.evaluate {clock : Clock}
    (fresh : isOracleDataStale clock.sequence (panel.stamp oracle) (maxOracleAge control) = false) :
    evaluateIdentityVerification env clock control .identity token payer (maxOracleAge control) =
      .ok (if panel.Exhausted token control oracle then (control.oracle, .duplicateUpdate)
        else (recordOracleHealth clock control.oracle .identity token oracle (panel.stamp oracle)
            (maxOracleAge control),
          if (panel.response oracle).isVerified = true then .verified else .unverified)) := by
  have repeated := isOracleDataDuplicateUpdate_iff panel token control oracle
  unfold evaluateIdentityVerification checkIdentityQuorum
  simp only [alone.single, if_true, available, ok_iff]
  refine ⟨panel.response oracle, answered, ?_⟩
  rw [alone.advancing (alone.mem_asked available), fresh]
  simp only [Bool.false_eq_true, if_false]
  by_cases often : panel.Exhausted token control oracle
  · rw [if_pos often, if_pos (repeated.mpr often)]
    rfl
  · rw [if_neg often, if_neg (mt repeated.mp often)]
    split <;> rfl

end Asked

section Verdict

variable {invoice : Invoice}

theorem SingleOracle.accepts_of_available (alone : SingleOracle panel invoice.token world.control)
    (available : resolveOracleForVerification world.control .identity invoice.token =
      .available oracle)
    (answered : env.payerData oracle invoice.payer = some (panel.response oracle))
    (verified : (panel.response oracle).isVerified = true) (fresh : AllFresh panel world) :
    gateAccepts env world invoice = true ↔
      panel.repetitions invoice.token world.control oracle ≤ maxConsecutiveDuplicateUpdates := by
  have verdict := alone.evaluate available answered (fresh oracle (alone.mem_asked available))
  unfold gateAccepts requireVerifiedPayer
  rw [if_pos rfl, verdict]
  by_cases often : panel.Exhausted invoice.token world.control oracle
  · rw [if_pos often]
    simp only [not_le.mpr often, iff_false]
    exact Bool.false_ne_true
  · rw [if_neg often, if_pos verified]
    simp only [not_lt.mp often, iff_true]
    rfl

theorem refuses_of_open (single : world.control.oracle.identityOracles .identity = [])
    (shut : resolveOracleForVerification world.control .identity invoice.token = .circuitOpen) :
    gateAccepts env world invoice = false := by
  unfold gateAccepts requireVerifiedPayer evaluateIdentityVerification checkIdentityQuorum
  simp only [single, if_true, shut]
  rfl

/-- With good responses the gate decides by the state of the breaker and the repetitions alone. -/
theorem SingleOracle.accepts_iff (alone : SingleOracle panel invoice.token world.control)
    (answered : panel.Answers env invoice.payer)
    (verified : ∀ oracle ∈ panel.asked, (panel.response oracle).isVerified = true)
    (fresh : AllFresh panel world) :
    gateAccepts env world invoice = true ↔ Serves panel invoice.token world.control := by
  have accepts : ∀ oracle, resolveOracleForVerification world.control .identity invoice.token =
      .available oracle → (gateAccepts env world invoice = true ↔
        panel.repetitions invoice.token world.control oracle ≤ maxConsecutiveDuplicateUpdates) := by
    intro oracle available
    have member := alone.mem_asked available
    exact alone.accepts_of_available available (answered oracle member) (verified oracle member)
      fresh
  unfold Serves
  cases tripped : world.control.oracle.circuitTripped .identity invoice.token with
  | false =>
    rw [accepts panel.source (available_of_closed tripped alone.resolved)]
    simp
  | true =>
    have chain := resolveOracleForVerification_chain world.control invoice.token
    have occupied : oracleChain world.control invoice.token ≠ [] := by
      intro empty
      have first := alone.resolved
      rw [resolveOracle_chain, empty] at first
      cases first
    rw [if_pos rfl]
    cases stored : world.control.oracle.health .identity invoice.token with
    | none =>
      simp only [tripped, stored, Bool.and_true, Bool.not_true, occupied, if_false] at chain
      rw [List.find?_eq_none.mpr (by simp)] at chain
      rw [refuses_of_open alone.single chain]
      simp
    | some health =>
      simp only [tripped, stored, Bool.true_and] at chain
      cases found : (oracleChain world.control invoice.token).find? fun address =>
        !(address == health.oracle) with
      | none =>
        rw [found] at chain
        simp only [occupied, if_false] at chain
        rw [refuses_of_open alone.single chain]
        simpa using List.find?_eq_none.mp found
      | some other =>
        rw [found] at chain
        have different : other ≠ health.oracle := by simpa using List.find?_some found
        -- the snapshot is another oracle's, so nothing is repeated
        have unrepeated : panel.repetitions invoice.token world.control other = 0 := by
          simp [Panel.repetitions, duplicateStreak, stored, Ne.symm different]
        rw [accepts other chain, unrepeated]
        exact iff_of_true (Nat.zero_le _) ⟨health, rfl, other, List.mem_of_find?_eq_some found,
          different⟩

end Verdict

structure SameRegistry (before after : Control) : Prop where
  config : after.config = before.config
  override : after.oracle.tokenOracle = before.oracle.tokenOracle
  default : after.oracle.registry = before.oracle.registry
  quorum : after.oracle.identityOracles = before.oracle.identityOracles

theorem SameRegistry.trans {middle : Control} (first : SameRegistry before middle)
    (second : SameRegistry middle after) : SameRegistry before after :=
  ⟨second.config.trans first.config, second.override.trans first.override,
    second.default.trans first.default, second.quorum.trans first.quorum⟩

theorem sameRegistry_of_record {clock : Clock} {feed : OracleFeedType} {about : Address}
    {stamp age : Nat} : SameRegistry control { control with
      oracle := recordOracleHealth clock control.oracle feed about source stamp age } := by
  have written := (recordOracleHealth_onChannel : OnChannel feed about control.oracle
    (recordOracleHealth clock control.oracle feed about source stamp age)).rest
  exact ⟨rfl, (congrArg OracleStore.tokenOracle written :),
    (congrArg OracleStore.registry written :), (congrArg OracleStore.identityOracles written :)⟩

theorem diagnostic_registry (diagnostic : Diagnostic panel token action) :
    SameRegistry world.control (step world action).control := by
  refine step_keeps (fun next => SameRegistry world.control next.control) action ?_ fun _ _ =>
    ⟨rfl, rfl, rfl, rfl⟩
  rintro env call rfl ran
  generalize step world (.invoke env call) = next at ran ⊢
  cases diagnostic with
  | health =>
    simp only [invoke, invokeControl, checkOracleHealth, ok_iff] at ran
    obtain ⟨_, _, control, recorded, rfl⟩ := ran
    split at recorded
    · cases recorded
      exact ⟨rfl, rfl, rfl, rfl⟩
    · simp only [ok_iff] at recorded
      obtain ⟨_, _, rfl⟩ := recorded
      exact sameRegistry_of_record
  | verification =>
    simp only [invoke, invokeControl, checkOracleVerification, ok_iff] at ran
    obtain ⟨_, _, control, ⟨⟨_, _⟩, evaluated, rfl⟩, rfl⟩ := ran
    rcases evaluateIdentityVerification_observes evaluated with ⟨_, rfl⟩ | ⟨_, _, _, rfl⟩
    · exact ⟨rfl, rfl, rfl, rfl⟩
    · exact sameRegistry_of_record

theorem SameRegistry.maxOracleAge (same : SameRegistry before after) :
    maxOracleAge after = maxOracleAge before := by
  simp only [InvoiceLiquidity.maxOracleAge, same.config]

theorem SameRegistry.resolve (same : SameRegistry before after) (feed : OracleFeedType)
    (about : Address) : resolveOracle after feed about = resolveOracle before feed about := by
  simp only [resolveOracle, same.config, same.override, same.default]

theorem SameRegistry.chain (same : SameRegistry before after) (about : Address) :
    oracleChain after about = oracleChain before about := by
  simp only [oracleChain, same.config, same.override, same.default]

theorem observe_fresh {channel : Channel} {seen : Observation} (fresh : seen.isStale = false)
    (tripped : (channel.observe seen).tripped = true) : channel.tripped = true := by
  cases before : channel.tripped with
  | true => rfl
  | false =>
    unfold Channel.observe at tripped
    simp [before, fresh] at tripped

structure Probed (panel : Panel) (token : Address) (before : Nat) (control : Control)
    (probes : Nat) : Prop where
  closed : control.oracle.circuitTripped .identity token = false
  counted : panel.repetitions token control panel.source = before + probes ∨
    panel.Exhausted token control panel.source ∧ maxConsecutiveDuplicateUpdates < before + probes

section Probing

variable (diagnostic : Diagnostic panel token action)
  (alone : SingleOracle panel token world.control) (fresh : AllFresh panel world)

include diagnostic alone fresh

theorem diagnostic_event :
    channelEvent .identity token world action = none ∧ (probe token world action = 0 ∨
        world.control.oracle.circuitTripped .identity token = true ∨
        panel.Exhausted token world.control panel.source) ∨
      ∃ oracle ∈ consulted world.control token, channelEvent .identity token world action =
          some (.observed ⟨oracle, panel.stamp oracle, world.clock.sequence, false⟩) ∧
        probe token world action = 1 := by
  have seen : ∀ oracle ∈ panel.asked,
      observationAt world.clock oracle (panel.stamp oracle) (maxOracleAge world.control) =
        ⟨oracle, panel.stamp oracle, world.clock.sequence, false⟩ := by
    intro oracle member
    rw [observationAt, fresh oracle member]
  cases diagnostic with
  | pause => exact .inl ⟨rfl, .inl rfl⟩
  | @health env feed about payer answers =>
    by_cases here : feed = .identity ∧ about = token
    · have member := alone.covered panel.source alone.consulted_source
      have answered := answers here panel.source member
      refine .inr ⟨panel.source, alone.consulted_source, ?_, if_pos here⟩
      obtain ⟨rfl, rfl⟩ := here
      have finished : succeeds world (.invoke env (.checkOracleHealth .identity about payer)) =
          true := by
        simp only [succeeds, invoke, invokeControl, checkOracleHealth, alone.resolved, answered]
        rfl
      simp only [channelEvent, finished, if_true, callEvent, and_self, alone.resolved,
        Option.bind_some, answered, Option.map_some, seen panel.source member]
    · refine .inl ⟨?_, .inl (if_neg here)⟩
      simp only [channelEvent, callEvent, here, if_false, ite_self]
  | @verification env feed about payer answers =>
    by_cases here : feed = .identity ∧ about = token
    · have counted : probe token world (.invoke env (.checkOracleVerification feed about payer)) =
          1 := if_pos here
      have answered := answers here
      obtain ⟨rfl, rfl⟩ := here
      cases available : resolveOracleForVerification world.control .identity about with
      | unconfigured | circuitOpen =>
        refine .inl ⟨?_, .inr (.inl ?_)⟩
        · simp only [channelEvent, callEvent, and_self, InvoiceLiquidity.gateObservation, available,
            Option.map_none, ite_self]
        by_contra closed
        rw [available_of_closed (Bool.not_eq_true _ ▸ closed) alone.resolved] at available
        cases available
      | available oracle =>
        have member := alone.mem_asked available
        have gate := alone.gateObservation available (answered oracle member) world.clock
        have finished : succeeds world
            (.invoke env (.checkOracleVerification .identity about payer)) = true := by
          simp only [succeeds, invoke, invokeControl, checkOracleVerification,
            alone.evaluate available (answered oracle member) (fresh oracle member)]
          rfl
        by_cases often : panel.Exhausted about world.control oracle
        · refine .inl ⟨?_, .inr ?_⟩
          · simp only [channelEvent, callEvent, and_self, if_true, gate, often, Option.map_none,
              ite_self]
          cases tripped : world.control.oracle.circuitTripped .identity about with
          | true => exact .inl rfl
          | false =>
            rw [available_of_closed tripped alone.resolved] at available
            cases available
            exact .inr often
        · refine .inr ⟨oracle, alone.available_consulted available, ?_, counted⟩
          simp only [channelEvent, finished, if_true, callEvent, and_self, gate, often, if_false,
            Option.map_some, seen oracle member]
    · refine .inl ⟨?_, .inl (if_neg here)⟩
      simp only [channelEvent, callEvent, here, if_false, ite_self]

/-- Fresh data never opens the breaker, so the oracles that may be asked become no more. -/
theorem diagnostic_alone :
    SingleOracle panel token (step world action).control ∧
      ((step world action).control.oracle.circuitTripped .identity token = true →
        world.control.oracle.circuitTripped .identity token = true) := by
  have same : SameRegistry world.control (step world action).control :=
    diagnostic_registry diagnostic
  have moved := step_channel .identity token world action
  obtain ⟨ordered, opens⟩ : (∀ health ∈ (step world action).control.oracle.health .identity token,
        health.oracle ∈ panel.asked → health.lastDataTimestamp ≤ panel.stamp health.oracle) ∧
      ((step world action).control.oracle.circuitTripped .identity token = true →
        world.control.oracle.circuitTripped .identity token = true) := by
    rcases diagnostic_event diagnostic alone fresh with ⟨event, _⟩ | ⟨_, _, event, _⟩
    · rw [event] at moved
      have health : (step world action).control.oracle.health .identity token = _ :=
        congrArg Channel.health moved
      exact ⟨health ▸ alone.ordered, (congrArg Channel.tripped moved).symm.trans⟩
    · rw [event, Channel.after] at moved
      have health : (step world action).control.oracle.health .identity token = some _ :=
        (congrArg Channel.health moved).trans (observe_health _ _)
      rw [health]
      refine ⟨?_, fun tripped => ?_⟩
      · rintro _ ⟨⟩ _
        exact le_rfl
      · exact observe_fresh rfl ((congrArg Channel.tripped moved).symm.trans tripped)
  refine ⟨⟨same.quorum ▸ alone.single, (same.resolve _ _).trans alone.resolved, ?_, ordered⟩, opens⟩
  intro other member
  unfold consulted at member
  split at member
  · rename_i tripped
    apply alone.covered
    rwa [consulted, if_pos (opens tripped), ← same.chain]
  · rw [same.resolve, alone.resolved] at member
    obtain rfl : other = panel.source := by simpa using member
    exact alone.covered _ alone.consulted_source

theorem diagnostic_probed {before probes : Nat}
    (held : Probed panel token before world.control probes) :
    Probed panel token before (step world action).control (probes + probe token world action) := by
  have moved := step_channel .identity token world action
  have counted := held.counted
  refine ⟨Bool.eq_false_iff.mpr fun tripped => ?_, ?_⟩
  · exact Bool.eq_false_iff.mp held.closed ((diagnostic_alone diagnostic alone fresh).2 tripped)
  rcases diagnostic_event diagnostic alone fresh with ⟨event, spent⟩ | ⟨oracle, asked, event, one⟩
  · rw [event] at moved
    have health : (step world action).control.oracle.health .identity token =
        world.control.oracle.health .identity token := congrArg Channel.health moved
    simp only [held.closed, Bool.false_eq_true, false_or] at spent
    simp only [Panel.Exhausted, Panel.repetitions, health] at counted spent ⊢
    omega
  · obtain rfl : oracle = panel.source := by
      simpa [consulted, held.closed, alone.resolved] using asked
    rw [event, Channel.after] at moved
    have health : (step world action).control.oracle.health .identity token = some _ :=
      (congrArg Channel.health moved).trans (observe_health _ _)
    have repeated : panel.repetitions token (step world action).control panel.source =
        addCapped u32Max (panel.repetitions token world.control panel.source) 1 := by
      simp only [Panel.repetitions, health, duplicateStreak, Channel.snapshot, and_self, if_true,
        OracleStore.channel]
    rw [Panel.Exhausted, repeated, one]
    simp only [Panel.Exhausted, addCapped, u32Max, maxConsecutiveDuplicateUpdates] at counted ⊢
    omega

end Probing

section Insertions

variable {insertions : List (Action contract)}
  (diagnostics : ∀ action ∈ insertions, Diagnostic panel token action)

include diagnostics

theorem exec_pauses (world other : World) (same : other.clock = world.clock) :
    (exec step other (insertions.filter Action.isPause)).clock =
        (exec step world insertions).clock ∧
      (exec step other (insertions.filter Action.isPause)).control = other.control := by
  induction insertions generalizing world other with
  | nil => exact ⟨same, rfl⟩
  | cons action rest ih =>
    have later := fun action member => diagnostics action (List.mem_cons_of_mem _ member)
    cases diagnostics action List.mem_cons_self with
    | pause => exact ih later _ _ (by simp only [step, same])
    | health | verification => exact ih later _ _ (same.trans (step_invoke_clock world _ _).symm)

variable (alone : SingleOracle panel token world.control)
  (fresh : Throughout step (AllFresh panel) world insertions)

include alone fresh

theorem exec_alone :
    SingleOracle panel token (exec step world insertions).control ∧
      SameRegistry world.control (exec step world insertions).control := by
  refine invariant_along (fun later : World => SingleOracle panel token later.control ∧
    SameRegistry world.control later.control) ?_ ⟨alone, rfl, rfl, rfl, rfl⟩
    ((Along.of_forall diagnostics).and fresh.along)
  rintro later action ⟨held, same⟩ ⟨diagnostic, fresh⟩
  exact ⟨(diagnostic_alone diagnostic held fresh).1, same.trans (diagnostic_registry diagnostic)⟩

theorem exec_probed (closed : world.control.oracle.circuitTripped .identity token = false) :
    Probed panel token (panel.repetitions token world.control panel.source)
      (exec step world insertions).control (tally step (probe token) world insertions) := by
  refine (tally_induct (fun total (later : World) => SingleOracle panel token later.control ∧
      Probed panel token (panel.repetitions token world.control panel.source) later.control total)
    ?_ ⟨alone, closed, .inl rfl⟩ ((Along.of_forall diagnostics).and fresh.along)).2
  rintro total later action ⟨held, probed⟩ ⟨diagnostic, fresh⟩
  exact ⟨(diagnostic_alone diagnostic held fresh).1, diagnostic_probed diagnostic held fresh probed⟩

end Insertions

def gateVerdict (world : World) (stamp : Nat) : Bool :=
  gateAccepts (oracleHost [3] [(20, stamp)]) world (newInvoice 1 (bill 1000000 300) 50)

def fewProbes : List (Action ⟨0⟩) :=
  [healthCheck 5, .advance 60 12,
    .invoke (oracleHost [] [(20, 5)]) (.checkOracleVerification .identity ⟨10⟩ ⟨6⟩)]

/-- The only oracle has opened the breaker and is one healthy response short of closing it. -/
def recoveringAlone : List (Action ⟨0⟩) :=
  gatedOpening ++ .advance 100000 20000 :: List.replicate 3 (healthCheck 1) ++
    [healthCheck 20005, .advance 300 60, healthCheck 20060, .advance 300 60]

def lastProbe : List (Action ⟨0⟩) := [healthCheck 20100]

end Diagnostics

end InvoiceLiquidity
