import Mathlib.Data.List.Chain
import Iln.Invoice.OracleChannel

/-! The circuit breaker of a channel over whole runs: whom it keeps out while it is open, and what
it takes to close without the administrator. Both rest on the last health snapshot, which every
observation overwrites. -/
namespace InvoiceLiquidity

open Outcome FixedWidth Transition

variable {contract : Address} {seen : Observation}

def ChannelEvent.observation : ChannelEvent → Option Observation
  | .observed seen => some seen
  | .reset => none

/-- What an observer of one channel writes down: the oracle whose response opened the breaker, and
every response recorded while it is open. -/
structure TripNotes where
  tripper : Option Address
  since : List Observation
  deriving DecidableEq, Repr

def TripNotes.note (notes : TripNotes) (channel : Channel) (event : Option ChannelEvent) :
    TripNotes :=
  let seen := event.bind ChannelEvent.observation
  if channel.tripped = true then { notes with since := notes.since ++ seen.toList }
  else ⟨seen.map Observation.source, []⟩

def noteTrip (feed : OracleFeedType) (token : Address) (world : World) (action : Action contract)
    (notes : TripNotes) : TripNotes :=
  notes.note (world.control.oracle.channel feed token) (channelEvent feed token world action)

def ownObservations (source : Address) (seen : List Observation) : List Observation :=
  seen.filter (·.source = source)

theorem ownObservations_snoc_own {source : Address} (earlier : List Observation)
    (own : seen.source = source) :
    ownObservations source (earlier ++ [seen]) = ownObservations source earlier ++ [seen] := by
  simp [ownObservations, own]

section Streak

/-- Between two observations of the source that follow each other, the data has advanced. -/
abbrev AdvancesOwn (source : Address) (earlier later : Observation) : Prop :=
  earlier.source = source → later.source = source → earlier.dataTimestamp < later.dataTimestamp

/-- How the recovery record counts: over the responses from the first healthy one of the oracle that
opened the breaker since its last unhealthy one. The snapshot is the last response of all. -/
structure Streak (state : CircuitRecoveryState) (health : OracleHealthStatus)
    (recent : List Observation) : Prop where
  begins : ∀ first ∈ recent.head?, first.source = state.trippedOracle
  counted : state.consecutiveHealthy =
    min u32Max (ownObservations state.trippedOracle recent).length
  fresh : ∀ seen ∈ ownObservations state.trippedOracle recent, seen.isStale = false
  opened : ∀ seen ∈ (ownObservations state.trippedOracle recent).head?, seen.ledger =
    state.firstHealthyLedger
  rising : recent.IsChain (AdvancesOwn state.trippedOracle)
  latest : ∀ last ∈ recent.getLast?, health.oracle = last.source ∧ health.lastDataTimestamp =
    last.dataTimestamp

variable {state : CircuitRecoveryState} {health : OracleHealthStatus} {recent : List Observation}

theorem streak_empty {state : CircuitRecoveryState} (unhealthy : state.consecutiveHealthy = 0)
    (health : OracleHealthStatus) : Streak state health [] := by
  refine ⟨?_, unhealthy, ?_, ?_, .nil, ?_⟩ <;> simp [ownObservations]

theorem head?_snoc (begun : recent ≠ [] ∨ seen.source = state.trippedOracle)
    (begins : ∀ first ∈ recent.head?, first.source = state.trippedOracle) :
    ∀ first ∈ (recent ++ [seen]).head?, first.source = state.trippedOracle := by
  cases recent with
  | nil => simpa using begun
  | cons => exact begins

theorem snapshot_latest (channel : Channel) : ∀ last ∈ (recent ++ [seen]).getLast?,
    (channel.snapshot seen).oracle = last.source ∧ (channel.snapshot seen).lastDataTimestamp =
      last.dataTimestamp := by
  intro last final
  obtain rfl : seen = last := by simpa using final
  exact ⟨rfl, rfl⟩

theorem Streak.foreign (streak : Streak state health recent) (channel : Channel)
    (begun : recent ≠ []) (other : state.trippedOracle ≠ seen.source) :
    Streak state (channel.snapshot seen) (recent ++ [seen]) := by
  have same : ownObservations state.trippedOracle (recent ++ [seen]) =
      ownObservations state.trippedOracle recent := by
    simp [ownObservations, Ne.symm other]
  refine ⟨head?_snoc (.inl begun) streak.begins, same ▸ streak.counted, same ▸ streak.fresh,
    same ▸ streak.opened, List.isChain_append.mpr ⟨streak.rising, .singleton _, ?_⟩,
    snapshot_latest channel⟩
  intro before _ after here _ own
  obtain rfl : seen = after := by simpa using here
  exact absurd own.symm other

theorem Streak.extend (streak : Streak state health recent) (channel : Channel)
    (own : state.trippedOracle = seen.source) (fresh : seen.isStale = false)
    (advances : health.oracle = seen.source → health.lastDataTimestamp < seen.dataTimestamp) :
    Streak (state.extend seen.ledger) (channel.snapshot seen) (recent ++ [seen]) := by
  have split : ownObservations state.trippedOracle (recent ++ [seen]) =
    ownObservations state.trippedOracle recent ++ [seen] := ownObservations_snoc_own recent own.symm
  have count := streak.counted
  constructor
  case begins => exact head?_snoc (.inr own.symm) streak.begins
  case counted =>
    simp only [CircuitRecoveryState.extend, split, addCapped, List.length_append,
      List.length_singleton, count]
    omega
  case fresh =>
    simp only [CircuitRecoveryState.extend, split, List.mem_append, List.mem_singleton]
    rintro other (earlier | rfl)
    · exact streak.fresh other earlier
    · exact fresh
  case opened =>
    simp only [CircuitRecoveryState.extend, split]
    cases listed : ownObservations state.trippedOracle recent with
    | nil =>
      rw [listed, List.length_nil, Nat.min_zero] at count
      simp [count]
    | cons first =>
      have started : state.consecutiveHealthy ≠ 0 := by
        rw [count, listed, List.length_cons]
        simp [u32Max]
      have ledger := streak.opened first (by simp [listed])
      simp [started, ledger]
  case rising =>
    refine List.isChain_append.mpr ⟨streak.rising, .singleton _, ?_⟩
    intro before final after here named _
    obtain ⟨oracle, stamp⟩ := streak.latest before final
    obtain rfl : seen = after := by simpa using here
    rw [← stamp]
    exact advances (oracle.trans (Eq.trans named own))
  case latest => exact snapshot_latest channel

end Streak

section Open

inductive OpenStep (channel : Channel) (state : CircuitRecoveryState) (seen : Observation) :
    Channel → Prop
  | foreign (other : state.trippedOracle ≠ seen.source) :
      OpenStep channel state seen ⟨some (channel.snapshot seen), true, some state⟩
  | unhealthy (own : state.trippedOracle = seen.source) :
      OpenStep channel state seen ⟨some (channel.snapshot seen), true,
        some ⟨state.trippedOracle, 0, 0⟩⟩
  | progressed (own : state.trippedOracle = seen.source) (fresh : seen.isStale = false)
      (advances : channel.Advances seen) :
      OpenStep channel state seen ⟨some (channel.snapshot seen), true,
        some (state.extend seen.ledger)⟩
  | recovered (own : state.trippedOracle = seen.source) (fresh : seen.isStale = false)
      (advances : channel.Advances seen)
      (complete : (state.extend seen.ledger).Complete seen.ledger) :
      OpenStep channel state seen ⟨some (channel.snapshot seen), false, none⟩

variable {channel : Channel} {state : CircuitRecoveryState} {notes : TripNotes}
  {health : OracleHealthStatus}

theorem observe_open (seen : Observation) (tripped : channel.tripped = true)
    (recorded : channel.recovery = some state) :
    OpenStep channel state seen (channel.observe seen) := by
  unfold Channel.observe
  simp only [tripped, recorded]
  split
  · rename_i other
    exact .foreign other
  rename_i same
  have own : state.trippedOracle = seen.source := not_ne_iff.mp same
  split
  · rename_i healthy
    split
    · rename_i complete
      exact .recovered own healthy.1 healthy.2 complete
    · exact .progressed own healthy.1 healthy.2
  · exact .unhealthy own

theorem observe_closed (closed : channel.tripped = false)
    (opened : (channel.observe seen).tripped = true) :
    channel.observe seen = ⟨some (channel.snapshot seen), true, some ⟨seen.source, 0, 0⟩⟩ := by
  unfold Channel.observe at opened ⊢
  simp only [closed] at opened ⊢
  split at opened
  · rename_i trips
    rw [if_pos trips]
  · cases opened

structure TripTracks (notes : TripNotes) (health : OracleHealthStatus)
    (state : CircuitRecoveryState) : Prop where
  tripper : notes.tripper = some state.trippedOracle
  latest : health.oracle = (notes.since.getLast?.map Observation.source).getD state.trippedOracle
  streak : ∃ earlier recent, notes.since = earlier ++ recent ∧ Streak state health recent

def TripSound (notes : TripNotes) (channel : Channel) : Prop :=
  channel.tripped = true → ∃ health state, channel.health = some health ∧
    channel.recovery = some state ∧ TripTracks notes health state

/-- The recovery: from its first to its last observation, those of the oracle are healthy, many and
long enough, and they advance unless another oracle is observed in between. -/
structure Recovered (source : Address) (since : List Observation) (recent : List Observation) :
    Prop where
  among : ∃ earlier, since = earlier ++ recent
  begins : ∀ first ∈ recent.head?, first.source = source
  ends : ∀ last ∈ recent.getLast?, last.source = source
  often : circuitRecoveryHealthyObservations ≤ (ownObservations source recent).length
  fresh : ∀ seen ∈ ownObservations source recent, seen.isStale = false
  long : ∃ first ∈ (ownObservations source recent).head?,
    ∃ last ∈ (ownObservations source recent).getLast?,
    first.ledger + circuitRecoveryMinLedgers ≤ last.ledger
  advancing : recent.IsChain (AdvancesOwn source)
  rising : (∀ seen ∈ recent, seen.source = source) →
    (ownObservations source recent).IsChain fun earlier later =>
      earlier.dataTimestamp < later.dataTimestamp

theorem Streak.recovered {recent : List Observation} {earlier : List Observation}
    (streak : Streak (state.extend seen.ledger) health (recent ++ [seen]))
    (own : state.trippedOracle = seen.source)
    (complete : (state.extend seen.ledger).Complete seen.ledger) :
    Recovered state.trippedOracle (earlier ++ (recent ++ [seen])) (recent ++ [seen]) := by
  obtain ⟨enough, apart⟩ := complete
  have split := ownObservations_snoc_own recent own.symm
  refine ⟨⟨earlier, rfl⟩, streak.begins, ?_, ?_, streak.fresh, ?_, streak.rising, fun alone => ?_⟩
  · intro last final
    obtain rfl : seen = last := by simpa using final
    exact own.symm
  · rw [streak.counted] at enough
    exact enough.trans (Nat.min_le_right _ _)
  · have occupied : ownObservations state.trippedOracle (recent ++ [seen]) ≠ [] := by simp [split]
    obtain ⟨first, head⟩ := Option.ne_none_iff_exists'.mp (mt List.head?_eq_none_iff.mp occupied)
    refine ⟨first, head, seen, by simp [split], ?_⟩
    rw [streak.opened first head]
    simp only [circuitRecoveryMinLedgers] at apart ⊢
    omega
  · have whole : ownObservations state.trippedOracle (recent ++ [seen]) = recent ++ [seen] := by
      rw [ownObservations, List.filter_eq_self]
      exact fun other member => decide_eq_true (alone other member)
    rw [whole]
    refine streak.rising.imp_of_mem_imp fun before after first second advances => ?_
    exact advances (alone before first) (alone after second)

theorem note_open (tripped : channel.tripped = true) (seen : Observation) :
    notes.note channel (some (.observed seen)) = { notes with since := notes.since ++ [seen] } := by
  simp [TripNotes.note, tripped, ChannelEvent.observation]

theorem TripTracks.observe {next : Channel} (tracks : TripTracks notes health state)
    (stored : channel.health = some health) (observed : OpenStep channel state seen next) :
    TripSound { notes with since := notes.since ++ [seen] } next := by
  obtain ⟨earlier, recent, listed, streak⟩ := tracks.streak
  have grown : notes.since ++ [seen] = earlier ++ (recent ++ [seen]) := by
    rw [listed, List.append_assoc]
  cases observed with
  | foreign other =>
    refine fun _ => ⟨_, _, rfl, rfl, tracks.tripper, by simp [Channel.snapshot], ?_⟩
    -- a streak that has not begun does not begin with the other oracle
    by_cases begun : recent = []
    · subst begun
      exact ⟨notes.since ++ [seen], [], by simp,
        streak_empty (by simpa [ownObservations] using streak.counted) _⟩
    · exact ⟨earlier, _, grown, streak.foreign channel begun other⟩
  | unhealthy =>
    exact fun _ => ⟨_, _, rfl, rfl, tracks.tripper, by simp [Channel.snapshot],
      notes.since ++ [seen], [], by simp, streak_empty rfl _⟩
  | progressed own fresh advances =>
    exact fun _ => ⟨_, _, rfl, rfl, tracks.tripper, by simp [Channel.snapshot], earlier, _, grown,
      streak.extend channel own fresh (advances health stored)⟩
  | recovered => exact (by rintro ⟨⟩)

theorem TripSound.after (sound : TripSound notes channel) (event : Option ChannelEvent) :
    TripSound (notes.note channel event) (channel.after event) := by
  cases event with
  | none =>
    intro (tripped : channel.tripped = true)
    have kept : notes.note channel none = notes := by simp [TripNotes.note, tripped]
    rw [kept]
    exact sound tripped
  | some event =>
    cases event with
    | reset => exact (by rintro ⟨⟩)
    | observed seen =>
      cases tripped : channel.tripped with
      | true =>
        obtain ⟨_, _, stored, recorded, tracks⟩ := sound tripped
        rw [note_open tripped]
        exact tracks.observe stored (observe_open seen tripped recorded)
      | false =>
        intro opened
        rw [Channel.after, observe_closed tripped opened]
        have started : notes.note channel (some (.observed seen)) = ⟨some seen.source, []⟩ := by
          simp [TripNotes.note, tripped, ChannelEvent.observation]
        rw [started]
        exact ⟨_, _, rfl, rfl, rfl, rfl, [], [], rfl, streak_empty rfl _⟩

theorem TripSound.recovered {event : Option ChannelEvent} (sound : TripSound notes channel)
    (tripped : channel.tripped = true) (closed : (channel.after event).tripped = false)
    (unforced : event ≠ some .reset) :
    ∃ source recent, (notes.note channel event).tripper = some source ∧
      Recovered source (notes.note channel event).since recent := by
  obtain ⟨health, state, stored, recorded, tracks⟩ := sound tripped
  cases event with
  | none =>
    rw [Channel.after, tripped] at closed
    cases closed
  | some event =>
    cases event with
    | reset => exact absurd rfl unforced
    | observed seen =>
      rw [note_open tripped]
      have observed := observe_open seen tripped recorded
      rw [Channel.after] at closed
      generalize channel.observe seen = after at observed closed
      cases observed with
      | foreign | unhealthy | progressed => cases closed
      | recovered own fresh advances complete =>
        obtain ⟨_, recent, listed, streak⟩ := tracks.streak
        have extended := streak.extend channel own fresh (advances health stored)
        refine ⟨state.trippedOracle, recent ++ [seen], tracks.tripper, ?_⟩
        rw [listed, List.append_assoc]
        exact extended.recovered own complete

end Open

section Runs

variable {feed : OracleFeedType} {token : Address}

theorem exec_tripSound (clock : Clock) (balance : Balances) (actions : List (Action contract))
    (feed : OracleFeedType) (token : Address) :
    TripSound (noted step (noteTrip feed token) ⟨none, []⟩ (genesis clock balance) actions)
      ((reach clock balance actions).control.oracle.channel feed token) := by
  refine noted_induct (fun notes (world : World) => TripSound notes
    (world.control.oracle.channel feed token)) ?_
    ((by rintro ⟨⟩)) Along.always
  intro notes world action sound _
  rw [step_channel]
  exact sound.after _

theorem resolve_excludes {control : Control} {health : OracleHealthStatus}
    (tripped : control.oracle.circuitTripped feed token = true)
    (stored : control.oracle.health feed token = some health) :
    resolveOracleForVerification control feed token ≠ .available health.oracle := by
  unfold resolveOracleForVerification
  simp only [tripped, stored, Bool.true_and]
  generalize List.filterMap id _ = candidates
  split
  · rename_i address found
    have usable := List.find?_some found
    simp only [Bool.not_eq_true', beq_eq_false_iff_ne] at usable
    intro same
    cases same
    exact usable rfl
  · split <;> simp

/-- While the breaker is open, the oracle that opened it does not resolve as long as no other oracle
has been the last one observed since. -/
theorem tripped_excluded (clock : Clock) (balance : Balances) (actions : List (Action contract))
    (feed : OracleFeedType) (token : Address) (state : CircuitRecoveryState)
    (tripped : (reach clock balance actions).control.oracle.circuitTripped feed token = true)
    (recorded : (reach clock balance actions).control.oracle.circuitRecovery feed
      token = some state)
    (latest : ∀ seen ∈ (noted step (noteTrip feed token) ⟨none, []⟩
      (genesis clock balance) actions).since.getLast?,
      seen.source = state.trippedOracle) :
    resolveOracleForVerification (reach clock balance actions).control feed token ≠
      .available state.trippedOracle := by
  obtain ⟨health, _, stored, same, tracks⟩ :=
    exec_tripSound clock balance actions feed token tripped
  cases recorded.symm.trans same
  have blamed : health.oracle = state.trippedOracle := by
    rw [tracks.latest]
    cases final : (noted step (noteTrip feed token) ⟨none, []⟩
      (genesis clock balance) actions).since.getLast? with
    | none => rfl
    | some seen => exact latest seen final
  rw [← blamed]
  exact resolve_excludes tripped stored

def oracleHost (signers : List Nat) (answers : List (Nat × Nat)) : Env ⟨0⟩ :=
  { stellarHost ⟨0⟩ (signers.map Address.mk) [] with
    payerData := fun oracle _ => (answers.lookup oracle.key).map fun stamp => ⟨true, stamp⟩ }

def oracleSetup : List (Action ⟨0⟩) :=
  [opening,
    signedBy [1] (.registerTokenOracle .identity ⟨10⟩ ⟨20⟩),
    signedBy [1] (.registerOracle .identity ⟨21⟩), .advance 100000 20000]

def healthCheck (stamp : Nat) : Action ⟨0⟩ :=
  .invoke (oracleHost [] [(20, stamp)]) (.checkOracleHealth .identity ⟨10⟩ ⟨2⟩)

def fallbackCheck (stamp : Nat) : Action ⟨0⟩ :=
  .invoke (oracleHost [] [(21, stamp)]) (.checkOracleVerification .identity ⟨10⟩ ⟨2⟩)

def trippedOracle : List (Action ⟨0⟩) := oracleSetup ++ List.replicate 3 (healthCheck 1)

-- the oracle is observed once more after it has opened the breaker
theorem tripped_excluded_of_trippedOracle :
    resolveOracleForVerification (traded (trippedOracle ++ [healthCheck 20000])).control
      .identity ⟨10⟩ ≠ .available ⟨20⟩ :=
  tripped_excluded ⟨1000, 10⟩ marketBalances (trippedOracle ++ [healthCheck 20000]) .identity ⟨10⟩
  ⟨⟨20⟩, 1, 20010⟩
    (by decide +kernel) (by decide +kernel) (by decide +kernel)

/-- One check of the fallback, and the oracle that opened the breaker resolves again. -/
theorem tripped_available :
    let world := traded (trippedOracle ++ [fallbackCheck 20000])
    world.control.oracle.circuitTripped .identity ⟨10⟩ = true ∧
      world.control.oracle.circuitRecovery .identity ⟨10⟩ = some ⟨⟨20⟩, 0, 0⟩ ∧
      resolveOracleForVerification world.control .identity ⟨10⟩ = .available ⟨20⟩ := by
  decide +kernel

/-- The breaker is closed without the administrator only after enough fresh responses of the oracle
that opened it, over a long enough time, and they advance as long as no other oracle is observed
between the first and the last of them. -/
theorem recovery_progress (clock : Clock) (balance : Balances) (actions : List (Action contract))
    (action : Action contract) (feed : OracleFeedType) (token : Address)
    (tripped : (reach clock balance actions).control.oracle.circuitTripped feed token = true)
    (closed : (reach clock balance (actions ++ [action])).control.oracle.circuitTripped feed
        token = false)
    (unforced : channelEvent feed token (reach clock balance actions) action ≠ some .reset) :
    let notes := noted step (noteTrip feed token) ⟨none, []⟩ (genesis clock balance)
      (actions ++ [action])
    ∃ source recent, notes.tripper = some source ∧ Recovered source notes.since recent := by
  intro notes
  have noting : notes = noteTrip feed token (reach clock balance actions) action
      (noted step (noteTrip feed token) ⟨none, []⟩ (genesis clock balance) actions) :=
      noted_snoc _ _ _ _
  have moved := step_channel feed token (reach clock balance actions) action
  rw [reach, exec_snoc] at closed
  rw [noting]
  refine (exec_tripSound clock balance actions feed token).recovered tripped ?_ unforced
  rw [← moved]
  exact closed

def recoveringOracle : List (Action ⟨0⟩) :=
  trippedOracle ++ [healthCheck 20005, .advance 300 60, healthCheck 20060, .advance 300 60]

theorem recovery_progress_of_recoveringOracle :
    let notes := noted step (noteTrip .identity ⟨10⟩) ⟨none, []⟩ market
      (recoveringOracle ++ [healthCheck 20100])
    ∃ source recent, notes.tripper = some source ∧ Recovered source notes.since recent :=
  recovery_progress ⟨1000, 10⟩ marketBalances recoveringOracle (healthCheck 20100) .identity ⟨10⟩
  (by decide +kernel)
    (by decide +kernel) (by decide +kernel)

def frozenOracle : List (Action ⟨0⟩) :=
  trippedOracle ++ [healthCheck 20005, fallbackCheck 20000, .advance 300 60, healthCheck 20005,
    fallbackCheck 20000, .advance 300 60]

theorem frozen_recovers :
    let notes := noted step (noteTrip .identity ⟨10⟩) ⟨none, []⟩ market
      (frozenOracle ++ [healthCheck 20005])
    (traded frozenOracle).control.oracle.circuitTripped .identity ⟨10⟩ = true ∧
      (traded (frozenOracle ++ [healthCheck 20005])).control.oracle.circuitTripped
        .identity ⟨10⟩ = false ∧
      channelEvent .identity ⟨10⟩ (traded frozenOracle) (healthCheck 20005) ≠
        some .reset ∧
      notes.tripper = some ⟨20⟩ ∧
      (ownObservations ⟨20⟩ notes.since).map Observation.dataTimestamp = [20005, 20005, 20005] := by
  decide +kernel

end Runs

end InvoiceLiquidity
