import Mathlib.Data.List.TakeWhile
import Iln.Invoice.OracleBreaker

/-! When the breaker of a channel opens. The counter of stale responses in the stored snapshot is
the length of the run of stale responses of its oracle at the end of everything recorded. Opening
and resetting the breaker leave the counter alone. -/
namespace InvoiceLiquidity

open FixedWidth Transition

variable {contract : Address}

section Counter

def noteObserved (feed : OracleFeedType) (token : Address) (world : World)
    (action : Action contract) (recorded : List Observation) : List Observation :=
  ((channelEvent feed token world action).bind ChannelEvent.observation).toList ++ recorded

def Observation.staleOf (source : Address) (seen : Observation) : Bool :=
  decide (seen.isStale = true ∧ seen.source = source)

def staleRun (source : Address) (recorded : List Observation) : Nat :=
  (recorded.takeWhile (Observation.staleOf source)).length

def Sustained (recorded : List Observation) : Prop :=
  ∃ source run earlier, recorded = run ++ earlier ∧ maxConsecutiveStaleQueries ≤ run.length ∧
    ∀ seen ∈ run, seen.isStale = true ∧ seen.source = source

variable {seen : Observation} {recorded : List Observation}

theorem staleRun_own (stale : seen.isStale = true) :
    staleRun seen.source (seen :: recorded) = staleRun seen.source recorded + 1 := by
  have counts : seen.staleOf seen.source = true := decide_eq_true ⟨stale, rfl⟩
  rw [staleRun, List.takeWhile_cons_of_pos counts, List.length_cons]
  rfl

theorem staleRun_broken {source : Address}
    (broken : ¬ (seen.isStale = true ∧ seen.source = source)) :
    staleRun source (seen :: recorded) = 0 := by
  have stops : ¬ seen.staleOf source = true := fun counts => broken (of_decide_eq_true counts)
  rw [staleRun, List.takeWhile_cons_of_neg stops, List.length_nil]

theorem sustained_cons_iff : Sustained (seen :: recorded) ↔
      seen.isStale = true ∧ maxConsecutiveStaleQueries ≤
        staleRun seen.source (seen :: recorded) := by
  constructor
  · rintro ⟨source, run, earlier, split, long, stale⟩
    cases run with
    | nil => exact absurd long (by decide)
    | cons first run =>
      obtain ⟨rfl, _⟩ := List.cons.inj split
      have latest := stale seen List.mem_cons_self
      refine ⟨latest.1, long.trans ?_⟩
      -- the whole run is taken, and perhaps more
      rw [staleRun, split, List.takeWhile_append_of_pos, List.length_append]
      · exact Nat.le_add_right _ _
      · intro other member
        have held := stale other member
        exact decide_eq_true ⟨held.1, held.2.trans latest.2.symm⟩
  · rintro ⟨_, long⟩
    refine ⟨seen.source, _, _, (List.takeWhile_append_dropWhile).symm, long, ?_⟩
    intro other member
    have counts : other.staleOf seen.source = true := List.mem_takeWhile_imp member
    exact of_decide_eq_true counts

end Counter

section Snapshot

def Reflects (recorded : List Observation) (health : Option OracleHealthStatus) : Prop :=
  match recorded with
  | [] => health = none
  | latest :: _ => ∃ status, health = some status ∧ status.oracle = latest.source ∧
      status.consecutiveStaleCount = min u32Max (staleRun latest.source recorded)

variable {recorded : List Observation} {channel : Channel} {seen : Observation}

theorem Reflects.streak (reflects : Reflects recorded channel.health) (seen : Observation) :
    staleStreak channel.health seen.source seen.isStale =
      min u32Max (staleRun seen.source (seen :: recorded)) := by
  unfold staleStreak
  cases fresh : seen.isStale with
  | false =>
    rw [staleRun_broken fun held => Bool.false_ne_true (fresh.symm.trans held.1)]
    rfl
  | true =>
    rw [if_pos rfl, staleRun_own fresh]
    cases recorded with
    | nil =>
      have empty : channel.health = none := reflects
      rw [empty]
      rfl
    | cons =>
      obtain ⟨status, stored, named, counted⟩ := reflects
      rw [stored]
      dsimp only
      rw [named]
      split
      · rename_i same
        rw [counted, same, addCapped]
        omega
      · rename_i other
        rw [staleRun_broken fun held => other held.2]
        rfl

theorem Reflects.after (reflects : Reflects recorded channel.health) (event : Option ChannelEvent) :
    Reflects ((event.bind ChannelEvent.observation).toList ++ recorded)
    (channel.after event).health := by
  cases event with
  | none => exact reflects
  | some event =>
    cases event with
    | reset => exact reflects
    | observed seen => exact ⟨_, observe_health channel seen, rfl, reflects.streak seen⟩

theorem exec_reflects (clock : Clock) (balance : Balances) (actions : List (Action contract))
    (feed : OracleFeedType) (token : Address) :
    Reflects (noted step (noteObserved feed token) [] (genesis clock balance) actions)
      ((reach clock balance actions).control.oracle.channel feed token).health := by
  refine noted_induct (fun recorded (world : World) =>
    Reflects recorded (world.control.oracle.channel feed token).health) ?_ rfl Along.always
  intro recorded world action reflects _
  rw [step_channel]
  exact reflects.after _

end Snapshot

section Opening

variable {recorded : List Observation} {channel : Channel}

theorem Reflects.trips_iff (reflects : Reflects recorded channel.health)
    (closed : channel.tripped = false) (event : Option ChannelEvent) :
    (channel.after event).tripped = true ↔ ∃ seen, event = some (.observed seen) ∧
      Sustained (seen :: recorded) := by
  cases event with
  | none =>
    rw [Channel.after, closed]
    simp
  | some event =>
    cases event with
    | reset => simp [Channel.after, Channel.reset]
    | observed seen =>
      have counted : maxConsecutiveStaleQueries ≤ staleStreak channel.health seen.source
          seen.isStale ↔ maxConsecutiveStaleQueries ≤ staleRun seen.source (seen :: recorded) := by
        have wide : maxConsecutiveStaleQueries ≤ u32Max := by decide
        rw [reflects.streak, le_min_iff]
        exact and_iff_right wide
      have opens : (channel.observe seen).tripped = true ↔
          seen.isStale = true ∧
            maxConsecutiveStaleQueries ≤ staleStreak channel.health seen.source seen.isStale := by
        unfold Channel.observe
        simp only [closed]
        split
        · rename_i trips
          exact iff_of_true rfl trips
        · rename_i quiet
          exact iff_of_false Bool.false_ne_true quiet
      rw [Channel.after, opens, counted, ← sustained_cons_iff]
      constructor
      · intro sustained
        exact ⟨seen, rfl, sustained⟩
      · rintro ⟨other, same, sustained⟩
        cases same
        exact sustained

theorem closes_by {event : Option ChannelEvent} (tripped : channel.tripped = true)
    (closed : (channel.after event).tripped = false) :
    event = some .reset ∨ ∃ seen state, event = some (.observed seen) ∧
      channel.recovery = some state ∧
      state.trippedOracle = seen.source ∧ seen.isStale = false ∧ channel.Advances seen ∧
      (state.extend seen.ledger).Complete seen.ledger := by
  cases event with
  | none =>
    rw [Channel.after, tripped] at closed
    cases closed
  | some event =>
    cases event with
    | reset => exact .inl rfl
    | observed seen =>
      right
      cases recorded : channel.recovery with
      | none =>
        simp only [Channel.after, Channel.observe, tripped, recorded] at closed
        cases closed
      | some state =>
        have moved := observe_open seen tripped recorded
        rw [Channel.after] at closed
        generalize channel.observe seen = after at moved closed
        cases moved with
        | foreign | unhealthy | progressed => cases closed
        | recovered own fresh advances complete =>
          exact ⟨seen, state, rfl, rfl, own, fresh, advances, complete⟩

/-- A closed breaker opens exactly at a response that ends a run of enough stale responses of one
oracle, and an open one closes only by the administrator's reset or by a healthy response of the
oracle that opened it that completes its recovery. -/
theorem breaker_trips_exactly (clock : Clock) (balance : Balances)
    (actions : List (Action contract)) (action : Action contract) (feed : OracleFeedType)
    (token : Address) :
    let before := reach clock balance actions
    let event := channelEvent feed token before action
    let recorded := noted step (noteObserved feed token) [] (genesis clock balance) actions
    (before.control.oracle.circuitTripped feed token = false →
      ((step before action).control.oracle.circuitTripped feed token = true ↔
        ∃ seen, event = some (.observed seen) ∧ Sustained (seen :: recorded))) ∧
    (before.control.oracle.circuitTripped feed token = true →
      (step before action).control.oracle.circuitTripped feed token = false →
      event = some .reset ∨ ∃ seen state, event = some (.observed seen) ∧
        before.control.oracle.circuitRecovery feed token = some state ∧
        state.trippedOracle = seen.source ∧
        seen.isStale = false ∧ (before.control.oracle.channel feed token).Advances seen ∧
        (state.extend seen.ledger).Complete seen.ledger) := by
  intro before event recorded
  have moved : (step before action).control.oracle.circuitTripped feed token =
      ((before.control.oracle.channel feed token).after event).tripped :=
    congrArg Channel.tripped (step_channel feed token before action)
  rw [moved]
  constructor
  · intro closed
    exact (exec_reflects clock balance actions feed token).trips_iff closed event
  · intro tripped closed
    exact closes_by tripped closed

/-- Two stale responses are recorded; the third opens the breaker. -/
theorem breaker_trips_of_third_check :
    (traded (oracleSetup ++ List.replicate 3 (healthCheck 1))).control.oracle.circuitTripped
      .identity ⟨10⟩ = true := by
  have trips := (breaker_trips_exactly ⟨1000, 10⟩ marketBalances
    (oracleSetup ++ List.replicate 2 (healthCheck 1)) (healthCheck 1) .identity ⟨10⟩).1
    (by decide +kernel)
  refine trips.mpr ⟨⟨⟨20⟩, 1, 20010, true⟩, by decide +kernel, ⟨20⟩, _, [],
    (List.append_nil _).symm, ?_⟩
  decide +kernel

end Opening

end InvoiceLiquidity
