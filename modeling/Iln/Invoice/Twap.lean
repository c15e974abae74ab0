import Iln.Foundation.Averages
import Iln.Invoice.PriceRobustness

/-! Time-weighted prices (`twap.rs` and the samples of `oracle_registry.rs`). The stored samples of
a feed and a token are the latest hundred, in the order of time. The average weighs every pair of
consecutive samples by the time it covers of the window. The number of samples that `get_twap_price`
asks for is counted over all that are stored, inside the window or not. -/
namespace InvoiceLiquidity

open Outcome FixedWidth Transition Averages

variable {contract : Address}

section Recording

def callSample (clock : Clock) (feed : OracleFeedType) (token : Address) : Call → Option TwapSample
  | .recordTwapSample on about price =>
    if on = feed ∧ about = token then some ⟨clock.timestamp, price⟩ else none
  | _ => none

def sampleOf (feed : OracleFeedType) (token : Address) (world : World) :
    Action contract → Option TwapSample
  | .invoke env call =>
    if succeeds world (.invoke env call) = true then
      callSample world.clock feed token call else none
  | _ => none

def noteSample (feed : OracleFeedType) (token : Address) (world : World) (action : Action contract)
    (recorded : List TwapSample) : List TwapSample :=
  recorded ++ (sampleOf feed token world action).toList

def latestSamples (recorded : List TwapSample) : List TwapSample :=
  recorded.drop (recorded.length - maxTwapSamples)

theorem latestSamples_snoc (recorded : List TwapSample) (sample : TwapSample) :
    latestSamples (latestSamples recorded ++ [sample]) = latestSamples (recorded ++ [sample]) := by
  have whole : latestSamples recorded ++ [sample] = (recorded ++ [sample]).drop
    (recorded.length - maxTwapSamples) := (List.drop_append_of_le_length (Nat.sub_le _ _)).symm
  have kept : recorded.length - maxTwapSamples +
      ((recorded.length + 1) - (recorded.length - maxTwapSamples) - maxTwapSamples) =
        (recorded.length + 1) - maxTwapSamples := by omega
  rw [latestSamples, whole, List.drop_drop, List.length_drop, latestSamples, List.length_append,
    List.length_singleton, kept]

variable {env : Env contract} {world : World} {call : Call} {after : Control}
  {feed : OracleFeedType} {token : Address}

theorem callSample_of_other (other : ∀ on about price, call ≠ .recordTwapSample on about price)
    (clock : Clock) : callSample clock feed token call = none := by
  cases call with
  | recordTwapSample on about price => exact absurd rfl (other on about price)
  | _ => rfl

/-- Of the settings of the registry only one touches the samples, and none the number that is asked
for. -/
theorem RegistrySet.samples {before after : OracleStore} {clock : Clock}
    (set : RegistrySet clock before call after) :
    after.minTwapObservations = before.minTwapObservations ∧
      after.twapSamples feed token = (callSample clock feed token call).elim
        (before.twapSamples feed token)
        fun sample => latestSamples (before.twapSamples feed token ++ [sample]) := by
  cases set with
  | kept _ _ asked samples other =>
    rw [asked, samples, callSample_of_other other]
    exact ⟨rfl, rfl⟩
  | sampled _ extended =>
    refine ⟨rfl, ?_⟩
    simp only [callSample, extended]
    split
    · rename_i here
      obtain ⟨rfl, rfl⟩ := here
      simp only [updateFeed_same, Option.elim_some, latestSamples]
    · rename_i elsewhere
      simp only [updateFeed_other _ _ elsewhere, Option.elim_none]

theorem RegistrySet.positive {before after : OracleStore} {clock : Clock} {price : Int}
    (set : RegistrySet clock before (.recordTwapSample feed token price) after) : 0 < price := by
  cases set with
  | kept _ _ _ _ other => exact absurd rfl (other _ _ _)
  | sampled positive => exact positive

theorem OnSomeChannel.samples {before after : OracleStore} (written : OnSomeChannel before after) :
    after.minTwapObservations = before.minTwapObservations ∧ after.twapSamples =
      before.twapSamples := by
  obtain ⟨on, _, written⟩ := written
  rw [written.rest]
  exact ⟨rfl, rfl⟩

theorem step_samples (feed : OracleFeedType) (token : Address) (world : World)
    (action : Action contract) :
    (step world action).control.oracle.minTwapObservations =
      world.control.oracle.minTwapObservations ∧
      (step world action).control.oracle.twapSamples feed token =
        (sampleOf feed token world action).elim (world.control.oracle.twapSamples feed token)
        fun sample => latestSamples (world.control.oracle.twapSamples feed token ++ [sample]) := by
  cases step_oracle world action with
  | sets setting finished ran =>
    rw [sampleOf, if_pos finished]
    exact (invokeControl_sets setting ran).samples
  | quiet unset written =>
    have unsampled : sampleOf feed token world action = none := by
      cases action with
      | credit | advance => rfl
      | invoke env =>
        rw [sampleOf]
        split
        · rename_i finished
          refine callSample_of_other ?_ _
          rintro on about price rfl
          cases unset env _ rfl finished
        · rfl
    rw [unsampled, written.samples.1, written.samples.2]
    exact ⟨rfl, rfl⟩

end Recording

section Runs

structure SamplesSound (feed : OracleFeedType) (token : Address) (recorded : List TwapSample)
    (world : World) : Prop where
  stored : world.control.oracle.twapSamples feed token = latestSamples recorded
  ordered : recorded.Pairwise fun earlier later => earlier.timestamp ≤ later.timestamp
  past : ∀ sample ∈ recorded, sample.timestamp ≤ world.clock.timestamp
  positive : ∀ sample ∈ recorded, 0 < sample.price
  unset : world.control.oracle.minTwapObservations = none

variable {feed : OracleFeedType} {token : Address} {world : World} {recorded : List TwapSample}
  {sample : TwapSample}

theorem SamplesSound.among (sound : SamplesSound feed token recorded world) :
    (world.control.oracle.twapSamples feed token).Sublist recorded := by
  rw [sound.stored]
  exact List.drop_sublist _ _

theorem step_timestamp (world : World) (action : Action contract) :
    world.clock.timestamp ≤ (step world action).clock.timestamp := by
  cases action with
  | credit => exact le_rfl
  | advance => exact Nat.le_add_right _ _
  | invoke => rw [step_invoke_clock]

theorem sampleOf_spec {action : Action contract}
    (sampled : sampleOf feed token world action = some sample) :
    sample.timestamp = world.clock.timestamp ∧ 0 < sample.price := by
  cases action with
  | credit | advance => cases sampled
  | invoke env call =>
    rw [sampleOf] at sampled
    split at sampled
    · rename_i finished
      cases call with
      | recordTwapSample =>
        simp only [callSample] at sampled
        split at sampled
        · cases sampled
          exact ⟨rfl,
            (invokeControl_sets rfl (invoke_setting rfl (invoke_of_succeeds finished))).positive⟩
        · cases sampled
      | _ => cases sampled
    · cases sampled

theorem SamplesSound.step (sound : SamplesSound feed token recorded world)
    (action : Action contract) :
    SamplesSound feed token (noteSample feed token world action recorded) (step world action) := by
  obtain ⟨asked, kept⟩ := step_samples feed token world action
  have later := step_timestamp world action
  rw [sound.stored] at kept
  unfold noteSample
  cases sampled : sampleOf feed token world action with
  | none =>
    rw [sampled] at kept
    rw [Option.toList_none, List.append_nil]
    exact ⟨kept, sound.ordered, fun other member => (sound.past other member).trans later,
      sound.positive, asked.trans sound.unset⟩
  | some =>
    obtain ⟨now, positive⟩ := sampleOf_spec sampled
    rw [sampled, Option.elim_some, latestSamples_snoc] at kept
    rw [Option.toList_some]
    constructor
    case stored => exact kept
    case ordered =>
      refine List.pairwise_append.mpr ⟨sound.ordered, List.pairwise_singleton _ _, ?_⟩
      intro earlier member other here
      rw [List.mem_singleton.mp here, now]
      exact sound.past earlier member
    case past =>
      intro other member
      rcases List.mem_append.mp member with earlier | here
      · exact (sound.past other earlier).trans later
      · rw [List.mem_singleton.mp here, now]
        exact later
    case positive =>
      intro other member
      rcases List.mem_append.mp member with earlier | here
      · exact sound.positive other earlier
      · rw [List.mem_singleton.mp here]
        exact positive
    case unset => exact asked.trans sound.unset

theorem exec_samples (clock : Clock) (balance : Balances) (actions : List (Action contract))
    (feed : OracleFeedType) (token : Address) :
    SamplesSound feed token (noted step (noteSample feed token) [] (genesis clock balance) actions)
      (reach clock balance actions) := by
  refine noted_induct (fun recorded (world : World) => SamplesSound feed token recorded world) ?_ ?_
    Along.always
  · exact fun recorded world action sound _ => sound.step action
  · exact ⟨rfl, .nil, (by rintro _ ⟨⟩), (by rintro _ ⟨⟩), rfl⟩

end Runs

section Window

variable {windowStart currentTime : Nat} {pair : TwapSample × TwapSample}
  {pairs : List (TwapSample × TwapSample)} {samples : List TwapSample} {value : Int}

def coverage (windowStart currentTime : Nat) (pair : TwapSample × TwapSample) : Nat :=
  min pair.2.timestamp currentTime - max pair.1.timestamp windowStart

def covers (windowStart currentTime : Nat) (pair : TwapSample × TwapSample) : Bool :=
  decide (0 < coverage windowStart currentTime pair)

def coveringPairs (windowStart currentTime : Nat) (samples : List TwapSample) :
    List (TwapSample × TwapSample) :=
  (samples.zip samples.tail).filter (covers windowStart currentTime)

def pairPrices (pairs : List (TwapSample × TwapSample)) : List Int :=
  pairs.flatMap fun pair => [pair.1.price, pair.2.price]

def segments (windowStart currentTime : Nat) (pairs : List (TwapSample × TwapSample)) :
    List (Int × Nat) :=
  (pairs.filter (covers windowStart currentTime)).map fun pair =>
    ((pair.1.price + pair.2.price).tdiv 2, coverage windowStart currentTime pair)

theorem segments_cons_of_covers (covered : covers windowStart currentTime pair = true) :
    segments windowStart currentTime (pair :: pairs) =
      ((pair.1.price + pair.2.price).tdiv 2, coverage windowStart currentTime pair) ::
        segments windowStart currentTime pairs := by
  rw [segments, List.filter_cons_of_pos covered, List.map_cons]
  rfl

theorem segments_cons_of_apart (apart : ¬ covers windowStart currentTime pair = true) :
    segments windowStart currentTime (pair :: pairs) = segments windowStart currentTime pairs := by
  rw [segments, List.filter_cons_of_neg apart]
  rfl

/-- What one pair adds to the sums. The test for a pair outside the window does not matter: such a
pair covers none of it. -/
theorem addSegment_eq (sums : Int × Nat) : addSegment windowStart currentTime sums pair =
    if covers windowStart currentTime pair = true then do
      let sum ← orFail (checked i128 (pair.1.price + pair.2.price)) .trap
      return (saturate i128 (sums.1 + saturate i128
        (sum.tdiv 2 * (coverage windowStart currentTime pair : Nat))),
        addCapped u64Max sums.2 (coverage windowStart currentTime pair))
    else .ok sums := by
  unfold addSegment covers coverage
  simp only [decide_eq_true_eq]
  split
  · rename_i outside
    rw [if_neg (by omega)]
  · by_cases covered : max pair.1.timestamp windowStart < min pair.2.timestamp currentTime
    · rw [if_pos covered, if_pos (by omega)]
    · rw [if_neg covered, if_neg (by omega)]

theorem addSegments_eq (positive : ∀ pair ∈ pairs, 0 < pair.1.price ∧ 0 < pair.2.price)
    (sums total : Int × Nat)
    (finished : forEach (addSegment windowStart currentTime) sums pairs = .ok total)
    (nonneg : 0 ≤ sums.1) (fits : sums.1 ≤ i128.hi) (typed : sums.2 ≤ u64Max) :
    total.1 = min i128.hi (sums.1 + weightedSum (segments windowStart currentTime pairs)) ∧
      total.2 = min u64Max (sums.2 + weightSum (segments windowStart currentTime pairs)) := by
  induction pairs generalizing sums with
  | nil =>
    cases finished
    simp only [segments, List.filter_nil, List.map_nil, weightedSum_nil, weightSum_nil, add_zero]
    omega
  | cons pair pairs ih =>
    obtain ⟨next, first, rest⟩ := forEach_cons_eq_ok.mp finished
    have later := ih (fun other member => positive other (List.mem_cons_of_mem _ member)) next rest
    rw [addSegment_eq] at first
    by_cases covered : covers windowStart currentTime pair = true
    · simp only [if_pos covered, ok_iff, checked_eq_some] at first
      obtain ⟨_, ⟨_, rfl⟩, rfl⟩ := first
      obtain ⟨one, two⟩ := positive pair List.mem_cons_self
      have mean : 0 ≤ (pair.1.price + pair.2.price).tdiv 2 := Int.tdiv_nonneg (by omega) (by decide)
      have part := mul_nonneg mean (Int.natCast_nonneg (coverage windowStart currentTime pair))
      rw [segments_cons_of_covers covered, weightedSum_cons, weightSum_cons]
      generalize (pair.1.price + pair.2.price).tdiv 2 *
        (coverage windowStart currentTime pair : Int) = added at later part ⊢
      have product : saturate i128 added = min i128.hi added := saturate_of_nonneg part
      have high := i128.pos
      have sum : saturate i128 (sums.1 + saturate i128 added) = min i128.hi (sums.1 + added) := by
        rw [product, saturate_of_nonneg (by omega)]
        omega
      dsimp only at later
      rw [sum] at later
      obtain ⟨weighted, weight⟩ := later (by omega) (min_le_left _ _) (min_le_left _ _)
      have tail : 0 ≤ weightedSum (segments windowStart currentTime pairs) := by
        apply weightedSum_nonneg
        intro other member
        obtain ⟨origin, listed, rfl⟩ := List.mem_map.mp member
        obtain ⟨first, second⟩ :=
          positive origin (List.mem_cons_of_mem _ (List.mem_of_mem_filter listed))
        exact Int.tdiv_nonneg (by omega) (by decide)
      rw [weighted, weight, addCapped]
      constructor
      · omega
      · omega
    · rw [if_neg covered] at first
      cases first
      rw [segments_cons_of_apart covered]
      exact later nonneg fits typed

theorem weightSum_segments_cons : weightSum (segments windowStart currentTime (pair :: pairs)) =
    coverage windowStart currentTime pair + weightSum (segments windowStart currentTime pairs) := by
  by_cases covered : covers windowStart currentTime pair = true
  · rw [segments_cons_of_covers covered, weightSum_cons]
  · have none : coverage windowStart currentTime pair = 0 := by
      simpa [covers] using covered
    rw [segments_cons_of_apart covered, none, zero_add]

theorem weightSum_le {first : TwapSample} {rest : List TwapSample}
    (ordered : (first :: rest).Pairwise fun earlier later => earlier.timestamp ≤ later.timestamp) :
    weightSum (segments windowStart currentTime ((first :: rest).zip rest)) ≤
      currentTime - max first.timestamp windowStart := by
  induction rest generalizing first with
  | nil => exact Nat.zero_le _
  | cons second rest ih =>
    obtain ⟨earlier, later⟩ := List.pairwise_cons.mp ordered
    have before := earlier second List.mem_cons_self
    have tail := ih later
    rw [List.zip_cons_cons, weightSum_segments_cons]
    unfold coverage
    dsimp only
    omega

theorem mem_of_mem_pair (member : pair ∈ samples.zip samples.tail) :
    pair.1 ∈ samples ∧ pair.2 ∈ samples := by
  obtain ⟨one, two⟩ := List.of_mem_zip member
  exact ⟨one, List.mem_of_mem_tail two⟩

theorem twapAverage_eq_some (positive : ∀ sample ∈ samples, 0 < sample.price)
    (ran : twapAverage samples windowStart currentTime = .ok (some value)) :
    2 ≤ samples.length ∧ ∃ total : Int × Nat, 0 < total.2 ∧ value = total.1.tdiv total.2 ∧
      total.1 = min i128.hi
        (weightedSum (segments windowStart currentTime (samples.zip samples.tail))) ∧
      total.2 = min u64Max
        (weightSum (segments windowStart currentTime (samples.zip samples.tail))) := by
  unfold twapAverage at ran
  split at ran
  · cases ran
  · rename_i enough
    simp only [ok_iff] at ran
    obtain ⟨total, added, result⟩ := ran
    split at result
    · rename_i weighs
      refine ⟨by omega, total, weighs, (Option.some.inj result).symm, ?_⟩
      have sums := addSegments_eq (fun pair member => ?_) (0, 0) total added le_rfl i128.pos.le
        (Nat.zero_le _)
      · simpa only [zero_add] using sums
      · obtain ⟨one, two⟩ := mem_of_mem_pair member
        exact ⟨positive _ one, positive _ two⟩
    · cases result

theorem exists_coveringPair (ran : twapAverage samples windowStart currentTime = .ok (some value))
    (positive : ∀ sample ∈ samples, 0 < sample.price) :
    ∃ pair, pair ∈ coveringPairs windowStart currentTime samples := by
  obtain ⟨_, total, weighs, _, _, weight⟩ := twapAverage_eq_some positive ran
  by_contra none
  have nothing : segments windowStart currentTime (samples.zip samples.tail) = [] :=
    List.map_eq_nil_iff.mpr
      (List.eq_nil_iff_forall_not_mem.mpr fun pair member => none ⟨pair, member⟩)
  rw [nothing, weightSum_nil] at weight
  omega

/-- The average lies within the prices of the pairs that cover the window, when the exact sum
fits. -/
theorem twapAverage_between (typed : currentTime ≤ u64Max)
    (ordered : samples.Pairwise fun earlier later => earlier.timestamp ≤ later.timestamp)
    (positive : ∀ sample ∈ samples, 0 < sample.price)
    (unclipped : weightedSum (segments windowStart currentTime (samples.zip samples.tail)) ≤
      i128.hi)
    (ran : twapAverage samples windowStart currentTime = .ok (some value)) :
    ∃ low ∈ pairPrices (coveringPairs windowStart currentTime samples),
      ∃ high ∈ pairPrices (coveringPairs windowStart currentTime samples),
        (∀ price ∈ pairPrices (coveringPairs windowStart currentTime samples), low ≤ price ∧
          price ≤ high) ∧
          low ≤ value ∧ value ≤ high := by
  obtain ⟨_, _, weighs, rfl, weighted, weight⟩ := twapAverage_eq_some positive ran
  have short : weightSum (segments windowStart currentTime (samples.zip samples.tail)) ≤
      currentTime := by
    cases samples with
    | nil => exact Nat.zero_le _
    | cons => exact (weightSum_le ordered).trans (Nat.sub_le _ _)
  rw [min_eq_right unclipped] at weighted
  rw [min_eq_right (short.trans typed)] at weight
  have occupied : pairPrices (coveringPairs windowStart currentTime samples) ≠ [] := by
    obtain ⟨pair, member⟩ := exists_coveringPair ran positive
    exact List.ne_nil_of_mem (List.mem_flatMap.mpr ⟨pair, member, List.mem_cons_self⟩)
  obtain ⟨low, least, high, most, between⟩ := exists_extremes occupied
  refine ⟨low, least, high, most, between, ?_⟩
  rw [weighted, weight]
  apply mean_between (weight ▸ weighs)
  -- the mean of two prices lies between them
  intro part member
  obtain ⟨pair, listed, rfl⟩ := List.mem_map.mp member
  have one := between pair.1.price (List.mem_flatMap.mpr ⟨pair, listed, List.mem_cons_self⟩)
  have two := between pair.2.price (List.mem_flatMap.mpr ⟨pair, listed,
    List.mem_cons_of_mem _ List.mem_cons_self⟩)
  dsimp only
  rcases le_total pair.1.price pair.2.price with rising | falling
  · have mean := tdiv_two_between rising
    exact ⟨one.1.trans mean.1, mean.2.trans two.2⟩
  · have mean := tdiv_two_between falling
    rw [add_comm] at mean
    exact ⟨two.1.trans mean.1, mean.2.trans one.2⟩

end Window

section Prices

variable {samples recorded : List TwapSample} {feed : OracleFeedType} {token : Address}
  {world : World}

/-- The stored samples of a run are the latest of those recorded, in the order of time, and every
average over them lies between the smallest and the largest price of the pairs that cover the
window. -/
theorem twap_within_observed (clock : Clock) (balance : Balances) (actions : List (Action contract))
    (feed : OracleFeedType) (token : Address) :
    let recorded := noted step (noteSample feed token) [] (genesis clock balance) actions
    let samples := (reach clock balance actions).control.oracle.twapSamples feed token
    samples = recorded.drop (recorded.length - maxTwapSamples) ∧
      recorded.Pairwise (fun earlier later => earlier.timestamp ≤ later.timestamp) ∧
      ∀ windowStart currentTime value, currentTime ≤ u64Max →
        weightedSum (segments windowStart currentTime (samples.zip samples.tail)) ≤ i128.hi →
        twapAverage samples windowStart currentTime = .ok (some value) →
        ∃ low ∈ pairPrices (coveringPairs windowStart currentTime samples),
          ∃ high ∈ pairPrices (coveringPairs windowStart currentTime samples),
            (∀ price ∈ pairPrices (coveringPairs windowStart currentTime samples), low ≤ price ∧
              price ≤ high) ∧
              low ≤ value ∧ value ≤ high := by
  intro recorded samples
  have sound := exec_samples clock balance actions feed token
  refine ⟨sound.stored, sound.ordered, ?_⟩
  intro windowStart currentTime value typed unclipped ran
  exact twapAverage_between typed (sound.ordered.sublist sound.among)
    (fun sample member => sound.positive sample (sound.among.subset member)) unclipped ran

def sampling (price : Int) : Action ⟨0⟩ := signedBy [1] (.recordTwapSample .price ⟨10⟩ price)

def steadySamples : List (Action ⟨0⟩) :=
  [opening, sampling 100, .advance 1800 360, sampling 200, .advance 1800 360, sampling 400]

theorem twap_within_observed_of_steadySamples :
    let samples := (traded steadySamples).control.oracle.twapSamples .price ⟨10⟩
    twapAverage samples 3000 4600 = .ok (some 300) ∧
      ∃ low ∈ pairPrices (coveringPairs 3000 4600 samples),
      ∃ high ∈ pairPrices (coveringPairs 3000 4600 samples), low ≤ 300 ∧ 300 ≤ high := by
  have within := (twap_within_observed ⟨1000, 10⟩ marketBalances steadySamples .price ⟨10⟩).2.2
  obtain ⟨low, least, high, most, _, between⟩ := within 3000 4600 300 (by decide)
    (by decide +kernel) (by decide +kernel)
  exact ⟨by decide +kernel, low, least, high, most, between⟩

def twapWindowStart (clock : Clock) (oracle : OracleStore) : Nat :=
  clock.timestamp - min u64Max (oracle.twapWindowLedgers.getD defaultTwapWindowLedgers *
    ledgerSeconds)

def getMinTwapObservations (oracle : OracleStore) : Nat :=
  oracle.minTwapObservations.getD defaultMinTwapObservations

def freshSamples (clock : Clock) (oracle : OracleStore) (samples : List TwapSample) :
    List TwapSample :=
  samples.filter fun sample => twapWindowStart clock oracle ≤ sample.timestamp ∧
    sample.timestamp ≤ clock.timestamp

theorem getTwapPrice_eq_some {clock : Clock} {oracle : OracleStore} {price : Int}
    (ran : getTwapPrice clock oracle feed token = .ok (some price)) :
    getMinTwapObservations oracle ≤ (oracle.twapSamples feed token).length ∧
      twapAverage (oracle.twapSamples feed token) (twapWindowStart clock oracle) clock.timestamp =
        .ok (some price) := by
  unfold getTwapPrice at ran
  split at ran
  · cases ran
  · dsimp only at ran
    split at ran
    · cases ran
    · rename_i enough
      exact ⟨not_lt.mp enough, ran⟩

/-- One sample of the window is certain: the later one of a pair that covers some of it. -/
theorem twap_fresh_sample {price : Int} (sound : SamplesSound feed token recorded world)
    (average : twapAverage (world.control.oracle.twapSamples feed token)
      (twapWindowStart world.clock world.control.oracle) world.clock.timestamp = .ok (some price)) :
    1 ≤
      (freshSamples world.clock world.control.oracle
        (world.control.oracle.twapSamples feed token)).length := by
  obtain ⟨pair, member⟩ := exists_coveringPair average fun sample member =>
    sound.positive sample (sound.among.subset member)
  obtain ⟨listed, covered⟩ := List.mem_filter.mp member
  have second := (mem_of_mem_pair listed).2
  have past := sound.past pair.2 (sound.among.subset second)
  have inside : 0 < coverage (twapWindowStart world.clock world.control.oracle)
    world.clock.timestamp pair := of_decide_eq_true covered
  apply List.length_pos_of_mem (a := pair.2)
  rw [freshSamples, List.mem_filter, decide_eq_true_eq]
  refine ⟨second, ?_, past⟩
  unfold coverage at inside
  omega

/-- Of a list in which a test stays true once it is, as many elements pass as are asked for exactly
if the last but so many does. -/
theorem le_length_filter_iff {α : Type} (test : α → Bool) (items : List α) (asked : Nat)
    (upward : items.Pairwise fun earlier later => test earlier = true → test later = true)
    (some_asked : 0 < asked) (enough : asked ≤ items.length) :
    asked ≤ (items.filter test).length ↔
      ∃ item ∈ items[items.length - asked]?, test item = true := by
  induction items with
  | nil => exact absurd enough (not_le.mpr some_asked)
  | cons first rest ih =>
    obtain ⟨later, ordered⟩ := List.pairwise_cons.mp upward
    by_cases passes : test first = true
    · have all : ∀ item ∈ first :: rest, test item = true :=
        List.forall_mem_cons.mpr ⟨passes, fun item member => later item member passes⟩
      have bound : (first :: rest).length - asked < (first :: rest).length := by omega
      rw [List.filter_eq_self.mpr all]
      exact iff_of_true enough ⟨_, List.getElem?_eq_getElem bound, all _ (List.getElem_mem bound)⟩
    · rw [List.filter_cons_of_neg passes, List.length_cons]
      rcases Nat.lt_or_ge rest.length asked with whole | within
      · have few := List.length_filter_le test rest
        rw [Nat.sub_eq_zero_of_le whole]
        exact iff_of_false (by omega) (by simp [passes])
      · rw [ih ordered within, Nat.succ_sub within]
        rfl

def lateSamples : List (Action ⟨0⟩) :=
  [opening, sampling 100, .advance 99000 19800, sampling 200, .advance 1000 200, sampling 300]

def sparseSamples : List (Action ⟨0⟩) :=
  [opening, sampling 100, .advance 100000 20000, sampling 200]

end Prices

end InvoiceLiquidity
