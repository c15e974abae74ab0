import Iln.Invoice.OracleChannel
import Iln.Invoice.Pricing

/-! What a cross-checked price can be. The median of the reported prices lies where a strict
majority of them lies, the price returned is close to it, and neither depends on the order of the
sources. A single source can take the read down only by a price so low that the difference
overflows. -/
namespace InvoiceLiquidity

open Outcome FixedWidth Transition

section Medians

variable {values : List Int} {middle low high : Int}

theorem tdiv_two_between {left right : Int} (ordered : left ≤ right) :
    left ≤ (left + right).tdiv 2 ∧ (left + right).tdiv 2 ≤ right := by
  rcases Int.le_total 0 (left + right) with nonneg | nonpos
  · rw [Int.tdiv_eq_ediv_of_nonneg nonneg]
    omega
  · have mirrored : (left + right).tdiv 2 = -((-(left + right)).tdiv 2) := by
      rw [Int.neg_tdiv, neg_neg]
    rw [mirrored, Int.tdiv_eq_ediv_of_nonneg (by omega)]
    omega

/-- The two places next to the middle, one place twice when the number of values is odd. -/
structure Middles (values : List Int) (left right : Int) : Prop where
  lower : ∃ place, (Median.insertionLoop values)[place]? = some left ∧
    values.length ≤ 2 * place + 2 ∧ 2 * place ≤ values.length
  upper : ∃ place, (Median.insertionLoop values)[place]? = some right ∧
    values.length ≤ 2 * place + 2 ∧ 2 * place ≤ values.length
  ordered : left ≤ right

theorem Middles.inside {left right : Int} (middles : Middles values left right)
    (majority : values.length < 2 * values.countP (fun value => low ≤ value ∧ value ≤ high)) :
    low ≤ left ∧ right ≤ high := by
  obtain ⟨_, found, above, below⟩ := middles.lower
  obtain ⟨_, met, beyond, under⟩ := middles.upper
  exact ⟨(Median.middle_inside found majority above below).1,
    (Median.middle_inside met majority beyond under).2⟩

theorem Middles.members {left right : Int} (middles : Middles values left right) :
    left ∈ values ∧ right ∈ values := by
  obtain ⟨_, found, _⟩ := middles.lower
  obtain ⟨_, met, _⟩ := middles.upper
  have same := Median.insertionLoop_perm values
  exact ⟨same.mem_iff.mp (List.mem_of_getElem? found), same.mem_iff.mp (List.mem_of_getElem? met)⟩

theorem exists_middles (occupied : values ≠ []) : ∃ left right, Middles values left right ∧
    median values = if values.length % 2 = 1 then .ok left else do
        let sum ← orFail (checked i128 (left + right)) .trap
        return sum.tdiv 2 := by
  have size := Median.insertionLoop_length values
  have positive := List.length_pos_iff.mpr occupied
  by_cases odd : values.length % 2 = 1
  · have inside : values.length / 2 < (Median.insertionLoop values).length := by omega
    have found := List.getElem?_eq_getElem inside
    refine ⟨_, _, ⟨⟨_, found, by omega, by omega⟩, ⟨_, found, by omega, by omega⟩, le_rfl⟩, ?_⟩
    simp only [median, odd, if_true, found, orFail]
  · have first : values.length / 2 - 1 < (Median.insertionLoop values).length := by omega
    have second : values.length / 2 < (Median.insertionLoop values).length := by omega
    have found := List.getElem?_eq_getElem first
    have met := List.getElem?_eq_getElem second
    have ordered := List.pairwise_iff_getElem.mp (Median.insertionLoop_sorted values) _ _ first
      second (by omega)
    refine ⟨_, _, ⟨⟨_, found, by omega, by omega⟩, ⟨_, met, by omega, by omega⟩, ordered⟩, ?_⟩
    simp only [median, odd, if_false, found, met, orFail]
    rfl

/-- A median lies between two of the values, and between any bounds that a strict majority keeps. -/
theorem median_spec (ran : median values = .ok middle) :
    ∃ left right, Middles values left right ∧ left ≤ middle ∧ middle ≤ right := by
  have occupied : values ≠ [] := by
    rintro rfl
    cases ran
  obtain ⟨left, right, middles, computed⟩ := exists_middles occupied
  rw [computed] at ran
  have ordered := middles.ordered
  split at ran
  · obtain rfl : left = middle := Except.ok.inj ran
    exact ⟨left, right, middles, le_rfl, ordered⟩
  · simp only [ok_iff, checked_eq_some] at ran
    obtain ⟨_, ⟨_, rfl⟩, rfl⟩ := ran
    exact ⟨left, right, middles, tdiv_two_between ordered⟩

theorem median_inside (ran : median values = .ok middle)
    (majority : values.length < 2 * values.countP (fun value => low ≤ value ∧ value ≤ high)) :
    low ≤ middle ∧ middle ≤ high := by
  obtain ⟨_, _, middles, above, below⟩ := median_spec ran
  obtain ⟨least, most⟩ := middles.inside majority
  exact ⟨least.trans above, below.trans most⟩

theorem median_returns (majority : values.length < 2 * values.countP (fun value => low ≤ value ∧
    value ≤ high))
    (least : Fits i128 (low + low)) (most : Fits i128 (high + high)) :
    ∃ middle, median values = .ok middle := by
  have occupied : values ≠ [] := by
    rintro rfl
    simp at majority
  obtain ⟨left, right, middles, computed⟩ := exists_middles occupied
  obtain ⟨above, below⟩ := middles.inside majority
  have ordered := middles.ordered
  rw [computed]
  split
  · exact ⟨left, rfl⟩
  · have fits : Fits i128 (left + right) := fits_of_between least most (by omega) (by omega)
    exact ⟨_, by rw [checked_of_fits fits]; rfl⟩

theorem median_congr {others : List Int} (same : values.Perm others) :
    median values = median others := by
  simp only [median, Median.insertionLoop_congr same, same.length_eq]

end Medians

section Deviations

variable {price other reference overall : Int} {deviation maxDeviation : Nat}

/-- A distance in whole basis points of a magnitude, as far as it is representable. -/
def bpsOf (distance magnitude : Int) : Nat :=
  (min ((saturate i128 (distance * 10000)).tdiv magnitude) u32Max).toNat

theorem bpsOf_mono {near far magnitude : Int} (nonneg : 0 ≤ near) (closer : near ≤ far)
    (positive : 0 < magnitude) : bpsOf near magnitude ≤ bpsOf far magnitude := by
  have grown : saturate i128 (near * 10000) ≤ saturate i128 (far * 10000) :=
    saturate_mono (by omega)
  have least : 0 ≤ saturate i128 (near * 10000) := saturate_nonneg (by omega)
  have divided : (saturate i128 (near * 10000)).tdiv magnitude ≤
      (saturate i128 (far * 10000)).tdiv magnitude := by
    rw [Int.tdiv_eq_ediv_of_nonneg least, Int.tdiv_eq_ediv_of_nonneg (least.trans grown)]
    exact Int.ediv_le_ediv positive grown
  exact Int.toNat_le_toNat (min_le_min_right _ divided)

theorem lt_of_bpsOf_le {distance magnitude : Int} (nonneg : 0 ≤ distance) (positive : 0 < magnitude)
    (unclipped : Fits i128 (distance * 10000)) (close : bpsOf distance magnitude ≤ maxDeviation)
    (bounded : maxDeviation < u32Max) : distance * 10000 < (maxDeviation + 1) * magnitude := by
  unfold bpsOf at close
  rw [saturate_of_fits unclipped, Int.tdiv_eq_ediv_of_nonneg (by omega)] at close
  have quotient : distance * 10000 / magnitude ≤ maxDeviation := by
    have least : 0 ≤ distance * 10000 / magnitude := Int.ediv_nonneg (by omega) positive.le
    omega
  exact Int.lt_mul_of_ediv_lt positive (by omega)

theorem deviationBps_zero : deviationBps price 0 = .ok (if price = 0 then 0 else u32Max) :=
    if_pos rfl

theorem deviationBps_eq_ok (nonzero : reference ≠ 0) :
    deviationBps price reference = .ok deviation ↔ Fits i128 (price - reference) ∧
      Fits i128 |price - reference| ∧
      Fits i128 |reference| ∧ deviation = bpsOf |price - reference| |reference| := by
  unfold deviationBps
  simp only [nonzero, if_false, ok_iff, checked_eq_some]
  constructor
  · rintro ⟨_, ⟨near, rfl⟩, _, ⟨distance, rfl⟩, _, ⟨magnitude, rfl⟩, rfl⟩
    exact ⟨near, distance, magnitude, rfl⟩
  · rintro ⟨near, distance, magnitude, rfl⟩
    exact ⟨_, ⟨near, rfl⟩, _, ⟨distance, rfl⟩, _, ⟨magnitude, rfl⟩, rfl⟩

theorem deviationBps_avoids {failure : Failure} (other : .trap ≠ failure) :
    Avoids failure (deviationBps price reference) := by
  unfold deviationBps
  split
  · exact avoids_ok failure _
  · exact (avoids_orFail other).bind fun _ _ => (avoids_orFail other).bind fun _ _ =>
      (avoids_orFail other).bind fun _ _ => avoids_ok failure _

theorem deviationBps_mono (closer : |other - reference| ≤ |price - reference|)
    (measured : deviationBps price reference = .ok deviation) :
    ∃ least, deviationBps other reference = .ok least ∧ least ≤ deviation := by
  by_cases zero : reference = 0
  · subst zero
    rw [deviationBps_zero] at measured ⊢
    cases measured
    refine ⟨_, rfl, ?_⟩
    simp only [sub_zero] at closer
    by_cases same : price = 0
    · have none : other = 0 := by simpa [same] using closer
      simp [same, none]
    · simp only [same, if_false]
      split <;> simp
  · obtain ⟨_, distance, magnitude, rfl⟩ := (deviationBps_eq_ok zero).mp measured
    have shorter : Fits i128 |other - reference| := fits_of_nonneg_le distance (abs_nonneg _) closer
    have inside : Fits i128 (other - reference) := by
      have upper := shorter.2
      have right := le_abs_self (other - reference)
      have left := neg_abs_le (other - reference)
      simp only [Fits, i128] at upper ⊢
      omega
    exact ⟨_, (deviationBps_eq_ok zero).mpr ⟨inside, shorter, magnitude, rfl⟩,
      bpsOf_mono (abs_nonneg _) closer (abs_pos.mpr zero)⟩

def Gauged (overall price : Int) : Prop := ∃ deviation, deviationBps price overall = .ok deviation

def isClose (overall : Int) (maxDeviation : Nat) (price : Int) : Bool :=
  match deviationBps price overall with
  | .ok deviation => decide (deviation ≤ maxDeviation)
  | .error _ => false

theorem isClose_spec (close : isClose overall maxDeviation price = true) :
    ∃ deviation, deviationBps price overall = .ok deviation ∧ deviation ≤ maxDeviation := by
  unfold isClose at close
  split at close
  · rename_i deviation measured
    exact ⟨deviation, measured, of_decide_eq_true close⟩
  · cases close

theorem deviationBps_trap (ungauged : ¬ Gauged overall price) :
    deviationBps price overall = .error .trap := by
  cases measured : deviationBps price overall with
  | ok deviation => exact absurd ⟨deviation, measured⟩ ungauged
  | error =>
    by_contra different
    exact deviationBps_avoids (fun same => different (by rw [same])) measured

theorem keepClose_gauged (survivors : List Int) (gauged : Gauged overall price) :
    keepClose overall maxDeviation survivors price =
      .ok (survivors ++ if isClose overall maxDeviation price = true then [price] else []) := by
  obtain ⟨deviation, measured⟩ := gauged
  rw [keepClose, measured]
  change (Except.ok (if maxDeviation < deviation then survivors else survivors ++ [price]) :
    Result (List Int)) = _
  by_cases close : deviation ≤ maxDeviation
  · simp only [isClose, measured, close, not_lt.mpr close, if_false, decide_true, if_true]
  · simp only [isClose, measured, close, not_le.mp close, if_true, decide_false,
      Bool.false_eq_true, if_false, List.append_nil]

/-- The loop over the prices keeps the close ones, and traps if a deviation cannot be computed. -/
theorem keepClose_all {prices : List Int} (survivors : List Int)
    (gauged : ∀ price ∈ prices, Gauged overall price) :
    forEach (keepClose overall maxDeviation) survivors prices =
      .ok (survivors ++ prices.filter (isClose overall maxDeviation)) := by
  induction prices generalizing survivors with
  | nil => simp
  | cons price rest ih =>
    rw [forEach, keepClose_gauged survivors (gauged price List.mem_cons_self)]
    refine (ih _ fun other member => gauged other (List.mem_cons_of_mem _ member)).trans ?_
    rw [List.filter_cons]
    split <;> simp

theorem keepClose_trap {prices : List Int} (survivors : List Int)
    (failing : ¬ ∀ price ∈ prices, Gauged overall price) :
    forEach (keepClose overall maxDeviation) survivors prices = .error .trap := by
  induction prices generalizing survivors with
  | nil => exact absurd ((by rintro _ ⟨⟩)) failing
  | cons price rest ih =>
    rw [forEach]
    by_cases gauged : Gauged overall price
    · rw [keepClose_gauged survivors gauged]
      refine ih _ fun others => failing fun other member => ?_
      rcases List.mem_cons.mp member with rfl | later
      · exact gauged
      · exact others other later
    · rw [keepClose, deviationBps_trap gauged]
      rfl

end Deviations

section Reads

variable {prices others : List Int} {overall result : Int} {maxDeviation : Nat}

def conclude (survivors : List Int) : Result Int := do
  require (survivors ≠ []) (.returned .allPriceSourcesRejected)
  median survivors

theorem conclude_congr {survivors others : List Int} (same : survivors.Perm others) :
    conclude survivors = conclude others := by
  by_cases empty : survivors = []
  · subst empty
    rw [List.nil_perm.mp same]
  · have rest : others ≠ [] := fun none => empty (List.perm_nil.mp (none ▸ same))
    rw [conclude, conclude, require_of_holds empty, require_of_holds rest, median_congr same]

theorem crossCheck_gauged (computed : median prices = .ok overall)
    (gauged : ∀ price ∈ prices, Gauged overall price) :
    crossCheck maxDeviation prices = conclude (prices.filter (isClose overall maxDeviation)) := by
  rw [crossCheck, computed]
  change (forEach (keepClose overall maxDeviation) [] prices >>= fun _ => _) = _
  rw [keepClose_all [] gauged]
  rfl

theorem crossCheck_trap (computed : median prices = .ok overall)
    (failing : ¬ ∀ price ∈ prices, Gauged overall price) :
    crossCheck maxDeviation prices = .error .trap := by
  rw [crossCheck, computed]
  change (forEach (keepClose overall maxDeviation) [] prices >>= fun _ => _) = _
  rw [keepClose_trap [] failing]
  rfl

theorem crossCheck_eq_ok : crossCheck maxDeviation prices = .ok result ↔
    ∃ overall, median prices = .ok overall ∧ (∀ price ∈ prices, Gauged overall price) ∧
      median (prices.filter (isClose overall maxDeviation)) = .ok result := by
  constructor
  · intro ran
    cases computed : median prices with
    | error =>
      rw [crossCheck, computed] at ran
      cases ran
    | ok overall =>
      by_cases gauged : ∀ price ∈ prices, Gauged overall price
      · rw [crossCheck_gauged computed gauged, conclude, bind_eq_ok] at ran
        obtain ⟨_, _, finished⟩ := ran
        exact ⟨overall, rfl, gauged, finished⟩
      · rw [crossCheck_trap computed gauged] at ran
        cases ran
  · rintro ⟨overall, computed, gauged, finished⟩
    have some_left : prices.filter (isClose overall maxDeviation) ≠ [] := by
      intro empty
      rw [empty] at finished
      cases finished
    rw [crossCheck_gauged computed gauged, conclude, bind_eq_ok]
    exact ⟨(), require_of_holds some_left, finished⟩

/-- The order of the prices does not matter, not even for how a check fails. -/
theorem crossCheck_congr (same : prices.Perm others) : crossCheck maxDeviation prices =
    crossCheck maxDeviation others := by
  have agreed := median_congr same
  cases computed : median prices with
  | error =>
    rw [crossCheck, crossCheck, ← agreed, computed]
    rfl
  | ok overall =>
    rw [computed] at agreed
    have gauging : (∀ price ∈ prices, Gauged overall price) ↔ ∀ price ∈ others,
      Gauged overall price := forall_congr' fun price => imp_congr_left same.mem_iff
    by_cases gauged : ∀ price ∈ prices, Gauged overall price
    · rw [crossCheck_gauged computed gauged, crossCheck_gauged agreed.symm (gauging.mp gauged)]
      exact conclude_congr (same.filter _)
    · rw [crossCheck_trap computed gauged, crossCheck_trap agreed.symm (mt gauging.mpr gauged)]

theorem crossCheck_close (computed : median prices = .ok overall)
    (ran : crossCheck maxDeviation prices = .ok result) :
    ∃ price ∈ prices, isClose overall maxDeviation price = true ∧
      |result - overall| ≤ |price - overall| := by
  obtain ⟨center, found, _, finished⟩ := crossCheck_eq_ok.mp ran
  obtain rfl : overall = center := Except.ok.inj (computed.symm.trans found)
  obtain ⟨left, right, middles, above, below⟩ := median_spec finished
  obtain ⟨leftmost, rightmost⟩ := middles.members
  obtain ⟨reportedLeft, closeLeft⟩ := List.mem_filter.mp leftmost
  obtain ⟨reportedRight, closeRight⟩ := List.mem_filter.mp rightmost
  have bounded := abs_le_max_abs_abs (sub_le_sub_right above overall)
    (sub_le_sub_right below overall)
  rcases le_total |left - overall| |right - overall| with nearer | nearer
  · exact ⟨right, reportedRight, closeRight, max_eq_right nearer ▸ bounded⟩
  · exact ⟨left, reportedLeft, closeLeft, max_eq_left nearer ▸ bounded⟩

variable {host : PriceHost} {clock : Clock} {oracle : OracleStore} {feed : OracleFeedType}
  {token : Address}

/-- A read with the average switched off, from two sources or more. -/
theorem getVerifiedPrice_spot (healthy : requireHealthyPriceFeed oracle feed token = .ok ())
    (spot : oracle.twapEnabled feed = false)
    (several : 2 ≤ (reportedPrices host oracle feed token).length) :
    getVerifiedPrice host clock oracle feed token =
      crossCheck (getMaxPriceDeviationBps oracle) (reportedPrices host oracle feed token) := by
  simp only [getVerifiedPrice, healthy, spot, Bool.false_eq_true, if_false]
  change spotPrice host oracle feed token = _
  unfold spotPrice
  split
  · rename_i none
    simp [none] at several
  · rename_i one
    simp [one] at several
  · rfl

/-- The same store with the sources of a feed listed in another way. -/
def OracleStore.relist (oracle : OracleStore) (feed : OracleFeedType) (sources : List Address) :
    OracleStore :=
  { oracle with priceSources := Function.update oracle.priceSources feed sources }

end Reads

section Configuration

variable {contract : Address}

def DeviationBounded (oracle : OracleStore) : Prop := ∀ bps ∈ oracle.maxPriceDeviationBps,
    bps ≤ 10000

theorem OnChannel.deviation {feed : OracleFeedType} {token : Address} {before after : OracleStore}
    (written : OnChannel feed token before after) : after.maxPriceDeviationBps =
      before.maxPriceDeviationBps :=
  (congrArg OracleStore.maxPriceDeviationBps written.rest :)

theorem step_deviation (world : World) (action : Action contract)
    (bounded : DeviationBounded world.control.oracle) :
    DeviationBounded (step world action).control.oracle := by
  intro bps stored
  cases step_oracle world action with
  | quiet _ written =>
    obtain ⟨_, _, written⟩ := written
    rw [written.deviation] at stored
    exact bounded bps stored
  | sets setting _ ran =>
    rcases (invokeControl_sets setting ran).deviation bps stored with most | earlier
    · exact most
    · exact bounded bps earlier

theorem exec_deviation (clock : Clock) (balance : Balances) (actions : List (Action contract)) :
    DeviationBounded (reach clock balance actions).control.oracle :=
  invariant (fun world : World => DeviationBounded world.control.oracle)
    (fun world action bounded => step_deviation world action bounded) actions
    ((by rintro _ ⟨⟩))

theorem DeviationBounded.lt_u32Max {oracle : OracleStore} (bounded : DeviationBounded oracle) :
    getMaxPriceDeviationBps oracle < u32Max := by
  unfold getMaxPriceDeviationBps
  cases stored : oracle.maxPriceDeviationBps with
  | none => decide
  | some bps =>
    have most := bounded bps stored
    simp only [Option.getD_some, u32Max]
    omega

end Configuration

section Robustness

variable {contract : Address}

def WithinBps (maxDeviation : Nat) (center price : Int) : Prop :=
  price = center ∨ |price - center| * 10000 < (maxDeviation + 1) * |center|

/-- The measure of the source bounds the exact deviation, when nothing saturates. -/
theorem withinBps_of_close {price overall : Int} {deviation maxDeviation : Nat}
    (measured : deviationBps price overall = .ok deviation) (close : deviation ≤ maxDeviation)
    (bounded : maxDeviation < u32Max) (unclipped : Fits i128 (|price - overall| * 10000)) :
    WithinBps maxDeviation overall price := by
  by_cases zero : overall = 0
  · subst zero
    rw [deviationBps_zero] at measured
    by_cases same : price = 0
    · exact .inl same
    · rw [if_neg same] at measured
      obtain rfl : u32Max = deviation := Except.ok.inj measured
      omega
  · obtain ⟨_, _, _, rfl⟩ := (deviationBps_eq_ok zero).mp measured
    exact .inr (lt_of_bpsOf_le (abs_nonneg _) (abs_pos.mpr zero) unclipped close bounded)

theorem crossCheck_within {prices : List Int} {overall result : Int} {maxDeviation : Nat}
    (computed : median prices = .ok overall)
    (unclipped : ∀ price ∈ prices, Fits i128 (|price - overall| * 10000))
    (bounded : maxDeviation < u32Max) (ran : crossCheck maxDeviation prices = .ok result) :
    (∃ deviation, deviationBps result overall = .ok deviation ∧ deviation ≤ maxDeviation) ∧
      WithinBps maxDeviation overall result := by
  obtain ⟨price, reported, close, nearer⟩ := crossCheck_close computed ran
  obtain ⟨most, measured, allowed⟩ := isClose_spec close
  obtain ⟨deviation, gauged, less⟩ := deviationBps_mono nearer measured
  have fits : Fits i128 (|result - overall| * 10000) :=
    fits_of_nonneg_le (unclipped price reported) (by positivity) (by omega)
  exact ⟨⟨deviation, gauged, less.trans allowed⟩, withinBps_of_close gauged
    (less.trans allowed) bounded fits⟩

/-- A spot price read from two sources or more does not depend on their order, deviates from the
median of what they report by no more than is configured, and that median lies wherever a strict
majority of them does. -/
theorem verified_price_robust (clock : Clock) (balance : Balances)
    (actions : List (Action contract)) (oracle : OracleStore) (host : PriceHost) (now : Clock)
    (feed : OracleFeedType) (token : Address)
    (reached : (reach clock balance actions).control.oracle = oracle)
    (healthy : requireHealthyPriceFeed oracle feed token = .ok ())
    (spot : oracle.twapEnabled feed = false)
    (several : 2 ≤ (reportedPrices host oracle feed token).length) :
    (∀ sources, sources.Perm (oracle.priceSources feed) →
      getVerifiedPrice host now (oracle.relist feed sources) feed token =
        getVerifiedPrice host now oracle feed token) ∧
    ∀ overall, median (reportedPrices host oracle feed token) = .ok overall →
      (∀ price ∈ reportedPrices host oracle feed token, Fits i128 (|price - overall| * 10000)) →
      (∀ result, getVerifiedPrice host now oracle feed token = .ok result →
        (∃ deviation, deviationBps result overall = .ok deviation ∧
          deviation ≤ getMaxPriceDeviationBps oracle) ∧
          WithinBps (getMaxPriceDeviationBps oracle) overall result) ∧
      ∀ low high, (reportedPrices host oracle feed token).length <
          2 * (reportedPrices host oracle feed token).countP
        (fun price => low ≤ price ∧ price ≤ high) → low ≤ overall ∧ overall ≤ high := by
  constructor
  · intro sources same
    have reported : (reportedPrices host (oracle.relist feed sources) feed token).Perm
        (reportedPrices host oracle feed token) := by
      simp only [reportedPrices, OracleStore.relist, Function.update_self]
      exact same.filterMap _
    have relisted : getVerifiedPrice host now (oracle.relist feed sources) feed token =
      crossCheck _ _ := getVerifiedPrice_spot healthy spot (reported.length_eq ▸ several)
    rw [relisted, getVerifiedPrice_spot healthy spot several]
    exact crossCheck_congr reported
  · intro overall computed unclipped
    constructor
    · intro result ran
      rw [getVerifiedPrice_spot healthy spot several] at ran
      have bounded := (reached ▸ exec_deviation clock balance actions :
        DeviationBounded oracle).lt_u32Max
      exact crossCheck_within computed unclipped bounded ran
    · intro low high majority
      exact median_inside computed majority

def quote (answers : List (Nat × Int)) (source : Address) : Option Int :=
  (answers.lookup source.key).filter fun price => decide (Fits i128 price)

def quoting (answers : List (Nat × Int)) : PriceHost where
  price source _ := quote answers source
  typed _ _ _ quoted := of_decide_eq_true (Option.filter_eq_some_iff.mp quoted).2

def listSource (source : Nat) : List (Action ⟨0⟩) :=
  [signedBy [1] (.addPriceSource .price ⟨source⟩), .advance 100000 20000]

def pricedMarket (sources : List Nat) : OracleStore :=
  (traded (opening :: sources.flatMap listSource)).control.oracle

/-- Three sources agree and the fourth is rejected. -/
theorem verified_price_robust_of_pricedMarket :
    let host := quoting [(20, 100000), (21, 101000), (22, 103000), (23, 900000)]
    let oracle := pricedMarket [20, 21, 22, 23]
    getVerifiedPrice host ⟨0, 0⟩ (oracle.relist .price [⟨23⟩, ⟨21⟩, ⟨22⟩, ⟨20⟩]) .price ⟨10⟩ =
      .ok 101000 ∧
      WithinBps (getMaxPriceDeviationBps oracle) 102000 101000 ∧ (100000 : Int) ≤ 102000 ∧
      (102000 : Int) ≤ 103000 := by
  intro host oracle
  have robust := verified_price_robust ⟨1000, 10⟩ marketBalances _ oracle host
    ⟨0, 0⟩ .price ⟨10⟩ rfl (by decide +kernel) (by decide +kernel) (by decide +kernel)
  have ran : getVerifiedPrice host ⟨0, 0⟩ oracle .price ⟨10⟩ = .ok 101000 := by decide +kernel
  obtain ⟨close, inside⟩ := robust.2 102000 (by decide +kernel) (by decide +kernel)
  exact ⟨(robust.1 _ (by decide +kernel)).trans ran, (close _ ran).2,
    inside 100000 103000 (by decide +kernel)⟩

end Robustness

section SingleSource

variable {values : List Int} {low high overall price : Int} {maxDeviation : Nat}

structure AllButOne (low high : Int) (values : List Int) : Prop where
  several : 2 ≤ values.countP (fun value => low ≤ value ∧ value ≤ high)
  most : values.length ≤ values.countP (fun value => low ≤ value ∧ value ≤ high) + 1

structure Agreeing (low high : Int) : Prop where
  positive : 1 ≤ low
  least : high ≤ 10 ^ 30
  together : 100 * high ≤ 101 * low

theorem fits_of_small {value : Int} (least : -(2 * 10 ^ 30) ≤ value) (most : value ≤ 2 * 10 ^ 30) :
    Fits i128 value := by
  simp only [Fits, i128]
  omega

theorem AllButOne.ordered (others : AllButOne low high values) : low ≤ high := by
  have several := others.several
  obtain ⟨_, _, inside⟩ := List.countP_pos_iff.mp
    (Nat.lt_of_lt_of_le (Nat.zero_lt_succ 1) several)
  exact (of_decide_eq_true inside).1.trans (of_decide_eq_true inside).2

theorem AllButOne.median_ok (others : AllButOne low high values) (agreeing : Agreeing low high) :
    ∃ middle, median values = .ok middle ∧ low ≤ middle ∧ middle ≤ high := by
  have majority : values.length < 2 * values.countP (fun value => low ≤ value ∧ value ≤ high) := by
    have several := others.several
    have most := others.most
    omega
  have ordered := others.ordered
  obtain ⟨positive, least, _⟩ := agreeing
  obtain ⟨middle, computed⟩ := median_returns majority (fits_of_small (by omega) (by omega))
    (fits_of_small (by omega) (by omega))
  exact ⟨middle, computed, median_inside computed majority⟩

theorem AllButOne.filter {kept : Int → Bool} (others : AllButOne low high values)
    (keeps : ∀ value, low ≤ value → value ≤ high → kept value = true) :
    AllButOne low high (values.filter kept) := by
  have same : (values.filter kept).countP (fun value => low ≤ value ∧ value ≤ high) =
      values.countP (fun value => low ≤ value ∧ value ≤ high) := by
    rw [List.countP_filter]
    refine List.countP_congr fun value _ => ?_
    simp only [Bool.and_eq_true, decide_eq_true_eq, and_iff_left_iff_imp]
    exact fun inside => keeps value inside.1 inside.2
  refine ⟨same ▸ others.several, ?_⟩
  rw [same]
  exact (List.length_filter_le _ _).trans others.most

theorem gauged_iff (typed : Fits i128 price) (positive : 1 ≤ overall) (small : overall ≤ 10 ^ 30) :
    Gauged overall price ↔ i128.lo < price - overall := by
  have nonzero : overall ≠ 0 := by omega
  simp only [Gauged, deviationBps_eq_ok nonzero, exists_and_left, exists_eq, and_true]
  rw [abs_of_pos (show 0 < overall by omega)]
  simp only [Fits, i128] at typed ⊢
  rcases abs_cases (price - overall) with ⟨same, _⟩ | ⟨same, _⟩ <;> rw [same] <;> omega

theorem isClose_of_inside (agreeing : Agreeing low high) (above : low ≤ price)
    (below : price ≤ high) (least : low ≤ overall) (most : overall ≤ high)
    (allowed : 200 ≤ maxDeviation) : isClose overall maxDeviation price = true := by
  obtain ⟨positive, small, together⟩ := agreeing
  have nonzero : overall ≠ 0 := by omega
  have distance : |price - overall| ≤ high - low := abs_le.mpr ⟨by omega, by omega⟩
  have start := abs_nonneg (price - overall)
  have magnitude : |overall| = overall := abs_of_pos (by omega)
  have measured : deviationBps price overall = .ok (bpsOf |price - overall| |overall|) :=
    (deviationBps_eq_ok nonzero).mpr ⟨fits_of_small (by omega) (by omega),
      fits_of_small (by omega) (by omega), fits_of_small (by omega) (by omega), rfl⟩
  have close : bpsOf |price - overall| |overall| ≤ 100 := by
    have unclipped : Fits i128 (|price - overall| * 10000) := by
      simp only [Fits, i128]
      omega
    rw [bpsOf, saturate_of_fits unclipped, magnitude, Int.tdiv_eq_ediv_of_nonneg (by omega)]
    have quotient : |price - overall| * 10000 / overall ≤ 100 :=
      Int.ediv_le_of_le_mul (by omega) (by omega)
    omega
  simp only [isClose, measured, decide_eq_true_eq]
  omega

theorem AllButOne.crossCheck_ok_iff (others : AllButOne low high values)
    (agreeing : Agreeing low high) (allowed : 200 ≤ maxDeviation)
    (computed : median values = .ok overall) (least : low ≤ overall) (most : overall ≤ high) :
    (∃ result, crossCheck maxDeviation values = .ok result) ↔ ∀ price ∈ values,
      Gauged overall price := by
  constructor
  · rintro ⟨result, ran⟩
    obtain ⟨center, found, gauged, _⟩ := crossCheck_eq_ok.mp ran
    obtain rfl : overall = center := Except.ok.inj (computed.symm.trans found)
    exact gauged
  · intro gauged
    have left : AllButOne low high (values.filter (isClose overall maxDeviation)) :=
      others.filter fun value above below => isClose_of_inside agreeing above below least
      most allowed
    obtain ⟨result, finished, _⟩ := left.median_ok agreeing
    exact ⟨result, crossCheck_eq_ok.mpr ⟨overall, computed, gauged, finished⟩⟩

variable {host : PriceHost} {sources before after : List Address} {bad token : Address}

theorem countP_answers
    (answer : ∀ source ∈ sources, ∃ price ∈ host.price source token, low ≤ price ∧ price ≤ high) :
    (sources.filterMap fun source => host.price source token).countP
      (fun price => low ≤ price ∧ price ≤ high) = sources.length := by
  induction sources with
  | nil => rfl
  | cons source rest ih =>
    obtain ⟨price, reported, inside⟩ := answer source List.mem_cons_self
    rw [List.filterMap_cons_some (by exact reported),
      List.countP_cons_of_pos (by exact decide_eq_true inside), List.length_cons,
      ih fun other member => answer other (List.mem_cons_of_mem _ member)]

theorem allButOne_reported (others : 2 ≤ (before ++ after).length)
    (answer : ∀ source ∈ before ++ after, ∃ price ∈ host.price source token, low ≤ price ∧
      price ≤ high) :
    AllButOne low high ((before ++ bad :: after).filterMap
      fun source => host.price source token) := by
  have swapped : ((before ++ bad :: after).filterMap fun source => host.price source token).Perm
      ((bad :: (before ++ after)).filterMap fun source => host.price source token) :=
    List.perm_middle.filterMap _
  have counted := countP_answers answer
  have all := List.length_filterMap_le (fun source => host.price source token) (before ++ after)
  cases reported : host.price bad token with
  | none =>
    rw [List.filterMap_cons_none (by exact reported)] at swapped
    refine ⟨?_, ?_⟩
    · rw [swapped.countP_eq, counted]
      exact others
    · rw [swapped.countP_eq, swapped.length_eq, counted]
      omega
  | some =>
    rw [List.filterMap_cons_some (by exact reported)] at swapped
    refine ⟨?_, ?_⟩
    · rw [swapped.countP_eq, List.countP_cons, counted]
      omega
    · rw [swapped.countP_eq, swapped.length_eq, List.countP_cons, counted, List.length_cons]
      omega

/-- With all sources but one in agreement, a spot price is read unless the remaining one reports a
price so low that its difference to the median is not an `i128` whose absolute value is one. -/
theorem verified_price_ok_iff (host : PriceHost) (clock : Clock) (oracle : OracleStore)
    (feed : OracleFeedType) (bad token : Address) (before after : List Address) (low high : Int)
    (healthy : requireHealthyPriceFeed oracle feed token = .ok ())
    (spot : oracle.twapEnabled feed = false) (allowed : 200 ≤ getMaxPriceDeviationBps oracle)
    (registered : oracle.priceSources feed = before ++ bad :: after)
    (others : 2 ≤ (before ++ after).length) (agreeing : Agreeing low high)
    (answer : ∀ source ∈ before ++ after, ∃ price ∈ host.price source token, low ≤ price ∧
      price ≤ high) :
    ∃ overall, median (reportedPrices host oracle feed token) = .ok overall ∧ low ≤ overall ∧
      overall ≤ high ∧ ((∃ result, getVerifiedPrice host clock oracle feed token = .ok result) ↔
        ∀ price ∈ host.price bad token, i128.lo < price - overall) := by
  have most : AllButOne low high (reportedPrices host oracle feed token) := by
    rw [reportedPrices, registered]
    exact allButOne_reported others answer
  obtain ⟨overall, computed, least, greatest⟩ := most.median_ok agreeing
  refine ⟨overall, computed, least, greatest, ?_⟩
  have several : 2 ≤ (reportedPrices host oracle feed token).length :=
    most.several.trans List.countP_le_length
  rw [getVerifiedPrice_spot healthy spot several, most.crossCheck_ok_iff agreeing allowed computed
    least greatest]
  have gauging (source : Address) (price : Int) (reported : host.price source token = some price) :
      Gauged overall price ↔ i128.lo < price - overall :=
    gauged_iff (host.typed source token price reported) (agreeing.positive.trans least)
      (greatest.trans agreeing.least)
  constructor
  · intro gauged price reported
    refine (gauging bad price reported).mp
      (gauged price (List.mem_filterMap.mpr ⟨bad, ?_, reported⟩))
    rw [registered]
    exact List.mem_append_right _ List.mem_cons_self
  · intro bounded price member
    obtain ⟨source, listed, reported⟩ := List.mem_filterMap.mp member
    rw [registered, List.perm_middle.mem_iff, List.mem_cons] at listed
    rw [gauging source price reported]
    rcases listed with rfl | other
    · exact bounded price reported
    · obtain ⟨answered, found, above, _⟩ := answer source other
      obtain rfl : price = answered := Option.some.inj (reported.symm.trans found)
      have together := agreeing.together
      have small := agreeing.least
      have positive := agreeing.positive
      simp only [i128]
      omega

theorem verified_price_ok_iff_of_pricedMarket :
    let host := quoting [(20, 100000), (21, 101000), (22, 7)]
    ∃ overall, median (reportedPrices host (pricedMarket [20, 21, 22]) .price ⟨10⟩) = .ok overall ∧
      100000 ≤ overall ∧ overall ≤ 101000 ∧
      ((∃ result, getVerifiedPrice host ⟨0, 0⟩ (pricedMarket [20, 21, 22]) .price ⟨10⟩ =
        .ok result) ↔
        ∀ price ∈ host.price ⟨22⟩ ⟨10⟩, i128.lo < price - overall) :=
  verified_price_ok_iff _ ⟨0, 0⟩ _ .price ⟨22⟩ ⟨10⟩ [⟨20⟩, ⟨21⟩] [] 100000 101000
  (by decide +kernel)
    (by decide +kernel) (by decide +kernel) (by decide +kernel) (by decide)
    ⟨by decide, by decide, by decide⟩
    (by decide +kernel)

/-- The lowest price an `i128` can hold traps the read that two agreeing sources support. -/
theorem lowest_price_traps :
    let oracle := pricedMarket [20, 21, 22]
    requireHealthyPriceFeed oracle .price ⟨10⟩ = .ok () ∧ oracle.twapEnabled .price = false ∧
      getMaxPriceDeviationBps oracle = 500 ∧ oracle.priceSources .price = [⟨20⟩, ⟨21⟩, ⟨22⟩] ∧
      getVerifiedPrice (quoting [(20, 100000), (21, 101000), (22, i128.lo)]) ⟨0, 0⟩ oracle .price
        ⟨10⟩ = .error .trap := by
  decide +kernel

end SingleSource

end InvoiceLiquidity
