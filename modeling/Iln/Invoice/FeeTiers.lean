import Mathlib.Data.List.Induction
import Iln.Invoice.Effect

/-! Fee tiers. `effective_fee_rate` keeps the rate of the last tier reached in list order, which is
right at every amount when the list is sorted, and otherwise exactly where that tier charges like
one with the greatest minimum. `update_fee_tiers` checks the length of the list and nothing else, so
the order is the caller's. -/
namespace InvoiceLiquidity

open Outcome Transition

def Selects (tiers : List (Int × Nat)) (amount : Int) (rate : Nat) : Prop :=
  (∃ tier ∈ tiers, tier.1 ≤ amount ∧ tier.2 = rate ∧ ∀ other ∈ tiers, other.1 ≤ amount →
    other.1 ≤ tier.1) ∨
    (∀ tier ∈ tiers, amount < tier.1) ∧ rate = 0

instance (tiers : List (Int × Nat)) (amount : Int) (rate : Nat) :
    Decidable (Selects tiers amount rate) :=
  inferInstanceAs (Decidable (_ ∨ _))

def SortedByMinimum (tiers : List (Int × Nat)) : Prop := tiers.Pairwise fun low high => low.1 ≤
    high.1

instance (tiers : List (Int × Nat)) : Decidable (SortedByMinimum tiers) :=
  inferInstanceAs (Decidable (tiers.Pairwise _))

def reached (tiers : List (Int × Nat)) (amount : Int) : List (Int × Nat) :=
    tiers.filter (·.1 ≤ amount)

/-- The last tier reached, if there is one, has the rate of a reached tier with the greatest
minimum. -/
def LastReachedTops (tiers : List (Int × Nat)) (amount : Int) : Prop :=
  ∀ last ∈ (reached tiers amount).getLast?,
    ∃ best ∈ reached tiers amount, best.2 = last.2 ∧ ∀ other ∈ reached tiers amount,
      other.1 ≤ best.1

instance (tiers : List (Int × Nat)) (amount : Int) : Decidable (LastReachedTops tiers amount) :=
  inferInstanceAs (Decidable (∀ last ∈ (reached tiers amount).getLast?, _))

section Selection

variable {tiers : List (Int × Nat)} {tier : Int × Nat} {amount : Int} {rate : Nat}

theorem mem_reached : tier ∈ reached tiers amount ↔ tier ∈ tiers ∧ tier.1 ≤ amount := by
  simp [reached]

/-- The loop returns the rate of the last tier it reaches. -/
theorem foldl_reached (tiers : List (Int × Nat)) (amount : Int) :
    tiers.foldl (fun best tier => if tier.1 ≤ amount then tier.2 else best) 0 =
      ((reached tiers amount).getLast?.map Prod.snd).getD 0 := by
  induction tiers using List.reverseRecOn with
  | nil => rfl
  | append_singleton earlier last ih =>
    rw [List.foldl_append, List.foldl_cons, List.foldl_nil, reached, List.filter_append]
    by_cases under : last.1 ≤ amount
    · simp [under]
    · simp [under, ih, reached]

theorem foldl_selects_iff (tiers : List (Int × Nat)) (amount : Int) :
    Selects tiers amount
        (tiers.foldl (fun best tier => if tier.1 ≤ amount then tier.2 else best) 0) ↔
      LastReachedTops tiers amount := by
  rw [foldl_reached, LastReachedTops]
  cases final : (reached tiers amount).getLast? with
  | none =>
    have none : reached tiers amount = [] := List.getLast?_eq_none_iff.mp final
    refine iff_of_true (.inr ⟨fun tier member => ?_, rfl⟩) ((by rintro _ ⟨⟩))
    by_contra under
    have present := mem_reached.mpr ⟨member, not_lt.mp under⟩
    rw [none] at present
    exact absurd present List.not_mem_nil
  | some last =>
    obtain ⟨found, under⟩ := mem_reached.mp (List.mem_of_getLast? final)
    simp only [Option.map_some, Option.getD_some, Option.mem_def, Option.some.injEq, forall_eq']
    constructor
    · rintro (⟨best, member, below, same, greatest⟩ | ⟨none, _⟩)
      · exact ⟨best, mem_reached.mpr ⟨member, below⟩, same, fun other reached =>
          greatest other (mem_reached.mp reached).1 (mem_reached.mp reached).2⟩
      · exact absurd under (not_le.mpr (none last found))
    · rintro ⟨best, member, same, greatest⟩
      obtain ⟨member, below⟩ := mem_reached.mp member
      exact .inl ⟨best, member, below, same, fun other present low =>
        greatest other (mem_reached.mpr ⟨present, low⟩)⟩

theorem SortedByMinimum.lastReachedTops (sorted : SortedByMinimum tiers) (amount : Int) :
    LastReachedTops tiers amount := by
  intro last final
  obtain ⟨_, split⟩ := List.getLast?_eq_some_iff.mp final
  refine ⟨last, List.mem_of_getLast? final, rfl, fun other member => ?_⟩
  have ordered : (reached tiers amount).Pairwise fun low high => low.1 ≤ high.1 := sorted.filter _
  rw [split] at ordered member
  rcases List.mem_append.mp member with earlier | same
  · exact (List.pairwise_append.mp ordered).2.2 other earlier last List.mem_cons_self
  · rw [List.mem_singleton.mp same]

variable {permuted : List (Int × Nat)}

theorem Selects.perm (same : permuted.Perm tiers)
    (selected : Selects tiers amount rate) : Selects permuted amount rate := by
  unfold Selects at selected ⊢
  simpa only [same.mem_iff] using selected

/-- With distinct minima the rate does not depend on the order of the list. -/
theorem Selects.unique {other : Nat} (same : permuted.Perm tiers)
    (distinct : (tiers.map Prod.fst).Nodup) (first : Selects tiers amount rate)
    (second : Selects permuted amount other) : other = rate := by
  rcases first with ⟨best, member, reached, rfl, greatest⟩ | ⟨none, rfl⟩
  · rcases second with ⟨rival, found, under, rfl, largest⟩ | ⟨none, rfl⟩
    · have minima : rival.1 = best.1 :=
        le_antisymm (greatest rival (same.mem_iff.mp found) under)
          (largest best (same.mem_iff.mpr member) reached)
      rw [List.inj_on_of_nodup_map distinct (same.mem_iff.mp found) member minima]
    · exact absurd reached (not_le.mpr (none best (same.mem_iff.mpr member)))
  · rcases second with ⟨rival, found, under, rfl, _⟩ | ⟨_, rfl⟩
    · exact absurd under (not_le.mpr (none rival (same.mem_iff.mp found)))
    · rfl

end Selection

variable {contract : Address}

variable {tiers : List (Int × Nat)}

theorem effectiveFeeRate_selects_iff {control : Control}
    (stored : control.feeTiers = tiers) (nonempty : tiers ≠ []) (amount : Int) :
    Selects tiers amount (effectiveFeeRate control amount) ↔ LastReachedTops tiers amount := by
  unfold effectiveFeeRate
  rw [stored, if_neg nonempty]
  exact foldl_selects_iff tiers amount

/-- A list that the contract has accepted charges an invoice by the highest tier it reaches exactly
if the last tier reached charges like the highest one, as it does in every sorted list. A reordering
of such a list, with distinct minima, charges the same exactly if its last tier reached does so
too. -/
theorem fee_selected_iff (env : Env contract) (clock : Clock) (before stored control : Control)
    (tiers : List (Int × Nat)) (nonempty : tiers ≠ [])
    (accepted : updateFeeTiers env clock before tiers = .ok stored)
    (kept : control.feeTiers = stored.feeTiers) (amount : Int) :
    (Selects tiers amount (effectiveFeeRate control amount) ↔ LastReachedTops tiers amount) ∧
      (SortedByMinimum tiers → LastReachedTops tiers amount) ∧
      ∀ other : Control, other.feeTiers.Perm tiers → (tiers.map Prod.fst).Nodup →
        LastReachedTops tiers amount →
        (effectiveFeeRate other amount = effectiveFeeRate control amount ↔
          LastReachedTops other.feeTiers amount) := by
  simp only [updateFeeTiers, ok_iff] at accepted
  obtain ⟨_, _, _, _, _, _, rfl⟩ := accepted
  have selects := effectiveFeeRate_selects_iff kept nonempty amount
  refine ⟨selects, fun sorted => sorted.lastReachedTops amount, fun other same distinct tops => ?_⟩
  have present : other.feeTiers ≠ [] := fun empty =>
    nonempty (same.symm.trans (empty ▸ .refl _)).eq_nil
  have rival := effectiveFeeRate_selects_iff rfl present amount
  constructor
  · intro equal
    rw [← rival, equal]
    exact (selects.mpr tops).perm same
  · intro sound
    exact (selects.mpr tops).unique same distinct (rival.mpr sound)

def openedMarket : World := traded (openingCalls 1000000 300)

def volumeTiers : List (Int × Nat) := [(0, 50), (1000000, 10)]

def storedTiers (tiers : List (Int × Nat)) : World :=
    step openedMarket (signedBy [1] (.updateFeeTiers tiers))

/-- An unsorted list is right at an amount that reaches only its last tier. -/
theorem fee_selected_iff_of_reversedTiers :
    Selects volumeTiers.reverse 5
      (effectiveFeeRate (storedTiers volumeTiers.reverse).control 5) := by
  have finished : succeeds openedMarket (signedBy [1] (.updateFeeTiers volumeTiers.reverse)) =
      true := by
    decide +kernel
  have ran := invoke_of_succeeds finished
  simp only [invoke, invokeControl, ok_iff] at ran
  obtain ⟨_, _, control, accepted, same⟩ := ran
  exact (fee_selected_iff _ openedMarket.clock openedMarket.control control
    (storedTiers volumeTiers.reverse).control volumeTiers.reverse (by decide) accepted
    (congrArg (fun world => world.control.feeTiers) same.symm) 5).1.mpr (by decide)

/-- The same tiers the other way round are accepted as well, and charge the large invoice the rate
of the small ones. -/
theorem reversed_tiers_overcharge :
    succeeds openedMarket (signedBy [1] (.updateFeeTiers volumeTiers.reverse)) = true ∧
      (volumeTiers.map Prod.fst).Nodup ∧
      effectiveFeeRate (storedTiers volumeTiers).control 2000000 = 10 ∧
      effectiveFeeRate (storedTiers volumeTiers.reverse).control 2000000 = 50 ∧
      ¬ Selects volumeTiers.reverse 2000000 50 := by
  decide +kernel

end InvoiceLiquidity
