import Mathlib.Algebra.BigOperators.Group.List.Basic
import Mathlib.Algebra.Order.Ring.Int

/-! Weighted means of integers, rounded towards zero. A mean of values between two bounds lies
between them, also after the division has been truncated. -/
namespace Averages

def weightedSum (parts : List (Int × Nat)) : Int :=
  (parts.map fun part => part.1 * (part.2 : Int)).sum

def weightSum (parts : List (Int × Nat)) : Nat := (parts.map Prod.snd).sum

section Sums

variable {part : Int × Nat} {parts : List (Int × Nat)}

@[simp] theorem weightedSum_nil : weightedSum [] = 0 := rfl

@[simp] theorem weightSum_nil : weightSum [] = 0 := rfl

@[simp] theorem weightedSum_cons : weightedSum (part :: parts) =
    part.1 * part.2 + weightedSum parts := by
  simp [weightedSum]

@[simp] theorem weightSum_cons : weightSum (part :: parts) = part.2 + weightSum parts := by
  simp [weightSum]

theorem weightedSum_between {low high : Int}
    (between : ∀ part ∈ parts, low ≤ part.1 ∧ part.1 ≤ high) :
    low * weightSum parts ≤ weightedSum parts ∧ weightedSum parts ≤ high * weightSum parts := by
  induction parts with
  | nil => simp
  | cons part parts ih =>
    obtain ⟨above, below⟩ := between part List.mem_cons_self
    obtain ⟨lower, upper⟩ := ih fun other member => between other (List.mem_cons_of_mem _ member)
    have weight : (0 : Int) ≤ part.2 := Int.natCast_nonneg _
    have least := mul_le_mul_of_nonneg_right above weight
    have most := mul_le_mul_of_nonneg_right below weight
    rw [weightedSum_cons, weightSum_cons, Nat.cast_add, mul_add, mul_add]
    exact ⟨add_le_add least lower, add_le_add most upper⟩

theorem weightedSum_nonneg (nonneg : ∀ part ∈ parts, 0 ≤ part.1) : 0 ≤ weightedSum parts := by
  induction parts with
  | nil => exact le_rfl
  | cons part parts ih =>
    rw [weightedSum_cons]
    have first := mul_nonneg (nonneg part List.mem_cons_self) (Int.natCast_nonneg part.2)
    exact add_nonneg first (ih fun other member => nonneg other (List.mem_cons_of_mem _ member))

end Sums

theorem exists_extremes {values : List Int} (occupied : values ≠ []) :
    ∃ low ∈ values, ∃ high ∈ values, ∀ value ∈ values, low ≤ value ∧ value ≤ high := by
  induction values with
  | nil => exact absurd rfl occupied
  | cons first rest ih =>
    by_cases single : rest = []
    · subst single
      refine ⟨first, List.mem_cons_self, first, List.mem_cons_self, ?_⟩
      intro value member
      rw [List.mem_singleton.mp member]
      exact ⟨le_rfl, le_rfl⟩
    · obtain ⟨low, least, high, most, between⟩ := ih single
      refine ⟨min first low, ?_, max first high, ?_, ?_⟩
      · rcases min_choice first low with same | same <;> rw [same]
        · exact List.mem_cons_self
        · exact List.mem_cons_of_mem _ least
      · rcases max_choice first high with same | same <;> rw [same]
        · exact List.mem_cons_self
        · exact List.mem_cons_of_mem _ most
      · intro value member
        rcases List.mem_cons.mp member with rfl | later
        · exact ⟨min_le_left _ _, le_max_left _ _⟩
        · obtain ⟨above, below⟩ := between value later
          exact ⟨(min_le_right _ _).trans above, below.trans (le_max_right _ _)⟩

theorem tdiv_between {low high sum weight : Int} (positive : 0 < weight)
    (above : low * weight ≤ sum) (below : sum ≤ high * weight) :
    low ≤ sum.tdiv weight ∧ sum.tdiv weight ≤ high := by
  rcases le_total 0 sum with nonneg | nonpos
  · rw [Int.tdiv_eq_ediv_of_nonneg nonneg]
    refine ⟨(Int.le_ediv_iff_mul_le positive).mpr above, ?_⟩
    exact Int.ediv_le_of_le_mul positive below
  · -- the quotient of the opposite number is rounded down, so this one is rounded up
    have mirrored : sum.tdiv weight = -((-sum) / weight) := by
      rw [← Int.tdiv_eq_ediv_of_nonneg (neg_nonneg.mpr nonpos), Int.neg_tdiv, neg_neg]
    have least : (-sum) / weight ≤ -low := by
      apply Int.ediv_le_of_le_mul positive
      rw [neg_mul]
      exact neg_le_neg above
    have most : -high ≤ (-sum) / weight := by
      apply (Int.le_ediv_iff_mul_le positive).mpr
      rw [neg_mul]
      exact neg_le_neg below
    rw [mirrored]
    exact ⟨le_neg_of_le_neg least, neg_le_of_neg_le most⟩

theorem mean_between {low high : Int} {parts : List (Int × Nat)} (weighs : 0 < weightSum parts)
    (between : ∀ part ∈ parts, low ≤ part.1 ∧ part.1 ≤ high) :
    low ≤ (weightedSum parts).tdiv (weightSum parts) ∧ (weightedSum parts).tdiv (weightSum parts) ≤
      high := by
  obtain ⟨above, below⟩ := weightedSum_between between
  exact tdiv_between (Int.natCast_pos.mpr weighs) above below

end Averages
