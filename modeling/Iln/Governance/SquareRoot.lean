import Iln.Governance.Voting

/-! The integer square root of the quadratic vote weights over the whole range of `i128`. The search
keeps the root in an interval that halves in every round; at the largest number the first midpoint
is clamped, and the search is run. -/
namespace IlnGovernance

open FixedWidth

variable {n root lo hi : Int} {rounds : Nat}

def IsRoot (n root : Int) : Prop := 0 ≤ root ∧ root * root ≤ n ∧ n < (root + 1) * (root + 1)

instance (n root : Int) : Decidable (IsRoot n root) := inferInstanceAs (Decidable (_ ∧ _ ∧ _))

theorem IsRoot.unique {other : Int} (here : IsRoot n root) (there : IsRoot n other) :
    other = root := by
  obtain ⟨nonneg, below, above⟩ := here
  obtain ⟨positive, less, more⟩ := there
  have high : other < root + 1 := lt_of_mul_self_lt_mul_self₀ (by omega) (by omega)
  have low : root < other + 1 := lt_of_mul_self_lt_mul_self₀ (by omega) (by omega)
  omega

theorem midpoint_exact (low : 0 ≤ lo) (ordered : lo ≤ hi) (room : hi < i128.hi) :
    saturate i128 (lo + saturate i128 (saturate i128 (hi - lo) + 1) / 2) =
      lo + (hi - lo + 1) / 2 := by
  have fits : ∀ value, 0 ≤ value → value ≤ hi + 1 → Fits i128 value := fun value nonneg small =>
    fits_of_nonneg_le ⟨i128.nonpos.trans i128.pos.le, le_rfl⟩ nonneg (by omega)
  rw [saturate_of_fits (fits (hi - lo) (by omega) (by omega)),
    saturate_of_fits (fits (hi - lo + 1) (by omega) (by omega)),
    saturate_of_fits (fits (lo + (hi - lo + 1) / 2) (by omega) (by omega))]

/-- By induction on the rounds, whose number bounds the width of the interval. -/
theorem isqrtLoop_root (typed : n ≤ i128.hi) (low : 0 ≤ lo) (ordered : lo ≤ hi)
    (room : hi < i128.hi) (below : lo * lo ≤ n) (above : n < (hi + 1) * (hi + 1))
    (narrow : hi - lo < 2 ^ rounds) :
    ∃ root, isqrtLoop n rounds lo hi = some root ∧ IsRoot n root := by
  induction rounds generalizing lo hi with
  | zero =>
    rw [pow_zero] at narrow
    have same : hi = lo := by omega
    subst same
    exact ⟨hi, if_neg (lt_irrefl hi), low, below, above⟩
  | succ rounds ih =>
    rw [pow_succ] at narrow
    by_cases wide : lo < hi
    · have left : ∀ mid, lo < mid → mid ≤ hi → mid - 1 - lo < 2 ^ rounds → n < mid * mid →
          ∃ root, isqrtLoop n rounds lo (saturate i128 (mid - 1)) = some root ∧ IsRoot n root := by
        intro mid greater inside half high
        rw [saturate_of_fits ⟨by have least := i128.nonpos; omega, by omega⟩]
        exact ih low (by omega) (by omega) below (by rwa [sub_add_cancel]) half
      simp only [isqrtLoop, if_pos wide, midpoint_exact low ordered room]
      have greater : lo < lo + (hi - lo + 1) / 2 := by omega
      have inside : lo + (hi - lo + 1) / 2 ≤ hi := by omega
      have lower : lo + (hi - lo + 1) / 2 - 1 - lo < 2 ^ rounds := by omega
      have upper : hi - (lo + (hi - lo + 1) / 2) < 2 ^ rounds := by omega
      generalize lo + (hi - lo + 1) / 2 = mid at greater inside lower upper ⊢
      cases squared : checked i128 (mid * mid) with
      | none =>
        have large : ¬ Fits i128 (mid * mid) := fun fits => by
          cases (checked_of_fits fits).symm.trans squared
        refine left mid greater inside lower
          (typed.trans_lt (not_le.mp fun small => large ⟨?_, small⟩))
        exact i128.nonpos.trans (mul_self_nonneg mid)
      | some =>
        obtain ⟨_, rfl⟩ := checked_eq_some.mp squared
        dsimp only
        split
        · rename_i reached
          exact ih (by omega) inside room reached above upper
        · rename_i high
          exact left mid greater inside lower (not_le.mp high)
    · have same : hi = lo := by omega
      subst same
      exact ⟨hi, if_neg wide, low, below, above⟩

/-- The search ends within its rounds and returns the only root, rounded down; negative numbers have
the root zero. -/
theorem isqrt_exact (n : Int) (typed : n ≤ i128.hi) :
    (0 ≤ n → ∃ root, isqrt n = some root ∧ IsRoot n root ∧ ∀ other, IsRoot n other → other = root) ∧
      (n < 0 → isqrt n = some 0) := by
  constructor
  · intro nonneg
    have found : ∃ root, isqrt n = some root ∧ IsRoot n root := by
      rcases typed.eq_or_lt with rfl | below
      · exact ⟨13043817825332782212, by decide +kernel, by decide⟩
      · rcases lt_or_ge 1 n with large | small
        · rw [isqrt, if_neg (by omega)]
          have above : n < (n + 1) * (n + 1) :=
            (lt_add_one n).trans_le (le_mul_of_one_le_left (by omega) (by omega))
          refine isqrtLoop_root typed le_rfl nonneg below nonneg above ?_
          simp only [i128] at below
          omega
        · obtain rfl | rfl : n = 0 ∨ n = 1 := by omega
          · exact ⟨0, rfl, by decide⟩
          · exact ⟨1, rfl, by decide⟩
    obtain ⟨root, ran, rooted⟩ := found
    exact ⟨root, ran, rooted, fun other also => rooted.unique also⟩
  · intro negative
    rw [isqrt, if_pos (by omega), max_eq_right negative.le]

theorem isqrt_exact_at_largest :
    ∃ root, isqrt i128.hi = some root ∧ IsRoot i128.hi root ∧ ∀ other, IsRoot i128.hi other →
      other = root :=
  (isqrt_exact i128.hi le_rfl).1 (by decide)

end IlnGovernance
