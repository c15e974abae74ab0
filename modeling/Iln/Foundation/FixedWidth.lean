import Mathlib.Tactic.NormNum

/-! Fixed-width integers as ranges of `Int`. `checked` is the operation that reports overflow,
`saturate` the one that clamps; both are the identity on a value that fits. Unsigned counters are
`Nat` with an explicit upper bound. -/
namespace FixedWidth

variable {value : Int}

structure Width where
  lo : Int
  hi : Int
  nonpos : lo ≤ 0
  pos : 0 < hi

def i128 : Width := ⟨-170141183460469231731687303715884105728,
  170141183460469231731687303715884105727, by decide, by decide⟩

def u32Max : Nat := 4294967295
def u64Max : Nat := 18446744073709551615

variable (width : Width)

def Fits (value : Int) : Prop := width.lo ≤ value ∧ value ≤ width.hi

instance (value : Int) : Decidable (Fits width value) := inferInstanceAs (Decidable (_ ∧ _))

/-- `checked_add`, `checked_mul`: the exact result, or nothing when it does not fit. -/
def checked (value : Int) : Option Int := if Fits width value then some value else none

/-- `saturating_add`, `saturating_sub`: the exact result clamped into the range. -/
def saturate (value : Int) : Int := max width.lo (min width.hi value)

variable {width}

theorem checked_eq_some {value result : Int} :
    checked width value = some result ↔ Fits width value ∧ result = value := by
  unfold checked
  split
  · rename_i fits
    simp [fits, eq_comm]
  · rename_i overflow
    simp [overflow]

theorem checked_of_fits (fits : Fits width value) : checked width value = some value :=
  checked_eq_some.mpr ⟨fits, rfl⟩

theorem checked_of_overflow (overflow : ¬ Fits width value) : checked width value = none :=
  if_neg overflow

theorem saturate_of_fits (fits : Fits width value) : saturate width value = value := by
  obtain ⟨low, high⟩ := fits
  simp [saturate, low, high]

theorem fits_of_between {low value high : Int} (left : Fits width low) (right : Fits width high)
    (above : low ≤ value) (below : value ≤ high) : Fits width value :=
  ⟨left.1.trans above, below.trans right.2⟩

theorem fits_zero : Fits width 0 := ⟨width.nonpos, width.pos.le⟩

theorem fits_of_nonneg_le {value high : Int} (right : Fits width high) (above : 0 ≤ value)
    (below : value ≤ high) : Fits width value :=
  fits_of_between fits_zero right above below

-- A positive threshold reached by the clamped value is reached by the exact one.
theorem le_of_le_saturate {threshold value : Int} (positive : 0 < threshold)
    (reached : threshold ≤ saturate width value) : threshold ≤ value := by
  have low := width.nonpos
  unfold saturate at reached
  rcases le_max_iff.mp reached with small | large
  · omega
  · exact large.trans (min_le_right _ _)

theorem saturate_le_of_le {value bound : Int} (above : width.lo ≤ bound) (below : value ≤ bound) :
    saturate width value ≤ bound :=
  max_le above ((min_le_right _ _).trans below)

theorem le_saturate (below : value ≤ width.hi) : value ≤ saturate width value :=
  le_max_of_le_right (le_min below le_rfl)

theorem saturate_nonneg (nonneg : 0 ≤ value) : 0 ≤ saturate width value :=
  le_max_of_le_right (le_min width.pos.le nonneg)

theorem saturate_le_hi (value : Int) : saturate width value ≤ width.hi :=
  max_le (width.nonpos.trans width.pos.le) (min_le_left _ _)

theorem saturate_mono {low high : Int} (le : low ≤ high) :
    saturate width low ≤ saturate width high :=
  max_le_max le_rfl (min_le_min le_rfl le)

theorem saturate_of_nonneg (nonneg : 0 ≤ value) : saturate width value = min width.hi value :=
  max_eq_right (width.nonpos.trans (le_min width.pos.le nonneg))

def addCapped (bound value amount : Nat) : Nat := min bound (value + amount)

end FixedWidth
