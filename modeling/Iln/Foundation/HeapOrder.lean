import Mathlib.Order.Lattice
import Mathlib.Data.List.Perm.Subperm

/-! Binary min-heaps by the keys at their indices, and the selection of the greatest keys. A sift
swaps one entry that is out of place along a path; what is in order around it is an invariant of the
loop. -/
namespace HeapOrder

section Order

variable {κ : Type}

def exchange (key : Nat → κ) (one other index : Nat) : κ :=
  if index = one then key other else if index = other then key one else key index

theorem exchange_left (key : Nat → κ) (one other : Nat) : exchange key one other one = key other :=
    if_pos rfl

theorem exchange_right (key : Nat → κ) {one other : Nat} (different : other ≠ one) :
    exchange key one other other = key one := by
  rw [exchange, if_neg different, if_pos rfl]

theorem exchange_of_ne (key : Nat → κ) {one other index : Nat} (first : index ≠ one)
    (second : index ≠ other) : exchange key one other index = key index := by
  rw [exchange, if_neg first, if_neg second]

variable [LinearOrder κ] {size hole child : Nat} {key : Nat → κ}

def Ordered (size : Nat) (key : Nat → κ) : Prop :=
  ∀ index, 0 < index → index < size → key ((index - 1) / 2) ≤ key index

def Bridged (size : Nat) (key : Nat → κ) (hole : Nat) : Prop :=
  ∀ index, 0 < index → index < size → (index - 1) / 2 = hole → 0 < hole →
    key ((hole - 1) / 2) ≤ key index

structure UpOrder (size : Nat) (key : Nat → κ) (hole : Nat) : Prop where
  rest : ∀ index, 0 < index → index < size → index ≠ hole → key ((index - 1) / 2) ≤ key index
  bridged : Bridged size key hole

structure DownOrder (size : Nat) (key : Nat → κ) (hole : Nat) : Prop where
  rest : ∀ index, 0 < index → index < size → (index - 1) / 2 ≠ hole →
    key ((index - 1) / 2) ≤ key index
  bridged : Bridged size key hole

theorem Ordered.root_le (ordered : Ordered size key) (index : Nat) (within : index < size) :
    key 0 ≤ key index := by
  induction index using Nat.strong_induction_on with
  | _ index ih =>
    rcases Nat.eq_zero_or_pos index with rfl | positive
    · exact le_rfl
    · exact (ih _ (by omega) (by omega)).trans (ordered index positive within)

theorem UpOrder.finish (up : UpOrder size key hole)
    (settled : 0 < hole → key ((hole - 1) / 2) ≤ key hole) : Ordered size key := by
  intro index positive within
  by_cases here : index = hole
  · subst here
    exact settled positive
  · exact up.rest index positive within here

theorem UpOrder.move (up : UpOrder size key hole) (positive : 0 < hole) (within : hole < size)
    (lower : key hole < key ((hole - 1) / 2)) :
    UpOrder size (exchange key hole ((hole - 1) / 2)) ((hole - 1) / 2) := by
  generalize above : (hole - 1) / 2 = top at lower ⊢
  have apart : top ≠ hole := by omega
  -- the other child of the parent
  have sibling : ∀ index, 0 < index → index < size → index ≠ hole → (index - 1) / 2 = top →
      key top ≤ key index := by
    intro index first inside other same
    exact same ▸ up.rest index first inside other
  constructor
  · intro index first inside below
    by_cases here : index = hole
    · rw [here, above, exchange_right key apart, exchange_left]
      exact lower.le
    · rw [exchange_of_ne key here below]
      by_cases under : (index - 1) / 2 = hole
      · rw [under, exchange_left]
        exact above ▸ up.bridged index first inside under positive
      · by_cases beside : (index - 1) / 2 = top
        · rw [beside, exchange_right key apart]
          exact lower.le.trans (sibling index first inside here beside)
        · rw [exchange_of_ne key under beside]
          exact up.rest index first inside here
  · intro index first inside under nonroot
    have climb : key ((top - 1) / 2) ≤ key top :=
      up.rest top nonroot (lt_trans (by omega) within) apart
    rw [exchange_of_ne key (by omega) (by omega)]
    by_cases here : index = hole
    · rw [here, exchange_left]
      exact climb
    · rw [exchange_of_ne key here (by omega)]
      exact climb.trans (sibling index first inside here under)

theorem DownOrder.finish (down : DownOrder size key hole)
    (settled : ∀ index, 0 < index → index < size → (index - 1) / 2 = hole → key hole ≤ key index) :
    Ordered size key := by
  intro index positive within
  by_cases under : (index - 1) / 2 = hole
  · exact under ▸ settled index positive within under
  · exact down.rest index positive within under

theorem DownOrder.move (down : DownOrder size key hole)
    (below : child = 2 * hole + 1 ∨ child = 2 * hole + 2) (lower : key child < key hole)
    (least : ∀ index, 0 < index → index < size → (index - 1) / 2 = hole → key child ≤ key index)
    (within : child < size) : DownOrder size (exchange key hole child) child := by
  have apart : child ≠ hole := by omega
  have under : (child - 1) / 2 = hole := by omega
  constructor
  · intro index first inside away
    by_cases here : index = child
    · rw [here, under, exchange_left, exchange_right key apart]
      exact lower.le
    · by_cases top : index = hole
      · subst top
        rw [exchange_left, exchange_of_ne key (by omega) away]
        exact down.bridged child (by omega) within under first
      · rw [exchange_of_ne key top here]
        by_cases beside : (index - 1) / 2 = hole
        · rw [beside, exchange_left]
          exact least index first inside beside
        · rw [exchange_of_ne key beside away]
          exact down.rest index first inside beside
  · intro index first inside beneath _
    rw [under, exchange_left, exchange_of_ne key (by omega) (by omega)]
    exact beneath ▸ down.rest index first inside (by omega)

theorem Ordered.push (longer : Nat → κ) (ordered : Ordered size key)
    (same : ∀ index, index < size → longer index = key index) :
    UpOrder (size + 1) longer size := by
  constructor
  · intro index first inside other
    rw [same index (by omega), same _ (by omega)]
    exact ordered index first (by omega)
  · intro index first inside under
    omega

/-- Another entry in place of one that was in order, in a heap that is perhaps shorter, is out of
order in one direction at most. -/
theorem Ordered.replace {shorter : Nat} (changed : Nat → κ) (ordered : Ordered size key)
    (less : shorter ≤ size) (within : hole < shorter)
    (same : ∀ index, index < shorter → index ≠ hole → changed index = key index) :
    (0 < hole → changed hole ≤ changed ((hole - 1) / 2) → UpOrder shorter changed hole) ∧
      ((0 < hole → changed ((hole - 1) / 2) ≤ changed hole) → DownOrder shorter changed hole) := by
  have bridged : Bridged shorter changed hole := by
    intro index first inside under nonroot
    rw [same index inside (by omega), same _ (by omega) (by omega)]
    exact (ordered hole nonroot (by omega)).trans (under ▸ ordered index first (by omega))
  have apart : ∀ index, 0 < index → index < shorter → index ≠ hole → (index - 1) / 2 ≠ hole →
      changed ((index - 1) / 2) ≤ changed index := by
    intro index first inside other away
    rw [same index inside other, same _ (by omega) away]
    exact ordered index first (by omega)
  constructor
  · intro nonroot low
    refine ⟨fun index first inside other => ?_, bridged⟩
    by_cases under : (index - 1) / 2 = hole
    · exact under ▸ low.trans (bridged index first inside under nonroot)
    · exact apart index first inside other under
  · intro high
    refine ⟨fun index first inside away => ?_, bridged⟩
    by_cases here : index = hole
    · subst here
      exact high first
    · exact apart index first inside here away

end Order

section Selection

variable {κ : Type} [LinearOrder κ] (key : Nat → κ) (used : List Nat)

def scan (best : Option Nat) (index : Nat) : Option Nat :=
  if index ∈ used then best
  else match best with
    | none => some index
    | some found => if key found < key index then some index else some found

def greatest (size : Nat) : Option Nat := (List.range size).foldl (scan key used) none

def select (size : Nat) : (count : Nat) → (used : List Nat) → List Nat
  | 0, _ => []
  | count + 1, used =>
    match greatest key used size with
    | none => []
    | some index => index :: select size count (used ++ [index])

variable {key used} {size : Nat}

theorem greatest_none (missing : greatest key used size = none) :
    ∀ index, index < size → index ∈ used := by
  induction size with
  | zero =>
    intro index within
    omega
  | succ size ih =>
    rw [greatest, List.range_succ, List.foldl_append, ← greatest] at missing
    simp only [List.foldl_cons, List.foldl_nil, scan] at missing
    split at missing
    · rename_i member
      intro index within
      rcases Nat.lt_succ_iff_lt_or_eq.mp within with earlier | rfl
      · exact ih missing index earlier
      · exact member
    · split at missing
      · cases missing
      · split at missing <;> cases missing

theorem greatest_some {found : Nat} (chosen : greatest key used size = some found) :
    found < size ∧ found ∉ used ∧ ∀ index, index < size → index ∉ used → key index ≤ key found := by
  induction size generalizing found with
  | zero => cases chosen
  | succ size ih =>
    rw [greatest, List.range_succ, List.foldl_append, ← greatest] at chosen
    simp only [List.foldl_cons, List.foldl_nil, scan] at chosen
    split at chosen
    · rename_i member
      obtain ⟨within, fresh, above⟩ := ih chosen
      refine ⟨by omega, fresh, fun index inside unused => ?_⟩
      rcases Nat.lt_succ_iff_lt_or_eq.mp inside with earlier | rfl
      · exact above index earlier unused
      · exact absurd member unused
    · rename_i fresh
      split at chosen
      · rename_i none
        cases chosen
        refine ⟨by omega, fresh, fun index inside unused => ?_⟩
        rcases Nat.lt_succ_iff_lt_or_eq.mp inside with earlier | rfl
        · exact absurd (greatest_none none index earlier) unused
        · exact le_rfl
      · rename_i previous before
        obtain ⟨within, unseen, above⟩ := ih before
        split at chosen
        · rename_i larger
          cases chosen
          refine ⟨by omega, fresh, fun index inside unused => ?_⟩
          rcases Nat.lt_succ_iff_lt_or_eq.mp inside with earlier | rfl
          · exact (above index earlier unused).trans larger.le
          · exact le_rfl
        · rename_i smaller
          cases chosen
          refine ⟨by omega, unseen, fun index inside unused => ?_⟩
          rcases Nat.lt_succ_iff_lt_or_eq.mp inside with earlier | rfl
          · exact above index earlier unused
          · exact not_lt.mp smaller

theorem select_fresh {count index : Nat} (chosen : index ∈ select key size count used) :
    index < size ∧ index ∉ used := by
  induction count generalizing used with
  | zero => cases chosen
  | succ count ih =>
    rw [select] at chosen
    split at chosen
    · cases chosen
    · rename_i first found
      rcases List.mem_cons.mp chosen with rfl | later
      · exact ⟨(greatest_some found).1, (greatest_some found).2.1⟩
      · obtain ⟨within, unused⟩ := ih later
        exact ⟨within, fun member => unused (List.mem_append_left _ member)⟩

theorem select_nodup (count : Nat) : (select key size count used).Nodup := by
  induction count generalizing used with
  | zero => exact List.nodup_nil
  | succ count ih =>
    rw [select]
    split
    · exact List.nodup_nil
    · refine List.nodup_cons.mpr ⟨fun again => ?_, ih⟩
      exact (select_fresh again).2 (List.mem_append_right _ (List.mem_singleton_self _))

theorem select_descending (count : Nat) :
    (select key size count used).Pairwise fun earlier later => key later ≤ key earlier := by
  induction count generalizing used with
  | zero => exact List.Pairwise.nil
  | succ count ih =>
    rw [select]
    split
    · exact List.Pairwise.nil
    · rename_i first found
      refine List.pairwise_cons.mpr ⟨fun later chosen => ?_, ih⟩
      obtain ⟨within, unused⟩ := select_fresh chosen
      exact (greatest_some found).2.2 later within fun member =>
        unused (List.mem_append_left _ member)

theorem select_above {count index chosen : Nat} (within : index < size) (unused : index ∉ used)
    (left : index ∉ select key size count used) (selected : chosen ∈ select key size count used) :
    key index ≤ key chosen := by
  induction count generalizing used with
  | zero => cases selected
  | succ count ih =>
    rw [select] at left selected
    split at left
    · rename_i none
      exact absurd (greatest_none none index within) unused
    · rename_i first found
      simp only [found, List.mem_cons, not_or] at left selected
      rcases selected with rfl | later
      · exact (greatest_some found).2.2 index within unused
      · refine ih ?_ left.2 later
        simp only [List.mem_append, List.mem_singleton, not_or]
        exact ⟨unused, left.1⟩

theorem select_length {count : Nat} (room : used.length + count ≤ size) :
    (select key size count used).length = count := by
  induction count generalizing used with
  | zero => rfl
  | succ count ih =>
    rw [select]
    split
    · rename_i none
      -- fewer indices are used than there are
      have covered : List.range size ⊆ used := fun index inside =>
        greatest_none none index (List.mem_range.mp inside)
      have many := (List.subperm_of_subset List.nodup_range covered).length_le
      rw [List.length_range] at many
      omega
    · rw [List.length_cons, ih (by rw [List.length_append, List.length_singleton]; omega)]

end Selection

end HeapOrder
