import Mathlib.Data.List.AList
import Mathlib.Algebra.Order.BigOperators.Group.List
import Mathlib.Algebra.Order.Ring.Int

/-! Weighted sums over finite maps. The maps and their lookups are Mathlib's `AList`; what is
added is how the sum over all entries changes when one key is written or removed. -/
namespace AssocSum

variable {κ ν : Type} [DecidableEq κ] (weight : κ → ν → Int)

def entryWeight (key : κ) (value : Option ν) : Int := value.elim 0 (weight key)

def listTotal (entries : List (Sigma fun _ : κ => ν)) : Int :=
  (entries.map fun entry => weight entry.1 entry.2).sum

def total (map : AList fun _ : κ => ν) : Int := listTotal weight map.entries

theorem listTotal_kerase (key : κ) (entries : List (Sigma fun _ : κ => ν)) :
    listTotal weight entries =
      entryWeight weight key (entries.dlookup key) + listTotal weight (entries.kerase key) := by
  induction entries with
  | nil => rfl
  | cons entry rest ih =>
    obtain ⟨name, value⟩ := entry
    by_cases same : key = name
    · subst same
      have erased : List.kerase key ((⟨key, value⟩ : Sigma fun _ : κ => ν) :: rest) = rest :=
        List.kerase_cons_eq rfl
      rw [List.dlookup_cons_eq, erased]
      rfl
    · rw [List.dlookup_cons_ne rest ⟨name, value⟩ same, List.kerase_cons_ne same]
      simp only [listTotal, List.map_cons, List.sum_cons] at ih ⊢
      rw [ih]
      exact add_left_comm _ _ _

theorem total_eq_erase (key : κ) (map : AList fun _ : κ => ν) :
    total weight map = entryWeight weight key (map.lookup key) + total weight (map.erase key) :=
  listTotal_kerase weight key map.entries

theorem total_insert (key : κ) (value : ν) (map : AList fun _ : κ => ν) :
    total weight (map.insert key value) = weight key value + total weight (map.erase key) := by
  rw [total, AList.entries_insert]
  rfl

theorem total_nonneg (map : AList fun _ : κ => ν)
    (nonneg : ∀ key value, map.lookup key = some value → 0 ≤ weight key value) :
    0 ≤ total weight map := by
  apply List.sum_nonneg
  intro amount member
  obtain ⟨entry, stored, same⟩ := List.mem_map.mp member
  rw [← same]
  exact nonneg entry.1 entry.2 (AList.mem_lookup_iff.mpr stored)

theorem entryWeight_le_total (key : κ) (map : AList fun _ : κ => ν)
    (nonneg : ∀ key value, map.lookup key = some value → 0 ≤ weight key value) :
    entryWeight weight key (map.lookup key) ≤ total weight map := by
  rw [total_eq_erase weight key map]
  have rest : 0 ≤ total weight (map.erase key) := by
    apply total_nonneg
    intro other value found
    by_cases same : other = key
    · subst same
      rw [AList.lookup_erase] at found
      exact absurd found (by simp)
    · rw [AList.lookup_erase_ne same] at found
      exact nonneg other value found
  omega

theorem sum_of_key (weight : ν → Int) {entries : List (κ × ν)}
    (distinct : (entries.map Prod.fst).Nodup) {key : κ} {value : ν}
    (listed : (key, value) ∈ entries) :
    (entries.map fun entry => if entry.1 = key then weight entry.2 else 0).sum = weight value := by
  induction entries with
  | nil => cases listed
  | cons entry rest ih =>
    rw [List.map_cons, List.nodup_cons] at distinct
    rw [List.map_cons, List.sum_cons]
    rcases List.mem_cons.mp listed with rfl | later
    · have nothing : (rest.map fun entry => if entry.1 = key then weight entry.2 else 0).sum =
          0 := by
        refine List.sum_eq_zero fun amount member => ?_
        obtain ⟨other, held, rfl⟩ := List.mem_map.mp member
        refine if_neg fun same => distinct.1 ?_
        exact List.mem_map.mpr ⟨other, held, same⟩
      rw [if_pos rfl, nothing, add_zero]
    · have different : entry.1 ≠ key := by
        rintro rfl
        exact distinct.1 (List.mem_map.mpr ⟨_, later, rfl⟩)
      rw [if_neg different, zero_add, ih distinct.2 later]

end AssocSum
