import Mathlib.Algebra.BigOperators.Intervals
import Mathlib.Algebra.Order.BigOperators.Group.Finset

/-! Sums and counts over numbered records that are handed out in order and kept in a table; `next`
is the first number not yet used. -/
namespace Numbered

open Function

variable {ν M : Type} [AddCommMonoid M] (weight : ν → M) (table : Nat → Option ν) (next : Nat)

def total : M := ∑ id ∈ Finset.range next, (table id).elim 0 weight

def count (holds : ν → Prop) [DecidablePred holds] (table : Nat → Option ν) (next : Nat) : Nat :=
  ((Finset.range next).filter fun id => ∃ record ∈ table id, holds record).card

theorem total_push (record : ν) :
    total weight (update table next (some record)) (next + 1) = total weight table next +
      weight record := by
  unfold total
  rw [Finset.sum_range_succ, update_self]
  congr 1
  apply Finset.sum_congr rfl
  intro id member
  rw [update_of_ne (Finset.mem_range.mp member).ne]

variable {next}

theorem total_update {id : Nat} (used : id < next) (record : ν) :
    total weight (update table id (some record)) next + (table id).elim 0 weight =
      total weight table next + weight record := by
  have member := Finset.mem_range.mpr used
  have elsewhere : ∑ other ∈ (Finset.range next).erase id,
      (update table id (some record) other).elim 0 weight =
      ∑ other ∈ (Finset.range next).erase id, (table other).elim 0 weight := by
    apply Finset.sum_congr rfl
    intro other apart
    rw [update_of_ne (Finset.ne_of_mem_erase apart)]
  unfold total
  rw [← Finset.add_sum_erase _ _ member, ← Finset.add_sum_erase
    _ (fun other => (table other).elim 0 weight) member, elsewhere, update_self]
  show weight record + _ + _ = _ + _ + weight record
  rw [add_comm (weight record), add_assoc, add_comm (weight record), ← add_assoc,
    add_comm (Finset.sum _ _)]

theorem total_mono {smaller larger : ν → Nat} (each : ∀ record, smaller record ≤ larger record)
    (table : Nat → Option ν) (next : Nat) : total smaller table next ≤ total larger table next := by
  refine Finset.sum_le_sum fun id _ => ?_
  cases table id with
  | none => exact le_rfl
  | some record => exact each record

section Counts

variable {table} (holds : ν → Prop) [DecidablePred holds]

theorem count_eq_total : count holds table next =
    total (fun record => if holds record then 1 else 0) table next := by
  unfold count total
  rw [Finset.card_filter]
  apply Finset.sum_congr rfl
  intro id _
  cases table id with
  | none | some record => simp

theorem count_le_all (table : Nat → Option ν) (next : Nat) :
    count holds table next ≤ count (fun _ => True) table next := by
  refine Finset.card_le_card (Finset.monotone_filter_right _ ?_)
  rintro id _ ⟨record, stored, _⟩
  exact ⟨record, stored, trivial⟩

theorem count_push (record : ν) : count holds (update table next (some record)) (next + 1) =
    count holds table next + if holds record then 1 else 0 := by
  rw [count_eq_total, count_eq_total, total_push]

theorem count_update {id : Nat} {before : ν} (stored : table id = some before) (used : id < next)
    (record : ν) :
    count holds (update table id (some record)) next + (if holds before then 1 else 0) =
      count holds table next + if holds record then 1 else 0 := by
  have changed := total_update (fun record => if holds record then 1 else 0) table used record
  rw [stored] at changed
  rw [count_eq_total, count_eq_total]
  exact changed

end Counts

end Numbered
