import Mathlib.Data.List.Range

/-! A log that keeps its last entries in a ring of slots and counts all it was ever given. Read
backwards from the count it gives back the newest entries of the full history. -/
structure RingLog (ρ : Type) where
  count : Nat
  slot : Nat → Option ρ

namespace RingLog

open Function

variable {ρ : Type} {ring : RingLog ρ} {entries : List ρ} {capacity : Nat}

def push (ring : RingLog ρ) (capacity : Nat) (entry : ρ) : RingLog ρ where
  count := ring.count + 1
  slot := update ring.slot (ring.count % capacity) (some entry)

/-- The newest entries first, at most `limit` and at most as many as there are slots. -/
def recent (ring : RingLog ρ) (capacity limit : Nat) : List ρ :=
  (List.range (min (min limit capacity) ring.count)).filterMap fun back =>
    ring.slot ((ring.count - 1 - back) % capacity)

/-- The ring has counted the whole history and still has its last entries. -/
structure Holds (ring : RingLog ρ) (capacity : Nat) (entries : List ρ) : Prop where
  counted : ring.count = entries.length
  kept : ∀ seq entry, entries[seq]? = some entry → entries.length ≤ seq + capacity →
    ring.slot (seq % capacity) = some entry

/-- Two places less than a round apart lie in different slots. -/
theorem slot_ne {early late : Nat} (before : early < late) (near : late < early + capacity) :
    early % capacity ≠ late % capacity := by
  intro same
  have divides : capacity ∣ late - early := Nat.dvd_of_mod_eq_zero
    (Nat.sub_mod_eq_zero_of_mod_eq same.symm)
  have := Nat.le_of_dvd (by omega) divides
  omega

theorem Holds.push (holds : ring.Holds capacity entries) (entry : ρ) :
    (ring.push capacity entry).Holds capacity (entries ++ [entry]) := by
  refine ⟨by simp [RingLog.push, holds.counted], fun seq found stored near => ?_⟩
  rw [List.length_append, List.length_singleton] at near
  simp only [RingLog.push, holds.counted]
  rcases lt_trichotomy seq entries.length with older | rfl | newer
  · rw [List.getElem?_append_left older] at stored
    rw [update_of_ne (slot_ne older (by omega))]
    exact holds.kept seq found stored (by omega)
  · rw [List.getElem?_concat_length] at stored
    rw [update_self, stored]
  · rw [List.getElem?_eq_none (by simp; omega)] at stored
    cases stored

theorem filterMap_range (places : List ρ) (count : Nat) :
    (List.range count).filterMap (places[·]?) = places.take count := by
  induction count with
  | zero => rfl
  | succ count ih =>
    rw [List.range_succ, List.filterMap_append, ih, List.take_add_one]
    cases found : places[count]? with
    | none => simp [found]
    | some => simp [found]

theorem Holds.recent (holds : ring.Holds capacity entries) (limit : Nat) :
    ring.recent capacity limit = entries.reverse.take (min limit capacity) := by
  have reads : ring.recent capacity limit =
      (List.range (min (min limit capacity) ring.count)).filterMap (entries.reverse[·]?) := by
    apply List.filterMap_congr
    intro back inside
    rw [List.mem_range] at inside
    have counted := holds.counted
    rw [List.getElem?_reverse (by omega), counted]
    have stored := List.getElem?_eq_getElem (show entries.length - 1 - back <
      entries.length by omega)
    rw [stored]
    exact holds.kept _ _ stored (by omega)
  rw [reads, filterMap_range, List.take_eq_take_iff, holds.counted, List.length_reverse,
    min_assoc, min_self]

end RingLog
