import Mathlib.Data.List.Induction
import Mathlib.Data.List.Sort

/-! Insertion sort in place, and what the middle of a sorted list says about a majority. In
`insertionLoop` the entries above the key move one place to the right, and the key takes the place
that became free. -/
namespace Median

section Sorting

variable {α : Type} [LinearOrder α]

/-- The inner loop, from a place downwards. A place outside the vector does not occur. -/
def shiftDown (key : α) : Nat → List α → List α
  | 0, sorted => sorted.set 0 key
  | place + 1, sorted =>
    match sorted[place]? with
    | some previous =>
      if key < previous then shiftDown key place (sorted.set (place + 1) previous)
      else sorted.set (place + 1) key
    | none => sorted

def insertAt (sorted : List α) (place : Nat) : List α :=
  match sorted[place]? with
  | some key => shiftDown key place sorted
  | none => sorted

def insertionLoop (values : List α) : List α :=
  (List.range' 1 (values.length - 1)).foldl insertAt values

def insertBack (key : α) (front : List α) : List α :=
    (front.reverse.orderedInsert (· ≥ ·) key).reverse

theorem insertBack_perm (key : α) (front : List α) : (insertBack key front).Perm (key :: front) :=
  (List.reverse_perm _).trans
    ((List.perm_orderedInsert _ key front.reverse).trans ((List.reverse_perm front).cons key))

theorem insertBack_sorted {key : α} {front : List α} (sorted : front.Pairwise (· ≤ ·)) :
    (insertBack key front).Pairwise (· ≤ ·) := by
  have descending : front.reverse.Pairwise (· ≥ ·) := List.pairwise_reverse.mpr sorted
  exact List.pairwise_reverse.mpr (descending.orderedInsert key _)

theorem shiftDown_append (key : α) (front : List α) (hole : α) (back : List α) :
    shiftDown key front.length (front ++ hole :: back) = insertBack key front ++ back := by
  induction front using List.reverseRecOn generalizing hole back with
  | nil => rfl
  | append_singleton front last ih =>
    have place : (front ++ [last]).length = front.length + 1 := by simp
    have previous : (front ++ [last] ++ hole :: back)[front.length]? = some last := by simp
    rw [place, shiftDown, previous]
    dsimp only
    split
    · rename_i above
      have shifted : (front ++ [last] ++ hole :: back).set (front.length + 1) last = front ++
          last :: last :: back := by
        simp
      rw [shifted, ih]
      simp [insertBack, not_le.mpr above]
    · rename_i below
      simp [insertBack, not_lt.mp below]

theorem insertAt_append (key : α) (front back : List α) :
    insertAt (front ++ key :: back) front.length = insertBack key front ++ back := by
  have found : (front ++ key :: back)[front.length]? = some key := by simp
  rw [insertAt, found]
  exact shiftDown_append key front key back

theorem rounds_append (front back : List α) :
    (List.range' front.length back.length).foldl insertAt (front ++ back) =
      back.foldl (fun front key => insertBack key front) front := by
  induction back generalizing front with
  | nil => simp
  | cons key rest ih =>
    have grown : (insertBack key front).length = front.length + 1 :=
      (insertBack_perm key front).length_eq
    rw [List.length_cons, List.range'_succ, List.foldl_cons, insertAt_append, List.foldl_cons,
      ← ih, grown]

theorem insertionLoop_cons (first : α) (rest : List α) :
    insertionLoop (first :: rest) = rest.foldl (fun front key => insertBack key front) [first] :=
  rounds_append [first] rest

theorem insertBacks_perm (front back : List α) :
    (back.foldl (fun front key => insertBack key front) front).Perm (front ++ back) := by
  induction back generalizing front with
  | nil => simp
  | cons key rest ih =>
    have inserted := (insertBack_perm key front).append_right rest
    exact (ih _).trans (inserted.trans List.perm_middle.symm)

theorem insertBacks_sorted {front back : List α} (sorted : front.Pairwise (· ≤ ·)) :
    (back.foldl (fun front key => insertBack key front) front).Pairwise (· ≤ ·) := by
  induction back generalizing front with
  | nil => exact sorted
  | cons key rest ih => exact ih (insertBack_sorted sorted)

theorem insertionLoop_perm (values : List α) : (insertionLoop values).Perm values := by
  cases values with
  | nil => rfl
  | cons first rest =>
    rw [insertionLoop_cons]
    exact insertBacks_perm [first] rest

theorem insertionLoop_sorted (values : List α) : (insertionLoop values).Pairwise (· ≤ ·) := by
  cases values with
  | nil => exact .nil
  | cons =>
    rw [insertionLoop_cons]
    exact insertBacks_sorted (List.pairwise_singleton _ _)

@[simp] theorem insertionLoop_length (values : List α) :
    (insertionLoop values).length = values.length :=
  (insertionLoop_perm values).length_eq

theorem insertionLoop_congr {values others : List α} (same : values.Perm others) :
    insertionLoop values = insertionLoop others :=
  ((insertionLoop_perm values).trans (same.trans (insertionLoop_perm others).symm)).eq_of_pairwise'
    (insertionLoop_sorted values) (insertionLoop_sorted others)

end Sorting

section Majority

variable {α : Type} {sorted : List α} {place : Nat} {value low high : α}

theorem split_at (found : sorted[place]? = some value) :
    ∃ front back, sorted = front ++ value :: back ∧ front.length = place := by
  obtain ⟨inside, here⟩ := List.getElem?_eq_some_iff.mp found
  refine ⟨sorted.take place, sorted.drop (place + 1), ?_, by simp; omega⟩
  rw [← here, ← List.drop_eq_getElem_cons inside, List.take_append_drop]

theorem countP_apart (first second : α → Bool) (values : List α)
    (apart : ∀ value ∈ values, second value = true → ¬ first value = true) :
    values.countP first + values.countP second ≤ values.length := by
  rw [List.length_eq_countP_add_countP first]
  refine Nat.add_le_add_left (List.countP_mono_left fun value member chosen => ?_) _
  simpa using apart value member chosen

variable [LinearOrder α]

theorem le_of_few_below (ascending : sorted.Pairwise (· ≤ ·)) (found : sorted[place]? = some value)
    (few : sorted.countP (· < low) ≤ place) : low ≤ value := by
  obtain ⟨front, back, rfl, rfl⟩ := split_at found
  by_contra below
  have under : value < low := not_le.mp below
  have all : front.countP (· < low) = front.length := by
    refine List.countP_eq_length.mpr fun other member => decide_eq_true ?_
    have ordered := (List.pairwise_append.mp ascending).2.2 other member value List.mem_cons_self
    exact ordered.trans_lt under
  rw [List.countP_append, List.countP_cons_of_pos (by simpa using under), all] at few
  omega

theorem le_of_few_above (ascending : sorted.Pairwise (· ≤ ·)) (found : sorted[place]? = some value)
    (few : place + sorted.countP (high < ·) < sorted.length) : value ≤ high := by
  obtain ⟨front, back, rfl, rfl⟩ := split_at found
  by_contra above
  have exceeds : high < value := not_le.mp above
  have all : back.countP (high < ·) = back.length := by
    refine List.countP_eq_length.mpr fun other member => decide_eq_true ?_
    have ordered := (List.pairwise_cons.mp (List.pairwise_append.mp ascending).2.1).1 other member
    exact exceeds.trans_le ordered
  rw [List.countP_append, List.countP_cons_of_pos (by simpa using exceeds), all] at few
  simp only [List.length_append, List.length_cons] at few
  omega

theorem few_outside {values : List α}
    (majority : values.length < 2 * values.countP (fun value => low ≤ value ∧ value ≤ high)) :
    2 * values.countP (· < low) < values.length ∧ 2 * values.countP (high < ·) < values.length := by
  have below := countP_apart (fun value => decide (value < low))
    (fun value => decide (low ≤ value ∧ value ≤ high)) values fun value _ inside => by
      simp only [decide_eq_true_eq] at inside ⊢
      exact not_lt.mpr inside.1
  have above := countP_apart (fun value => decide (high < value))
    (fun value => decide (low ≤ value ∧ value ≤ high)) values fun value _ inside => by
      simp only [decide_eq_true_eq] at inside ⊢
      exact not_lt.mpr inside.2
  omega

theorem middle_inside {values : List α} (found : (insertionLoop values)[place]? = some value)
    (majority : values.length < 2 * values.countP (fun value => low ≤ value ∧ value ≤ high))
    (left : values.length ≤ 2 * place + 2) (right : 2 * place ≤ values.length) :
    low ≤ value ∧ value ≤ high := by
  obtain ⟨below, above⟩ := few_outside majority
  have ascending := insertionLoop_sorted values
  have same := insertionLoop_perm values
  constructor
  · refine le_of_few_below ascending found ?_
    rw [same.countP_eq]
    omega
  · refine le_of_few_above ascending found ?_
    rw [same.countP_eq, insertionLoop_length]
    omega

end Majority

end Median
