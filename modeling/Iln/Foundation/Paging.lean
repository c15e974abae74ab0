import Mathlib.Data.List.Basic
import Mathlib.Order.Nat

/-! Paging through a numbered table from the highest number down. `turnPages` asks for the page
below the last entry it has got until a page is empty. When every page is the beginning of what lies
below the cursor, the pages are the whole table. -/
namespace Paging

variable {α : Type}

def below (select : Nat → Option α) : Nat → List α
  | 0 => []
  | bound + 1 => (select (bound + 1)).toList ++ below select bound

def turnPages (fetch : Option Nat → List α) (key : α → Nat) :
    (fuel : Nat) → Option Nat → Option (List α)
  | 0, _ => none
  | fuel + 1, cursor =>
    match (fetch cursor).getLast? with
    | none => some []
    | some last => (turnPages fetch key fuel (some (key last))).map (fetch cursor ++ ·)

section Below

variable {select : Nat → Option α} {key : α → Nat}

theorem mem_below {entry : α} {bound : Nat} :
    entry ∈ below select bound ↔ ∃ number, 0 < number ∧ number ≤ bound ∧
      select number = some entry := by
  induction bound with
  | zero =>
    constructor
    · intro member
      cases member
    · rintro ⟨number, positive, bounded, _⟩
      omega
  | succ bound ih =>
    rw [below, List.mem_append, Option.mem_toList, ih]
    constructor
    · rintro (top | ⟨number, positive, bounded, stored⟩)
      · exact ⟨bound + 1, Nat.succ_pos _, le_rfl, top⟩
      · exact ⟨number, positive, bounded.trans (Nat.le_succ _), stored⟩
    · rintro ⟨number, positive, bounded, stored⟩
      rcases Nat.lt_or_eq_of_le bounded with lower | rfl
      · exact .inr ⟨number, positive, Nat.le_of_lt_succ lower, stored⟩
      · exact .inl stored

theorem length_below (bound : Nat) : (below select bound).length ≤ bound := by
  induction bound with
  | zero => exact le_rfl
  | succ bound =>
    rw [below, List.length_append]
    cases select (bound + 1) with
    | none => simp only [Option.toList_none, List.length_nil]; omega
    | some => simp only [Option.toList_some, List.length_singleton]; omega

variable (named : ∀ number entry, select number = some entry → key entry = number)

include named

theorem key_le_of_mem {entry : α} {bound : Nat} (member : entry ∈ below select bound) :
    key entry ≤ bound := by
  obtain ⟨number, _, bounded, stored⟩ := mem_below.mp member
  rw [named number entry stored]
  exact bounded

theorem pairwise_below (bound : Nat) : ((below select bound).map key).Pairwise (· > ·) := by
  induction bound with
  | zero => exact .nil
  | succ bound ih =>
    rw [below]
    cases stored : select (bound + 1) with
    | none => exact ih
    | some =>
      rw [Option.toList_some, List.singleton_append, List.map_cons, List.pairwise_cons]
      refine ⟨?_, ih⟩
      intro lower member
      obtain ⟨_, listed, rfl⟩ := List.mem_map.mp member
      rw [named _ _ stored]
      exact Nat.lt_succ_of_le (key_le_of_mem named listed)

theorem below_of_append {bound : Nat} {front rest : List α} {last : α}
    (split : below select bound = front ++ last :: rest) : below select (key last - 1) = rest := by
  induction bound generalizing front with
  | zero => simp [below] at split
  | succ bound ih =>
    rw [below] at split
    cases stored : select (bound + 1) with
    | none =>
      rw [stored, Option.toList_none, List.nil_append] at split
      exact ih split
    | some =>
      rw [stored, Option.toList_some, List.singleton_append] at split
      cases front with
      | nil =>
        obtain ⟨rfl, rfl⟩ := List.cons.inj split
        rw [named _ _ stored, Nat.add_sub_cancel]
      | cons => exact ih (List.cons.inj split).2

theorem below_after_page {bound size : Nat} {last : α}
    (final : ((below select bound).take size).getLast? = some last) :
    below select (key last - 1) = (below select bound).drop size := by
  obtain ⟨front, page⟩ := List.getLast?_eq_some_iff.mp final
  have split : below select bound = front ++ last :: (below select bound).drop size := by
    rw [← List.singleton_append, ← List.append_assoc, ← page, List.take_append_drop]
  exact below_of_append named split

end Below

variable {select : Nat → Option α} {key : α → Nat} {fetch : Option Nat → List α} {bound size : Nat}

/-- The pages put together are the whole listing, and the reader comes to an end. -/
theorem turnPages_below (named : ∀ number entry, select number = some entry → key entry = number)
    (positive : 0 < size) (opening : fetch none = (below select bound).take size)
    (continuing : ∀ last ∈ below select bound, fetch (some (key last)) =
      (below select (key last - 1)).take size)
    (fuel : Nat) (enough : (below select bound).length < fuel) :
    turnPages fetch key fuel none = some (below select bound) := by
  -- what remains to be read is the listing below the cursor, whatever has been read before
  have turned : ∀ (fuel : Nat) (cursor : Option Nat) (lower : Nat), lower ≤ bound →
      fetch cursor = (below select lower).take size → (below select lower).length < fuel →
      turnPages fetch key fuel cursor = some (below select lower) := by
    intro fuel
    induction fuel with
    | zero =>
      intro cursor lower _ _ enough
      omega
    | succ fuel ih =>
      intro cursor lower within page enough
      rw [turnPages, page]
      cases final : ((below select lower).take size).getLast? with
      | none =>
        have empty := List.getLast?_eq_none_iff.mp final
        have nothing : below select lower = [] :=
          (List.take_eq_nil_iff.mp empty).resolve_left (Nat.ne_of_gt positive)
        rw [nothing]
      | some last =>
        have rest := below_after_page named final
        have listed : last ∈ below select lower := List.mem_of_mem_take (List.mem_of_getLast? final)
        obtain ⟨number, first, bounded, stored⟩ := mem_below.mp listed
        have also : last ∈ below select bound :=
          mem_below.mpr ⟨number, first, bounded.trans within, stored⟩
        have shorter : (below select (key last - 1)).length < fuel := by
          rw [rest, List.length_drop]
          have some := List.length_pos_of_mem listed
          omega
        have later := ih (some (key last)) (key last - 1)
          ((Nat.sub_le _ _).trans (key_le_of_mem named also)) (continuing last also) shorter
        dsimp only
        rw [later, Option.map_some, rest, List.take_append_drop]
  exact turned fuel none bound le_rfl opening enough

theorem flatMap_slices (list : List α) (size pages : Nat) :
    (List.range pages).flatMap (fun page => (list.drop (page * size)).take size) =
      list.take (pages * size) := by
  induction pages with
  | zero => simp
  | succ pages ih => rw [List.range_succ, List.flatMap_append, ih, List.flatMap_singleton,
      Nat.succ_mul, List.take_add]

end Paging
