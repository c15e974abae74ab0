import Mathlib.Algebra.BigOperators.Group.List.Basic
import Mathlib.Tactic.Ring
import Mathlib.Tactic.Linarith

/-! Splitting integer amounts with floor division: flooring the parts loses less than one unit for
each part, and taking a fraction off each part leaves at least what taking it off the whole
leaves. -/
namespace Apportion

section Floors

variable {divisor : Int}

theorem add_ediv_le (positive : 0 < divisor) (x y : Int) :
    (x + y) / divisor ≤ x / divisor + y / divisor + 1 := by
  have left := Int.emod_lt_of_pos x positive
  have right := Int.emod_lt_of_pos y positive
  have whole : x + y = (x % divisor + y % divisor) + divisor * (x / divisor + y / divisor) := by
    rw [mul_add]
    linarith [Int.emod_add_mul_ediv x divisor, Int.emod_add_mul_ediv y divisor]
  have small : (x % divisor + y % divisor) / divisor ≤ 1 :=
    Int.le_of_lt_add_one (Int.ediv_lt_of_lt_mul positive (by linarith))
  rw [whole, Int.add_mul_ediv_left _ _ positive.ne']
  linarith

def floors (divisor : Int) (parts : List Int) : Int := (parts.map (· / divisor)).sum

theorem floors_le (positive : 0 < divisor) (parts : List Int) :
    floors divisor parts ≤ parts.sum / divisor := by
  induction parts with
  | nil => simp [floors]
  | cons part rest ih =>
    have both := Int.ediv_add_ediv_le_add_ediv (x := part) (y := rest.sum) positive
    simp only [floors, List.map_cons, List.sum_cons] at ih ⊢
    linarith

theorem sum_ediv_lt (positive : 0 < divisor) (parts : List Int) (some_part : parts ≠ []) :
    parts.sum / divisor < floors divisor parts + parts.length := by
  induction parts with
  | nil => exact absurd rfl some_part
  | cons part rest ih =>
    -- a single part loses nothing, so the bound is strict from there on
    cases rest with
    | nil => simp [floors]
    | cons second others =>
      have tail := ih (List.cons_ne_nil second others)
      have both := add_ediv_le positive part (second :: others).sum
      simp only [floors, List.map_cons, List.sum_cons, List.length_cons, Nat.cast_add, Nat.cast_one]
        at tail both ⊢
      linarith

end Floors

section Fractions

/-- What is left of an amount after `rate` parts in `scale` are taken off, rounded down. -/
def netOf (rate scale amount : Int) : Int := amount - amount * rate / scale

variable (rate : Int) {scale : Int}

@[simp] theorem netOf_zero : netOf rate scale 0 = 0 := by simp [netOf]

theorem netOf_add_le (positive : 0 < scale) (x y : Int) :
    netOf rate scale (x + y) ≤ netOf rate scale x + netOf rate scale y := by
  have both := Int.ediv_add_ediv_le_add_ediv (x := x * rate) (y := y * rate) positive
  simp only [netOf, add_mul]
  linarith

theorem le_netOf_add (positive : 0 < scale) (x y : Int) :
    netOf rate scale x + netOf rate scale y ≤ netOf rate scale (x + y) + 1 := by
  have both := add_ediv_le positive (x * rate) (y * rate)
  simp only [netOf, add_mul]
  linarith

theorem netOf_sum_le (positive : 0 < scale) (parts : List Int) :
    netOf rate scale parts.sum ≤ (parts.map (netOf rate scale)).sum := by
  induction parts with
  | nil => simp
  | cons part rest =>
    have both := netOf_add_le rate positive part rest.sum
    simp only [List.map_cons, List.sum_cons]
    linarith

variable {rate}

theorem netOf_nonneg {amount : Int} (positive : 0 < scale) (bounded : rate ≤ scale)
    (nonneg : 0 ≤ amount) : 0 ≤ netOf rate scale amount := by
  have taken : amount * rate / scale ≤ amount :=
    Int.ediv_le_of_le_mul positive (mul_le_mul_of_nonneg_left bounded nonneg)
  simp only [netOf]
  linarith

end Fractions

end Apportion
