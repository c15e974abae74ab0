import Mathlib.Algebra.BigOperators.Ring.List
import Iln.Foundation.Apportion
import Iln.Invoice.Ledger
import Iln.Invoice.Settlement

/-! The contract's arithmetic in exact terms. The truncating, clamped and overflow-guarded
expressions of the source agree with plain floor arithmetic as long as the amounts are not negative
and the product fits. -/
namespace InvoiceLiquidity

open FixedWidth Apportion

variable {funders : List (Address × Int)} {contribution : Int}

section Discounts

variable {amount : Int} {rate : Nat}

theorem i128_symmetric : i128.lo ≤ -i128.hi := by decide

theorem product_nonneg (nonneg : 0 ≤ amount) (rate : Nat) : 0 ≤ amount * (rate : Int) :=
  mul_nonneg nonneg (Int.natCast_nonneg rate)

theorem discountOf_of_fits (nonneg : 0 ≤ amount) (fits : Fits i128 (amount * rate)) :
    discountOf amount rate = amount * rate / 10000 := by
  rw [discountOf, checked_of_fits fits, Option.getD_some,
    Int.tdiv_eq_ediv_of_nonneg (product_nonneg nonneg rate)]

theorem discountOf_of_overflow (overflow : ¬ Fits i128 (amount * rate)) :
    discountOf amount rate = 0 := by
  rw [discountOf, checked_of_overflow overflow]
  rfl

theorem discountOf_bounds (nonneg : 0 ≤ amount) (rate : Nat) :
    0 ≤ discountOf amount rate ∧ discountOf amount rate ≤ i128.hi := by
  by_cases fits : Fits i128 (amount * rate)
  · have product := product_nonneg nonneg rate
    rw [discountOf_of_fits nonneg fits]
    exact ⟨Int.ediv_nonneg product (by decide), (Int.ediv_le_self _ product).trans fits.2⟩
  · rw [discountOf_of_overflow fits]
    exact ⟨le_rfl, i128.pos.le⟩

theorem discounted_eq_sub (nonneg : 0 ≤ amount) (typed : Fits i128 amount) (rate : Nat) :
    discounted amount rate = amount - discountOf amount rate := by
  obtain ⟨low, high⟩ := discountOf_bounds nonneg rate
  have symmetric := i128_symmetric
  have top := typed.2
  exact saturate_of_fits ⟨by omega, by omega⟩

theorem discounted_eq_netOf (nonneg : 0 ≤ amount) (typed : Fits i128 amount)
    (fits : Fits i128 (amount * rate)) : discounted amount rate = netOf rate 10000 amount := by
  rw [discounted_eq_sub nonneg typed, discountOf_of_fits nonneg fits, netOf]

theorem discounted_zero (rate : Nat) : discounted 0 rate = 0 := by
  rw [discounted_eq_netOf le_rfl fits_zero (by rw [zero_mul]; exact fits_zero), netOf_zero]

theorem discounted_le (nonneg : 0 ≤ amount) (typed : Fits i128 amount) (rate : Nat) :
    discounted amount rate ≤ amount := by
  rw [discounted_eq_sub nonneg typed]
  have low := (discountOf_bounds nonneg rate).1
  omega

theorem discounted_nonneg (nonneg : 0 ≤ amount) (typed : Fits i128 amount) (small : rate ≤ 10000) :
    0 ≤ discounted amount rate := by
  by_cases fits : Fits i128 (amount * rate)
  · rw [discounted_eq_netOf nonneg typed fits]
    exact netOf_nonneg (by decide) (by exact_mod_cast small) nonneg
  · rw [discounted_eq_sub nonneg typed, discountOf_of_overflow fits]
    omega

theorem product_fits_of_le {larger : Int} (nonneg : 0 ≤ amount) (below : amount ≤ larger)
    (fits : Fits i128 (larger * rate)) : Fits i128 (amount * rate) :=
  fits_of_nonneg_le fits (product_nonneg nonneg rate)
    (mul_le_mul_of_nonneg_right below (Int.natCast_nonneg rate))

theorem discounted_add_le {x y : Int} (left : 0 ≤ x) (right : 0 ≤ y) (typed : Fits i128 (x + y))
    (rate : Nat) : discounted x rate + discounted y rate ≤ discounted (x + y) rate + 1 := by
  have typedLeft : Fits i128 x := fits_of_nonneg_le typed left (by omega)
  have typedRight : Fits i128 y := fits_of_nonneg_le typed right (by omega)
  by_cases fits : Fits i128 ((x + y) * rate)
  · rw [discounted_eq_netOf left typedLeft (product_fits_of_le left (by omega) fits),
      discounted_eq_netOf right typedRight (product_fits_of_le right (by omega) fits),
      discounted_eq_netOf (by omega) typed fits]
    exact le_netOf_add rate (by decide) x y
  · have first := discounted_le left typedLeft rate
    have second := discounted_le right typedRight rate
    rw [discounted_eq_sub (by omega) typed, discountOf_of_overflow fits]
    omega

/-- A negative contribution at a rate of at most one half would cost a negative amount. -/
theorem nonneg_of_discounted_nonneg (half : rate ≤ 5000) (accepted : 0 ≤ discounted amount rate) :
    0 ≤ amount := by
  by_contra negative
  have below : amount < 0 := not_le.mp negative
  have bottom : i128.lo < 0 := by decide
  have reduced : amount < discountOf amount rate := by
    unfold discountOf
    by_cases fits : Fits i128 (amount * rate)
    · rw [checked_of_fits fits, Option.getD_some]
      have product : 0 ≤ -amount * (rate : Int) := mul_nonneg (by omega) (Int.natCast_nonneg rate)
      have bounded : -amount * (rate : Int) ≤ -amount * 5000 :=
        mul_le_mul_of_nonneg_left (by exact_mod_cast half) (by omega)
      have flipped : (amount * (rate : Int)).tdiv 10000 = -(-amount * (rate : Int) / 10000) := by
        rw [← Int.tdiv_eq_ediv_of_nonneg product, ← Int.neg_tdiv, neg_mul, neg_neg]
      rw [flipped]
      omega
    · rw [checked_of_overflow fits]
      exact below
  have clamped : discounted amount rate < 0 := by
    refine max_lt bottom ((min_le_right _ _).trans_lt ?_)
    omega
  omega

end Discounts

def contributed (funders : List (Address × Int)) : Int := (funders.map Prod.snd).sum

def AllNonneg (funders : List (Address × Int)) : Prop := ∀ entry ∈ funders, 0 ≤ entry.2

theorem contributed_nonneg (nonneg : AllNonneg funders) : 0 ≤ contributed funders := by
  apply List.sum_nonneg
  intro amount member
  obtain ⟨entry, listed, rfl⟩ := List.mem_map.mp member
  exact nonneg entry listed

theorem le_contributed (nonneg : AllNonneg funders) {entry : Address × Int}
    (listed : entry ∈ funders) : entry.2 ≤ contributed funders := by
  apply List.single_le_sum
  · intro amount member
    obtain ⟨other, found, rfl⟩ := List.mem_map.mp member
    exact nonneg other found
  · exact List.mem_map_of_mem listed

theorem addContribution_split (funder : Address) (amount : Int) (funders : List (Address × Int)) :
    (∃ before recorded after, funders = before ++ (funder, recorded) :: after ∧
      addContribution funder amount funders =
        before ++ (funder, saturate i128 (recorded + amount)) :: after) ∨
    (∀ entry ∈ funders, entry.1 ≠ funder) ∧ addContribution funder amount funders = funders ++
      [(funder, amount)] := by
  induction funders with
  | nil => exact .inr ⟨by simp, rfl⟩
  | cons entry rest ih =>
    obtain ⟨address, recorded⟩ := entry
    by_cases same : address = funder
    · subst same
      exact .inl ⟨[], recorded, rest, rfl, by simp [addContribution]⟩
    · rcases ih with ⟨before, found, after, split, added⟩ | ⟨absent, added⟩
      · refine .inl ⟨(address, recorded) :: before, found, after, by rw [split]; rfl, ?_⟩
        simp only [addContribution, if_neg same, added, List.cons_append]
      · refine .inr ⟨?_, ?_⟩
        · intro other member
          rcases List.mem_cons.mp member with rfl | later
          · exact same
          · exact absent other later
        · simp only [addContribution, if_neg same, added, List.cons_append]

theorem addContribution_exact (nonneg : AllNonneg funders) {amount : Int}
    (added : 0 ≤ amount) (fits : Fits i128 (contributed funders + amount)) (funder : Address) :
    (∃ before recorded after, funders = before ++ (funder, recorded) :: after ∧ 0 ≤ recorded ∧
      addContribution funder amount funders = before ++ (funder, recorded + amount) :: after) ∨
    (∀ entry ∈ funders, entry.1 ≠ funder) ∧ addContribution funder amount funders = funders ++
      [(funder, amount)] := by
  rcases addContribution_split funder amount funders with ⟨before, recorded, after, split,
    raised⟩ | appended
  · have listed : (funder, recorded) ∈ funders := by simp [split]
    have low := nonneg _ listed
    have high := le_contributed nonneg listed
    have exactly : Fits i128 (recorded + amount) := fits_of_nonneg_le fits (by omega) (by omega)
    rw [saturate_of_fits exactly] at raised
    exact .inl ⟨before, recorded, after, split, low, raised⟩
  · exact .inr appended

section Shares

variable {amount distribute : Int}

theorem discountOf_le (nonneg : 0 ≤ amount) {rate : Nat} (small : rate ≤ 10000) :
    discountOf amount rate ≤ amount := by
  by_cases fits : Fits i128 (amount * rate)
  · rw [discountOf_of_fits nonneg fits]
    exact Int.ediv_le_of_le_mul (by decide) (mul_le_mul_of_nonneg_left
      (by exact_mod_cast small) nonneg)
  · rw [discountOf_of_overflow fits]
    exact nonneg

theorem funderShare_of_fits (product : 0 ≤ distribute * contribution)
    (fits : Fits i128 (distribute * contribution)) :
    funderShare distribute amount contribution = distribute * contribution / amount := by
  rw [funderShare, checked_of_fits fits, Option.getD_some, Int.tdiv_eq_ediv_of_nonneg product]

theorem funderShare_of_overflow (overflow : ¬ Fits i128 (distribute * contribution)) :
    funderShare distribute amount contribution = 0 := by
  rw [funderShare, checked_of_overflow overflow, Option.getD_none, Int.zero_tdiv]

theorem funderShare_bounds (positive : 0 < amount) (product : 0 ≤ distribute * contribution) :
    0 ≤ funderShare distribute amount contribution ∧
      funderShare distribute amount contribution ≤ distribute * contribution / amount := by
  have floor : 0 ≤ distribute * contribution / amount := Int.ediv_nonneg product positive.le
  by_cases fits : Fits i128 (distribute * contribution)
  · rw [funderShare_of_fits product fits]
    exact ⟨floor, le_rfl⟩
  · rw [funderShare_of_overflow fits]
    exact ⟨le_rfl, floor⟩

theorem sum_products (distribute : Int) (funders : List (Address × Int)) :
    (funders.map fun entry => distribute * entry.2).sum = distribute * contributed funders :=
  List.sum_map_mul_left funders Prod.snd distribute

theorem floors_products (divisor : Int) (funders : List (Address × Int)) (distribute : Int) :
    floors divisor (funders.map fun entry => distribute * entry.2) =
      (funders.map fun entry => distribute * entry.2 / divisor).sum := by
  simp [floors, Function.comp_def]

theorem shares_le (positive : 0 < amount) (nonneg : AllNonneg funders)
    (total : contributed funders = amount) (share : 0 ≤ distribute) :
    paidTotal (funderShare distribute amount) funders ≤ distribute := by
  have each : paidTotal (funderShare distribute amount) funders ≤
      floors amount (funders.map fun entry => distribute * entry.2) := by
    rw [floors_products]
    refine List.sum_le_sum ?_
    intro entry listed
    obtain ⟨low, high⟩ := funderShare_bounds positive (mul_nonneg share (nonneg entry listed))
    exact max_le (low.trans high) high
  refine each.trans ((floors_le positive _).trans ?_)
  rw [sum_products, total, Int.mul_ediv_cancel _ positive.ne']

theorem lt_shares_add (positive : 0 < amount) (nonneg : AllNonneg funders)
    (total : contributed funders = amount) (share : 0 ≤ distribute)
    (fits : ∀ entry ∈ funders, Fits i128 (distribute * entry.2)) :
    distribute < paidTotal (funderShare distribute amount) funders + funders.length := by
  have some_part : (funders.map fun entry => distribute * entry.2) ≠ [] := by
    intro empty
    have none : funders = [] := List.map_eq_nil_iff.mp empty
    simp only [none, contributed, List.map_nil, List.sum_nil] at total
    omega
  have each : paidTotal (funderShare distribute amount) funders =
      floors amount (funders.map fun entry => distribute * entry.2) := by
    rw [floors_products]
    refine congrArg List.sum (List.map_congr_left ?_)
    intro entry listed
    have product := mul_nonneg share (nonneg entry listed)
    rw [funderShare_of_fits product (fits entry listed)]
    exact max_eq_right (Int.ediv_nonneg product positive.le)
  have dust := sum_ediv_lt positive _ some_part
  rw [sum_products, total, Int.mul_ediv_cancel _ positive.ne', List.length_map] at dust
  rw [each]
  exact dust

end Shares

end InvoiceLiquidity
