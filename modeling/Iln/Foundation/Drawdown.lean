import Mathlib.Algebra.Order.BigOperators.Group.List
import Mathlib.Algebra.Order.Ring.Int

/-! Payments drawn one after the other from what is left of a sum. `amount left item` is what an
item takes when `left` remains. When no item takes more than its share, all take their shares
exactly if the sums agree. -/
namespace Drawdown

variable {α : Type} (amount : Int → α → Int)

def drawn : Int → List α → List (α × Int)
  | _, [] => []
  | left, item :: rest => (item, amount left item) :: drawn (left - amount left item) rest

def taken (payments : List (α × Int)) : Int := (payments.map Prod.snd).sum

@[simp] theorem taken_nil : taken ([] : List (α × Int)) = 0 := rfl

@[simp] theorem taken_cons (payment : α × Int) (rest : List (α × Int)) :
    taken (payment :: rest) = payment.2 + taken rest := by
  simp [taken]

variable {amount} {left : Int} {items : List α}

theorem map_fst_drawn (left : Int) (items : List α) :
    (drawn amount left items).map Prod.fst = items := by
  induction items generalizing left with
  | nil => rfl
  | cons item rest ih => rw [drawn, List.map_cons, ih]

theorem drawn_split {earlier later : List (α × Int)} {payment : α × Int}
    (split : drawn amount left items = earlier ++ payment :: later) :
    payment.2 = amount (left - taken earlier) payment.1 := by
  induction items generalizing left earlier with
  | nil =>
    rw [drawn] at split
    exact absurd split (by simp)
  | cons item rest ih =>
    rw [drawn] at split
    cases earlier with
    | nil =>
      obtain ⟨rfl, _⟩ := List.cons.inj split
      rw [taken_nil, sub_zero]
    | cons =>
      obtain ⟨rfl, remaining⟩ := List.cons.inj split
      have took := ih remaining
      rwa [sub_sub, ← taken_cons (item, amount left item)] at took

theorem taken_le_of_split {earlier later : List (α × Int)}
    (within : ∀ left, 0 ≤ left → ∀ item ∈ items, amount left item ≤ left) (nonneg : 0 ≤ left)
    (split : drawn amount left items = earlier ++ later) : taken earlier ≤ left := by
  induction items generalizing left earlier with
  | nil =>
    rw [drawn] at split
    rw [(List.append_eq_nil_iff.mp split.symm).1]
    exact nonneg
  | cons item rest ih =>
    rw [drawn] at split
    cases earlier with
    | nil => exact nonneg
    | cons =>
      obtain ⟨rfl, remaining⟩ := List.cons.inj split
      have upTo := ih (fun left nonneg other member => within left nonneg other
        (List.mem_cons_of_mem item member))
        (sub_nonneg.mpr (within left nonneg item List.mem_cons_self)) remaining
      rw [taken_cons]
      dsimp only
      omega

theorem drawn_all {whole : Int} (property : α → Int → Prop)
    (within : ∀ left, 0 ≤ left → left ≤ whole → ∀ item ∈ items, 0 ≤ amount left item ∧
      amount left item ≤ left)
    (each : ∀ left, 0 ≤ left → left ≤ whole → ∀ item ∈ items, property item (amount left item))
    (nonneg : 0 ≤ left) (part : left ≤ whole) : ∀ payment ∈ drawn amount left items,
      property payment.1 payment.2 := by
  induction items generalizing left with
  | nil => exact (by rintro _ ⟨⟩)
  | cons item rest ih =>
    intro payment member
    obtain ⟨low, high⟩ := within left nonneg part item List.mem_cons_self
    rcases List.mem_cons.mp member with rfl | further
    · exact each left nonneg part item List.mem_cons_self
    · exact ih (fun left nonneg part other member => within left nonneg part other
          (List.mem_cons_of_mem item member))
        (fun left nonneg part other member => each left nonneg part other
          (List.mem_cons_of_mem item member))
        (sub_nonneg.mpr high) ((sub_le_self _ low).trans part) payment further

section Shares

variable {share : α → Int}

theorem taken_map (items : List α) : taken (items.map fun item => (item, share item)) =
    (items.map share).sum := by
  rw [taken, List.map_map]
  rfl

theorem drawn_eq_map_iff : (drawn amount left items = items.map fun item => (item, share item)) ↔
    ∀ earlier item later, items = earlier ++ item :: later →
      amount (left - (earlier.map share).sum) item = share item := by
  constructor
  · intro same earlier item later split
    rw [split, List.map_append, List.map_cons, ← split] at same
    rw [← taken_map]
    exact (drawn_split same).symm
  · intro undisturbed
    induction items generalizing left with
    | nil => rfl
    | cons item rest ih =>
      have first : amount left item = share item := by
        have alone := undisturbed [] item rest rfl
        rwa [List.map_nil, List.sum_nil, sub_zero] at alone
      rw [drawn, first, List.map_cons]
      congr 1
      apply ih
      intro earlier other later split
      have further := undisturbed (item :: earlier) other later (by rw [split, List.cons_append])
      rwa [List.map_cons, List.sum_cons, ← sub_sub] at further

/-- One payment below its share would leave the sum below that of the shares. -/
theorem drawn_eq_map_of_taken
    (atMost : ∀ payment ∈ drawn amount left items, payment.2 ≤ share payment.1)
    (total : taken (drawn amount left items) = (items.map share).sum) :
    drawn amount left items = items.map fun item => (item, share item) := by
  have each : ∀ payment ∈ drawn amount left items, payment.2 = share payment.1 := by
    by_contra other
    simp only [not_forall] at other
    obtain ⟨payment, member, different⟩ := other
    have less := List.sum_lt_sum Prod.snd (share ∘ Prod.fst) atMost
      ⟨payment, member, lt_of_le_of_ne (atMost payment member) different⟩
    rw [← List.map_map, map_fst_drawn] at less
    exact absurd total less.ne
  calc drawn amount left items
      = (drawn amount left items).map fun payment => (payment.1, share payment.1) := by
        conv_lhs => rw [← List.map_id (drawn amount left items)]
        exact List.map_congr_left fun payment member => Prod.ext rfl (each payment member)
    _ = ((drawn amount left items).map Prod.fst).map fun item =>
      (item, share item) := by rw [List.map_map]; rfl
    _ = items.map fun item => (item, share item) := by rw [map_fst_drawn]

end Shares

theorem drawn_zero (nothing : ∀ item ∈ items, amount 0 item = 0) :
    drawn amount 0 items = items.map fun item => (item, 0) := by
  apply drawn_eq_map_iff.mpr
  intro earlier item later split
  rw [List.map_const', List.sum_replicate, nsmul_zero, sub_zero]
  exact nothing item (split ▸ List.mem_append_right earlier List.mem_cons_self)

end Drawdown
