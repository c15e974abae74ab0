import Mathlib.Order.Lattice.Nat

/-! Vertices with at most one successor each. When no walk is longer than a bound there is no cycle,
every walk has an end (`EndsAt`), and every vertex has a height, the length of the longest walk into
it. -/
namespace Forest

open Function

variable {V : Type} {next : V → Option V}

def follow (next : V → Option V) : (hops : Nat) → (start : V) → Option V
  | 0, start => some start
  | hops + 1, start => (next start).bind (follow next hops)

theorem follow_add (first second : Nat) (start : V) :
    follow next (first + second) start = (follow next first start).bind (follow next second) := by
  induction first generalizing start with
  | zero => simp [follow]
  | succ first ih =>
    rw [Nat.add_right_comm]
    cases step : next start with
    | none => simp [follow, step]
    | some => simp [follow, step, ih]

theorem follow_trans {first second : Nat} {start middle target : V}
    (left : follow next first start = some middle)
    (right : follow next second middle = some target) : follow next (first + second) start =
      some target := by
  rw [follow_add, left]
  exact right

def Bounded (next : V → Option V) (bound : Nat) : Prop :=
  ∀ hops start target, follow next hops start = some target → hops ≤ bound

def Acyclic (next : V → Option V) : Prop := ∀ hops start, follow next (hops + 1) start ≠ some start

theorem Bounded.mono {bound larger : Nat} (bounded : Bounded next bound) (le : bound ≤ larger) :
    Bounded next larger :=
  fun hops start target walk => (bounded hops start target walk).trans le

/-- A cycle can be walked any number of times. -/
theorem Bounded.acyclic {bound : Nat} (bounded : Bounded next bound) : Acyclic next := by
  intro hops start cycle
  have rounds : ∀ count, follow next (count * (hops + 1)) start = some start := by
    intro count
    induction count with
    | zero => simp [follow]
    | succ count ih =>
      rw [Nat.succ_mul]
      exact follow_trans ih cycle
  have long := bounded _ _ _ (rounds (bound + 1))
  have more : bound + 1 ≤ (bound + 1) * (hops + 1) := Nat.le_mul_of_pos_right _ (Nat.succ_pos hops)
  omega

section Update

variable [DecidableEq V] {changed : V}

theorem follow_update_of_avoids {start : V} (avoids : ∀ hops, follow next hops start ≠ some changed)
    (value : Option V) (hops : Nat) : follow (update next changed value) hops start =
      follow next hops start := by
  induction hops generalizing start with
  | zero => rfl
  | succ hops ih =>
    have away : start ≠ changed := fun same => avoids 0 (same ▸ rfl)
    simp only [follow, update_of_ne away]
    cases step : next start with
    | none => rfl
    | some =>
      refine ih fun further walk => avoids (further + 1) ?_
      simp [follow, step, walk]

theorem follow_of_update_none {hops : Nat} {start target : V}
    (walk : follow (update next changed none) hops start = some target) :
    follow next hops start = some target := by
  induction hops generalizing start with
  | zero => exact walk
  | succ hops ih =>
    by_cases here : start = changed
    · simp [follow, here] at walk
    · simp only [follow, update_of_ne here] at walk ⊢
      cases step : next start with
      | none => simp [step] at walk
      | some =>
        rw [step] at walk
        exact ih walk

theorem follow_of_update_some {target : V} {hops : Nat} {start last : V}
    (walk : follow (update next changed (some target)) hops start = some last) :
    follow next hops start = some last ∨ ∃ before after, hops = before + 1 + after ∧
      follow next before start = some changed ∧
      follow (update next changed (some target)) after target = some last := by
  induction hops generalizing start with
  | zero => exact .inl walk
  | succ hops ih =>
    by_cases here : start = changed
    · refine .inr ⟨0, hops, by omega, by rw [here]; rfl, ?_⟩
      simpa [follow, here] using walk
    · simp only [follow, update_of_ne here] at walk ⊢
      cases step : next start with
      | none => simp [step] at walk
      | some =>
        rw [step] at walk
        rcases ih walk with old | ⟨before, after, rfl, reach, rest⟩
        · exact .inl old
        · exact .inr ⟨before + 1, after, by omega, by simp [follow, step, reach], rest⟩

theorem Bounded.cut {bound : Nat} (bounded : Bounded next bound) (changed : V) :
    Bounded (update next changed none) bound :=
  fun hops start target walk => bounded hops start target (follow_of_update_none walk)

/-- Redirecting a pointer to a vertex that does not lead back: walks through it are bounded by the
walks into the changed vertex and the walks from the new target. -/
theorem Bounded.redirect {bound upstream downstream : Nat} {target : V}
    (bounded : Bounded next bound)
    (into : ∀ hops start, follow next hops start = some changed → hops ≤ upstream)
    (onward : ∀ hops last, follow next hops target = some last → hops ≤ downstream)
    (avoids : ∀ hops, follow next hops target ≠ some changed) :
    Bounded (update next changed (some target))
    (max bound (upstream + 1 + downstream)) := by
  intro hops start last walk
  rcases follow_of_update_some walk with old | ⟨before, after, rfl, reach, rest⟩
  · exact (bounded hops start last old).trans (le_max_left _ _)
  · rw [follow_update_of_avoids avoids] at rest
    have first := into before start reach
    have second := onward after last rest
    exact le_max_of_le_right (by omega)

end Update

section Height

noncomputable def height (next : V → Option V) (target : V) : Nat :=
  sSup { hops | ∃ start, follow next hops start = some target }

variable {bound : Nat} (bounded : Bounded next bound)
include bounded

theorem Bounded.le_height {hops : Nat} {start target : V}
    (walk : follow next hops start = some target) : hops ≤ height next target := by
  refine le_csSup ⟨bound, ?_⟩ ⟨start, walk⟩
  rintro hops ⟨start, walk⟩
  exact bounded hops start target walk

theorem Bounded.height_reached (target : V) : ∃ start, follow next (height next target) start =
    some target := by
  have reached : height next target ∈ { hops | ∃ start, follow next hops start = some target } := by
    refine Nat.sSup_mem ⟨0, target, rfl⟩ ⟨bound, ?_⟩
    rintro hops ⟨start, walk⟩
    exact bounded hops start target walk
  exact reached

theorem Bounded.height_le (target : V) : height next target ≤ bound := by
  obtain ⟨_, walk⟩ := bounded.height_reached target
  exact bounded _ _ _ walk

theorem Bounded.height_lt {start target : V} (step : next start = some target) :
    height next start < height next target := by
  obtain ⟨_, walk⟩ := bounded.height_reached start
  exact bounded.le_height
    (follow_trans walk (by simp [follow, step] : follow next 1 start = some target))

theorem Bounded.height_eq (target : V) :
    height next target = 0 ∨ ∃ start, next start = some target ∧
      height next target = height next start + 1 := by
  obtain ⟨origin, walk⟩ := bounded.height_reached target
  cases length : height next target with
  | zero => exact .inl rfl
  | succ =>
    rw [length, follow_add] at walk
    obtain ⟨start, reach, step⟩ := Option.bind_eq_some_iff.mp walk
    have edge : next start = some target := by simpa [follow] using step
    refine .inr ⟨start, edge, ?_⟩
    have low := bounded.le_height reach
    have high := bounded.height_lt edge
    omega

end Height

def EndsAt (next : V → Option V) (start last : V) : Prop :=
  next last = none ∧ ∃ hops, follow next hops start = some last

theorem EndsAt.of_none {start : V} (stops : next start = none) :
    EndsAt next start start := ⟨stops, 0, rfl⟩

theorem endsAt_step {start middle last : V} (step : next start = some middle) :
    EndsAt next start last ↔ EndsAt next middle last := by
  constructor
  · rintro ⟨stops, hops, walk⟩
    cases hops with
    | zero =>
      cases walk
      rw [step] at stops
      cases stops
    | succ hops => exact ⟨stops, hops, by simpa [follow, step] using walk⟩
  · rintro ⟨stops, hops, walk⟩
    exact ⟨stops, hops + 1, by simpa [follow, step] using walk⟩

theorem endsAt_of_none {start last : V} (stops : next start = none) :
    EndsAt next start last ↔ last = start := by
  constructor
  · rintro ⟨_, hops, walk⟩
    cases hops with
    | zero => exact (Option.some.inj walk).symm
    | succ => simp [follow, stops] at walk
  · rintro rfl
    exact .of_none stops

theorem EndsAt.unique {start first second : V} (left : EndsAt next start first)
    (right : EndsAt next start second) : first = second := by
  obtain ⟨stops, hops, walk⟩ := left
  induction hops generalizing start with
  | zero =>
    cases walk
    exact ((endsAt_of_none stops).mp right).symm
  | succ hops ih =>
    obtain ⟨_, step, rest⟩ := Option.bind_eq_some_iff.mp walk
    exact ih ((endsAt_step step).mp right) rest

theorem follow_ne_of_unreferenced {changed : V} (unreferenced : ∀ other, next other ≠ some changed)
    {start : V} (elsewhere : start ≠ changed) (hops : Nat) :
    follow next hops start ≠ some changed := by
  induction hops generalizing start with
  | zero => exact fun same => elsewhere (Option.some.inj same)
  | succ hops ih =>
    intro walk
    obtain ⟨_, step, rest⟩ := Option.bind_eq_some_iff.mp walk
    exact ih (fun same => unreferenced start (same ▸ step)) rest

theorem endsAt_update [DecidableEq V] {changed : V}
    (unreferenced : ∀ other, next other ≠ some changed) (value : Option V) {start last : V}
    (elsewhere : start ≠ changed) :
    EndsAt (update next changed value) start last ↔ EndsAt next start last := by
  have avoids := follow_ne_of_unreferenced unreferenced elsewhere
  simp only [EndsAt, follow_update_of_avoids avoids value]
  refine and_congr_left ?_
  rintro ⟨hops, walk⟩
  have away : last ≠ changed := by
    rintro rfl
    exact avoids hops walk
  rw [update_of_ne away]

end Forest
