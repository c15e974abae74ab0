import Mathlib.Tactic.Common

/-! Fallible straight-line code as blocks in `Except`. The lemmas say when such a block returned, so
that a proof reads off every guard that was passed, and which failures it cannot stop with. -/
namespace Outcome

variable {condition : Prop} {ε α β : Type}

def require (condition : Prop) [Decidable condition] (failure : ε) : Except ε Unit :=
  if condition then .ok () else .error failure

def orFail (value : Option α) (failure : ε) : Except ε α :=
  match value with
  | some found => .ok found
  | none => .error failure

variable {block : Except ε α} {result : β} {failure : ε} {body : β → α → Except ε β}

@[simp] theorem bind_eq_ok {rest : α → Except ε β} :
    (block >>= rest) = .ok result ↔ ∃ middle, block = .ok middle ∧ rest middle = .ok result := by
  cases block with
  | error failure | ok middle => simp [bind, Except.bind]

@[simp] theorem pure_eq_ok {value result : α} :
    (pure value : Except ε α) = .ok result ↔ value = result := by
  simp [pure, Except.pure]

@[simp] theorem map_eq_ok {transform : α → β} :
    (transform <$> block) = .ok result ↔ ∃ middle, block = .ok middle ∧
      transform middle = result := by
  cases block with
  | error failure | ok middle => simp [Functor.map, Except.map]

@[simp] theorem require_eq_ok [Decidable condition] {passed : Unit} :
    require condition failure = .ok passed ↔ condition := by
  unfold require
  split <;> simp_all

@[simp] theorem orFail_eq_ok {value : Option α} {result : α} :
    orFail value failure = .ok result ↔ value = some result := by
  cases value <;> simp [orFail]

/-- What a block that returned says about its parts: the rules above as one list for `simp`. -/
theorem ok_iff {ε : Type} :
    (∀ {α β : Type} {block : Except ε α} {rest : α → Except ε β} {result : β},
      (block >>= rest) = .ok result ↔ ∃ middle, block = .ok middle ∧ rest middle = .ok result) ∧
    (∀ {α : Type} {value result : α}, (pure value : Except ε α) = .ok result ↔ value = result) ∧
    (∀ {α β : Type} {block : Except ε α} {transform : α → β} {result : β},
      (transform <$> block) = .ok result ↔
        ∃ middle, block = .ok middle ∧ transform middle = result) ∧
    (∀ {condition : Prop} [Decidable condition] {failure : ε} {passed : Unit},
      require condition failure = .ok passed ↔ condition) ∧
    ∀ {α : Type} {value : Option α} {failure : ε} {result : α},
      orFail value failure = .ok result ↔ value = some result :=
  ⟨bind_eq_ok, pure_eq_ok, map_eq_ok, require_eq_ok, orFail_eq_ok⟩

theorem toOption_eq_some {result : α} :
    block.toOption = some result ↔ block = .ok result := by
  cases block <;> simp [Except.toOption]

theorem require_of_holds [Decidable condition] (holds : condition) :
    require condition failure = .ok () := if_pos holds

/-- Run a fallible loop body over a list, left to right. -/
def forEach (body : β → α → Except ε β) : β → List α → Except ε β
  | state, [] => .ok state
  | state, item :: rest => body state item >>= fun next => forEach body next rest

@[simp] theorem forEach_nil {state : β} :
    forEach body state [] = .ok state := rfl

theorem forEach_cons_eq_ok {state : β} {item : α} {rest : List α} :
    forEach body state (item :: rest) = .ok result ↔
      ∃ next, body state item = .ok next ∧ forEach body next rest = .ok result :=
  bind_eq_ok

/-- A relation that every iteration extends holds between the ends of the loop. -/
theorem forEach_induct {motive : List α → β → β → Prop} (nil : ∀ state, motive [] state state)
    (cons : ∀ item rest state next result, body state item = .ok next → motive rest next result →
      motive (item :: rest) state result)
    (items : List α) (state result : β) (finished : forEach body state items = .ok result) :
    motive items state result := by
  induction items generalizing state with
  | nil =>
    simp only [forEach_nil, Except.ok.injEq] at finished
    subst finished
    exact nil state
  | cons item rest ih =>
    obtain ⟨next, first, remaining⟩ := forEach_cons_eq_ok.mp finished
    exact cons item rest state next result first (ih next remaining)

section Failures

variable {failure stop : ε}

def Avoids (failure : ε) (block : Except ε α) : Prop := block ≠ .error failure

theorem avoids_ok (failure : ε) (value : α) : Avoids failure (.ok value) := by
  intro stopped
  cases stopped

theorem avoids_error (other : stop ≠ failure) : Avoids failure (.error stop : Except ε α) := by
  intro stopped
  cases stopped
  exact other rfl

variable {block : Except ε α}

theorem Avoids.bind {rest : α → Except ε β} (first : Avoids failure block)
    (later : ∀ value, block = .ok value → Avoids failure (rest value)) :
    Avoids failure (block >>= rest) := by
  cases block with
  | error => exact avoids_error fun same => first (congrArg _ same)
  | ok value => exact later value rfl

theorem Avoids.map {transform : α → β} (avoids : Avoids failure block) :
    Avoids failure (transform <$> block) := by
  cases block with
  | error => exact avoids_error fun same => avoids (congrArg _ same)
  | ok => exact avoids_ok failure _

theorem avoids_require [Decidable condition] (other : stop ≠ failure) :
    Avoids failure (require condition stop) := by
  unfold require
  split
  · exact avoids_ok failure ()
  · exact avoids_error other

theorem avoids_require_of_holds [Decidable condition] (holds : condition) :
    Avoids failure (require condition stop) := by
  rw [require_of_holds holds]
  exact avoids_ok failure ()

theorem avoids_orFail {value : Option α} (other : stop ≠ failure) :
    Avoids failure (orFail value stop) := by
  cases value with
  | none => exact avoids_error other
  | some found => exact avoids_ok failure found

theorem avoids_forEach {body : β → α → Except ε β}
    (each : ∀ state item, Avoids failure (body state item)) (state : β) (items : List α) :
    Avoids failure (forEach body state items) := by
  induction items generalizing state with
  | nil => exact avoids_ok failure state
  | cons item rest ih => exact (each state item).bind fun next _ => ih next

end Failures

end Outcome
