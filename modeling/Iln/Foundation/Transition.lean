import Mathlib.Algebra.BigOperators.Group.List.Basic

/-! Deterministic machines driven by a list of actions. `exec` runs the list, `Along` asks a
condition of every action in the state it meets, `Happened` of some action, `Throughout` asks a
property of every state visited, `tally` adds up what each action moved, and `noted` is what an
observer has written down. The rules below are the only inductions over runs. -/
namespace Transition

section Rollback

variable {σ ε : Type} (before : σ) {after : σ} {result : Except ε σ}

def settled : Except ε σ → σ
  | .ok after => after
  | .error _ => before

theorem eq_ok_settled (finished : result.isOk = true) : result = .ok (settled before result) := by
  cases result with
  | ok => rfl
  | error => cases finished

theorem isOk_of_eq (returned : result = .ok after) : result.isOk = true := by
  rw [returned]
  rfl

theorem settled_of_failed (failed : result.isOk = false) : settled before result = before := by
  cases result with
  | ok => cases failed
  | error => rfl

end Rollback

variable {σ α : Type} (step : σ → α → σ)

def exec (state : σ) : List α → σ
  | [] => state
  | action :: rest => exec (step state action) rest

/-- Every action meets the condition in the state just before it. -/
def Along (condition : σ → α → Prop) (state : σ) : List α → Prop
  | [] => True
  | action :: rest => condition state action ∧ Along condition (step state action) rest

/-- Some action met the condition in the state just before it. -/
def Happened (event : σ → α → Prop) (state : σ) : List α → Prop
  | [] => False
  | action :: rest => event state action ∨ Happened event (step state action) rest

/-- The property holds in every state visited, the first and the last included. -/
def Throughout (property : σ → Prop) (state : σ) : List α → Prop
  | [] => property state
  | action :: rest => property state ∧ Throughout property (step state action) rest

/-- The sum over a run of what each action contributes. -/
def tally {μ : Type} [AddMonoid μ] (weight : σ → α → μ) (state : σ) : List α → μ
  | [] => 0
  | action :: rest => weight state action + tally weight (step state action) rest

/-- The notes of an observer who looks at every action in the state just before it. -/
def noted {η : Type} (note : σ → α → η → η) (notes : η) (state : σ) : List α → η
  | [] => notes
  | action :: rest => noted note (note state action notes) (step state action) rest

variable {step}

instance decidableAlong (condition : σ → α → Prop)
    [∀ state action, Decidable (condition state action)] :
    (state : σ) → (actions : List α) → Decidable (Along step condition state actions)
  | _, [] => isTrue trivial
  | state, action :: rest =>
    @instDecidableAnd _ _ inferInstance (decidableAlong condition (step state action) rest)

instance decidableThroughout (property : σ → Prop) [∀ state, Decidable (property state)] :
    (state : σ) → (actions : List α) → Decidable (Throughout step property state actions)
  | state, [] => inferInstanceAs (Decidable (property state))
  | state, action :: rest =>
    @instDecidableAnd _ _ inferInstance (decidableThroughout property (step state action) rest)

theorem exec_append (state : σ) (first second : List α) :
    exec step state (first ++ second) = exec step (exec step state first) second := by
  induction first generalizing state with
  | nil => rfl
  | cons action rest ih => exact ih (step state action)

theorem exec_snoc (state : σ) (actions : List α) (last : α) :
    exec step state (actions ++ [last]) = step (exec step state actions) last :=
      exec_append state actions [last]

variable {state : σ} {actions : List α} {condition stronger : σ → α → Prop} {property : σ → Prop}

theorem Along.of_forall {condition : α → Prop} (everywhere : ∀ action ∈ actions, condition action) :
    Along step (fun _ action => condition action) state actions := by
  induction actions generalizing state with
  | nil => trivial
  | cons action rest ih =>
    exact ⟨everywhere action List.mem_cons_self,
      ih fun other member => everywhere other (List.mem_cons_of_mem _ member)⟩

theorem Along.always : Along step (fun _ _ => True) state actions :=
  Along.of_forall fun _ _ => trivial

theorem Along.and {first second : σ → α → Prop}
    (left : Along step first state actions) (right : Along step second state actions) :
    Along step (fun state action => first state action ∧ second state action) state actions := by
  induction actions generalizing state with
  | nil => trivial
  | cons action rest ih => exact ⟨⟨left.1, right.1⟩, ih left.2 right.2⟩

theorem along_append {first second : List α} :
    Along step condition state (first ++ second) ↔
      Along step condition state first ∧ Along step condition (exec step state first) second := by
  induction first generalizing state with
  | nil => simp [Along, exec]
  | cons action rest ih => simp only [List.cons_append, Along, exec, ih, and_assoc]

theorem Along.mono {weaker : σ → α → Prop} (along : Along step stronger state actions)
    (implies : ∀ state action, stronger state action → weaker state action) :
    Along step weaker state actions := by
  induction actions generalizing state with
  | nil => trivial
  | cons action rest ih => exact ⟨implies _ _ along.1, ih along.2⟩

theorem happened_snoc {event : σ → α → Prop} {last : α} :
    Happened step event state (actions ++ [last]) ↔
      Happened step event state actions ∨ event (exec step state actions) last := by
  induction actions generalizing state with
  | nil => simp [Happened, exec]
  | cons action rest ih => simp only [List.cons_append, Happened, exec, ih, or_assoc]

theorem Happened.along {event : σ → α → Prop}
    (happened : Happened step event state actions) (along : Along step condition state actions) :
    Happened step (fun state action => event state action ∧ condition state action) state
      actions := by
  induction actions generalizing state with
  | nil => exact happened
  | cons action rest ih =>
    exact happened.imp (fun here => ⟨here, along.1⟩) (fun later => ih later along.2)

theorem Happened.mono {weaker : σ → α → Prop}
    (implies : ∀ state action, stronger state action → weaker state action)
    (happened : Happened step stronger state actions) :
    Happened step weaker state actions := by
  induction actions generalizing state with
  | nil => exact happened
  | cons action rest ih => exact happened.imp (implies state action) ih

theorem Throughout.along (throughout : Throughout step property state actions) :
    Along step (fun state _ => property state) state actions := by
  induction actions generalizing state with
  | nil => trivial
  | cons action rest ih => exact ⟨throughout.1, ih throughout.2⟩

theorem Throughout.mono {stronger weaker : σ → Prop}
    (implies : ∀ state, stronger state → weaker state)
    (throughout : Throughout step stronger state actions) :
    Throughout step weaker state actions := by
  induction actions generalizing state with
  | nil => exact implies _ throughout
  | cons action rest ih => exact ⟨implies _ throughout.1, ih throughout.2⟩

theorem Throughout.last
    (throughout : Throughout step property state actions) : property (exec step state actions) := by
  induction actions generalizing state with
  | nil => exact throughout
  | cons action rest ih => exact ih throughout.2

theorem Throughout.start
    (throughout : Throughout step property state actions) : property state := by
  cases actions with
  | nil => exact throughout
  | cons => exact throughout.1

theorem Throughout.append {first second : List α}
    (throughout : Throughout step property state (first ++ second)) :
    Throughout step property state first := by
  induction first generalizing state with
  | nil => exact throughout.start
  | cons action rest ih => exact ⟨throughout.1, ih throughout.2⟩

theorem invariant_along (property : σ → Prop)
    (keeps : ∀ state action, property state → condition state action → property (step state action))
    (start : property state)
    (along : Along step condition state actions) : property (exec step state actions) := by
  induction actions generalizing state with
  | nil => exact start
  | cons action rest ih => exact ih (keeps _ _ start along.1) along.2

theorem throughout_along (property : σ → Prop)
    (keeps : ∀ state action, property state → condition state action → property (step state action))
    (start : property state)
    (along : Along step condition state actions) : Throughout step property state actions := by
  induction actions generalizing state with
  | nil => exact start
  | cons action rest ih => exact ⟨start, ih (keeps _ _ start along.1) along.2⟩

/-- A run keeps a property throughout exactly if every action meets a condition, when in good states
the property after an action and the condition on it imply each other. -/
theorem throughout_iff (good : σ → Prop) (sound : ∀ state, good state → property state)
    (keeps : ∀ state action, good state → condition state action → good (step state action))
    (needs : ∀ state action, good state → property (step state action) → condition state action)
    (start : good state) (actions : List α) :
    Throughout step property state actions ↔ Along step condition state actions := by
  induction actions generalizing state with
  | nil => exact ⟨fun _ => trivial, fun _ => sound state start⟩
  | cons action rest ih =>
    constructor
    · rintro ⟨_, later⟩
      have met : condition state action := needs state action start later.start
      exact ⟨met, (ih (keeps state action start met)).mp later⟩
    · rintro ⟨met, later⟩
      exact ⟨sound state start, (ih (keeps state action start met)).mpr later⟩

theorem invariant (property : σ → Prop)
    (keeps : ∀ state action, property state → property (step state action))
    (actions : List α) (start : property state) : property (exec step state actions) := by
  induction actions generalizing state with
  | nil => exact start
  | cons action rest ih => exact ih (keeps _ _ start)

/-- A relation between the sum so far and the state, kept by every action that meets the condition,
holds between the whole sum and the last state. -/
theorem tally_induct {μ : Type} [AddMonoid μ] {weight : σ → α → μ} (motive : μ → σ → Prop)
    (keeps : ∀ total state action, motive total state → condition state action →
      motive (total + weight state action) (step state action))
    (start : motive 0 state) (along : Along step condition state actions) :
    motive (tally step weight state actions) (exec step state actions) := by
  -- the sum so far is general, or the induction hypothesis would be about 0
  have carried : ∀ total, motive total state →
      motive (total + tally step weight state actions) (exec step state actions) := by
    intro total held
    clear start
    induction actions generalizing state total with
    | nil =>
      simp only [tally, add_zero]
      exact held
    | cons action rest ih =>
      have later := ih along.2 _ (keeps total state action held along.1)
      rw [add_assoc] at later
      exact later
  have whole := carried 0 start
  rwa [zero_add] at whole

theorem tally_snoc {μ : Type} [AddMonoid μ] {weight : σ → α → μ} (state : σ) (actions : List α)
    (last : α) :
    tally step weight state (actions ++ [last]) =
      tally step weight state actions + weight (exec step state actions) last := by
  induction actions generalizing state with
  | nil => simp [tally, exec]
  | cons action rest ih => simp only [List.cons_append, tally, exec, ih, add_assoc]

/-- An event that leaves a lasting mark, and that needs a state without the mark, happens at most
once. -/
theorem tally_le_one {weight : σ → α → Nat} (sound mark : σ → Prop)
    (keeps : ∀ state action, sound state → sound (step state action))
    (lasts : ∀ state action, sound state → mark state → mark (step state action))
    (marks : ∀ state action, sound state →
      weight state action = 0 ∨ weight state action = 1 ∧ ¬ mark state ∧ mark (step state action))
    (actions : List α) (start : sound state) : tally step weight state actions ≤ 1 := by
  have counted : sound (exec step state actions) ∧ (tally step weight state actions = 0 ∨
      tally step weight state actions = 1 ∧ mark (exec step state actions)) := by
    refine tally_induct (fun total state => sound state ∧ (total = 0 ∨ total = 1 ∧ mark state)) ?_
      ⟨start, .inl rfl⟩ Along.always
    rintro total state action ⟨held, counted⟩ _
    refine ⟨keeps state action held, ?_⟩
    rcases marks state action held with none | ⟨one, unmarked, marked⟩
    · rw [none, add_zero]
      exact counted.imp_right fun marked => ⟨marked.1, lasts state action held marked.2⟩
    · rcases counted with rfl | ⟨_, marked⟩
      · exact .inr ⟨by omega, marked⟩
      · exact absurd marked unmarked
  rcases counted.2 with none | ⟨one, _⟩ <;> omega

theorem tally_le_potential {weight : σ → α → Nat} (sound : σ → Prop) (potential : σ → Nat)
    (keeps : ∀ state action, sound state → sound (step state action))
    (pays : ∀ state action, sound state → weight state action + potential (step state action) ≤
      potential state)
    (actions : List α) (start : sound state) :
    tally step weight state actions + potential (exec step state actions) ≤ potential state := by
  induction actions generalizing state with
  | nil => exact Nat.le_of_eq (Nat.zero_add _)
  | cons action rest ih =>
    have later := ih (keeps state action start)
    have paid := pays state action start
    simp only [tally, exec]
    omega

theorem history_induct (motive : List α → σ → Prop)
    (keeps : ∀ past action, motive past (exec step state past) →
      motive (past ++ [action]) (step (exec step state past) action))
    (start : motive [] state) (actions : List α) : motive actions (exec step state actions) := by
  have carried : ∀ past, motive past (exec step state past) →
      motive (past ++ actions) (exec step state (past ++ actions)) := by
    induction actions with
    | nil =>
      intro past held
      rw [List.append_nil]
      exact held
    | cons action rest ih =>
      intro past held
      have later := ih (past ++ [action]) (by rw [exec_snoc]; exact keeps past action held)
      rwa [List.append_assoc] at later
  exact carried [] start

/-- A value found in a slot that was empty at first was written by some action of the run, and no
action touched the slot after that one. -/
theorem last_write {κ : Type} (read : σ → Option κ) (writes : σ → α → κ → Prop)
    (touches : σ → α → Prop) (keeps : ∀ state action value, read (step state action) = some value →
      writes state action value ∨ read state = some value ∧ ¬ touches state action)
    (start : read state = none) (actions : List α) {value : κ}
    (stored : read (exec step state actions) = some value) :
    ∃ before action since, actions = before ++ action :: since ∧
      writes (exec step state before) action value ∧
      Along step (fun state action => ¬ touches state action)
      (exec step state (before ++ [action])) since := by
  refine history_induct (fun past reached => read reached = some value → ∃ before action since,
    past = before ++ action :: since ∧ writes (exec step state before) action value ∧
      Along step (fun state action => ¬ touches state action)
      (exec step state (before ++ [action])) since)
    ?_ ?_ actions stored
  · intro past action traced stored
    rcases keeps _ action value stored with written | ⟨before, _⟩
    · exact ⟨past, action, [], rfl, written, trivial⟩
    · obtain ⟨earlier, writer, since, rfl, written, quiet⟩ := traced before
      refine ⟨earlier, writer, since ++ [action], by simp, written,
        along_append.mpr ⟨quiet, ?_, trivial⟩⟩
      rwa [← exec_append, List.append_assoc, List.singleton_append]
  · intro stored
    rw [start] at stored
    cases stored

theorem noted_snoc {η : Type} {note : σ → α → η → η} (notes : η) (state : σ) (actions : List α)
    (last : α) :
    noted step note notes state (actions ++ [last]) =
      note (exec step state actions) last (noted step note notes state actions) := by
  induction actions generalizing notes state with
  | nil => rfl
  | cons action rest ih => exact ih _ _

theorem noted_induct {η : Type} {note : σ → α → η → η} (motive : η → σ → Prop)
    (keeps : ∀ notes state action, motive notes state →
      condition state action → motive (note state action notes) (step state action))
    {notes : η} (start : motive notes state) (along : Along step condition state actions) :
    motive (noted step note notes state actions) (exec step state actions) := by
  induction actions generalizing notes state with
  | nil => exact start
  | cons action rest ih => exact ih (keeps notes state action start along.1) along.2

end Transition
