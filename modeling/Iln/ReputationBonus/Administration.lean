import Iln.ReputationBonus.Contract

/-! Who can change the administrator and the configuration of `reputation_bonus`. Only three calls
write them, and two of the three ask for nothing, so they are fixed in runs in which those two are
not repeated. -/
namespace ReputationBonus

open Outcome Transition
open InvoiceLiquidity (Address)

section Frames

variable {signed : Address → Bool} {world next : World} {call : Call}

theorem configVia_eq_ok {result : Result ConfigStore} :
    configVia world result = .ok next ↔ ∃ store, result = .ok store ∧
      { world with config := store } = next := by
  unfold configVia
  cases result with
  | ok store | error failure => simp [Except.mapError]

/-- What a successful call does to the administrator and the configuration. -/
inductive ConfigEffect (signed : Address → Bool) (before : ConfigStore) : Call → ConfigStore → Prop
  | initialised {admin : Address} : ConfigEffect signed before (.init admin)
  { before with admin := some admin }
  | configured {config : Config} : ConfigEffect signed before (.setConfig config)
      { before with config := some config }
  | updated {admin : Address} {config : Config} (stored : before.admin = some admin)
      (authorised : signed admin = true) :
      ConfigEffect signed before (.updateConfig admin config) { before with config := some config }
  | kept {call : Call} : ConfigEffect signed before call before

theorem invoke_config (ran : invoke signed world call = .ok next) :
    ConfigEffect signed world.config call next.config := by
  simp only [invoke, ok_iff] at ran
  obtain ⟨_, _, ran⟩ := ran
  cases call with
  | init =>
    cases ran
    exact .initialised
  | setConfig =>
    obtain ⟨store, changed, rfl⟩ := configVia_eq_ok.mp ran
    obtain ⟨_, _, _, rfl⟩ := setConfig_eq_ok.mp changed
    exact .configured
  | updateConfig =>
    obtain ⟨store, changed, rfl⟩ := configVia_eq_ok.mp ran
    simp only [updateConfig, ok_iff] at changed
    obtain ⟨_, stored, _, _, _, authorised, _, rfl, changed⟩ := changed
    obtain ⟨_, _, _, rfl⟩ := setConfig_eq_ok.mp changed
    exact .updated stored authorised
  | submitInvoice =>
    simp only [dispatch, ok_iff, submitInvoice] at ran
    obtain ⟨_, ⟨_, _, _, _, _, _, _, _, rfl⟩, rfl⟩ := ran
    exact .kept
  | markPaid =>
    simp only [dispatch, markPaid, ok_iff] at ran
    obtain ⟨_, _, _, _, rfl⟩ := ran
    exact .kept
  | handleDefault =>
    simp only [dispatch, handleDefault, ok_iff] at ran
    obtain ⟨_, _, rfl⟩ := ran
    exact .kept

end Frames

def Action.authorisedBy (address : Address) : Action → Bool
  | .invoke signed _ => signed address
  | .advance _ => false

def Guarded (world : World) : Action → Prop
  | .invoke _ (.init admin) => world.config.admin = none ∨ world.config.admin = some admin
  | .invoke signed (.setConfig config) => world.config.config = none ∨
      world.config.config = some config ∨ ∃ admin ∈ world.config.admin, signed admin = true
  | _ => True

instance (world : World) (action : Action) : Decidable (Guarded world action) := by
  unfold Guarded
  split <;> infer_instance

def ChangesAuthorised (world : World) (action : Action) : Prop :=
  ∀ config ∈ world.config.config, (step world action).config.config = some config ∨
    ∃ admin ∈ world.config.admin, action.authorisedBy admin = true

section Runs

variable {world : World} {action : Action}

theorem step_admin {admin : Address} (stored : world.config.admin = some admin)
    (guarded : Guarded world action) : (step world action).config.admin = some admin := by
  cases action with
  | advance => exact stored
  | invoke =>
    rw [step]
    split
    · rename_i next ran
      have effect := invoke_config ran
      generalize next.config = changed at effect ⊢
      cases effect with
      | initialised =>
        rcases guarded with none | same
        · rw [none] at stored
          cases stored
        · exact same.symm.trans stored
      | configured | updated | kept => exact stored
    · exact stored

theorem step_authorised (guarded : Guarded world action) : ChangesAuthorised world action := by
  intro config stored
  cases action with
  | advance => exact .inl stored
  | invoke =>
    rw [step]
    split
    · rename_i next ran
      have effect := invoke_config ran
      generalize next.config = changed at effect ⊢
      cases effect with
      | initialised => exact .inl stored
      | configured =>
        rcases guarded with none | same | authorised
        · rw [Option.mem_def, none] at stored
          cases stored
        · exact .inl (same.symm.trans stored)
        · exact .inr authorised
      | updated present authorised => exact .inr ⟨_, present, authorised⟩
      | kept => exact .inl stored
    · exact .inl stored

end Runs

/-- While nothing is initialised or configured over what is stored, the administrator stays and
alone changes the configuration. -/
theorem administration_held (timestamp : Nat) (actions : List Action)
    (guarded : Along step Guarded (genesis timestamp) actions) :
    (∀ before after, before ++ after = actions → ∀ admin,
      (exec step (genesis timestamp) before).config.admin = some admin →
        (exec step (genesis timestamp) actions).config.admin = some admin) ∧
      Along step ChangesAuthorised (genesis timestamp) actions := by
  refine ⟨?_, guarded.mono fun world action held => step_authorised held⟩
  rintro before after rfl admin stored
  rw [exec_append]
  refine invariant_along (fun world : World => world.config.admin = some admin) ?_ stored
    (along_append.mp guarded).2
  intro world action held kept
  exact step_admin held kept

def signedBy (signers : List Nat) (call : Call) : Action :=
    .invoke (fun address => address.key ∈ signers) call

def bonusOpening : List Action :=
  [signedBy [] (.init ⟨1⟩), signedBy [] (.setConfig ⟨80, 100, 50⟩),
    signedBy [2] (.submitInvoice ⟨2⟩ ⟨3⟩ 1000 500 300)]

theorem administration_held_of_bonusOpening :
    (exec step (genesis 0) (bonusOpening ++
      [signedBy [1] (.updateConfig ⟨1⟩ ⟨70, 200, 50⟩)])).config.admin = some ⟨1⟩ :=
  (administration_held 0 _ (by decide +kernel)).1 bonusOpening _ rfl ⟨1⟩ (by decide +kernel)

/-- A stranger takes the place of the administrator, and another one replaces the configuration. -/
theorem administration_taken :
    let world := exec step (genesis 0) bonusOpening
    world.config = ⟨some ⟨1⟩, some ⟨80, 100, 50⟩⟩ ∧
      (step world (signedBy [9] (.init ⟨9⟩))).config = ⟨some ⟨9⟩, some ⟨80, 100, 50⟩⟩ ∧
      (step world (signedBy [9] (.setConfig ⟨0, 500, 1⟩))).config =
        ⟨some ⟨1⟩, some ⟨0, 500, 1⟩⟩ := by
  decide +kernel

end ReputationBonus
