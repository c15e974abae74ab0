import Iln.Invoice.State

/-! The configuration of `reputation_bonus` (`config.rs`, entry points in `lib.rs`). `set_config`
asks for no authorisation; `update_config` asks for that of its `caller`, who must be the stored
administrator. -/
namespace ReputationBonus

open Outcome
open InvoiceLiquidity (Address)

inductive ConfigError where
  | unauthorized | invalidBonusBps | invalidMinDiscountRate | invalidHighRepThreshold
  deriving DecidableEq, Repr

inductive Failure where
  | returned (error : ConfigError)
  | trap
  deriving DecidableEq, Repr

instance : Coe ConfigError Failure := ⟨.returned⟩

abbrev Result := Except Failure

structure Config where
  highRepThreshold : Nat
  bonusBps : Nat
  minDiscountRateBps : Nat
  deriving DecidableEq, Repr

structure ConfigStore where
  admin : Option Address
  config : Option Config
  deriving DecidableEq, Repr

def maxBonusBps : Nat := 500
def maxReputationScore : Nat := 100

def setConfig (store : ConfigStore) (config : Config) : Result ConfigStore := do
  require (¬ config.highRepThreshold > maxReputationScore) ConfigError.invalidHighRepThreshold
  require (¬ config.bonusBps > maxBonusBps) ConfigError.invalidBonusBps
  require (config.minDiscountRateBps ≠ 0) ConfigError.invalidMinDiscountRate
  return { store with config := some config }

def updateConfig (signed : Address → Bool) (store : ConfigStore) (caller : Address)
    (config : Config) :
    Result ConfigStore := do
  let admin ← orFail store.admin ConfigError.unauthorized
  let _ ← orFail store.config ConfigError.unauthorized
  require (signed caller = true) .trap
  require (caller = admin) ConfigError.unauthorized
  setConfig store config

theorem setConfig_eq_ok {store next : ConfigStore} {config : Config} :
    setConfig store config = .ok next ↔
      config.highRepThreshold ≤ maxReputationScore ∧ config.bonusBps ≤ maxBonusBps ∧
        config.minDiscountRateBps ≠ 0 ∧ { store with config := some config } = next := by
  simp only [setConfig, ok_iff, not_lt, gt_iff_lt]
  constructor
  · rintro ⟨_, threshold, _, bonus, _, rate, same⟩
    exact ⟨threshold, bonus, rate, same⟩
  · rintro ⟨threshold, bonus, rate, same⟩
    exact ⟨(), threshold, (), bonus, (), rate, same⟩

end ReputationBonus
