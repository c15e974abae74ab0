import Iln.Invoice.Contract

/-! Payer scores as a bounded quantity. Every write caps a score at 100, a read can only lower it by
the decay that has become due, and a score read in the ledger that wrote it is the one written. -/
namespace InvoiceLiquidity

open FixedWidth Function

def ScoreStore.Bounded (scores : ScoreStore) : Prop :=
  ∀ payer rep, scores.payerScore payer = some rep → rep.score ≤ 100

def World.scoreOf (world : World) (payer : Address) : Nat :=
  (getPayerScore world.clock world.control.config world.scores payer).2

section Scores

variable {clock : Clock} {config : Option Config} {scores : ScoreStore} {payer : Address}

theorem ScoreStore.Bounded.update (bounded : scores.Bounded) {entry : Option ReputationScore}
    (capped : ∀ rep ∈ entry, rep.score ≤ 100) {written : ScoreStore}
    (writes : written.payerScore = update scores.payerScore payer entry) : written.Bounded := by
  intro other rep stored
  rw [writes] at stored
  by_cases same : other = payer
  · subst same
    rw [update_self] at stored
    exact capped rep stored
  · rw [update_of_ne same] at stored
    exact bounded other rep stored

theorem ScoreStore.Bounded.of_eq (bounded : scores.Bounded) {after : ScoreStore}
    (same : after.payerScore = scores.payerScore) : after.Bounded := by
  intro payer rep stored
  exact bounded payer rep (same ▸ stored)

theorem getPayerScore_bounded (clock : Clock) (config : Option Config) (payer : Address)
    (bounded : scores.Bounded) :
    (getPayerScore clock config scores payer).1.Bounded ∧
      (getPayerScore clock config scores payer).2 ≤ 100 := by
  unfold getPayerScore
  split
  · exact ⟨bounded, Nat.le_of_ble_eq_true rfl⟩
  · rename_i rep stored
    exact ⟨bounded, bounded payer rep stored⟩
  · rename_i rep decay stored
    dsimp only
    split
    · split
      · exact ⟨bounded, bounded payer rep stored⟩
      · -- the decayed score is written back
        refine ⟨bounded.update (fun written same => ?_) rfl, min_le_left _ _⟩
        cases same
        exact min_le_left _ _
    · exact ⟨bounded, bounded payer rep stored⟩

theorem setPayerScore_payerScore (clock : Clock) (config : Option Config) (scores : ScoreStore)
    (payer : Address) (score : Nat) :
    (setPayerScore clock config scores payer score).payerScore =
      update (getPayerScore clock config scores payer).1.payerScore payer
        (if min score 100 = defaultPayerScore then none else some ⟨min score 100,
          clock.sequence⟩) := by
  unfold setPayerScore
  dsimp only
  split <;> rfl

theorem setPayerScore_bounded (bounded : scores.Bounded) (score : Nat) :
    (setPayerScore clock config scores payer score).Bounded := by
  refine (getPayerScore_bounded clock config payer bounded).1.update ?_
    (setPayerScore_payerScore clock config scores payer score)
  intro rep written
  split at written
  · cases written
  · cases written
    exact min_le_right _ _

/-- In the ledger of the write no decay has become due yet. -/
theorem getPayerScore_of_written {score : Nat}
    (written : scores.payerScore payer = if score = defaultPayerScore then none else some ⟨score,
      clock.sequence⟩) :
    (getPayerScore clock config scores payer).2 = score := by
  unfold getPayerScore
  split at written
  · rename_i standard
    rw [written]
    exact standard.symm
  · rw [written]
    cases config with
    | none => rfl
    | some decay =>
      have idle : ¬(decay.decayPeriodLedgers ≤ clock.sequence - clock.sequence ∧
          0 < decay.decayPeriodLedgers ∧ 0 < decay.decayRateBps) := by omega
      simp only [if_neg idle]

theorem penalizeDefault_spec (bounded : scores.Bounded) :
    (penalizeDefault clock config scores payer).1.Bounded ∧
      (penalizeDefault clock config scores payer).2 = (getPayerScore clock config scores payer).2 ∧
      (getPayerScore clock config (penalizeDefault clock config scores payer).1 payer).2 =
        (getPayerScore clock config scores payer).2 - 5 := by
  have read := getPayerScore_bounded clock config payer bounded
  refine ⟨?_, rfl, ?_⟩
  · exact (setPayerScore_bounded read.1 _).of_eq rfl
  · refine getPayerScore_of_written ?_
    have capped : min ((getPayerScore clock config scores payer).2 - 5) 100 =
        (getPayerScore clock config scores payer).2 - 5 := min_eq_left (by omega)
    have written := setPayerScore_payerScore clock config
      (getPayerScore clock config scores payer).1 payer
      ((getPayerScore clock config scores payer).2 - 5)
    rw [capped] at written
    exact (congrFun written payer).trans (update_self ..)

theorem restoreScore_spec (bounded : scores.Bounded) (appeal : AppealRecord) :
    (restoreScore clock config scores payer appeal).Bounded ∧
      (getPayerScore clock config (restoreScore clock config scores payer appeal) payer).2 =
        min appeal.preDefaultScore 100 := by
  refine ⟨(setPayerScore_bounded bounded _).of_eq rfl, getPayerScore_of_written ?_⟩
  show (setPayerScore clock config scores payer _).payerScore payer = _
  rw [setPayerScore_payerScore, update_self]

end Scores

end InvoiceLiquidity
