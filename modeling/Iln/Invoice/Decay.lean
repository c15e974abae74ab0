import Mathlib.Data.Nat.ModEq
import Mathlib.Order.Iterate
import Iln.Invoice.Appeals

/-! Decay of payer scores. A stored score loses a share of itself, and at least one point, in every
full period without activity. A read that finds decay due writes it back with the current ledger as
the last activity, so a period that has begun is lost with it; a score of 50 is not stored and does
not decay. -/
namespace InvoiceLiquidity

open FixedWidth Transition Function

def decayOnce (rateBps score : Nat) : Nat := score - max 1 (score * rateBps / 10000)

theorem decayOnce_mono (rateBps : Nat) : Monotone (decayOnce rateBps) := by
  intro low high ordered
  unfold decayOnce
  by_cases partly : rateBps ≤ 10000
  · -- the share grows by no more than the score itself
    obtain ⟨rise, rfl⟩ := Nat.exists_eq_add_of_le ordered
    have share : (low + rise) * rateBps / 10000 ≤ low * rateBps / 10000 + rise := by
      rw [Nat.add_mul, ← Nat.add_mul_div_right _ _ (Nat.zero_lt_succ 9999)]
      exact Nat.div_le_div_right (Nat.add_le_add_left (Nat.mul_le_mul_left rise partly) _)
    omega
  · -- the whole score is taken in one period
    have whole : low * 10000 / 10000 ≤ low * rateBps / 10000 :=
      Nat.div_le_div_right (Nat.mul_le_mul_left low (Nat.le_of_not_le partly))
    omega

theorem decayOnce_iterate_le (rateBps periods score : Nat) :
    (decayOnce rateBps)^[periods] score ≤ score - periods := by
  induction periods with
  | zero => exact le_rfl
  | succ periods =>
    rw [Function.iterate_succ_apply']
    have lowered : decayOnce rateBps ((decayOnce rateBps)^[periods] score) ≤ _ - 1 :=
      Nat.sub_le_sub_left (le_max_left _ _) _
    omega

/-- The multiplication of the source saturates only where the whole score is taken anyway. -/
theorem decayStep_eq (rateBps : Nat) (capped : score ≤ 100) :
    decayStep rateBps score = decayOnce rateBps score := by
  have amount : min u64Max (score * rateBps) / 10000 = score * rateBps / 10000 ∨
      score ≤ min u64Max (score * rateBps) / 10000 ∧ score ≤ score * rateBps / 10000 := by
    have limit : u64Max = 18446744073709551615 := rfl
    omega
  unfold decayStep decayOnce
  dsimp only
  split <;> omega

theorem decayStep_iterate (rateBps periods : Nat) (capped : score ≤ 100) :
    (decayStep rateBps)^[periods] score = (decayOnce rateBps)^[periods] score := by
  induction periods with
  | zero => rfl
  | succ periods ih =>
    rw [Function.iterate_succ_apply', Function.iterate_succ_apply', ih, decayStep_eq]
    have lowered := decayOnce_iterate_le rateBps periods score
    omega

/-- After more periods than the loop runs nothing is left of a score of at most 100. -/
theorem decayedScore_eq (rateBps periods : Nat) (capped : score ≤ 100) :
    decayedScore rateBps periods score = (decayOnce rateBps)^[periods] score := by
  unfold decayedScore
  split
  · rename_i long
    have spent := decayOnce_iterate_le rateBps periods score
    have limit : maxReputationDecayPeriods = 1000 := rfl
    omega
  · exact decayStep_iterate rateBps periods capped

section Reading

def Config.decayed (config : Config) (idle score : Nat) : Nat :=
  if config.decayRateBps = 0 then score
  else (decayOnce config.decayRateBps)^[idle / config.decayPeriodLedgers] score

def scoreAt (config : Option Config) (sequence : Nat) : Option ReputationScore → Nat
  | none => defaultPayerScore
  | some rep => config.elim rep.score fun decay =>
    decay.decayed (sequence - rep.lastActivityLedger) rep.score

theorem Config.decayed_le (config : Config) (idle score : Nat) :
    config.decayed idle score ≤ score := by
  unfold Config.decayed
  split
  · exact le_rfl
  · exact (decayOnce_iterate_le _ _ score).trans (Nat.sub_le _ _)

theorem Config.decayed_mono (config : Config) (idle : Nat) : Monotone (config.decayed idle) := by
  intro low high ordered
  unfold Config.decayed
  split
  · exact ordered
  · exact (decayOnce_mono _).iterate _ ordered

theorem Config.decayed_decayed (config : Config) (idle rest score : Nat)
    (aligned : config.decayPeriodLedgers ∣ idle) :
    config.decayed rest (config.decayed idle score) = config.decayed (idle + rest) score := by
  unfold Config.decayed
  split
  · rfl
  · rw [← Function.iterate_add_apply, Nat.add_div_of_dvd_right aligned, Nat.add_comm]

variable {idle sequence : Nat}

theorem Config.decayed_antitone (config : Config) (score : Nat) :
    Antitone (config.decayed · score) := by
  intro early late ordered
  have periods := Nat.div_le_div_right (c := config.decayPeriodLedgers) ordered
  dsimp only [Config.decayed]
  split
  · exact le_rfl
  · obtain ⟨_, total⟩ := Nat.exists_eq_add_of_le periods
    rw [total, Nat.add_comm, Function.iterate_add_apply]
    exact (decayOnce_iterate_le _ _ _).trans (Nat.sub_le _ _)

def Config.decayDue (config : Config) (idle : Nat) : Prop :=
  config.decayPeriodLedgers ≤ idle ∧ 0 < config.decayPeriodLedgers ∧ 0 < config.decayRateBps

theorem Config.decayed_of_due (config : Config) {score : Nat} (capped : score ≤ 100)
    (due : config.decayDue idle) :
    min 100 (decayedScore config.decayRateBps (idle / config.decayPeriodLedgers) score) =
      config.decayed idle score := by
  rw [decayedScore_eq _ _ capped, Config.decayed, if_neg due.2.2.ne']
  exact min_eq_right ((decayOnce_iterate_le _ _ score).trans ((Nat.sub_le _ _).trans capped))

theorem Config.decayed_of_not_due (config : Config) (score : Nat)
    (early : ¬ config.decayDue idle) : config.decayed idle score = score := by
  by_cases short : idle < config.decayPeriodLedgers
  · rw [Config.decayed, Nat.div_eq_of_lt short]
    split <;> rfl
  · unfold Config.decayDue at early
    unfold Config.decayed
    split
    · rfl
    · have unset : config.decayPeriodLedgers = 0 := by omega
      rw [unset, Nat.div_zero]
      rfl

theorem Config.decayed_lt (config : Config) {score : Nat} (due : config.decayDue idle)
    (left : 0 < score) : config.decayed idle score < score := by
  rw [Config.decayed, if_neg due.2.2.ne']
  have lowered := decayOnce_iterate_le config.decayRateBps (idle / config.decayPeriodLedgers) score
  have full : 0 < idle / config.decayPeriodLedgers := Nat.div_pos due.1 due.2.1
  omega

instance (config : Config) (idle : Nat) : Decidable (config.decayDue idle) :=
  inferInstanceAs (Decidable (_ ∧ _ ∧ _))

variable {config : Option Config} {scores : ScoreStore} {payer : Address}

/-- The entry has not been idle for a full period, or it has nothing left to lose. -/
def Undecayed (config : Option Config) (sequence : Nat) (rep : ReputationScore) : Prop :=
  ∀ decay ∈ config, decay.decayDue (sequence - rep.lastActivityLedger) → rep.score = 0

instance (sequence : Nat) (rep : ReputationScore) : Decidable (Undecayed config sequence rep) :=
  inferInstanceAs (Decidable (∀ decay ∈ config, _))

theorem scoreAt_eq_iff :
    scoreAt config sequence (some rep) = rep.score ↔ Undecayed config sequence rep := by
  cases config with
  | none => exact ⟨(by rintro _ _ ⟨⟩), fun _ => rfl⟩
  | some decay =>
    constructor
    · rintro same _ ⟨⟩ due
      by_contra left
      exact (decay.decayed_lt due (Nat.pos_of_ne_zero left)).ne same
    · intro undecayed
      by_cases due : decay.decayDue (sequence - rep.lastActivityLedger)
      · have nothing := undecayed decay rfl due
        have lowered := decay.decayed_le (sequence - rep.lastActivityLedger) rep.score
        exact lowered.antisymm (nothing ▸ Nat.zero_le _)
      · exact decay.decayed_of_not_due _ due

/-- The entry after a read: decay that has changed the score is written back. -/
def entryAfterRead (config : Option Config) (sequence : Nat) (entry : Option ReputationScore) :
    Option ReputationScore :=
  entry.map fun rep =>
    if scoreAt config sequence (some rep) = rep.score then
      rep else ⟨scoreAt config sequence (some rep), sequence⟩

theorem entryAfterRead_kept (same : scoreAt config sequence (some rep) = rep.score) :
    entryAfterRead config sequence (some rep) = some rep :=
  congrArg some (if_pos same)

theorem entryAfterRead_written (lowered : scoreAt config sequence (some rep) ≠ rep.score) :
    entryAfterRead config sequence (some rep) =
      some ⟨scoreAt config sequence (some rep), sequence⟩ :=
  congrArg some (if_neg lowered)

theorem getPayerScore_of_kept {clock : Clock} (stored : scores.payerScore payer = some rep)
    (same : scoreAt config clock.sequence (some rep) = rep.score)
    (unwritten : getPayerScore clock config scores payer = (scores, rep.score)) :
    (getPayerScore clock config scores payer).2 = scoreAt config clock.sequence (some rep) ∧
      (getPayerScore clock config scores payer).1.payerScore = update scores.payerScore payer
        (entryAfterRead config clock.sequence (some rep)) := by
  rw [unwritten, entryAfterRead_kept same, ← stored, update_eq_self]
  exact ⟨(stored ▸ same).symm, rfl⟩

theorem getPayerScore_spec (clock : Clock) (config : Option Config)
    (capped : ∀ rep ∈ scores.payerScore payer, rep.score ≤ 100) :
    (getPayerScore clock config scores payer).2 = scoreAt config clock.sequence
      (scores.payerScore payer) ∧
      (getPayerScore clock config scores payer).1.payerScore = update scores.payerScore payer
        (entryAfterRead config clock.sequence (scores.payerScore payer)) := by
  cases stored : scores.payerScore payer with
  | none =>
    have unwritten : entryAfterRead config clock.sequence none = scores.payerScore payer :=
      stored.symm
    rw [unwritten, update_eq_self]
    simp only [getPayerScore, stored]
    exact ⟨rfl, trivial⟩
  | some rep =>
    have small := capped rep stored
    cases config with
    | none =>
      refine getPayerScore_of_kept stored rfl ?_
      simp only [getPayerScore, stored]
    | some decay =>
      by_cases due : decay.decayDue (clock.sequence - rep.lastActivityLedger)
      · have decayed := decay.decayed_of_due small due
        by_cases same : decay.decayed (clock.sequence - rep.lastActivityLedger) rep.score =
          rep.score
        · refine getPayerScore_of_kept stored same ?_
          simp only [getPayerScore, stored, if_pos (show _ ∧ _ ∧ _ from due), decayed, if_pos same]
        · rw [entryAfterRead_written (show scoreAt (some decay) clock.sequence (some rep) ≠
            rep.score from same)]
          simp only [getPayerScore, stored, if_pos (show _ ∧ _ ∧ _ from due), decayed, if_neg same]
          exact ⟨rfl, rfl⟩
      · refine getPayerScore_of_kept stored (decay.decayed_of_not_due _ due) ?_
        simp only [getPayerScore, stored, if_neg (show ¬(_ ∧ _ ∧ _) from due)]

theorem getPayerScore_score (clock : Clock) (config : Option Config)
    (capped : ∀ rep ∈ scores.payerScore payer, rep.score ≤ 100) :
    (getPayerScore clock config scores payer).2 = scoreAt config clock.sequence
      (scores.payerScore payer) :=
  (getPayerScore_spec clock config capped).1

/-- The loop with its bound computes the unbounded iteration; waiting longer never raises a
score. -/
theorem decay_iterates (clock : Clock) (scores : ScoreStore) (payer : Address) (decay : Config)
    (score last : Nat) (stored : scores.payerScore payer = some ⟨score, last⟩)
    (capped : score ≤ 100) (rate : 0 < decay.decayRateBps) :
    (getPayerScore clock (some decay) scores payer).2 =
        (decayOnce decay.decayRateBps)^[(clock.sequence - last) / decay.decayPeriodLedgers] score ∧
      (getPayerScore clock (some decay) scores payer).2 ≤ score ∧
      ∀ later : Clock, clock.sequence ≤ later.sequence →
        (getPayerScore later (some decay) scores payer).2 ≤
          (getPayerScore clock (some decay) scores payer).2 := by
  have read : ∀ clock : Clock, (getPayerScore clock (some decay) scores payer).2 =
      decay.decayed (clock.sequence - last) score := by
    intro clock
    rw [getPayerScore_score, stored]
    · rfl
    · rintro rep found
      cases found.symm.trans stored
      exact capped
  refine ⟨?_, ?_, ?_⟩
  · rw [read, Config.decayed, if_neg rate.ne']
  · rw [read]
    exact decay.decayed_le _ _
  · intro later after
    rw [read, read]
    exact decay.decayed_antitone score (Nat.sub_le_sub_right after last)

def steepDecay : Config :=
    { initialConfig ⟨10⟩ ⟨11⟩ ⟨12⟩ with decayRateBps := 500, decayPeriodLedgers := 10 }

def ratedEighty : ScoreStore :=
  { market.scores with payerScore := update market.scores.payerScore ⟨2⟩ (some ⟨80, 5⟩) }

theorem decay_iterates_of_eighty :
    (getPayerScore ⟨1000, 42⟩ (some steepDecay) ratedEighty ⟨2⟩).2 = 70 :=
  (decay_iterates ⟨1000, 42⟩ ratedEighty ⟨2⟩ steepDecay 80 5 rfl (by decide) (by decide)).1

end Reading

section Reads

variable {config : Option Config} {payer : Address}

def ReadAligned (config : Option Config) (sequence : Nat) (entry : Option ReputationScore) : Prop :=
  ∀ decay ∈ config, ∀ rep ∈ entry, scoreAt config sequence (some rep) ≠ rep.score →
    decay.decayPeriodLedgers ∣ sequence - rep.lastActivityLedger

instance (config : Option Config) (sequence : Nat) (entry : Option ReputationScore) :
    Decidable (ReadAligned config sequence entry) :=
  inferInstanceAs (Decidable (∀ decay ∈ config, ∀ rep ∈ entry, _ → _))

theorem scoreAt_entryAfterRead {sequence later : Nat} {entry : Option ReputationScore}
    (aligned : ReadAligned config sequence entry) (ordered : sequence ≤ later) :
    scoreAt config later (entryAfterRead config sequence entry) = scoreAt config later entry := by
  cases entry with
  | none => rfl
  | some rep =>
    by_cases same : scoreAt config sequence (some rep) = rep.score
    · rw [entryAfterRead_kept same]
    · rw [entryAfterRead_written same]
      cases config with
      | none => exact absurd rfl same
      | some decay =>
        have whole := aligned decay rfl rep rfl same
        -- decay has changed the score, so the last activity lies behind
        have past : rep.lastActivityLedger ≤ sequence := by
          by_contra future
          refine same (decay.decayed_of_not_due _ ?_)
          unfold Config.decayDue
          omega
        have split : later - rep.lastActivityLedger =
            (sequence - rep.lastActivityLedger) + (later - sequence) := by omega
        show decay.decayed (later - sequence) (decay.decayed (sequence - rep.lastActivityLedger)
          rep.score) = decay.decayed (later - rep.lastActivityLedger) rep.score
        rw [decay.decayed_decayed _ _ _ whole, split]

variable {contract : Address} {score : Nat} {one other : World} {rep : ReputationScore}

def Action.waits : Action contract → Bool
  | .advance _ _ => true
  | .credit _ _ _ | .invoke _ _ => false

def Action.scoreRead : Action contract → Option Address
  | .invoke _ (.payerScore payer) => some payer
  | _ => none

def AlignedFor (payer : Address) (world : World) (action : Action contract) : Prop :=
  action.scoreRead = some payer →
    ReadAligned world.control.config world.clock.sequence (world.scores.payerScore payer)

instance (payer : Address) (world : World) (action : Action contract) :
    Decidable (AlignedFor payer world action) :=
  inferInstanceAs (Decidable (_ → _))

structure SameWorth (payer : Address) (one other : World) : Prop where
  clock : one.clock = other.clock
  config : one.control.config = other.control.config
  bounded : one.scores.Bounded ∧ other.scores.Bounded
  worth : ∀ sequence, one.clock.sequence ≤ sequence →
    scoreAt one.control.config sequence (one.scores.payerScore payer) =
      scoreAt other.control.config sequence (other.scores.payerScore payer)

theorem World.scoreOf_eq {world : World} (bounded : world.scores.Bounded) (payer : Address) :
    world.scoreOf payer = scoreAt world.control.config world.clock.sequence
      (world.scores.payerScore payer) :=
  getPayerScore_score _ _ fun rep stored => bounded payer rep stored

theorem SameWorth.refl {world : World} (bounded : world.scores.Bounded) :
    SameWorth payer world world :=
  ⟨rfl, rfl, ⟨bounded, bounded⟩, fun _ _ => rfl⟩

theorem SameWorth.scoreOf (same : SameWorth payer one other) :
    one.scoreOf payer = other.scoreOf payer := by
  rw [World.scoreOf_eq same.bounded.1, World.scoreOf_eq same.bounded.2, ← same.clock]
  exact same.worth _ le_rfl

theorem SameWorth.advance (same : SameWorth payer one other) (seconds ledgers : Nat) :
    SameWorth payer (step one (.advance seconds ledgers : Action contract))
      (step other (.advance seconds ledgers : Action contract)) where
  clock := by
    show Clock.mk _ _ = Clock.mk _ _
    rw [same.clock]
  config := same.config
  bounded := same.bounded
  worth := fun sequence later => same.worth sequence ((Nat.le_add_right _ ledgers).trans later)

theorem SameWorth.read (same : SameWorth payer one other) (env : Env contract) (address : Address)
    (aligned : AlignedFor payer one (.invoke env (.payerScore address))) :
    SameWorth payer (step one (.invoke env (.payerScore address))) other := by
  have capped : ∀ rep ∈ one.scores.payerScore address, rep.score ≤ 100 := fun rep stored =>
    same.bounded.1 address rep stored
  have written := (getPayerScore_spec one.clock one.control.config capped).2
  refine ⟨same.clock, same.config, ⟨step_bounded _ same.bounded.1, same.bounded.2⟩, ?_⟩
  intro sequence later
  rw [← same.worth sequence later]
  show scoreAt one.control.config sequence
    ((getPayerScore _ _ one.scores address).1.payerScore payer) = _
  rw [written]
  by_cases own : payer = address
  · subst own
    rw [update_self]
    exact scoreAt_entryAfterRead (aligned rfl) later
  · rw [update_of_ne own]

/-- Reads that only find whole periods due do not change the score: with or without them, waiting
leads to the same value. -/
theorem SameWorth.exec {schedule : List (Action contract)} (payer : Address)
    (watching : ∀ action ∈ schedule, action.waits = true ∨ action.scoreRead ≠ none)
    (same : SameWorth payer one other) (aligned : Along step (AlignedFor payer) one schedule) :
    SameWorth payer (exec step one schedule) (exec step other (schedule.filter Action.waits)) := by
  induction schedule generalizing one other with
  | nil => exact same
  | cons action rest ih =>
    have later : ∀ action ∈ rest, action.waits = true ∨ action.scoreRead ≠ none :=
      fun other member => watching other (List.mem_cons_of_mem _ member)
    rcases watching action List.mem_cons_self with waits | reads
    · cases action with
      | advance seconds ledgers => exact ih later (same.advance seconds ledgers) aligned.2
      | credit | invoke => cases waits
    · cases action with
      | advance | credit => exact absurd rfl reads
      | invoke env call =>
        cases call with
        | payerScore address => exact ih later (same.read env address aligned.1) aligned.2
        | _ => exact absurd rfl reads

theorem aligned_reads_keep_score (clock : Clock) (balance : Balances)
    (before schedule : List (Action contract)) (payer : Address)
    (watching : ∀ action ∈ schedule, action.waits = true ∨ action.scoreRead ≠ none)
    (aligned : Along step (AlignedFor payer) (reach clock balance before) schedule) :
    (exec step (reach clock balance before) schedule).scoreOf payer =
      (exec step (reach clock balance before) (schedule.filter Action.waits)).scoreOf
        payer :=
  (SameWorth.exec payer watching (.refl (exec_bounded clock balance before)) aligned).scoreOf

def defaultedPayer : List (Action ⟨0⟩) :=
  openingCalls 1000000 300 ++
    [signedBy [1] (.updateDecayParams 1000 10), signedBy [3] (.fundInvoice ⟨3⟩ 1 1000000 false),
     .credit ⟨10⟩ ⟨0⟩ 1000000, .advance 99000 9900, signedBy [3] (.claimDefault ⟨3⟩ 1)]

def alignedReads : List (Action ⟨0⟩) :=
  [.advance 50 10, signedBy [] (.payerScore ⟨2⟩), .advance 35 7, signedBy [] (.payerScore ⟨2⟩),
    .advance 15 3]

theorem aligned_reads_keep_score_of_defaultedPayer :
    (exec step (traded defaultedPayer) alignedReads).scoreOf ⟨2⟩ =
      (exec step (traded defaultedPayer) (alignedReads.filter Action.waits)).scoreOf
        ⟨2⟩ :=
  aligned_reads_keep_score ⟨1000, 10⟩ marketBalances defaultedPayer alignedReads ⟨2⟩
    (by decide +kernel) (by decide +kernel)

def earlyRead : List (Action ⟨0⟩) := [.advance 75 15, signedBy [] (.payerScore ⟨2⟩), .advance 25 5]

theorem early_read_raises_score : (traded defaultedPayer).scoreOf ⟨2⟩ = 45 ∧
    (exec step (traded defaultedPayer) (earlyRead.filter Action.waits)).scoreOf ⟨2⟩ = 37 ∧
    (exec step (traded defaultedPayer) earlyRead).scoreOf ⟨2⟩ = 41 := by
  decide +kernel

end Reads

section Ranking

variable {config : Option Config} {sequence : Nat}

theorem scoreAt_le (rep : ReputationScore) : scoreAt config sequence (some rep) ≤ rep.score := by
  cases config with
  | none => exact le_rfl
  | some decay => exact decay.decayed_le _ _

theorem scoreAt_mono {low high last : Nat} (ordered : low ≤ high) :
    scoreAt config sequence (some ⟨low, last⟩) ≤ scoreAt config sequence (some ⟨high, last⟩) := by
  cases config with
  | none => exact ordered
  | some decay => exact decay.decayed_mono _ ordered

/-- The entry `set_payer_score` leaves: scores above 100 are cut, the default is not stored. -/
def entryOf (sequence score : Nat) : Option ReputationScore :=
  if min score 100 = defaultPayerScore then none else some ⟨min score 100, sequence⟩

theorem entryOf_default (sequence : Nat) : entryOf sequence defaultPayerScore = none := if_pos rfl

theorem entryOf_other (sequence : Nat) (other : score ≠ defaultPayerScore) :
    entryOf sequence score = some ⟨min score 100, sequence⟩ := by
  refine if_neg ?_
  have default : defaultPayerScore = 50 := rfl
  omega

theorem entryOf_capped (sequence : Nat) : ∀ rep ∈ entryOf sequence score, rep.score ≤ 100 := by
  intro rep written
  unfold entryOf at written
  split at written
  · cases written
  · cases written
    exact min_le_right _ _

theorem scoreAt_entryOf_mono {low high : Nat} (last : Nat) (ordered : low ≤ high)
    (standard : low = defaultPayerScore → high = defaultPayerScore) :
    scoreAt config sequence (entryOf last low) ≤ scoreAt config sequence (entryOf last high) := by
  by_cases lowDefault : low = defaultPayerScore
  · rw [lowDefault, standard lowDefault]
  · rw [entryOf_other last lowDefault]
    by_cases highDefault : high = defaultPayerScore
    · -- the higher score stays where it is
      subst highDefault
      rw [entryOf_default]
      exact (scoreAt_le _).trans ((min_le_left _ _).trans ordered)
    · rw [entryOf_other last highDefault]
      exact scoreAt_mono (min_le_min_right _ ordered)

theorem scoreAt_full_rate (settings : Config) (rep : ReputationScore) :
    scoreAt (some { settings with decayRateBps := 10000, decayPeriodLedgers := 1 })
      (rep.lastActivityLedger + 1) (some rep) = 0 := by
  have period : (rep.lastActivityLedger + 1 - rep.lastActivityLedger) / 1 = 1 := by omega
  show (decayOnce 10000)^[(rep.lastActivityLedger + 1 - rep.lastActivityLedger) / 1] rep.score = 0
  rw [period, Function.iterate_one, decayOnce, Nat.mul_div_cancel _ (Nat.zero_lt_succ 9999)]
  omega

/-- Of two scores set in one ledger the lower one stays the lower under every configuration, unless
it is the default: that one is not stored, and the higher one decays past it. -/
theorem decay_keeps_ranking_iff (clock : Clock) (settings : Option Config)
    (firstStore secondStore scores : ScoreStore) (first second : Address) (low high : Nat)
    (ordered : low ≤ high)
    (firstSet : scores.payerScore first =
      (setPayerScore clock settings firstStore first low).payerScore first)
    (secondSet : scores.payerScore second =
      (setPayerScore clock settings secondStore second high).payerScore second) :
    (∀ (later : Clock) (config : Option Config), clock.sequence ≤ later.sequence →
        (getPayerScore later config scores first).2 ≤
          (getPayerScore later config scores second).2) ↔
      (low = defaultPayerScore → high = defaultPayerScore) := by
  rw [setPayerScore_payerScore, update_self, ← entryOf] at firstSet secondSet
  have read : ∀ (later : Clock) (config : Option Config),
      (getPayerScore later config scores first).2 =
        scoreAt config later.sequence (entryOf clock.sequence low) ∧
      (getPayerScore later config scores second).2 =
        scoreAt config later.sequence (entryOf clock.sequence high) := by
    intro later config
    refine ⟨?_, ?_⟩
    · rw [getPayerScore_score, firstSet]
      rw [firstSet]
      exact entryOf_capped _
    · rw [getPayerScore_score, secondSet]
      rw [secondSet]
      exact entryOf_capped _
  constructor
  · rintro kept rfl
    by_contra other
    have overtaken := kept ⟨clock.timestamp, clock.sequence + 1⟩
      (some { initialConfig ⟨0⟩ ⟨0⟩ ⟨0⟩ with decayRateBps := 10000, decayPeriodLedgers := 1 })
      (Nat.le_succ _)
    rw [(read _ _).1, (read _ _).2, entryOf_default, entryOf_other _ other] at overtaken
    rw [scoreAt_full_rate _ ⟨min high 100, clock.sequence⟩] at overtaken
    exact absurd (show defaultPayerScore ≤ 0 from overtaken) (by decide)
  · intro standard later config _
    rw [(read later config).1, (read later config).2]
    exact scoreAt_entryOf_mono _ ordered standard

def rankedScores (low high : Nat) : ScoreStore :=
  setPayerScore ⟨1000, 10⟩ (some steepDecay)
    (setPayerScore ⟨1000, 10⟩ (some steepDecay) market.scores ⟨2⟩ low) ⟨4⟩ high

theorem ranking_kept_of_low_scores :
    (getPayerScore ⟨2000, 1000⟩ (some steepDecay) (rankedScores 45 80) ⟨2⟩).2 ≤
      (getPayerScore ⟨2000, 1000⟩ (some steepDecay) (rankedScores 45 80) ⟨4⟩).2 :=
  (decay_keeps_ranking_iff ⟨1000, 10⟩ (some steepDecay) market.scores (rankedScores 45 0)
    (rankedScores 45 80) ⟨2⟩ ⟨4⟩ 45 80 (by decide) (by decide +kernel) (by decide +kernel)).mpr
    (by decide) ⟨2000, 1000⟩ (some steepDecay) (by decide)

/-- A payer with the default score overtakes one with 80 after two hundred ledgers without
activity. -/
theorem default_score_overtakes :
    (getPayerScore ⟨1000, 10⟩ (some steepDecay) (rankedScores 50 80) ⟨2⟩).2 = 50 ∧
      (getPayerScore ⟨1000, 10⟩ (some steepDecay) (rankedScores 50 80) ⟨4⟩).2 = 80 ∧
      (getPayerScore ⟨2000, 210⟩ (some steepDecay) (rankedScores 50 80) ⟨2⟩).2 = 50 ∧
      (getPayerScore ⟨2000, 210⟩ (some steepDecay) (rankedScores 50 80) ⟨4⟩).2 < 50 := by
  decide +kernel

end Ranking

end InvoiceLiquidity
