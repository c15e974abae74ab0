import Iln.Invoice.Decay

/-! Two records hold a payer's score: the entry that `get_payer_score` reads and the reputation
profile. Every write of the entry also writes the profile, but a profile begins with the score 0
while a missing entry means 50, and decay reaches the profile only when it is written back. -/
namespace InvoiceLiquidity

open FixedWidth Outcome Transition Function

section Profiles

def ScoreStore.Named (scores : ScoreStore) : Prop :=
  ∀ address profile, scores.reputation address = some profile → profile.address = address

variable {scores : ScoreStore} {address : Address}

theorem ScoreStore.Named.getReputation (named : scores.Named) (address : Address) :
    (getReputation scores address).address = address := by
  unfold InvoiceLiquidity.getReputation
  cases stored : scores.reputation address with
  | none => rfl
  | some profile => exact named address profile stored

theorem ScoreStore.Named.setReputation (named : scores.Named) (profile : ReputationProfile) :
    (setReputation scores profile).Named := by
  intro other written stored
  simp only [InvoiceLiquidity.setReputation] at stored
  by_cases own : other = profile.address
  · subst own
    rw [update_self] at stored
    split at stored
    · cases stored
    · cases stored
      rfl
  · rw [update_of_ne own] at stored
    exact named other written stored

/-- A profile that is all zero is not stored and reads the same. -/
theorem getReputation_setReputation (scores : ScoreStore) (profile : ReputationProfile)
    (address : Address) :
    getReputation (setReputation scores profile) address =
      if address = profile.address then profile else getReputation scores address := by
  unfold getReputation setReputation
  by_cases own : address = profile.address
  · subst own
    rw [if_pos rfl]
    dsimp only
    rw [update_self]
    split
    · rename_i empty
      obtain ⟨submitted, paid, defaulted, score⟩ := empty
      cases profile
      simp_all
    · rfl
  · rw [if_neg own]
    dsimp only
    rw [update_of_ne own]

end Profiles

section Alignment

structure Aligned (rated : Prop) (scores : ScoreStore) (address : Address) : Prop where
  stored : ∀ rep ∈ scores.payerScore address, rated ∧ (getReputation scores address).score =
    rep.score
  standard : scores.payerScore address = none → rated → (getReputation scores address).score =
    defaultPayerScore
  unrated : ¬ rated → (getReputation scores address).score = 0

structure Moves (payer : Option Address) (before after : ScoreStore) : Prop where
  named : before.Named → after.Named
  aligned : before.Named → ∀ rated address, Aligned rated before address →
    Aligned (rated ∨ payer = some address) after address

variable {scores middle after : ScoreStore} {payer address : Address} {rated : Prop}

theorem Aligned.congr (aligned : Aligned rated scores address)
    (entry : after.payerScore address = scores.payerScore address)
    (score : (getReputation after address).score = (getReputation scores address).score) :
    Aligned rated after address := by
  constructor
  · rw [entry, score]
    exact aligned.stored
  · rw [entry, score]
    exact aligned.standard
  · rw [score]
    exact aligned.unrated

theorem Aligned.of_iff {now : Prop} (aligned : Aligned rated scores address) (same : now ↔ rated) :
    Aligned now scores address := propext same ▸ aligned

theorem Moves.refl (scores : ScoreStore) : Moves none scores scores :=
  ⟨fun named => named, fun _ _ _ aligned => aligned.of_iff (by simp)⟩

theorem Moves.trans_quiet {payer : Option Address} (first : Moves payer scores middle)
    (second : Moves none middle after) : Moves payer scores after := by
  refine ⟨fun named => second.named (first.named named), ?_⟩
  intro named rated address aligned
  exact (second.aligned (first.named named) _ address
    (first.aligned named rated address aligned)).of_iff (by simp)

theorem Moves.quiet_trans {payer : Option Address} (first : Moves none scores middle)
    (second : Moves payer middle after) : Moves payer scores after := by
  refine ⟨fun named => second.named (first.named named), ?_⟩
  intro named rated address aligned
  exact (second.aligned (first.named named) _ address
    (first.aligned named rated address aligned)).of_iff (by simp)

theorem Moves.of_same (entries : after.payerScore = scores.payerScore)
    (profiles : after.reputation = scores.reputation) : Moves none scores after := by
  have same : ∀ address, getReputation after address = getReputation scores address := by
    intro address
    rw [getReputation, getReputation, profiles]
  constructor
  · intro named address profile stored
    exact named address profile (profiles ▸ stored)
  · intro _ rated address aligned
    exact (aligned.congr (congrFun entries address) (by rw [same])).of_iff (by simp)

theorem Moves.recount (scores : ScoreStore) (address : Address)
    (adjust : ReputationProfile → ReputationProfile)
    (kept : ∀ profile, (adjust profile).address = profile.address ∧
      (adjust profile).score = profile.score) :
    Moves none scores (setReputation scores (adjust (getReputation scores address))) := by
  obtain ⟨own, same⟩ := kept (getReputation scores address)
  refine ⟨fun named => named.setReputation _, ?_⟩
  intro named rated other aligned
  refine (aligned.congr (by rfl) ?_).of_iff (by simp)
  rw [getReputation_setReputation, own, named.getReputation]
  split
  · rename_i here
    rw [same, here]
  · rfl

def writeScore (scores : ScoreStore) (payer : Address) (entry : Option ReputationScore)
    (score : Nat) : ScoreStore :=
  let written := { scores with payerScore := update scores.payerScore payer entry }
  setReputation written { getReputation written payer with score }

theorem writeScore_named (named : scores.Named) (entry : Option ReputationScore) (score : Nat) :
    (writeScore scores payer entry score).Named :=
  ScoreStore.Named.setReputation (fun address profile stored => named address profile stored) _

theorem writeScore_score (named : scores.Named) (entry : Option ReputationScore) (score : Nat)
    (address : Address) :
    (getReputation (writeScore scores payer entry score) address).score =
      if address = payer then score else (getReputation scores address).score := by
  unfold writeScore
  rw [getReputation_setReputation]
  have own : (getReputation scores payer).address = payer := named.getReputation payer
  show (if address = (getReputation scores payer).address then _ else _ : ReputationProfile).score =
    _
  rw [own]
  split <;> rfl

theorem writeScore_aligned (named : scores.Named) {entry : Option ReputationScore} {score : Nat}
    (holds : rated) (value : ∀ rep ∈ entry, rep.score = score)
    (standard : entry = none → score = defaultPayerScore) :
    Aligned rated (writeScore scores payer entry score) payer := by
  have written : (getReputation (writeScore scores payer entry score) payer).score = score := by
    rw [writeScore_score named, if_pos rfl]
  have stored : (writeScore scores payer entry score).payerScore payer = entry := update_self ..
  refine ⟨?_, ?_, fun never => absurd holds never⟩
  · intro rep found
    rw [stored] at found
    exact ⟨holds, written.trans (value rep found).symm⟩
  · intro absent _
    rw [stored] at absent
    exact written.trans (standard absent)

theorem writeScore_other (named : scores.Named) (entry : Option ReputationScore) (score : Nat)
    (other : address ≠ payer) (aligned : Aligned rated scores address) :
    Aligned rated (writeScore scores payer entry score) address := by
  apply aligned.congr (update_of_ne other _ _)
  rw [writeScore_score named, if_neg other]

variable (clock : Clock) (config : Option Config)

/-- A read writes back decay in both records. -/
theorem Moves.read (scores : ScoreStore) (payer : Address) : Moves none scores
    (getPayerScore clock config scores payer).1 := by
  unfold getPayerScore
  split
  · exact .refl _
  · exact .refl _
  · rename_i rep decay found
    dsimp only
    split
    · split
      · exact .refl _
      · generalize min 100 (decayedScore _ _ _) = lowered
        show Moves none scores (writeScore scores payer (some ⟨lowered, clock.sequence⟩) lowered)
        refine ⟨fun named => writeScore_named named _ _, ?_⟩
        intro named rated address aligned
        by_cases own : address = payer
        · subst own
          have held := (aligned.stored rep found).1
          refine writeScore_aligned named (.inl held) ?_ (by rintro ⟨⟩)
          intro written same
          cases same
          rfl
        · exact (writeScore_other named _ _ own aligned).of_iff (by simp)
    · exact .refl _

theorem setPayerScore_eq (scores : ScoreStore) (payer : Address) (score : Nat) :
    setPayerScore clock config scores payer score =
      (let read := getPayerScore clock config scores payer
       let written := writeScore read.1 payer
         (if min score 100 = defaultPayerScore then none else some ⟨min score 100, clock.sequence⟩)
         (min score 100)
       if read.2 = min score 100 then written
       else updateTopPayersOnScoreChange written payer (min score 100)) := rfl

theorem Moves.set (scores : ScoreStore) (payer : Address) (score : Nat) :
    Moves (some payer) scores (setPayerScore clock config scores payer score) := by
  rw [setPayerScore_eq]
  generalize entry : (if min score 100 = defaultPayerScore then none
    else some ⟨min score 100, clock.sequence⟩ : Option ReputationScore) = written
  have wrote : Moves (some payer) (getPayerScore clock config scores payer).1
      (writeScore (getPayerScore clock config scores payer).1 payer written (min score 100)) := by
    refine ⟨fun named => writeScore_named named _ _, ?_⟩
    intro named rated address aligned
    by_cases own : address = payer
    · subst own
      refine writeScore_aligned named (.inr rfl) ?_ ?_
      · intro rep stored
        rw [← entry] at stored
        split at stored
        · cases stored
        · cases stored
          rfl
      · intro absent
        rw [← entry] at absent
        split at absent
        · assumption
        · cases absent
    · exact (writeScore_other named _ _ own aligned).of_iff (by simp [Ne.symm own])
  refine (Moves.read clock config scores payer).quiet_trans (wrote.trans_quiet ?_)
  dsimp only
  split
  · exact .refl _
  · exact .of_same rfl rfl

/-- Payer scores are read, which may write back decay, and nothing else happens to them. -/
inductive Adjusts (scores : ScoreStore) : ScoreStore → Prop
  | refl : Adjusts scores scores
  | read {middle : ScoreStore} (payer : Address) (earlier : Adjusts scores middle) :
      Adjusts scores (getPayerScore clock config middle payer).1
  | kept {middle after : ScoreStore} (earlier : Adjusts scores middle)
      (moves : Moves none middle after) (entries : after.payerScore = middle.payerScore)
      (heap : after.topPayersHeap = middle.topPayersHeap) :
      Adjusts scores after

inductive Rates (scores after : ScoreStore) : Option Address → Prop
  | quiet (adjusts : Adjusts clock config scores after) : Rates scores after none
  | set {middle : ScoreStore} (payer : Address) (score : Nat)
      (adjusts : Adjusts clock config scores middle)
      (moves : Moves none (setPayerScore clock config middle payer score) after)
      (entries : after.payerScore = (setPayerScore clock config middle payer score).payerScore)
      (heap : after.topPayersHeap = (setPayerScore clock config middle payer score).topPayersHeap) :
      Rates scores after (some payer)

variable {clock config}

theorem Adjusts.of_eq (same : after = scores) : Adjusts clock config scores after := same ▸ .refl

theorem Adjusts.moves (adjusts : Adjusts clock config scores after) : Moves none scores after := by
  induction adjusts with
  | refl => exact .refl _
  | read payer _ ih => exact ih.trans_quiet (.read _ _ _ _)
  | kept _ moves _ _ ih => exact ih.trans_quiet moves

theorem Rates.moves {payer : Option Address} (rates : Rates clock config scores after payer) :
    Moves payer scores after := by
  cases rates with
  | quiet adjusts => exact adjusts.moves
  | set payer score adjusts moves =>
    exact adjusts.moves.quiet_trans ((Moves.set _ _ _ payer score).trans_quiet moves)

theorem Moves.paid (scores : ScoreStore) (address : Address) :
    Moves none scores (incrementInvoicesPaid scores address) :=
  .recount scores address (fun profile =>
    { profile with invoicesPaid := addCapped u32Max profile.invoicesPaid 1 }) fun _ => ⟨rfl, rfl⟩

theorem Adjusts.submitted (adjusts : Adjusts clock config scores after) (address : Address) :
    Adjusts clock config scores
      (incrementInvoicesSubmitted (getPayerScore clock config after address).1 address) :=
  .kept (.read address adjusts) (.recount _ address (fun profile =>
    { profile with invoicesSubmitted := addCapped u32Max profile.invoicesSubmitted 1 })
      fun _ => ⟨rfl, rfl⟩) rfl rfl

theorem Rates.rewardSettlement (scores : ScoreStore) (invoice : Invoice) :
    Rates clock config scores (rewardSettlement clock config scores invoice) (some invoice.payer) :=
  .set invoice.payer _ (.read invoice.payer .refl) ((Moves.paid _ _).trans_quiet (.paid _ _)) rfl
  rfl

theorem Rates.penalizeDefault (scores : ScoreStore) (payer : Address) :
    Rates clock config scores (penalizeDefault clock config scores payer).1 (some payer) :=
  .set payer _ (.read payer .refl) (.recount _ payer (fun profile =>
    { profile with invoicesDefaulted := addCapped u32Max profile.invoicesDefaulted 1 })
      fun _ => ⟨rfl, rfl⟩) rfl rfl

theorem Rates.restoreScore (scores : ScoreStore) (payer : Address) (appeal : AppealRecord) :
    Rates clock config scores (restoreScore clock config scores payer appeal) (some payer) :=
  .set payer _ .refl (.recount _ payer (fun profile =>
    { profile with invoicesDefaulted := profile.invoicesDefaulted - 1 }) fun _ => ⟨rfl, rfl⟩) rfl
      rfl

end Alignment

section Runs

variable {contract : Address}

def Action.judged : Action contract → Option Nat
  | .invoke _ (.markPaid id _) => some id
  | .invoke _ (.claimDefault _ id) => some id
  | .invoke _ (.resolveAppeal id true) => some id
  | _ => none

def RatesPayer (address : Address) (world : World) (action : Action contract) : Prop :=
  succeeds world action = true ∧ ∃ id ∈ action.judged,
    (∃ invoice ∈ world.book.invoices id, invoice.payer = address) ∧
    ∃ after ∈ (step world action).book.invoices id, after.status ≠ .funded

variable {env : Env contract} {world next : World} {call : Call} {id : Nat} {invoice : Invoice}

variable {address : Address} {action : Action contract}

theorem not_ratesPayer (undecided : action.judged = none) : ¬ RatesPayer address world action := by
  rintro ⟨_, id, judged, _⟩
  cases undecided.symm.trans judged

theorem ratesPayer_iff {after : Invoice} (finished : succeeds world action = true)
    (judged : action.judged = some id) (stored : world.book.invoices id = some invoice)
    (now : (step world action).book.invoices id = some after) :
    RatesPayer address world action ↔ invoice.payer = address ∧ after.status ≠ .funded := by
  refine ⟨?_, fun rates => ⟨finished, id, judged, ⟨invoice, stored, rates.1⟩, after, now, rates.2⟩⟩
  rintro ⟨_, other, same, ⟨found, loaded, payer⟩, reached, there, decided⟩
  cases judged.symm.trans same
  cases stored.symm.trans loaded
  cases now.symm.trans there
  exact ⟨payer, decided⟩

theorem defaulted_now (filed : Filed world.book) (aimed : call.target = some id)
    (defaults : (∃ funder, call = .claimDefault funder id) ∨ ∃ upheld,
      call = .resolveAppeal id upheld)
    (ran : invoke env world call = .ok next) :
    ∃ after, next.book.invoices id = some after ∧ after.status ≠ .funded := by
  obtain ⟨_, after, _, _, files, change⟩ := invoke_files filed aimed ran
  refine ⟨after.invoice, by rw [invoices_of_files files, update_self], ?_⟩
  rcases defaults with ⟨funder, rfl⟩ | ⟨upheld, rfl⟩
  · cases change with
    | edited _ _ _ _ _ edits => cases edits
    | restored restores => cases restores
    | defaulted => exact (by rintro ⟨⟩)
  · cases change with
    | edited _ _ _ _ _ edits => cases edits
    | restored restores => cases restores
    | reviewed => exact (by rintro ⟨⟩)

def RatesStep (world : World) (action : Action contract) : Prop :=
  ∃ payer, Rates world.clock world.control.config world.scores (step world action).scores payer ∧
    ∀ address, payer = some address ↔ RatesPayer address world action

theorem RatesStep.quiet
    (adjusts : Adjusts world.clock world.control.config world.scores (step world action).scores)
    (unrated : ∀ address, ¬ RatesPayer address world action) : RatesStep world action :=
  ⟨none, .quiet adjusts,
    fun address => ⟨(by rintro ⟨⟩), fun rates => absurd rates (unrated address)⟩⟩

theorem RatesStep.rated {after : Invoice} (finished : succeeds world action = true)
    (judged : action.judged = some id) (stored : world.book.invoices id = some invoice)
    (now : (step world action).book.invoices id = some after) (decided : after.status ≠ .funded)
    (rates : Rates world.clock world.control.config world.scores (step world action).scores
      (some invoice.payer)) :
    RatesStep world action := by
  refine ⟨some invoice.payer, rates, fun address => ?_⟩
  rw [ratesPayer_iff finished judged stored now, Option.some.injEq]
  exact ⟨fun same => ⟨same, decided⟩, And.left⟩

theorem requirePayerReputation_adjusts {payer : Address} {scores : ScoreStore}
    (passed : requirePayerReputation world payer = .ok scores) :
    Adjusts world.clock world.control.config world.scores scores := by
  unfold requirePayerReputation at passed
  split at passed
  · simp only [ok_iff] at passed
    obtain ⟨_, _, rfl⟩ := passed
    exact .read _ .refl
  · cases passed
    exact .refl

theorem RecordsAll.adjusts {records : List InvoiceParams}
    (recorded : RecordsAll world next records) :
    ∀ scores, Adjusts world.clock world.control.config scores world.scores →
      Adjusts world.clock world.control.config scores next.scores := by
  induction recorded with
  | done => exact fun _ adjusts => adjusts
  | @next world middle final params rest id _ recorded _ ih =>
    intro scores adjusts
    obtain ⟨control, clock, _⟩ := recordSubmission_next recorded
    rw [clock, control] at ih
    apply ih
    rw [(recordSubmission_spec recorded).scores]
    exact adjusts.submitted _

theorem invoke_rates (filed : Filed world.book) (ran : invoke env world call = .ok next)
    (reached : step world (.invoke env call) = next) : RatesStep world (.invoke env call) := by
  have finished := succeeds_of_invoke ran
  have quietly : Adjusts world.clock world.control.config world.scores next.scores →
      (Action.invoke env call).judged = none → RatesStep world (.invoke env call) := by
    intro adjusts undecided
    exact .quiet (reached ▸ adjusts) fun _ => not_ratesPayer undecided
  have rated : ∀ id invoice after, (Action.invoke env call).judged = some id →
      world.book.invoices id = some invoice →
      next.book.invoices id = some after → after.status ≠ .funded →
      Rates world.clock world.control.config world.scores next.scores (some invoice.payer) →
      RatesStep world (.invoke env call) := by
    intro id invoice after judged stored now decided rates
    exact .rated finished judged stored (reached ▸ now) decided (reached ▸ rates)
  cases invoke_sides filed ran with
  | unrelated plain sides =>
    apply quietly (.of_eq (congrArg Sides.scores sides))
    cases call with
    | markPaid | claimDefault | resolveAppeal => cases plain
    | _ => rfl
  | submitted submits recorded =>
    apply quietly (recorded.adjusts _ .refl)
    cases call with
    | markPaid | claimDefault | resolveAppeal => cases submits
    | _ => rfl
  | handedOver _ _ _ _ sides | renamed _ _ _ _ _ _ _ sides =>
    exact quietly (.of_eq (congrArg Sides.scores sides)) rfl
  | funded funder _ _ _ _ after _ scores _ _ _ checked sides =>
    refine quietly ?_ rfl
    have written : next.scores = _ := congrArg Sides.scores sides
    rw [written]
    apply Adjusts.kept (requirePayerReputation_adjusts checked)
    all_goals split <;> first | rfl | exact .of_same rfl rfl
  | instalment id amount after now funded sides =>
    have kept : next.scores = world.scores := congrArg Sides.scores sides
    refine .quiet (reached ▸ .of_eq kept) ?_
    rintro address ⟨_, other, judged, _, later, there, decided⟩
    cases judged
    rw [reached] at there
    cases now.symm.trans there
    exact decided funded
  | settled id _ invoice after stored now paid sides =>
    have written : next.scores = _ := congrArg Sides.scores sides
    apply rated id invoice after rfl stored now (by rw [paid]; decide)
    rw [written]
    exact .rewardSettlement _ _
  | defaulted funder id invoice stored sides =>
    have written : next.scores = _ := congrArg Sides.scores sides
    obtain ⟨after, now, decided⟩ := defaulted_now filed rfl (.inl ⟨funder, rfl⟩) ran
    apply rated id invoice after rfl stored now decided
    rw [written]
    exact .penalizeDefault _ _
  | appealed _ _ _ scores _ read sides =>
    refine quietly ?_ rfl
    have written : next.scores = scores := congrArg Sides.scores sides
    rw [written]
    rcases read with rfl | rfl
    · exact .refl
    · exact .read _ .refl
  | reviewed id upheld invoice appeal stored sides =>
    have written : next.scores = _ := congrArg Sides.scores sides
    cases upheld with
    | false => exact quietly (.of_eq written) rfl
    | true =>
      obtain ⟨after, now, decided⟩ := defaulted_now filed rfl (.inr ⟨true, rfl⟩) ran
      apply rated id invoice after rfl stored now decided
      rw [written]
      exact .restoreScore _ _ _
  | read _ sides =>
    refine quietly ?_ rfl
    have written : next.scores = _ := congrArg Sides.scores sides
    rw [written]
    exact .read _ .refl

theorem step_rates (filed : Filed world.book) (action : Action contract) :
    RatesStep world action := by
  cases action with
  | invoke env call =>
    cases finished : succeeds world (.invoke env call) with
    | true => exact invoke_rates filed (invoke_of_succeeds finished) rfl
    | false =>
      refine .quiet (.of_eq (by rw [step_of_failed finished])) ?_
      rintro address ⟨done, _⟩
      cases finished.symm.trans done
  | credit | advance => exact .quiet .refl fun _ => not_ratesPayer rfl

theorem exec_aligned (clock : Clock) (balance : Balances) (actions : List (Action contract)) :
    (reach clock balance actions).scores.Named ∧ ∀ address,
      Aligned (Happened step (RatesPayer address) (genesis clock balance) actions)
        (reach clock balance actions).scores address := by
  refine history_induct (fun past (world : World) => world.scores.Named ∧ ∀ address,
    Aligned (Happened step (RatesPayer address) (genesis clock balance) past) world.scores address)
    ?_ ?_ actions
  · rintro past action ⟨named, aligned⟩
    obtain ⟨_, rates, rated⟩ := step_rates (reach_filed clock balance past) action
    refine ⟨rates.moves.named named, fun address => ?_⟩
    apply (rates.moves.aligned named _ address (aligned address)).of_iff
    rw [happened_snoc, rated]
  · refine ⟨(by rintro _ _ ⟨⟩), fun address => ⟨(by rintro _ ⟨⟩), ?_,
      fun _ => rfl⟩⟩
    exact fun _ never => never.elim

/-- A stored profile shows the score that `get_payer_score` returns exactly when the score of the
address has been set in the run and no decay is due on it. -/
theorem profile_score_current_iff (clock : Clock) (balance : Balances)
    (actions : List (Action contract)) {profile : ReputationProfile}
    (stored : (reach clock balance actions).scores.reputation address = some profile) :
    let world := reach clock balance actions
    profile.score = world.scoreOf address ↔
      Happened step (RatesPayer address) (genesis clock balance) actions ∧
        ∀ rep ∈ world.scores.payerScore address,
          Undecayed world.control.config world.clock.sequence rep := by
  intro world
  have aligned := (exec_aligned clock balance actions).2 address
  have read := World.scoreOf_eq (exec_bounded clock balance actions) address
  change world.scores.reputation address = some profile at stored
  have shown : getReputation world.scores address = profile := by
    rw [getReputation, stored]
    rfl
  cases entry : world.scores.payerScore address with
  | none =>
    have standard : world.scoreOf address = defaultPayerScore := by
      rw [read, entry]
      rfl
    rw [standard]
    refine ⟨fun same => ?_, fun held => ?_⟩
    · refine ⟨?_, fun rep none => (by cases none)⟩
      by_contra never
      have zero := aligned.unrated never
      rw [shown, same] at zero
      cases zero
    · rw [← shown]
      exact aligned.standard entry held.1
  | some rep =>
    obtain ⟨rated, same⟩ := aligned.stored rep entry
    rw [← shown, same, read, entry]
    refine ⟨fun current => ⟨rated, ?_⟩, fun held => (scoreAt_eq_iff.mpr (held.2 rep rfl)).symm⟩
    rintro _ ⟨⟩
    exact scoreAt_eq_iff.mp current.symm

theorem profile_score_current_of_defaultedPayer :
    Happened step (RatesPayer ⟨2⟩) market defaultedPayer ∧
      ∀ rep ∈ (traded defaultedPayer).scores.payerScore ⟨2⟩,
        Undecayed (traded defaultedPayer).control.config
          (traded defaultedPayer).clock.sequence rep :=
  (profile_score_current_iff ⟨1000, 10⟩ marketBalances defaultedPayer
    (by decide +kernel :
      (traded defaultedPayer).scores.reputation ⟨2⟩ = some ⟨⟨2⟩, 0, 0, 1, 45⟩)).mp
    (by decide +kernel)

/-- The profile of a freelancer who has submitted one invoice shows the score 0 where
`get_payer_score` returns 50, and the profile of a defaulted payer shows 45 after twenty ledgers in
which the score has decayed to 37. -/
theorem profile_score_differs :
    (traded (openingCalls 1000000 300)).scores.reputation ⟨5⟩ = some ⟨⟨5⟩, 1, 0, 0, 0⟩ ∧
      (traded (openingCalls 1000000 300)).scoreOf ⟨5⟩ = 50 ∧
      (traded (defaultedPayer ++ [.advance 100 20])).scores.reputation ⟨2⟩ =
        some ⟨⟨2⟩, 0, 0, 1, 45⟩ ∧
      (traded (defaultedPayer ++ [.advance 100 20])).scoreOf ⟨2⟩ = 37 := by
  decide +kernel

end Runs

end InvoiceLiquidity
