import Iln.Governance.Deposits
import Iln.Governance.Targets

/-! Whether the action of a passed proposal arrives. Governance reaches the setter that is meant
when address, name, arguments and authorisation all match, which fails for the insurance settings,
the distribution's reward sizes and new tokens. Fee tiers do arrive, but as maps, and the ILN
contract cannot read them any more. -/
namespace IlnGovernance

open Outcome FixedWidth Transition Function
open InvoiceLiquidity (Address Hash Balances Clock invokeControl updateFeeRate updateMaxDiscount
  updateDecayParams updateFeeTiers addToken removeToken dropToken registerOracle
  removeOracle registerTokenOracle setMaxInvoiceAmount setTokenVolumeCap updateFeed)
open IlnDistribution (RewardRate)

variable {contract : Address} {action : ProposalAction} {call : TargetCall}
  {parameters : Parameters}
variable {invocation : Invocation}

section Intent

/-- The setter that the action is about. `iln_distribution` has none for the sizes of its
rewards. -/
def ownCall (contract : Address) : ProposalAction → Option TargetCall
  | .updateFeeRate rate => some (.invoice (.updateFeeRate rate))
  | .addToken token decimals => some (.invoice (.addToken token decimals))
  | .removeToken token => some (.invoice (.removeToken token))
  | .updateMaxDiscountRate rate => some (.invoice (.updateMaxDiscount rate))
  | .updateDecayParams rateBps periodLedgers =>
    some (.invoice (.updateDecayParams rateBps periodLedgers))
  | .updateDistributionRewardParams _ _ _ => none
  | .updateFeeTiers tiers =>
    some (.feeTiers (tiers.map fun tier => .tuple tier.minAmount tier.feeRateBps))
  | .upgrade newWasmHash => some (.upgrade newWasmHash)
  | .updateLpRewardRate rate => some (.rewardRate .lp rate)
  | .updateFreelancerRewardRate rate => some (.rewardRate .freelancer rate)
  | .updatePayerRewardRate rate => some (.rewardRate .payer rate)
  | .updateInsuranceCoverageCap cap => some (.coverage cap)
  | .updateInsurancePremiumRate rate => some (.premiumRate rate)
  | .registerOracle feed oracle => some (.invoice (.registerOracle feed oracle))
  | .removeOracle feed => some (.invoice (.removeOracle feed))
  | .registerTokenOracle feed token oracle =>
    some (.invoice (.registerTokenOracle feed token oracle))
  | .updateReputationBonusParams highRepThreshold bonusBps minDiscountRateBps =>
    some (.updateConfig contract ⟨highRepThreshold, bonusBps, minDiscountRateBps⟩)
  | .updateMaxInvoiceAmount cap => some (.invoice (.setMaxInvoiceAmount cap))
  | .updateTokenVolumeCap token cap => some (.invoice (.setTokenVolumeCap token cap))

variable {site : Site contract}

/-- The setter takes the values from an administrator who authorises all it does. Nothing refuses
values for which there is no setter. -/
def Accepts (host : Host site) (clock : Clock) (targets : Targets) (action : ProposalAction) :
    Prop :=
  ∀ call ∈ ownCall contract action, (call.run host true clock targets).isSome = true

instance (host : Host site) (clock : Clock) (targets : Targets) (action : ProposalAction) :
    Decidable (Accepts host clock targets action) :=
  inferInstanceAs (Decidable (∀ call ∈ ownCall contract action, _))

def Holds (targets : Targets) : ProposalAction → Prop
  | .updateFeeRate rate => targets.invoice.control.feeRate = some rate
  | .addToken token decimals =>
    targets.invoice.control.approvedToken token = some true ∧
      targets.invoice.control.tokenDecimals token = some decimals ∧
        token ∈ targets.invoice.control.tokenList
  | .removeToken token =>
    targets.invoice.control.approvedToken token = some false ∧
      token ∉ targets.invoice.control.tokenList
  | .updateMaxDiscountRate rate => targets.invoice.control.maxDiscountRate = some rate
  | .updateDecayParams rateBps periodLedgers =>
    ∃ config ∈ targets.invoice.control.config,
      config.decayRateBps = rateBps ∧ config.decayPeriodLedgers = periodLedgers
  -- two of the three are constants
  | .updateDistributionRewardParams halfToken hundredUsdcStroops lpMultiplier =>
    IlnDistribution.halfToken = halfToken ∧
      IlnDistribution.hundredUsdcStroops = hundredUsdcStroops ∧
      targets.distribution.get .lp = lpMultiplier
  | .updateFeeTiers tiers => targets.feeTiers =
      some (tiers.map fun tier => (tier.minAmount, tier.feeRateBps))
  | .upgrade newWasmHash => targets.code = newWasmHash
  | .updateLpRewardRate rate => targets.distribution.get .lp = rate
  | .updateFreelancerRewardRate rate => targets.distribution.get .freelancer = rate
  | .updatePayerRewardRate rate => targets.distribution.get .payer = rate
  | .updateInsuranceCoverageCap cap => InsurancePool.getCoverage targets.insurance = cap
  | .updateInsurancePremiumRate rate => InsurancePool.getBasePremiumRateBps targets.insurance = rate
  | .registerOracle feed oracle => targets.invoice.control.oracle.registry feed = some oracle
  | .removeOracle feed => targets.invoice.control.oracle.registry feed = none
  | .registerTokenOracle feed token oracle =>
    targets.invoice.control.oracle.tokenOracle feed token = some oracle
  | .updateReputationBonusParams highRepThreshold bonusBps minDiscountRateBps =>
    targets.reputationBonus.config = some ⟨highRepThreshold, bonusBps, minDiscountRateBps⟩
  | .updateMaxInvoiceAmount cap => targets.invoice.control.maxInvoiceAmount = cap
  | .updateTokenVolumeCap token cap => targets.invoice.control.tokenVolumeCap token = cap

/-- What the ILN contract receives in place of the setter that is meant. -/
def sentCall (contract : Address) : ProposalAction → Option TargetCall
  | .updateFeeTiers tiers => some (.feeTiers (tiers.map .map))
  | action => ownCall contract action

def routed : ProposalAction → Bool
  | .updateDistributionRewardParams _ _ _ | .updateInsuranceCoverageCap _
  | .updateInsurancePremiumRate _ => false
  | _ => true

def probes : ProposalAction → Bool
  | .addToken _ _ => true
  | _ => false

def readable : ProposalAction → Bool
  | .updateFeeTiers tiers => tiers.isEmpty
  | _ => true

def deliverable (action : ProposalAction) : Bool :=
  routed action && !probes action && readable action

end Intent

section Setters

variable {site : Site contract} {host : Host site} {deep : Bool} {clock : Clock}
  {targets next : Targets}

theorem runInvoice_eq_some {call : InvoiceLiquidity.Call} :
    runInvoice host deep clock targets call = some next ↔
      ∃ invoice, InvoiceLiquidity.invoke (host.acting deep)
      { targets.invoice with clock } call = .ok invoice ∧
        { targets with invoice } = next := by
  simp only [runInvoice, Option.map_eq_some_iff, toOption_eq_some]

theorem runInvoice_control {call : InvoiceLiquidity.Call}
    {result : InvoiceLiquidity.Result InvoiceLiquidity.Control}
    (routed : invokeControl (host.acting deep) { targets.invoice with clock } call = some result)
    (ran : runInvoice host deep clock targets call = some next) :
    ∃ control, result = .ok control ∧ next.invoice.control = control := by
  obtain ⟨_, invoked, rfl⟩ := runInvoice_eq_some.mp ran
  simp only [InvoiceLiquidity.invoke, ok_iff, routed] at invoked
  obtain ⟨_, _, control, finished, rfl⟩ := invoked
  exact ⟨control, finished, rfl⟩

theorem feeTiers_of_run {tiers : List TierVal}
    (ran : (TargetCall.feeTiers tiers).run host deep clock targets = some next) :
    next.feeTiers = tiers.mapM TierVal.asTuple := by
  obtain ⟨_, _, rfl⟩ := Option.map_eq_some_iff.mp ran
  rfl

theorem mapM_tuples (tiers : List FeeTierConfig) :
    (tiers.map fun tier => TierVal.tuple tier.minAmount tier.feeRateBps).mapM TierVal.asTuple =
      some (tiers.map fun tier => (tier.minAmount, tier.feeRateBps)) := by
  induction tiers with
  | nil => rfl
  | cons tier rest ih => simp [TierVal.asTuple, ih]

theorem mapM_maps (tiers : List FeeTierConfig) :
    (tiers.map TierVal.map).mapM TierVal.asTuple = if tiers.isEmpty then some [] else none := by
  cases tiers with
  | nil => rfl
  | cons => simp [TierVal.asTuple]

theorem holds_of_run (own : ownCall contract action = some call)
    (ran : call.run host deep clock targets = some next) : Holds next action := by
  cases action with
  | updateFeeRate | removeToken | updateMaxDiscountRate | removeOracle =>
    cases own
    obtain ⟨control, finished, same⟩ := runInvoice_control rfl ran
    simp only [updateFeeRate, removeToken, dropToken, updateMaxDiscount, removeOracle,
      ok_iff] at finished
    obtain ⟨_, _, rfl⟩ := finished
    simp [Holds, same]
  | updateDecayParams =>
    cases own
    obtain ⟨control, finished, same⟩ := runInvoice_control rfl ran
    simp only [updateDecayParams, ok_iff] at finished
    obtain ⟨_, _, config, _, rfl⟩ := finished
    simp only [Holds, same]
    exact ⟨_, rfl, rfl, rfl⟩
  | registerOracle | registerTokenOracle | updateMaxInvoiceAmount | updateTokenVolumeCap =>
    cases own
    obtain ⟨control, finished, same⟩ := runInvoice_control rfl ran
    simp only [registerOracle, registerTokenOracle, setMaxInvoiceAmount, setTokenVolumeCap,
      ok_iff] at finished
    obtain ⟨_, _, _, _, rfl⟩ := finished
    simp [Holds, same, updateFeed]
  | addToken =>
    cases own
    obtain ⟨invoice, invoked, rfl⟩ := runInvoice_eq_some.mp ran
    simp only [InvoiceLiquidity.invoke, invokeControl, InvoiceLiquidity.invokeWorld, addToken,
      ok_iff] at invoked
    obtain ⟨_, _, control, _, admin, _, _, _, _, _, received, _, _, _, treasury, _, rfl⟩ := invoked
    simp only [Holds, Function.update_self, true_and]
    split
    · assumption
    · exact List.mem_append_right _ List.mem_cons_self
  | updateDistributionRewardParams => cases own
  | updateFeeTiers tiers =>
    cases own
    exact (feeTiers_of_run ran).trans (mapM_tuples tiers)
  | upgrade =>
    cases own
    simp only [TargetCall.run, Option.bind_eq_bind, Option.bind_eq_some_iff, Option.pure_def,
      Option.some.injEq] at ran
    obtain ⟨_, _, _, _, rfl⟩ := ran
    rfl
  | updateLpRewardRate | updateFreelancerRewardRate | updatePayerRewardRate =>
    cases own
    obtain ⟨store, finished, rfl⟩ := Option.map_eq_some_iff.mp ran
    simp only [Holds, IlnDistribution.setRewardRate_get finished, if_true]
  | updateInsuranceCoverageCap | updateInsurancePremiumRate =>
    cases own
    simp only [TargetCall.run, Option.map_eq_some_iff, toOption_eq_some,
      InsurancePool.setCoverageViaGovernance, InsurancePool.setPremiumRateViaGovernance,
      ok_iff] at ran
    obtain ⟨_, ⟨_, _, _, _, _, _, rfl⟩, rfl⟩ := ran
    rfl
  | updateReputationBonusParams =>
    cases own
    simp only [TargetCall.run, Option.map_eq_some_iff, toOption_eq_some,
      ReputationBonus.updateConfig, ok_iff, ReputationBonus.setConfig_eq_ok] at ran
    obtain ⟨_, ⟨_, _, _, _, _, _, _, _, _, _, _, rfl⟩, rfl⟩ := ran
    rfl

/-- Apart from the probe of a new token, no setter makes a call that its administrator has to
authorise. -/
theorem run_shallow (own : ownCall contract action = some call)
    (probeless : probes action = false) : call.run host false clock targets =
      call.run host true clock targets := by
  cases action with
  | addToken => cases probeless
  | updateDistributionRewardParams => cases own
  | _ =>
    cases own
    rfl

/-- The probe moves tokens of the administrator, and the token does not find the authorisation of
governance. -/
theorem run_probe (own : ownCall contract action = some call) (probing : probes action = true)
    (administered : targets.invoice.control.admin = some contract) :
    call.run host false clock targets = none := by
  cases action with
  | addToken =>
    cases own
    by_contra ran
    obtain ⟨_, ran⟩ := Option.ne_none_iff_exists'.mp ran
    obtain ⟨_, invoked, _⟩ := runInvoice_eq_some.mp ran
    simp only [InvoiceLiquidity.invoke, invokeControl, InvoiceLiquidity.invokeWorld, addToken,
      InvoiceLiquidity.transfer, ok_iff] at invoked
    obtain ⟨_, _, _, begun, admin, stored, _, _, _, _, _, ⟨_, moved, _⟩, _⟩ := invoked
    have same := (InvoiceLiquidity.beginAdminCall_admin begun).1
    have governed : admin = contract :=
      Option.some.inj (stored.symm.trans (same.trans administered))
    simp [Host.acting, governed] at moved
  | _ => cases probing

/-- The list of maps is as long as the list that is meant, so it is stored as that would have
been. -/
theorem feeTiers_arrive {tiers : List FeeTierConfig}
    (own : ownCall contract (.updateFeeTiers tiers) = some call)
    (accepted : (call.run host true clock targets).isSome = true) :
    ((TargetCall.feeTiers (tiers.map .map)).run host false clock targets).isSome = true := by
  cases own
  rw [TargetCall.run, Option.isSome_map] at accepted ⊢
  obtain ⟨_, ran⟩ := Option.isSome_iff_exists.mp accepted
  obtain ⟨_, invoked, _⟩ := runInvoice_eq_some.mp ran
  simp only [InvoiceLiquidity.invoke, invokeControl, updateFeeTiers, ok_iff] at invoked
  obtain ⟨_, _, _, ⟨_, admin, _, short, control, limited, _⟩, _⟩ := invoked
  obtain ⟨later, stored⟩ : ∃ later, InvoiceLiquidity.invoke (host.acting false)
      { targets.invoice with clock }
      (.updateFeeTiers ((tiers.map TierVal.map).map fun tier => tier.asTuple.getD (0, 0))) =
        .ok later := by
    simp only [InvoiceLiquidity.invoke, invokeControl, updateFeeTiers, ok_iff]
    refine ⟨_, (), ?_, _, ⟨(), admin, (), ?_, control, limited, rfl⟩, rfl⟩
    · simp [InvoiceLiquidity.Call.wellTyped, TierVal.asTuple, Fits, i128]
    · simpa using short
  exact Option.isSome_iff_exists.mpr ⟨_, runInvoice_eq_some.mpr ⟨later, stored, rfl⟩⟩

theorem decode_dispatch (wired : Wired site parameters targets)
    (dispatched : dispatch contract parameters site.iln action = .ok invocation) :
    decode site invocation = if routed action then sentCall contract action else none := by
  cases action with
  | updateDistributionRewardParams | updateLpRewardRate | updateFreelancerRewardRate
  | updatePayerRewardRate =>
    simp only [dispatch, getDistributionContract, ok_iff, wired.distribution,
      Option.some.injEq] at dispatched
    obtain ⟨_, rfl, rfl⟩ := dispatched
    rw [decode_distribution]
    rfl
  | updateReputationBonusParams =>
    simp only [dispatch, getReputationBonusContract, ok_iff, wired.reputationBonus,
      Option.some.injEq] at dispatched
    obtain ⟨_, rfl, rfl⟩ := dispatched
    rw [decode_reputationBonus]
    rfl
  | _ =>
    cases dispatched
    rw [decode_iln]
    rfl

theorem answer_dispatch (wired : Wired site parameters targets)
    (dispatched : dispatch contract parameters site.iln action = .ok invocation)
    (accepted : Accepts host clock targets action) :
    (answer host clock targets invocation).isSome = (routed action && !probes action) ∧
      ∀ after, answer host clock targets invocation = some after →
        (Holds after action ↔ readable action = true) := by
  rw [answer, decode_dispatch wired dispatched]
  cases reaches : routed action with
  | false => exact ⟨rfl, fun after none => by cases none⟩
  | true =>
    simp only [if_true, Bool.true_and]
    by_cases tiered : ∃ tiers, action = .updateFeeTiers tiers
    · obtain ⟨tiers, rfl⟩ := tiered
      refine ⟨feeTiers_arrive rfl (accepted _ rfl), fun after ran => ?_⟩
      have stored := (feeTiers_of_run ran).trans (mapM_maps tiers)
      simp only [Holds, stored, readable]
      cases tiers <;> simp
    · have same : sentCall contract action = ownCall contract action ∧ readable action = true := by
        cases action with
        | updateFeeTiers tiers => exact absurd ⟨tiers, rfl⟩ tiered
        | _ => exact ⟨rfl, rfl⟩
      rw [same.1, same.2]
      cases own : ownCall contract action with
      | none =>
        cases action with
        | updateDistributionRewardParams => cases reaches
        | _ => cases own
      | some call =>
        rw [Option.bind_some]
        refine ⟨?_, fun after ran => iff_of_true (holds_of_run own ran) rfl⟩
        cases probing : probes action with
        | false =>
          rw [run_shallow own probing]
          exact accepted call own
        | true =>
          rw [run_probe own probing wired.invoiceAdmin]
          rfl

end Setters

section Delivery

variable {env : Env contract} {world : World} {id : Nat} {proposal : GovernanceProposal}
  {iln : Address}

/-- A settled deposit leaves nothing that could fail after the target call. -/
theorem executePassed_returns (executable : assertExecutable world.clock proposal = .ok ())
    (located : getIlnContract world.parameters = .ok iln)
    (dispatched : dispatch contract world.parameters iln proposal.actionType = .ok invocation)
    (settled : world.proposals.depositSettled proposal.id = true) :
    ∃ next, executePassed env world proposal = .ok next := by
  have legal : isLegalTransition proposal.status .executed = true := by
    rw [(assertExecutable_eq_ok.mp executable).1]
    rfl
  simp only [executePassed, ok_iff]
  cases answered : env.invocationReturns invocation with
  | false => exact ⟨world, (), executable, iln, located, invocation,
      dispatched, by rw [answered]; rfl⟩
  | true =>
    apply Exists.intro
    refine ⟨(), executable, iln, located, invocation, dispatched, ?_⟩
    simp only [answered, if_true, ok_iff, transitionStatus_eq_ok]
    exact ⟨_, ⟨legal, rfl⟩, if_pos settled⟩

theorem invoke_passed (numbered : Numbered world) (sound : PassedSettled world)
    (stored : world.proposals.proposal id = some proposal) (passed : proposal.status = .passed)
    (matured : proposal.etaLedger ≤ world.clock.sequence)
    (located : world.parameters.ilnContract = some iln)
    (dispatched : dispatch contract world.parameters iln proposal.actionType = .ok invocation) :
    invocationOf contract world id = some invocation ∧
      ∃ next, invoke env world (.executeProposal id) = .ok next ∧
        next.statusOf id =
          some (if env.invocationReturns invocation then .executed else .passed) := by
  obtain ⟨ended, settled⟩ := sound id proposal stored passed
  have loaded := numbered.loaded stored
  have ilnFound : getIlnContract world.parameters = .ok iln := orFail_eq_ok.mpr located
  refine ⟨invocationOf_eq_some.mpr ⟨proposal, iln, loaded, passed, ended, matured, ilnFound,
    dispatched⟩, ?_⟩
  obtain ⟨known, _, named⟩ := loadProposal_eq_ok.mp loaded
  have typed : (Call.executeProposal id).wellTyped = true :=
    decide_eq_true (known.2.trans numbered.capped)
  have executable : assertExecutable world.clock proposal = .ok () :=
    assertExecutable_eq_ok.mpr ⟨passed, ended, matured⟩
  obtain ⟨next, executes⟩ : ∃ next, executePassed env world proposal = .ok next :=
    executePassed_returns executable ilnFound dispatched (named.symm ▸ settled)
  refine ⟨next, ?_, ?_⟩
  · simp only [invoke, typed, require, if_true]
    exact executeProposal_eq_ok.mpr ⟨proposal, loaded, ended, .inr ⟨passed, executes⟩⟩
  · obtain ⟨_, _, found, target, same⟩ := executePassed_moved loaded passed ended executes
    cases ilnFound.symm.trans found
    cases dispatched.symm.trans target
    rcases same with ⟨unanswered, rfl⟩ | ⟨answered, moved⟩
    · simp [World.statusOf, stored, passed, unanswered]
    · have record := congrArg Docket.proposal (congrFun moved.dockets id)
      rw [update_self] at record
      rw [answered, if_pos rfl]
      exact congrArg (Option.map _) record

def Delivered {site : Site contract} (host : Host site) (env : Env contract) (world : World)
    (targets : Targets) (id : Nat) (action : ProposalAction) : Prop :=
  ∃ next after, executeAcross host env world targets id = .ok (next, after) ∧
    next.statusOf id = some .executed ∧ Holds after action

/-- In a deployment that governance administers, a passed proposal whose timelock is over and whose
values the setter accepts is delivered exactly when its invocation finds the setter, needs no
further authorisation and can be decoded. Fee tiers are stored without being decoded: the proposal
is executed, and from then on no fee rate can be computed. -/
theorem action_reaches_target (clock : Clock) (balance : Balances)
    (actions : List (Action contract)) (site : Site contract) (host : Host site)
    (env : Env contract) (targets : Targets) (id : Nat) (proposal : GovernanceProposal)
    (wired : Wired site (reach clock balance actions).parameters targets)
    (stored : (reach clock balance actions).proposals.proposal id = some proposal)
    (passed : proposal.status = .passed)
    (matured : proposal.etaLedger ≤ (reach clock balance actions).clock.sequence)
    (accepted : Accepts host (reach clock balance actions).clock targets proposal.actionType) :
    (Delivered host env (reach clock balance actions) targets id proposal.actionType ↔
        deliverable proposal.actionType = true) ∧
      ∀ tier tiers, proposal.actionType = .updateFeeTiers (tier :: tiers) →
        ∃ next after, executeAcross host env (reach clock balance actions) targets
          id = .ok (next, after) ∧
          next.statusOf id = some .executed ∧ ∀ amount, after.effectiveFeeRate amount = none := by
  have numbered := exec_numbered clock balance actions
  have sound := exec_passedSettled clock balance actions
  generalize reach clock balance actions = world at *
  obtain ⟨invocation, dispatched⟩ : ∃ invocation, dispatch contract world.parameters site.iln
      proposal.actionType = .ok invocation := by
    cases proposal.actionType <;>
      simp [dispatch, getDistributionContract, getReputationBonusContract, wired.distribution,
        wired.reputationBonus, orFail]
  obtain ⟨answered, holds⟩ := answer_dispatch wired dispatched accepted
  obtain ⟨found, next, invoked, status⟩ : invocationOf contract world id = some invocation ∧
      ∃ next, invoke (env.answering fun invocation =>
          (answer host world.clock targets invocation).isSome) world (.executeProposal id) =
            .ok next ∧
        next.statusOf id = some
          (if (answer host world.clock targets invocation).isSome then .executed else .passed) :=
    invoke_passed numbered sound stored passed matured wired.iln dispatched
  have across : executeAcross host env world targets id =
      .ok (next, (answer host world.clock targets invocation).getD targets) := by
    simp only [executeAcross, ok_iff]
    exact ⟨next, invoked, by rw [found]; rfl⟩
  rw [deliverable, ← answered]
  cases reached : answer host world.clock targets invocation with
  | none =>
    rw [reached] at answered status across
    refine ⟨⟨?_, (by rintro ⟨⟩)⟩, fun tier tiers tiered => ?_⟩
    · rintro ⟨_, _, across', executed, _⟩
      cases across.symm.trans across'
      cases status.symm.trans executed
    · rw [tiered] at answered
      cases answered
  | some after =>
    rw [reached] at status across
    refine ⟨⟨?_, fun decoded => ⟨next, after, across, status, (holds after reached).mpr decoded⟩⟩,
      fun tier tiers tiered => ⟨next, after, across, status, fun amount => ?_⟩⟩
    · rintro ⟨_, _, across', _, held⟩
      cases across.symm.trans across'
      exact (holds after reached).mp held
    · rw [tiered] at dispatched
      rw [answer, decode_dispatch wired dispatched] at reached
      have unread := (feeTiers_of_run reached).trans (mapM_maps (tier :: tiers))
      rw [Targets.effectiveFeeRate, unread]
      rfl

end Delivery

def passedBallot (action : ProposalAction) : List (Action ⟨0⟩) :=
  [opening, signedBy [1] (.checkpointBalance ⟨1⟩), .advance 50 10,
    signedBy [1] (.createProposal ⟨1⟩ action 1 100), signedBy [1] (.castVote ⟨1⟩ 1 true),
    .advance 300000 50, signedBy [] (.executeProposal 1)]

def passedWorld (action : ProposalAction) : World :=
  convened (passedBallot action)

theorem referenceSite_apart : [(⟨0⟩ : Address), ⟨5⟩, ⟨6⟩, ⟨9⟩, ⟨7⟩].Nodup := by decide

def referenceSite : Site ⟨0⟩ := ⟨⟨5⟩, ⟨6⟩, ⟨9⟩, ⟨7⟩, referenceSite_apart⟩

def referenceHost : Host referenceSite := ⟨InvoiceLiquidity.stellarHost ⟨5⟩ [] [], fun _ => true⟩

def referenceTargets : Targets where
  invoice := exec InvoiceLiquidity.step
    (InvoiceLiquidity.genesis ⟨1000, 10⟩ fun token holder => if token.key = 20 ∧
      holder.key = 0 then 5000000 else 0)
    [.invoke referenceHost.outside (.initializeContract ⟨0⟩ ⟨11⟩ ⟨12⟩ ⟨13⟩)]
  tierSlot := []
  code := 1
  distribution := IlnDistribution.initialRates ⟨0⟩
  insurance := ⟨some ⟨0⟩, some 1000, none⟩
  reputationBonus := ⟨some ⟨0⟩, some ⟨70, 100, 100⟩⟩

def ReadyOn (world : World) (action : ProposalAction) : Prop :=
  (∃ proposal ∈ world.proposals.proposal 1, proposal.status = .passed ∧
    proposal.actionType = action ∧ proposal.etaLedger ≤ world.clock.sequence) ∧
  Accepts referenceHost world.clock referenceTargets action

instance (world : World) (action : ProposalAction) : Decidable (ReadyOn world action) :=
  inferInstanceAs (Decidable (_ ∧ _))

theorem referenceTargets_wired (iln : parameters.ilnContract = some ⟨5⟩)
    (distribution : parameters.distributionContract = some ⟨6⟩)
    (reputationBonus : parameters.reputationBonusContract = some ⟨7⟩) :
    Wired referenceSite parameters referenceTargets :=
  ⟨iln, distribution, reputationBonus, by decide +kernel, rfl, rfl, rfl⟩

theorem action_reaches_target_feeRate :
    Delivered referenceHost (plainHost ⟨0⟩ []) (passedWorld (.updateFeeRate 250)) referenceTargets 1
      (.updateFeeRate 250) := by
  obtain ⟨⟨proposal, stored, passed, named, matured⟩, accepted⟩ :
      ReadyOn (passedWorld (.updateFeeRate 250)) (.updateFeeRate 250) := by decide +kernel
  have reached := action_reaches_target ⟨1000, 10⟩ holdings (passedBallot (.updateFeeRate 250))
    referenceSite referenceHost (plainHost ⟨0⟩ []) referenceTargets 1 proposal
    (referenceTargets_wired (by decide +kernel) (by decide +kernel) (by decide +kernel)) stored
    passed matured (by rw [named]; exact accepted)
  rw [named] at reached
  exact reached.1.mpr rfl

/-- Four passed actions that their setters accept and that are never delivered: the insurance
settings are sent to the ILN contract, `update_reward_params` is exported by nobody, and the probe
of a new token takes tokens from governance. -/
theorem passedBallot_undelivered :
    ∀ action ∈ [.updateInsuranceCoverageCap 500, .updateInsurancePremiumRate 300,
        .updateDistributionRewardParams 1 2 3, .addToken ⟨20⟩ 6],
      Wired referenceSite (passedWorld action).parameters referenceTargets ∧
      ReadyOn (passedWorld action) action ∧
      ¬ Delivered referenceHost (plainHost ⟨0⟩ [])
      (passedWorld action) referenceTargets 1 action := by
  intro action listed
  obtain ⟨iln, distribution, reputationBonus, ready, status⟩ :
      (passedWorld action).parameters.ilnContract = some ⟨5⟩ ∧
      (passedWorld action).parameters.distributionContract = some ⟨6⟩ ∧
      (passedWorld action).parameters.reputationBonusContract = some ⟨7⟩ ∧
      ReadyOn (passedWorld action) action ∧
      (executeAcross referenceHost (plainHost ⟨0⟩ []) (passedWorld action) referenceTargets
        1).toOption.map (fun result => result.1.statusOf 1) = some (some .passed) := by
    revert action
    decide +kernel
  refine ⟨referenceTargets_wired iln distribution reputationBonus, ready, ?_⟩
  rintro ⟨next, after, across, executed, _⟩
  rw [across] at status
  cases executed.symm.trans (Option.some.inj status)

/-- A coverage cap of 500 that the pool would take stays an unexecuted proposal. -/
theorem coverageCap_undelivered :
    Wired referenceSite (passedWorld (.updateInsuranceCoverageCap 500)).parameters
      referenceTargets ∧
      ReadyOn (passedWorld (.updateInsuranceCoverageCap 500)) (.updateInsuranceCoverageCap 500) ∧
      ¬ Delivered referenceHost (plainHost ⟨0⟩ []) (passedWorld (.updateInsuranceCoverageCap 500))
        referenceTargets 1 (.updateInsuranceCoverageCap 500) :=
  passedBallot_undelivered (.updateInsuranceCoverageCap 500) List.mem_cons_self

end IlnGovernance
