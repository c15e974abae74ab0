import Iln.Governance.Lifecycle
import Mathlib.Data.List.Dedup

/-! Consent to a veto. A veto needs the approvals of enough signers, each given in a call of its own
with a reason. The receipts keep who approved and not for which reason, so the recorded reason is
the one of the last call. -/
namespace IlnGovernance

open Outcome FixedWidth Transition Function
open InvoiceLiquidity (Address Hash Balances Clock)

variable {contract : Address}

section Storage

inductive VetoWrite (env : Env contract) (world : World) : Call → VetoStore → Prop where
  | kept {call : Call} : VetoWrite env world call world.veto
  | opened {iln distribution reputationBonus token admin : Address} {supply : Int}
      (uninitialised : world.parameters.ilnContract = none) :
      VetoWrite env world (.initializeContract iln distribution reputationBonus token admin supply)
        { world.veto with powerEnabled := some true }
  | configured {signers : List Address} {threshold : Nat} (distinct : signers.Nodup) :
      VetoWrite env world (.configureVetoMultisig signers threshold)
        { world.veto with signers := some signers, threshold := some threshold }
  | retired {call : Call} {iln : Address} {record : VetoDisableRecord}
      (retires : call.retiresVeto = true) (located : world.parameters.ilnContract = some iln) :
      VetoWrite env world call
        { world.veto with powerEnabled := some false, disableRecord := some record }
  | pending {signer : Address} {id : Nat} {reasonHash : Hash} {proposal : GovernanceProposal}
      (approving : Approving env world signer id reasonHash proposal) :
      VetoWrite env world (.vetoProposal signer id reasonHash)
        (world.pendingVeto id signer reasonHash)
  | executed {signer : Address} {id : Nat} {reasonHash : Hash} {proposal : GovernanceProposal}
      (approving : Approving env world signer id reasonHash proposal) :
      VetoWrite env world (.vetoProposal signer id reasonHash)
        (world.executedVeto id signer reasonHash)

variable {env : Env contract} {world next : World} {id : Nat} {call : Call}

theorem Settled.controls {recipient : Option Address}
    (settled : Settled env world id recipient next) :
    next.veto = world.veto ∧ next.parameters = world.parameters := by
  cases settled with
  | before | unpaid | paid => exact ⟨rfl, rfl⟩

def SameControls (world next : World) : Prop :=
  next.veto = world.veto ∧ next.parameters.executionDelay = world.parameters.executionDelay

theorem executeProposal_controls (ran : executeProposal env world id = .ok next) :
    SameControls world next := by
  obtain ⟨_, _, _, ⟨_, closes⟩ | ⟨_, executes⟩⟩ := executeProposal_eq_ok.mp ran
  · obtain ⟨_, _, _, _, settled⟩ := closeVoting_spec closes
    exact ⟨settled.controls.1, congrArg Parameters.executionDelay settled.controls.2⟩
  · obtain ⟨_, _, _, _, _, ⟨_, rfl⟩ | ⟨_, settled⟩⟩ := executePassed_spec executes
    · exact ⟨rfl, rfl⟩
    · exact ⟨settled.controls.1, (congrArg Parameters.executionDelay settled.controls.2 :)⟩

theorem createProposal_controls {proposer : Address} {action : ProposalAction}
    {descriptionHash : Hash} {proposedValue : Int} {result : World × Nat}
    (ran : createProposal env world proposer action descriptionHash proposedValue = .ok result) :
    SameControls world result.1 := by
  obtain ⟨_, _, _, opened | ⟨_, _, _, _, opened⟩⟩ := createProposal_spec ran
  all_goals
    rw [opened]
    exact ⟨rfl, rfl⟩

theorem SameControls.write (same : SameControls world next) :
    VetoWrite env world call next.veto ∧ next.parameters.executionDelay =
      world.parameters.executionDelay :=
  ⟨same.1 ▸ .kept, same.2⟩

theorem invokeWorld_controls (ran : invokeWorld env world call = .ok next) :
    VetoWrite env world call next.veto ∧ next.parameters.executionDelay =
      world.parameters.executionDelay := by
  cases call with
  | initializeContract =>
    simp only [invokeWorld, initializeContract, ok_iff] at ran
    obtain ⟨_, uninitialised, rfl⟩ := ran
    exact ⟨.opened uninitialised, rfl⟩
  | createProposal =>
    simp only [invokeWorld, ok_iff] at ran
    obtain ⟨_, created, rfl⟩ := ran
    exact (createProposal_controls created).write
  | castVote =>
    obtain ⟨_, _, _, _, _, _, _, _, _, _, _, _, _, _, rfl⟩ := castVote_spec ran
    exact ⟨.kept, rfl⟩
  | delegateVotes =>
    obtain ⟨_, _, _, _, _, _, _, _, rfl⟩ := delegateVotes_spec ran
    exact ⟨.kept, rfl⟩
  | undelegateVotes =>
    obtain ⟨_, ⟨_, rfl⟩ | ⟨_, _, _, _, _, _, rfl⟩⟩ := undelegateVotes_spec ran
    all_goals exact ⟨.kept, rfl⟩
  | checkpointBalance =>
    simp only [invokeWorld, checkpointBalance, ok_iff] at ran
    obtain ⟨_, _, _, _, rfl⟩ := ran
    exact ⟨.kept, rfl⟩
  | executeProposal => exact (executeProposal_controls ran).write
  | vetoProposal =>
    obtain ⟨_, _, approving, rfl | ⟨_, settled⟩⟩ := vetoProposal_cases ran
    · exact ⟨.pending approving, rfl⟩
    · rw [settled.controls.1, settled.controls.2]
      exact ⟨.executed approving, rfl⟩
  | configureVetoMultisig =>
    obtain ⟨distinct, rfl⟩ := configureVetoMultisig_spec ran
    exact ⟨.configured distinct, rfl⟩
  | disableVetoPower | disableVetoPowerWithReason =>
    obtain ⟨_, disabled⟩ := invokeWorld_retires rfl ran
    obtain ⟨_, located, rfl⟩ := internalDisableVetoPower_spec disabled
    exact ⟨.retired rfl located, rfl⟩
  | _ => cases ran

theorem invoke_vetoWrite (ran : invoke env world call = .ok next) :
    VetoWrite env world call next.veto := by
  rcases invoke_cases ran with ⟨_, _, _, rfl⟩ | ran
  · exact .kept
  · exact (invokeWorld_controls ran).1

end Storage

section Approvals

def approval (id : Nat) (world : World) : Action contract → Option (Address × Hash)
  | .invoke env (.vetoProposal signer target reasonHash) =>
    if target = id ∧ (invoke env world (.vetoProposal signer target reasonHash)).isOk = true then
      some (signer, reasonHash)
    else none
  | _ => none

def noteApproval (id : Nat) (world : World) (action : Action contract)
    (notes : List (Address × Hash)) :
    List (Address × Hash) := (approval id world action).toList ++ notes

def Consented (veto : VetoStore) (notes : List (Address × Hash)) (reasonHash : Hash) : Prop :=
  reasonHash ≠ emptyHash ∧
    veto.threshold.getD 0 ≤ ((veto.signers.getD []).dedup.filter
      fun signer => (signer, reasonHash) ∈ notes).length

instance (veto : VetoStore) (notes : List (Address × Hash)) (reasonHash : Hash) :
    Decidable (Consented veto notes reasonHash) := inferInstanceAs (Decidable (_ ∧ _))

/-- Every receipt comes from a noted approval, and no signer is configured twice. -/
structure Receipted (id : Nat) (reasonHash : Hash) (notes : List (Address × Hash))
    (veto : VetoStore) : Prop where
  noted : ∀ signer, veto.approvalReceipt id signer = true → (signer, reasonHash) ∈ notes
  distinct : (veto.signers.getD []).Nodup

variable {env : Env contract} {world next : World} {id : Nat} {call : Call} {reasonHash : Hash}
  {notes : List (Address × Hash)}

theorem recordApproval_receipt {veto : VetoStore} {signer other : Address} {target : Nat}
    (receipted : (recordApproval veto target signer).approvalReceipt id other = true) :
    veto.approvalReceipt id other = true ∨ target = id ∧ other = signer := by
  by_cases here : id = target
  · subst here
    by_cases caller : other = signer
    · exact .inr ⟨rfl, caller⟩
    · simp only [recordApproval, update_self, update_of_ne caller] at receipted
      exact .inl receipted
  · simp only [recordApproval, update_of_ne here] at receipted
    exact .inl receipted

theorem clearApprovals_receipt {veto : VetoStore} {other : Address} {target : Nat}
    {approvals : List Address}
    (receipted : (clearApprovals veto target approvals).approvalReceipt id other = true) :
    veto.approvalReceipt id other = true := by
  by_cases here : id = target
  · subst here
    simp only [clearApprovals, update_self] at receipted
    split at receipted
    · cases receipted
    · exact receipted
  · simp only [clearApprovals, update_of_ne here] at receipted
    exact receipted

theorem approval_of_returned {signer : Address}
    (ran : invoke env world (.vetoProposal signer id reasonHash) = .ok next) :
    approval id world (.invoke env (.vetoProposal signer id reasonHash)) =
      some (signer, reasonHash) := by
  simp only [approval, ran]
  rfl

/-- As long as all approvals are for one reason, so are the receipts. -/
theorem step_receipted (action : Action contract) (sound : Receipted id reasonHash notes world.veto)
    (agreed : ∀ given ∈ approval id world action, given.2 = reasonHash) :
    Receipted id reasonHash (noteApproval id world action notes) (step world action).veto := by
  have older : Receipted id reasonHash (noteApproval id world action notes) world.veto :=
    ⟨fun signer receipted => List.mem_append_right _ (sound.noted signer receipted), sound.distinct⟩
  cases finished : succeeds world action with
  | false =>
    rw [step_of_failed finished]
    exact older
  | true =>
    cases action with
    | invoke env call =>
      have ran := invoke_of_succeeds finished
      have write := invoke_vetoWrite ran
      generalize (step world (.invoke env call)).veto = veto at write
      -- the caller of an approval is noted under the agreed reason
      have caller : ∀ signer target given, call = .vetoProposal signer target given → target = id →
          (signer, reasonHash) ∈ noteApproval id world (.invoke env call) notes := by
        rintro signer target given rfl rfl
        have approved := approval_of_returned ran
        obtain rfl := agreed (signer, given) approved
        simp [noteApproval, approved]
      cases write with
      | kept | opened | retired => exact ⟨older.noted, older.distinct⟩
      | configured distinct => exact ⟨older.noted, distinct⟩
      | pending =>
        refine ⟨fun other receipted => ?_, older.distinct⟩
        rcases recordApproval_receipt receipted with old | ⟨here, rfl⟩
        · exact older.noted other old
        · exact caller _ _ _ rfl here
      | executed =>
        refine ⟨fun other receipted => ?_, older.distinct⟩
        rcases recordApproval_receipt (clearApprovals_receipt receipted) with old | ⟨here, rfl⟩
        · exact older.noted other old
        · exact caller _ _ _ rfl here
    | transfer | advance | archiveVote | archiveApprovals => exact ⟨older.noted, older.distinct⟩

theorem approvals_consented {signer : Address} (sound : Receipted id reasonHash notes world.veto)
    (caller : (signer, reasonHash) ∈ notes) (reasoned : reasonHash ≠ emptyHash)
    (reached : world.veto.threshold.getD 0 ≤ (world.approvals id signer).length) :
    Consented (world.executedVeto id signer reasonHash) notes reasonHash := by
  refine ⟨reasoned, reached.trans ?_⟩
  have signers : (world.executedVeto id signer reasonHash).signers = world.veto.signers := rfl
  rw [signers, List.dedup_eq_self.mpr sound.distinct, World.approvals, vetoApprovalsFromPersistent,
    ← List.countP_eq_length_filter, ← List.countP_eq_length_filter]
  apply List.countP_mono_left
  intro other _ receipted
  apply decide_eq_true
  rcases recordApproval_receipt receipted with old | ⟨_, rfl⟩
  · exact sound.noted other old
  · exact caller

end Approvals

section Runs

variable {world : World} {id : Nat}

theorem step_vetoes (action : Action contract) (numbered : Numbered world)
    (before : world.statusOf id ≠ some .vetoed)
    (after : (step world action).statusOf id = some .vetoed) :
    ∃ env signer reasonHash proposal, action = .invoke env (.vetoProposal signer id reasonHash) ∧
      succeeds world action = true ∧ Approving env world signer id reasonHash proposal ∧
      world.veto.threshold.getD 0 ≤ (world.approvals id signer).length ∧
      (step world action).veto = world.executedVeto id signer reasonHash := by
  rcases step_docket action numbered id with same | ⟨env, call, rfl, finished, motion⟩
  · have kept : (step world action).statusOf id = world.statusOf id :=
      congrArg (fun docket => docket.proposal.map (·.status)) same
    exact absurd (kept.symm.trans after) before
  · have ran := invoke_of_succeeds finished
    have vetoed : ((step world (.invoke env call)).docket id).proposal.map (·.status) =
      some .vetoed := after
    generalize (step world (.invoke env call)).docket id = docket at motion vetoed
    cases motion with
    | opened | closed | executed => cases vetoed
    | voted _ _ active =>
      simp only [addVote, Option.map_some] at vetoed
      split at vetoed <;> simp [active] at vetoed
    | @vetoed signer reasonHash =>
      have called : vetoProposal env world signer id reasonHash = _ := invokeWorld_of_invoke ran rfl
      obtain ⟨proposal, _, approving, pending | ⟨reached, settled⟩⟩ := vetoProposal_cases called
      · have kept : (step world (.invoke env (.vetoProposal signer id reasonHash))).statusOf id =
            world.statusOf id := by
          rw [pending]
          rfl
        exact absurd (kept.symm.trans after) before
      · exact ⟨env, signer, reasonHash, proposal, rfl, finished, approving, reached,
          settled.controls.1⟩

/-- Whenever a proposal becomes vetoed, the veto power is enabled and, provided that all successful
calls for this proposal gave one reason, at least the threshold of distinct signers have approved
for the reason recorded. -/
theorem veto_consented (clock : Clock) (balance : Balances) (actions : List (Action contract))
    (action : Action contract) (id : Nat) (reasonHash : Hash)
    (agreed : Along step (fun world action => ∀ given ∈ approval id world action,
      given.2 = reasonHash)
      (genesis clock balance) (actions ++ [action]))
    (before : (reach clock balance actions).statusOf id ≠ some .vetoed)
    (after : (step (reach clock balance actions) action).statusOf id = some .vetoed) :
    isVetoPowerEnabled (step (reach clock balance actions) action).veto = true ∧
      ∃ state, (step (reach clock balance actions) action).veto.state id =
        some state ∧ Consented (step (reach clock balance actions) action).veto
          (noted step (noteApproval id) [] (genesis clock balance) (actions ++ [action]))
            state.reasonHash := by
  obtain ⟨along, ⟨last, _⟩⟩ := along_append.mp agreed
  have sound : Receipted id reasonHash (noted step (noteApproval id) []
    (genesis clock balance) actions)
      (reach clock balance actions).veto :=
    noted_induct (fun notes world => Receipted id reasonHash notes world.veto)
      (fun _ _ action held met => step_receipted action held met)
      ⟨(by rintro _ ⟨⟩), (by exact List.nodup_nil)⟩ along
  obtain ⟨_, signer, given, _, rfl, finished, approving, reached, veto⟩ :=
    step_vetoes action (exec_numbered clock balance actions) before after
  have approved := approval_of_returned (invoke_of_succeeds finished)
  obtain rfl := last (signer, given) approved
  rw [veto, noted_snoc]
  refine ⟨approving.enabled, _, update_self _ _ _, ?_⟩
  apply approvals_consented _ _ approving.reasoned reached
  · exact ⟨fun other receipted => List.mem_append_right _ (sound.noted other receipted),
      sound.distinct⟩
  · simp [noteApproval, approved]

def guardedProposal : List (Action ⟨0⟩) :=
  [opening,
    signedBy [1] (.createProposal ⟨1⟩ (.updateFeeRate 100) 1 100),
    signedBy [8] (.configureVetoMultisig [⟨3⟩, ⟨4⟩] 2), signedBy [3] (.vetoProposal ⟨3⟩ 1 7)]

theorem veto_consented_of_guardedProposal :
    let vetoed := step (exec step (genesis ⟨1000, 10⟩ fun _ _ => 2000) guardedProposal)
      (signedBy [4] (.vetoProposal ⟨4⟩ 1 7))
    vetoed.statusOf 1 = some .vetoed ∧ isVetoPowerEnabled vetoed.veto = true ∧
      ∃ state, vetoed.veto.state 1 = some state ∧
        Consented vetoed.veto (noted step (noteApproval 1) [] (genesis ⟨1000, 10⟩ fun _ _ => 2000)
          (guardedProposal ++ [signedBy [4] (.vetoProposal ⟨4⟩ 1 7)])) state.reasonHash := by
  refine ⟨by decide +kernel, ?_⟩
  exact veto_consented ⟨1000, 10⟩ (fun _ _ => 2000) guardedProposal
    (signedBy [4] (.vetoProposal ⟨4⟩ 1 7)) 1 7
    (by decide +kernel) (by decide +kernel) (by decide +kernel)

/-- The second signer gives another reason, and this one is recorded for both. -/
theorem veto_for_two_reasons :
    let actions := guardedProposal ++ [signedBy [4] (.vetoProposal ⟨4⟩ 1 9)]
    let before := exec step (genesis ⟨1000, 10⟩ fun _ _ => 2000) guardedProposal
    let after := exec step (genesis ⟨1000, 10⟩ fun _ _ => 2000) actions
    before.statusOf 1 = some .active ∧ after.statusOf 1 = some .vetoed ∧
      (after.veto.state 1).map (·.reasonHash) = some 9 ∧ after.veto.threshold = some 2 ∧
      ¬ Consented after.veto
        (noted step (noteApproval 1) [] (genesis ⟨1000, 10⟩ fun _ _ => 2000) actions) 9 := by
  decide +kernel

end Runs

end IlnGovernance
