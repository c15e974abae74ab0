import Mathlib.Data.Finset.Card
import Iln.Invoice.MultisigProposals

/-! The signer set of the multisig, and who has approved what is executed. A rotation is checked
when it is scheduled and applied two days later to whatever set there is then; an approval counts
for the life of a proposal, also after its signer has left the set. -/
namespace InvoiceLiquidity

open Outcome Transition

variable {contract : Address}

section Configuration

def installedSigners (world : World) (action : Action contract) : Option (List Address) :=
  (executedProposal world action).bind fun proposal =>
    match proposal.action with
    | .updateMultisig signers _ => some signers
    | _ => none

/-- A new signer list agrees with the rotation that is pending. -/
def SparesRotation (world : World) (action : Action contract) : Prop :=
  ∀ signers ∈ installedSigners world action, ∀ rotation ∈ world.control.multisig.pendingRotation,
    rotation.oldSigner ∈ signers ∧ rotation.newSigner ∉ signers

instance (world : World) (action : Action contract) : Decidable (SparesRotation world action) :=
  inferInstanceAs (Decidable (∀ signers ∈ installedSigners world action,
    ∀ rotation ∈ world.control.multisig.pendingRotation, rotation.oldSigner ∈ signers ∧
      rotation.newSigner ∉ signers))

structure MultisigAdmin.Valid (config : MultisigAdmin) : Prop where
  inhabited : config.signers ≠ []
  distinct : config.signers.Nodup
  least : 1 ≤ config.threshold
  most : config.threshold ≤ config.signers.length

theorem valid_of_isValidConfig {signers : List Address} {threshold : Nat}
    (valid : isValidConfig signers threshold = true) :
    MultisigAdmin.Valid ⟨signers, threshold⟩ := by
  simp only [isValidConfig, decide_eq_true_eq] at valid
  obtain ⟨inhabited, positive, most, distinct⟩ := valid
  exact ⟨inhabited, distinct, Nat.one_le_iff_ne_zero.mpr positive, most⟩

structure SignersSound (store : MultisigStore) : Prop where
  idle : store.admin = none → store.pendingRotation = none
  valid : ∀ config ∈ store.admin, config.Valid
  pending : ∀ config ∈ store.admin, ∀ rotation ∈ store.pendingRotation,
    rotation.oldSigner ∈ config.signers ∧ rotation.newSigner ∉ config.signers

structure Rotated (config : MultisigAdmin) (rotation : PendingRotation) (signers : List Address) :
    Prop where
  leaving : rotation.oldSigner ∈ config.signers
  joining : rotation.newSigner ∉ config.signers
  list : signers = config.signers.filter (· ≠ rotation.oldSigner) ++ [rotation.newSigner]
  size : signers.length = config.signers.length

variable {store next : MultisigStore} {config : MultisigAdmin} {rotation : PendingRotation}

theorem rotated_of_pending (valid : config.Valid) (leaving : rotation.oldSigner ∈ config.signers)
    (joining : rotation.newSigner ∉ config.signers) :
    Rotated config rotation (config.signers.filter (· ≠ rotation.oldSigner) ++
      [rotation.newSigner]) := by
  refine ⟨leaving, joining, rfl, ?_⟩
  have removed : config.signers.filter (· ≠ rotation.oldSigner) =
      config.signers.erase rotation.oldSigner := by
    rw [valid.distinct.erase_eq_filter]
    exact List.filter_congr fun signer _ => by simp only [ne_eq, decide_not, bne, beq_eq_decide]
  have positive := List.length_pos_of_mem leaving
  rw [removed, List.length_append, List.length_erase_of_mem leaving, List.length_singleton]
  omega

theorem Rotated.valid {signers : List Address} (rotated : Rotated config rotation signers)
    (valid : config.Valid) : MultisigAdmin.Valid { config with signers } := by
  refine ⟨?_, ?_, valid.least, rotated.size ▸ valid.most⟩
  · rw [rotated.list]
    exact List.append_ne_nil_of_right_ne_nil _ (List.cons_ne_nil _ _)
  · rw [rotated.list]
    refine List.nodup_append.mpr ⟨valid.distinct.filter _, List.nodup_singleton _, ?_⟩
    rintro signer kept _ last rfl
    rw [List.mem_singleton.mp last] at kept
    exact rotated.joining (List.mem_of_mem_filter kept)

theorem SignersSound.rotated (sound : SignersSound store) (stored : store.admin = some config)
    (pending : store.pendingRotation = some rotation) :
    Rotated config rotation (config.signers.filter (· ≠ rotation.oldSigner) ++
      [rotation.newSigner]) := by
  obtain ⟨leaving, joining⟩ := sound.pending config stored rotation pending
  exact rotated_of_pending (sound.valid config stored) leaving joining

inductive SignersFollow (world : World) (action : Action contract) (config : MultisigAdmin) :
    List Address → Prop
  | kept : SignersFollow world action config config.signers
  | installed {signers : List Address} (executes : installedSigners world action = some signers) :
      SignersFollow world action config signers
  | rotated {env : Env contract} {caller : Address} {rotation : PendingRotation}
      {signers : List Address} (finalises : action = .invoke env (.finalizeSignerRotation caller))
      (pending : world.control.multisig.pendingRotation = some rotation)
      (rotated : Rotated config rotation signers) :
      SignersFollow world action config signers

theorem SignersSound.admin_congr (sound : SignersSound store) (admin : next.admin = store.admin)
    (pending : next.pendingRotation = store.pendingRotation) : SignersSound next where
  idle := fun absent => pending.trans (sound.idle (admin.symm.trans absent))
  valid := fun config stored => sound.valid config (admin ▸ stored)
  pending := fun config stored rotation waits => sound.pending config (admin ▸ stored) rotation
    (pending ▸ waits)

theorem ActionApplied.signers {world : World} {env : Env contract} {caller : Address} {id : Nat}
    {proposal : MultisigProposal} (sound : SignersSound world.control.multisig)
    (stored : world.control.multisig.admin = some config)
    (executes : executedProposal world (.invoke env (.executeProposal caller id)) = some proposal)
    (spares : SparesRotation world (.invoke env (.executeProposal caller id)))
    (applied : ActionApplied world.clock (world.control.multisig.close proposal)
      proposal.action next) :
    SignersSound next ∧ ∃ after, next.admin = some after ∧
      SignersFollow world (.invoke env (.executeProposal caller id)) config after.signers := by
  have closed : SignersSound (world.control.multisig.close proposal) := sound.admin_congr rfl rfl
  generalize named : proposal.action = action at applied
  cases applied with
  | elsewhere => exact ⟨closed, config, stored, .kept⟩
  | @updated signers threshold valid =>
    have installs : installedSigners world (.invoke env (.executeProposal caller id)) =
        some signers := by
      simp only [installedSigners, executes, Option.bind_some, named]
    refine ⟨⟨(by rintro ⟨⟩), ?_, ?_⟩, ⟨signers, threshold⟩, rfl,
      .installed installs⟩
    · rintro _ ⟨⟩
      exact valid_of_isValidConfig valid
    · rintro _ ⟨⟩ rotation waits
      exact spares signers installs rotation waits
  | @scheduled oldSigner newSigner current held leaving joining =>
    refine ⟨⟨fun absent => ?_, closed.valid, ?_⟩, config, stored, .kept⟩
    · rw [held] at absent
      cases absent
    · rintro other kept _ ⟨⟩
      rw [held] at kept
      cases kept
      exact ⟨leaving, joining⟩

/-- Every action keeps the signer set sound, and changes it in one of the listed ways only. -/
theorem step_signers {world : World} (action : Action contract)
    (sound : SignersSound world.control.multisig) (spares : SparesRotation world action) :
    SignersSound (step world action).control.multisig ∧
      ∀ config, world.control.multisig.admin = some config →
        ∃ after, (step world action).control.multisig.admin = some after ∧
        SignersFollow world action config after.signers := by
  have change := step_multisig world action
  generalize (step world action).control.multisig = next at change ⊢
  cases change with
  | idle => exact ⟨sound, fun config stored => ⟨config, stored, .kept⟩⟩
  | called finished change =>
    cases change with
    | kept => exact ⟨sound, fun config stored => ⟨config, stored, .kept⟩⟩
    | initialised unset valid =>
      refine ⟨⟨(by rintro ⟨⟩), ?_, ?_⟩, fun config stored => ?_⟩
      · rintro _ ⟨⟩
        exact valid_of_isValidConfig valid
      · intro _ _ rotation waits
        rw [sound.idle unset] at waits
        cases waits
      · rw [unset] at stored
        cases stored
    | proposed | approved =>
      exact ⟨sound.admin_congr rfl rfl, fun config stored => ⟨config, stored, .kept⟩⟩
    | executed signer live _ applied =>
      obtain ⟨held, after, installed, follows⟩ :=
        applied.signers sound signer.stored ((if_pos finished).trans live.found) spares
      refine ⟨held, fun config stored => ⟨after, installed, ?_⟩⟩
      rw [signer.stored] at stored
      cases stored
      exact follows
    | @rotated caller current rotation signer pending =>
      have rotated := sound.rotated signer.stored pending
      refine ⟨⟨(by rintro ⟨⟩), ?_, (by rintro _ _ _ ⟨⟩)⟩,
        fun config stored => ?_⟩
      · rintro _ ⟨⟩
        exact rotated.valid (sound.valid _ signer.stored)
      · rw [signer.stored] at stored
        cases stored
        exact ⟨_, rfl, .rotated rfl pending rotated⟩
    | cancelled =>
      exact ⟨⟨fun _ => rfl, sound.valid, (by rintro _ _ _ ⟨⟩)⟩,
        fun config stored => ⟨config, stored, .kept⟩⟩

def configuresMultisig (world : World) : Action contract → Bool
  | .invoke env (.initializeMultisigAdmin signers threshold) =>
    succeeds world (.invoke env (.initializeMultisigAdmin signers threshold))
  | _ => false

theorem step_configured {world : World} (action : Action contract)
    (configured : world.control.multisig.admin ≠ none ∨ configuresMultisig world action = true) :
    (step world action).control.multisig.admin ≠ none := by
  have change := step_multisig world action
  generalize (step world action).control.multisig = next at change ⊢
  cases change with
  | @idle action quiet =>
    refine configured.elim id fun configures => ?_
    unfold configuresMultisig at configures
    split at configures
    · rw [quiet _ _ rfl] at configures
      cases configures
    · cases configures
  | called finished change =>
    cases change with
    | kept other =>
      refine configured.elim id fun configures => ?_
      unfold configuresMultisig at configures
      split at configures
      · rename_i same
        cases same
        cases other
      · cases configures
    | initialised | rotated => exact Option.some_ne_none _
    | proposed signer | approved signer | cancelled signer =>
      intro absent
      cases signer.stored.symm.trans absent
    | @executed _ _ _ proposal _ signer _ _ applied =>
      generalize proposal.action = executed at applied
      cases applied with
      | updated => exact Option.some_ne_none _
      | elsewhere | scheduled =>
        intro absent
        cases signer.stored.symm.trans absent

theorem exec_configured (clock : Clock) (balance : Balances) (actions : List (Action contract))
    (happened : Happened step (fun world action => configuresMultisig world action = true)
      (genesis clock balance) actions) :
        (reach clock balance actions).control.multisig.admin ≠ none := by
  refine history_induct (fun past (world : World) => Happened step
    (fun world action => configuresMultisig world action = true) (genesis clock balance) past →
    world.control.multisig.admin ≠ none) ?_ (fun never => never.elim) actions happened
  intro past action earlier happened
  exact step_configured action ((happened_snoc.mp happened).imp_left earlier)

/-- In a run where no new signer list contradicts a pending rotation, the stored configuration is
valid from the initialisation on, and its signers change by an executed proposal or by a rotation of
one signer only. -/
theorem signers_valid (clock : Clock) (balance : Balances) (actions : List (Action contract))
    (spares : Along step SparesRotation (genesis clock balance) actions) :
    (Happened step (fun world action => configuresMultisig world action = true)
      (genesis clock balance) actions → ∃ config,
        (reach clock balance actions).control.multisig.admin = some config ∧
        config.Valid) ∧
    Along step (fun world action => ∀ config, world.control.multisig.admin = some config →
      ∃ after, (step world action).control.multisig.admin = some after ∧
        SignersFollow world action config after.signers) (genesis clock balance) actions := by
  have throughout : Throughout step (fun world : World => SignersSound world.control.multisig)
      (genesis clock balance) actions :=
    throughout_along _ (fun _ action held allowed => (step_signers action held allowed).1)
      ⟨fun _ => rfl, (by rintro _ ⟨⟩), (by rintro _ ⟨⟩)⟩ spares
  refine ⟨fun happened => ?_, ?_⟩
  · obtain ⟨config, stored⟩ := Option.ne_none_iff_exists'.mp
      (exec_configured clock balance actions happened)
    exact ⟨config, stored, throughout.last.valid config stored⟩
  · exact (throughout.along.and spares).mono fun world action held =>
      (step_signers action held.1 held.2).2

def councilCalls : List (Action ⟨0⟩) :=
  [opening,
    signedBy [1] (.initializeMultisigAdmin [⟨1⟩, ⟨2⟩, ⟨3⟩] 2)]

def carried (id : Nat) (action : AdminAction) : List (Action ⟨0⟩) :=
  [signedBy [1] (.propose ⟨1⟩ action), signedBy [2] (.signProposal ⟨2⟩ id),
    signedBy [2] (.executeProposal ⟨2⟩ id)]

def scheduledRotation : List (Action ⟨0⟩) := councilCalls ++ carried 1 (.rotateSigner ⟨1⟩ ⟨4⟩)

def finalisedRotation : List (Action ⟨0⟩) :=
  [.advance 172800 34560, signedBy [2] (.finalizeSignerRotation ⟨2⟩)]

theorem signers_valid_of_finalisedRotation :
    ∃ config, (traded (scheduledRotation ++ finalisedRotation)).control.multisig.admin =
      some config ∧ config.Valid :=
  (signers_valid _ _ (scheduledRotation ++ finalisedRotation) (by decide +kernel)).1
    (.inr (.inl (by decide +kernel)))

/-- The signer set is replaced while a rotation waits. A set with the new signer in it ends up with
that signer twice, and one without the old signer grows. -/
theorem rotation_after_update : ([[1, 2, 4], [2, 3, 5]].map fun keys =>
      let updated :=
        traded (scheduledRotation ++ carried 2 (.updateMultisig (keys.map Address.mk) 2))
      let rotated := exec step updated finalisedRotation
      (updated.control.multisig.admin.map MultisigAdmin.signers,
        rotated.control.multisig.admin.map MultisigAdmin.signers)) =
    [(some [⟨1⟩, ⟨2⟩, ⟨4⟩], some [⟨2⟩, ⟨4⟩, ⟨4⟩]),
      (some [⟨2⟩, ⟨3⟩, ⟨5⟩], some [⟨2⟩, ⟨3⟩, ⟨5⟩, ⟨4⟩])] := by
  decide +kernel

end Configuration

section Approvals

def approvalOf (id : Nat) (world : World) : Action contract → Option Address
  | .invoke env (.propose proposer action) =>
    if createdId world (.invoke env (.propose proposer action)) = some id then
      some proposer else none
  | .invoke env (.signProposal signer signed) =>
    if succeeds world (.invoke env (.signProposal signer signed)) = true ∧ signed = id then
      some signer else none
  | _ => none

def noteApproval (id : Nat) (world : World) (action : Action contract) (approvals : List Address) :
    List Address :=
  approvals ++ (approvalOf id world action).toList

def MultisigStore.approvals (store : MultisigStore) (id : Nat) : List Address :=
  ((store.proposal id).map MultisigProposal.signersApproved).getD []

variable {world : World} {id : Nat}

theorem approvalOf_of_quiet {action : Action contract}
    (quiet : ∀ env call, action = .invoke env call → succeeds world action = false) :
    approvalOf id world action = none := by
  unfold approvalOf
  split
  · simp only [createdId, quiet _ _ rfl, Bool.false_eq_true, if_false, reduceCtorEq]
  · simp only [quiet _ _ rfl, Bool.false_eq_true, false_and, if_false]
  · rfl

theorem approvalOf_of_unrouted {env : Env contract} {call : Call}
    (other : call.onMultisig = false) : approvalOf id world (.invoke env call) = none := by
  cases call with
  | propose | signProposal => cases other
  | _ => rfl

theorem step_approvals (action : Action contract)
    (sound : ProposalsSound world.clock world.control.multisig) :
    (step world action).control.multisig.approvals id =
      noteApproval id world action (world.control.multisig.approvals id) := by
  have change := step_multisig world action
  generalize (step world action).control.multisig = next at change ⊢
  cases change with
  | idle quiet => rw [noteApproval, approvalOf_of_quiet quiet, Option.toList_none, List.append_nil]
  | @called env call _ finished change =>
    cases change with
    | kept other => rw [noteApproval, approvalOf_of_unrouted other, Option.toList_none,
        List.append_nil]
    | initialised | rotated | cancelled => exact (List.append_nil _).symm
    | @proposed proposer proposed config signer free =>
      simp only [noteApproval, approvalOf, createdId, finished, if_true, Option.some.injEq,
        MultisigStore.approvals, openProposal_proposal]
      by_cases same : id = world.control.multisig.nextProposalId
      · rw [if_pos same, if_pos same.symm, same, sound.fresh _ le_rfl]
        rfl
      · rw [if_neg same, if_neg (Ne.symm same)]
        exact (List.append_nil _).symm
    | @approved approver signed config proposal signer live first =>
      have named := (sound.sound _ _ live.found).named
      simp only [noteApproval, approvalOf, finished, true_and, MultisigStore.approvals,
        approve_proposal, named]
      by_cases same : id = signed
      · rw [if_pos same, if_pos same.symm, same, live.found]
        rfl
      · rw [if_neg same, if_neg (Ne.symm same)]
        exact (List.append_nil _).symm
    | @executed _ executed _ proposal _ _ live _ applied =>
      have named := (sound.sound _ _ live.found).named
      rw [noteApproval, MultisigStore.approvals, applied.table, close_proposal, named]
      split
      · rename_i same
        rw [same, MultisigStore.approvals, live.found]
        exact (List.append_nil _).symm
      · exact (List.append_nil _).symm

theorem exec_approvals (clock : Clock) (balance : Balances) (actions : List (Action contract))
    (id : Nat) :
    let world := reach clock balance actions
    ProposalsSound world.clock world.control.multisig ∧
      world.control.multisig.approvals id = noted step (noteApproval id) []
      (genesis clock balance) actions := by
  refine noted_induct (fun approvals (world : World) =>
    ProposalsSound world.clock world.control.multisig ∧ world.control.multisig.approvals id =
      approvals) ?_
    ⟨genesis_proposals clock balance, rfl⟩ Along.always
  rintro _ world action ⟨sound, rfl⟩ _
  exact ⟨step_proposals action sound, step_approvals action sound⟩

/-- When a proposal is executed, as many distinct addresses have approved it as the threshold stored
at that moment asks for. They are signers at that moment unless one of them has been removed in
between. -/
theorem executed_approved (clock : Clock) (balance : Balances) (actions : List (Action contract))
    (action : Action contract) (proposal : MultisigProposal)
    (executes : executedProposal (reach clock balance actions) action = some proposal) :
    let world := reach clock balance actions
    let approvals := noted step (noteApproval proposal.id) [] (genesis clock balance) actions
    ∃ config, world.control.multisig.admin = some config ∧
      config.threshold ≤ approvals.toFinset.card ∧
      ((∀ approver ∈ approvals, approver ∈ config.signers) →
        config.threshold ≤ (config.signers.toFinset ∩ approvals.toFinset).card) := by
  intro world approvals
  obtain ⟨sound, recorded⟩ := exec_approvals clock balance actions proposal.id
  obtain ⟨live, ⟨config, stored, reached⟩, _⟩ := executedProposal_spec executes sound
  have listed : proposal.signersApproved = approvals := by
    rw [MultisigStore.approvals, live.found] at recorded
    exact recorded
  have enough : config.threshold ≤ approvals.toFinset.card := by
    have distinct := (sound.sound _ _ live.found).distinct
    rw [listed] at distinct reached
    rwa [List.toFinset_card_of_nodup distinct]
  refine ⟨config, stored, enough, fun current => ?_⟩
  have within : approvals.toFinset ⊆ config.signers.toFinset := by
    intro approver approved
    exact List.mem_toFinset.mpr (current approver (List.mem_toFinset.mp approved))
  rwa [Finset.inter_eq_right.mpr within]

def departedApprover : List (Action ⟨0⟩) :=
  councilCalls ++ [signedBy [1] (.propose ⟨1⟩ (.setFeeRate 50)),
    signedBy [2] (.propose ⟨2⟩ (.updateMultisig [⟨2⟩, ⟨3⟩] 2)), signedBy [3] (.signProposal ⟨3⟩ 2),
    signedBy [3] (.executeProposal ⟨3⟩ 2), signedBy [2] (.signProposal ⟨2⟩ 1)]

/-- The fee rate is set with the approval of one current signer where two are asked for. -/
theorem executed_by_departed :
    let world := traded departedApprover
    let last := signedBy [2] (.executeProposal ⟨2⟩ 1)
    (executedProposal world last).map MultisigProposal.id = some 1 ∧
      (step world last).control.feeRate = some 50 ∧
      world.control.multisig.admin = some ⟨[⟨2⟩, ⟨3⟩], 2⟩ ∧
      noted step (noteApproval 1) [] market departedApprover = [⟨1⟩, ⟨2⟩] := by
  decide +kernel

def pendingFeeRate : List (Action ⟨0⟩) :=
  councilCalls ++ [signedBy [1] (.propose ⟨1⟩ (.setFeeRate 50)), signedBy [2] (.signProposal ⟨2⟩ 1)]

theorem executed_approved_of_pendingFeeRate :
    ∃ config, (traded pendingFeeRate).control.multisig.admin = some config ∧
      config.threshold ≤
        (config.signers.toFinset ∩ (noted step (noteApproval 1)
          [] market pendingFeeRate).toFinset).card := by
  obtain ⟨config, stored, _, counted⟩ := executed_approved ⟨1000, 10⟩ marketBalances pendingFeeRate
    (signedBy [3] (.executeProposal ⟨3⟩ 1)) ⟨1, .setFeeRate 50, [⟨1⟩, ⟨2⟩], .pending, 17290⟩
    (by decide +kernel)
  refine ⟨config, stored, counted ?_⟩
  have council : (traded pendingFeeRate).control.multisig.admin = some ⟨[⟨1⟩, ⟨2⟩, ⟨3⟩], 2⟩ := by
    decide +kernel
  cases council.symm.trans stored
  decide +kernel

end Approvals

end InvoiceLiquidity
