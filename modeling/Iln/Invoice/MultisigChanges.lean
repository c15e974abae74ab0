import Iln.Invoice.ControlStores

/-! What a call does to the multisig store. `invoke_multisig` is where the calls of the multisig are
unfolded; what follows about signers, approvals and proposals is read off `MultisigChange`. -/
namespace InvoiceLiquidity

open Outcome

variable {contract : Address}

structure BySigner (env : Env contract) (store : MultisigStore) (signer : Address)
    (config : MultisigAdmin) : Prop where
  stored : store.admin = some config
  signed : env.signed signer = true
  member : signer ∈ config.signers

structure LiveProposal (clock : Clock) (store : MultisigStore) (id : Nat)
    (proposal : MultisigProposal) : Prop where
  found : store.proposal id = some proposal
  unexecuted : proposal.state ≠ .executed
  unexpired : clock.sequence < proposal.expiresAt

namespace MultisigStore

def openProposal (store : MultisigStore) (clock : Clock) (proposer : Address)
    (action : AdminAction) : MultisigStore :=
  { saveProposal { store with nextProposalId := store.nextProposalId + 1 }
      ⟨store.nextProposalId, action, [proposer], .pending,
        clock.sequence + multisigWindowLedgers⟩ with
    pendingAction := Function.update store.pendingAction action (some store.nextProposalId) }

def approve (store : MultisigStore) (proposal : MultisigProposal) (signer : Address) :
    MultisigStore :=
  saveProposal store { proposal with signersApproved := proposal.signersApproved ++ [signer] }

def close (store : MultisigStore) (proposal : MultisigProposal) : MultisigStore :=
  { saveProposal store { proposal with state := .executed } with
    pendingAction := Function.update store.pendingAction proposal.action none }

def rotate (store : MultisigStore) (config : MultisigAdmin) (rotation : PendingRotation) :
    MultisigStore :=
  { store with
    admin := some { config with
      signers := config.signers.filter (· ≠ rotation.oldSigner) ++ [rotation.newSigner] }
    pendingRotation := none }

end MultisigStore

inductive ActionApplied (clock : Clock) (store : MultisigStore) : AdminAction → MultisigStore → Prop
  | elsewhere {action : AdminAction} : ActionApplied clock store action store
  | updated {signers : List Address} {threshold : Nat}
      (valid : isValidConfig signers threshold = true) :
      ActionApplied clock store (.updateMultisig signers threshold)
        { store with admin := some ⟨signers, threshold⟩ }
  | scheduled {oldSigner newSigner : Address} {config : MultisigAdmin}
      (stored : store.admin = some config)
      (leaving : oldSigner ∈ config.signers) (joining : newSigner ∉ config.signers) :
      ActionApplied clock store (.rotateSigner oldSigner newSigner) { store with
        pendingRotation := some ⟨oldSigner, newSigner, clock.sequence + rotationTimelockLedgers⟩ }

inductive MultisigChange (env : Env contract) (clock : Clock) (store : MultisigStore) :
    Call → MultisigStore → Prop
  | kept {call : Call} (other : call.onMultisig = false) : MultisigChange env clock store call store
  | initialised {signers : List Address} {threshold : Nat} (unset : store.admin = none)
      (valid : isValidConfig signers threshold = true) :
      MultisigChange env clock store (.initializeMultisigAdmin signers threshold)
        { store with admin := some ⟨signers, threshold⟩, nextProposalId := 1 }
  | proposed {proposer : Address} {action : AdminAction} {config : MultisigAdmin}
      (signer : BySigner env store proposer config)
      (free : hasLiveProposal clock store action = false) :
      MultisigChange env clock store (.propose proposer action)
        (store.openProposal clock proposer action)
  | approved {approver : Address} {id : Nat} {config : MultisigAdmin} {proposal : MultisigProposal}
      (signer : BySigner env store approver config) (live : LiveProposal clock store id proposal)
      (first : approver ∉ proposal.signersApproved) :
      MultisigChange env clock store (.signProposal approver id) (store.approve proposal approver)
  | executed {caller : Address} {id : Nat} {config : MultisigAdmin} {proposal : MultisigProposal}
      {next : MultisigStore} (signer : BySigner env store caller config)
      (live : LiveProposal clock store id proposal)
      (reached : config.threshold ≤ proposal.signersApproved.length)
      (applied : ActionApplied clock (store.close proposal) proposal.action next) :
      MultisigChange env clock store (.executeProposal caller id) next
  | rotated {caller : Address} {config : MultisigAdmin} {rotation : PendingRotation}
      (signer : BySigner env store caller config) (pending : store.pendingRotation = some rotation)
      (due : rotation.effectiveAt ≤ clock.sequence) :
      MultisigChange env clock store (.finalizeSignerRotation caller) (store.rotate config rotation)
  | cancelled {caller : Address} {config : MultisigAdmin}
      (signer : BySigner env store caller config) :
      MultisigChange env clock store (.cancelSignerRotation caller)
        { store with pendingRotation := none }

section Calls

variable {env : Env contract} {clock : Clock} {control after : Control} {store : MultisigStore}

theorem requireSigner_spec {signer : Address} {config : MultisigAdmin}
    (passed : requireSigner env store signer = .ok config) : BySigner env store signer config := by
  simp only [requireSigner, ok_iff, requireAuth_ok] at passed
  obtain ⟨_, stored, _, signed, _, member, rfl⟩ := passed
  exact ⟨stored, signed, member⟩

theorem loadLiveProposal_spec {id : Nat} {proposal : MultisigProposal}
    (passed : loadLiveProposal clock store id = .ok proposal) :
    LiveProposal clock store id proposal := by
  simp only [loadLiveProposal, ok_iff] at passed
  obtain ⟨_, found, _, unexecuted, _, unexpired, rfl⟩ := passed
  exact ⟨found, unexecuted, by simpa [isExpired] using unexpired⟩

theorem applyAdminAction_multisig {action : AdminAction}
    (ran : applyAdminAction clock control action = .ok after) :
    ActionApplied clock control.multisig action after.multisig := by
  cases action with
  | updateMultisig =>
    simp only [applyAdminAction, ok_iff] at ran
    obtain ⟨_, valid, rfl⟩ := ran
    exact .updated valid
  | rotateSigner =>
    simp only [applyAdminAction, scheduleRotation, ok_iff] at ran
    obtain ⟨_, _, _, stored, _, leaving, _, ⟨_, joining⟩, rfl⟩ := ran
    exact .scheduled stored leaving joining
  | _ =>
    cases ran
    exact .elsewhere

variable {world next : World} {call : Call}

theorem invokeControl_multisig (ran : invokeControl env world call = some (.ok after))
    (on : call.onMultisig = true) :
    MultisigChange env world.clock world.control.multisig call after.multisig := by
  cases call with
  | initializeMultisigAdmin =>
    simp only [invokeControl, Option.some.injEq, initializeMultisigAdmin, ok_iff,
      Option.isNone_iff_eq_none] at ran
    obtain ⟨_, unset, _, valid, _, _, rfl⟩ := ran
    exact .initialised unset valid
  | propose =>
    simp only [invokeControl, Option.some.injEq, propose, ok_iff] at ran
    obtain ⟨_, ⟨_, passed, _, free, rfl⟩, rfl⟩ := ran
    exact .proposed (requireSigner_spec passed) free
  | signProposal =>
    simp only [invokeControl, Option.some.injEq, signProposal, ok_iff] at ran
    obtain ⟨_, passed, _, loaded, _, first, rfl⟩ := ran
    exact .approved (requireSigner_spec passed) (loadLiveProposal_spec loaded) first
  | executeProposal =>
    simp only [invokeControl, Option.some.injEq, executeProposal, ok_iff] at ran
    obtain ⟨_, passed, _, loaded, _, reached, applied⟩ := ran
    exact .executed (requireSigner_spec passed) (loadLiveProposal_spec loaded) reached
      (applyAdminAction_multisig applied)
  | finalizeSignerRotation =>
    simp only [invokeControl, Option.some.injEq, finalizeSignerRotation, ok_iff] at ran
    obtain ⟨_, passed, _, pending, _, due, rfl⟩ := ran
    exact .rotated (requireSigner_spec passed) pending due
  | cancelSignerRotation =>
    simp only [invokeControl, Option.some.injEq, cancelSignerRotation, ok_iff] at ran
    obtain ⟨_, passed, _, _, rfl⟩ := ran
    exact .cancelled (requireSigner_spec passed)
  | _ => cases on

theorem routed_of_onMultisig (env : Env contract) (world : World) (on : call.onMultisig = true) :
    ∃ result, invokeControl env world call = some result := by
  cases call with
  | initializeMultisigAdmin | propose | signProposal | executeProposal | finalizeSignerRotation
  | cancelSignerRotation => exact ⟨_, rfl⟩
  | _ => cases on

theorem invoke_multisig (ran : invoke env world call = .ok next) :
    MultisigChange env world.clock world.control.multisig call next.control.multisig := by
  cases on : call.onMultisig with
  | false =>
    rw [(invoke_confined ran).multisig on]
    exact .kept on
  | true =>
    obtain ⟨_, routed⟩ := routed_of_onMultisig env world on
    simp only [invoke, routed, ok_iff] at ran
    obtain ⟨_, _, _, rfl, rfl⟩ := ran
    exact invokeControl_multisig routed on

end Calls

inductive MultisigStep (world : World) : Action contract → MultisigStore → Prop
  | idle {action : Action contract}
      (quiet : ∀ env call, action = .invoke env call → succeeds world action = false) :
      MultisigStep world action world.control.multisig
  | called {env : Env contract} {call : Call} {next : MultisigStore}
      (finished : succeeds world (.invoke env call) = true)
      (change : MultisigChange env world.clock world.control.multisig call next) :
      MultisigStep world (.invoke env call) next

theorem step_multisig (world : World) (action : Action contract) :
    MultisigStep world action (step world action).control.multisig := by
  cases action with
  | credit | advance => exact .idle fun _ _ same => by cases same
  | invoke env call =>
    cases finished : succeeds world (.invoke env call) with
    | true => exact .called finished (invoke_multisig (invoke_of_succeeds finished))
    | false =>
      rw [step_of_failed finished]
      exact .idle fun _ _ _ => finished

def executedProposal (world : World) : Action contract → Option MultisigProposal
  | .invoke env (.executeProposal caller id) =>
    if succeeds world (.invoke env (.executeProposal caller id)) = true then
      world.control.multisig.proposal id
    else none
  | _ => none

end InvoiceLiquidity
