import Iln.Governance.Execution

/-! The veto multisig. Approvals are persistent receipts per signer; the list is rebuilt from them
over the signers configured at the time of the call. -/
namespace IlnGovernance

open Outcome FixedWidth Function
open InvoiceLiquidity (Address Hash)

variable {contract : Address}

def emptyHash : Hash := 0

def configureVetoMultisig (env : Env contract) (world : World) (signers : List Address)
    (threshold : Nat) :
    Result World := do
  require (¬ (signers.isEmpty = true ∨ threshold = 0 ∨ threshold > signers.length))
    GovernanceError.invalidVetoMultisigConfig
  require signers.Nodup GovernanceError.invalidVetoMultisigConfig
  if world.veto.signers.isSome then do
    let ilnContract ← getIlnContract world.parameters
    requireAuth env ilnContract
  else do
    let admin ← orFail world.parameters.admin GovernanceError.notInitialized
    requireAuth env admin
  return { world with veto := { world.veto with
    signers := some signers, threshold := some threshold } }

def vetoApprovalsFromPersistent (veto : VetoStore) (id : Nat) : List Address :=
  (veto.signers.getD []).filter fun signer => veto.approvalReceipt id signer

/-- The approval of `signer`, with the temporary mirror of the list. -/
def recordApproval (veto : VetoStore) (id : Nat) (signer : Address) : VetoStore :=
  let receipted := { veto with
    approvalReceipt := update veto.approvalReceipt id (update (veto.approvalReceipt id) signer true)
      }
  { receipted with
    approvals := update receipted.approvals id (some (vetoApprovalsFromPersistent receipted id)) }

def clearApprovals (veto : VetoStore) (id : Nat) (approvals : List Address) : VetoStore :=
  { veto with
    approvals := update veto.approvals id none
    approvalReceipt := update veto.approvalReceipt id fun signer =>
      if signer ∈ approvals then false else veto.approvalReceipt id signer }

def setVetoState (veto : VetoStore) (id : Nat) (state : VetoState) : VetoStore :=
  { veto with state := update veto.state id (some state) }

def vetoProposal (env : Env contract) (world : World) (signer : Address) (id : Nat)
    (reasonHash : Hash) :
    Result World := do
  requireAuth env signer
  require (reasonHash ≠ emptyHash) GovernanceError.consentRequired
  require (isVetoPowerEnabled world.veto = true) GovernanceError.vetoPowerDisabled
  let signers ← orFail world.veto.signers GovernanceError.vetoMultisigNotConfigured
  require (signer ∈ signers) GovernanceError.notVetoSigner
  let threshold := world.veto.threshold.getD 0
  let proposal ← loadProposal world id
  -- the backfilled proposer is kept even while the veto is pending
  let bound ← verifiedProposer world proposal
  require (proposal.status = .active ∨ proposal.status = .passed) GovernanceError.notVetoable
  let current := (world.veto.state id).getD ⟨.uninitiated, 0, threshold, reasonHash⟩
  require (¬ (current.status = .executed ∨ proposal.status = .vetoed))
    GovernanceError.invalidVetoTransition
  require (world.veto.approvalReceipt id signer = false) GovernanceError.vetoAlreadyApproved
  let approved := recordApproval world.veto id signer
  let approvals := vetoApprovalsFromPersistent approved id
  if approvals.length < threshold then
    return { bound with
      veto := setVetoState approved id ⟨.pending, approvals.length, threshold, reasonHash⟩ }
  else do
    let cleared := { bound with veto := clearApprovals approved id approvals }
    let (vetoed, _) ← transitionStatus cleared proposal .vetoed
    let stated := { vetoed with
      veto := setVetoState vetoed.veto id ⟨.executed, approvals.length, threshold, reasonHash⟩ }
    forfeitProposalDeposit env stated id

def internalDisableVetoPower (env : Env contract) (world : World) (reasonHash : Hash) :
    Result World := do
  let ilnContract ← getIlnContract world.parameters
  requireAuth env ilnContract
  require (isVetoPowerEnabled world.veto = true) GovernanceError.vetoPowerAlreadyDisabled
  return { world with
    veto := { world.veto with
      powerEnabled := some false
      disableRecord := some ⟨ilnContract, world.clock.sequence, reasonHash⟩ } }

def disableVetoPower (env : Env contract) (world : World) : Result World :=
  internalDisableVetoPower env world emptyHash

def disableVetoPowerWithReason (env : Env contract) (world : World) (reasonHash : Hash) :
    Result World := do
  require (reasonHash ≠ emptyHash) GovernanceError.consentRequired
  internalDisableVetoPower env world reasonHash

end IlnGovernance
