import Iln.Invoice.Access

/-! The contract-level multisig (`multisig.rs`) and the effect of an executed proposal
(`execute_proposal` in `lib.rs`). Ledger sums are small next to `u64`, so they are plain. -/
namespace InvoiceLiquidity

open Outcome FixedWidth Function

variable {contract : Address}

def multisigWindowLedgers : Nat := 17280
def rotationTimelockLedgers : Nat := 34560

def isValidConfig (signers : List Address) (threshold : Nat) : Bool :=
  decide (signers ≠ [] ∧ threshold ≠ 0 ∧ threshold ≤ signers.length ∧ signers.Nodup)

def isExpired (clock : Clock) (proposal : MultisigProposal) : Bool :=
  decide (proposal.expiresAt ≤ clock.sequence)

def saveProposal (store : MultisigStore) (proposal : MultisigProposal) : MultisigStore :=
  { store with proposal := update store.proposal proposal.id (some proposal) }

/-- `load_config` and `require_signer` -/
def requireSigner (env : Env contract) (store : MultisigStore) (signer : Address) :
    Result MultisigAdmin := do
  let config ← orFail store.admin (.returned .multisigNotConfigured)
  requireAuth env signer
  require (signer ∈ config.signers) (.returned .notAuthorizedSigner)
  return config

def initializeMultisigAdmin (env : Env contract) (control : Control) (signers : List Address)
    (threshold : Nat) : Result Control := do
  require (control.multisig.admin.isNone) (.returned .multisigAlreadyConfigured)
  require (isValidConfig signers threshold = true) (.returned .invalidMultisigConfig)
  requireAdmin env control
  return { control with
    multisig := { control.multisig with admin := some ⟨signers, threshold⟩, nextProposalId := 1 } }

def hasLiveProposal (clock : Clock) (store : MultisigStore) (action : AdminAction) : Bool :=
  ((store.pendingAction action).bind store.proposal).any fun existing =>
    existing.state == .pending && !isExpired clock existing

def propose (env : Env contract) (clock : Clock) (control : Control) (proposer : Address)
    (action : AdminAction) : Result (Control × Nat) := do
  let store := control.multisig
  let _ ← requireSigner env store proposer
  require (hasLiveProposal clock store action = false) (.returned .duplicateProposal)
  let id := store.nextProposalId
  let opened := saveProposal { store with nextProposalId := id + 1 }
    ⟨id, action, [proposer], .pending, clock.sequence + multisigWindowLedgers⟩
  return ({ control with
    multisig := { opened with pendingAction := update opened.pendingAction action (some id) } }, id)

def loadLiveProposal (clock : Clock) (store : MultisigStore) (id : Nat) :
    Result MultisigProposal := do
  let proposal ← orFail (store.proposal id) (.returned .proposalNotFound)
  require (proposal.state ≠ .executed) (.returned .proposalAlreadyExecuted)
  require (isExpired clock proposal = false) (.returned .proposalExpired)
  return proposal

def signProposal (env : Env contract) (clock : Clock) (control : Control) (signer : Address)
    (id : Nat) :
    Result Control := do
  let _ ← requireSigner env control.multisig signer
  let proposal ← loadLiveProposal clock control.multisig id
  require (signer ∉ proposal.signersApproved) (.returned .alreadySigned)
  return { control with
    multisig := saveProposal control.multisig
      { proposal with signersApproved := proposal.signersApproved ++ [signer] } }

def scheduleRotation (clock : Clock) (control : Control) (oldSigner newSigner : Address) :
    Result Control := do
  require (control.multisig.pendingRotation.isNone) (.returned .rotationAlreadyPending)
  let config ← orFail control.multisig.admin (.returned .multisigNotConfigured)
  require (oldSigner ∈ config.signers) (.returned .notAuthorizedSigner)
  require (oldSigner ≠ newSigner ∧ newSigner ∉ config.signers) (.returned .invalidMultisigConfig)
  return { control with
    multisig := { control.multisig with
      pendingRotation := some ⟨oldSigner, newSigner, clock.sequence + rotationTimelockLedgers⟩ } }

def setPaused (clock : Clock) (control : Control) (paused : Bool) : Control :=
  { control with
    paused
    lastPauseTimestamp := if paused then clock.timestamp else control.lastPauseTimestamp }

def dropToken (control : Control) (token : Address) : Control :=
  { control with
    approvedToken := update control.approvedToken token (some false)
    tokenList := control.tokenList.filter (· ≠ token) }

def applyAdminAction (clock : Clock) (control : Control) : AdminAction → Result Control
  | .pause => .ok (setPaused clock control true)
  | .unpause => .ok (setPaused clock control false)
  | .removeToken token => .ok (dropToken control token)
  | .setFeeRate rate => .ok { control with feeRate := some rate }
  | .setMaxDiscount rate => .ok { control with maxDiscountRate := some rate }
  | .updateMultisig signers threshold => do
    require (isValidConfig signers threshold = true) (.returned .invalidMultisigConfig)
    return { control with multisig := { control.multisig with admin := some ⟨signers, threshold⟩ } }
  | .rotateSigner oldSigner newSigner => scheduleRotation clock control oldSigner newSigner

def executeProposal (env : Env contract) (clock : Clock) (control : Control) (caller : Address)
    (id : Nat) :
    Result Control := do
  let store := control.multisig
  let config ← requireSigner env store caller
  let proposal ← loadLiveProposal clock store id
  require (config.threshold ≤ proposal.signersApproved.length) (.returned .thresholdNotReached)
  let closed := saveProposal store { proposal with state := .executed }
  let cleared := { closed with
    pendingAction := update closed.pendingAction proposal.action none }
  applyAdminAction clock { control with multisig := cleared } proposal.action

def finalizeSignerRotation (env : Env contract) (clock : Clock) (control : Control)
    (caller : Address) :
    Result Control := do
  let config ← requireSigner env control.multisig caller
  let rotation ← orFail control.multisig.pendingRotation (.returned .rotationNotFound)
  require (rotation.effectiveAt ≤ clock.sequence) (.returned .rotationTimelockNotExpired)
  let signers := config.signers.filter (· ≠ rotation.oldSigner) ++ [rotation.newSigner]
  return { control with
    multisig := { control.multisig with
      admin := some { config with signers }
      pendingRotation := none } }

def cancelSignerRotation (env : Env contract) (control : Control) (caller : Address) :
    Result Control := do
  let _ ← requireSigner env control.multisig caller
  let _ ← orFail control.multisig.pendingRotation (.returned .rotationNotFound)
  return { control with multisig := { control.multisig with pendingRotation := none } }

end InvoiceLiquidity
