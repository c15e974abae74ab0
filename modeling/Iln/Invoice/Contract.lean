import Iln.Foundation.Transition
import Iln.Invoice.Admin
import Iln.Invoice.Settlement

/-! The contract as a machine. An action is a top-level call with its environment, money that moves
outside the contract, or the passing of time. A call that returns an error or traps leaves the world
as it was. -/
namespace InvoiceLiquidity

open Outcome FixedWidth

inductive Call where
  | initializeContract (admin usdc eurc xlm : Address)
  | setAdmin (newAdmin : Address)
  | updateFeeRate (rate : Nat)
  | updateMaxDiscount (rate : Nat)
  | updateDecayParams (rateBps periodLedgers : Nat)
  | setDistributionContract (distribution : Address)
  | setPriceOracle (oracle : Address)
  | setMaxOracleAge (maxAgeLedgers : Nat)
  | registerOracle (feed : OracleFeedType) (oracle : Address)
  | removeOracle (feed : OracleFeedType)
  | registerTokenOracle (feed : OracleFeedType) (token oracle : Address)
  | removeTokenOracle (feed : OracleFeedType) (token : Address)
  | checkOracleHealth (feed : OracleFeedType) (token payer : Address)
  | checkOracleVerification (feed : OracleFeedType) (token payer : Address)
  | resetOracleCircuit (feed : OracleFeedType) (token : Address)
  | addPriceSource (feed : OracleFeedType) (source : Address)
  | removePriceSource (feed : OracleFeedType) (source : Address)
  | setMaxPriceDeviationBps (bps : Nat)
  | addIdentityOracle (feed : OracleFeedType) (source : Address)
  | removeIdentityOracle (feed : OracleFeedType) (source : Address)
  | setIdentityQuorum (quorum : Nat)
  | setTwapEnabled (feed : OracleFeedType) (enabled : Bool)
  | setTwapWindow (windowLedgers : Nat)
  | recordTwapSample (feed : OracleFeedType) (token : Address) (price : Int)
  | setInsurancePool (pool : Address)
  | addToken (token : Address) (decimals : Nat)
  | removeToken (token : Address)
  | correctTokenDecimals (token : Address) (decimals : Nat)
  | claimPendingPayout (recipient token : Address)
  | pause
  | unpause
  | initializeMultisigAdmin (signers : List Address) (threshold : Nat)
  | propose (proposer : Address) (action : AdminAction)
  | signProposal (signer : Address) (id : Nat)
  | executeProposal (caller : Address) (id : Nat)
  | finalizeSignerRotation (caller : Address)
  | cancelSignerRotation (caller : Address)
  | upgrade
  | migrate
  | rehearseRollback
  | updateFeeTiers (tiers : List (Int × Nat))
  | submitInvoice (params : InvoiceParams)
  | submitInvoicesBatch (invoices : List InvoiceParams)
  | updateInvoice (freelancer : Address) (id : Nat) (amount : Int) (dueDate discountRate : Nat)
  | convertInvoiceToken (freelancer : Address) (id : Nat) (newToken : Address)
  | joinFundQueue (lp : Address) (id : Nat)
  | resolveFundQueue (id : Nat)
  | recoverFundQueue (id : Nat)
  | fundInvoice (funder : Address) (id : Nat) (amount : Int) (requireOracleVerification : Bool)
  | transferInvoice (id : Nat) (newFreelancer : Address)
  | transferLpPosition (id : Nat) (newLp : Address)
  | cancelInvoice (id : Nat)
  | expireInvoice (id : Nat)
  | markPaid (id : Nat) (amount : Int)
  | claimDefault (funder : Address) (id : Nat)
  | appealDefault (id : Nat) (evidenceHash : Hash)
  | resolveAppeal (id : Nat) (upheld : Bool)
  | disputeInvoice (id : Nat) (reasonHash : Hash)
  | resolveDispute (id resolution : Nat)
  | autoResolveDispute (id : Nat)
  | updateConfig (caller : Address) (wanted : Config)
  | payerScore (payer : Address)
  | setMinPayerReputation (value : Nat)
  | setMaxInvoiceAmount (value : Int)
  | setTokenVolumeCap (token : Address) (value : Int)
  deriving DecidableEq, Repr

def termsFit (amount : Int) (discountRate : Nat) : Bool :=
  decide (Fits i128 amount) && decide (discountRate ≤ u32Max)

/-- Arguments that enter arithmetic have the range of their Rust type. -/
def Call.wellTyped : Call → Bool
  | .submitInvoice params => termsFit params.amount params.discountRate
  | .submitInvoicesBatch invoices => invoices.all fun params =>
    termsFit params.amount params.discountRate
  | .updateInvoice _ _ amount _ discountRate => termsFit amount discountRate
  | .fundInvoice _ _ amount _ => decide (Fits i128 amount)
  | .markPaid _ amount => decide (Fits i128 amount)
  | .updateFeeRate rate => decide (rate ≤ u32Max)
  | .updateMaxDiscount rate => decide (rate ≤ u32Max)
  | .updateFeeTiers tiers => tiers.all fun tier =>
    decide (Fits i128 tier.1) && decide (tier.2 ≤ u32Max)
  | .propose _ (.setFeeRate rate) => decide (rate ≤ u32Max)
  | .propose _ (.setMaxDiscount rate) => decide (rate ≤ u32Max)
  | _ => true

variable {contract : Address}

def invokeControl (env : Env contract) (world : World) : Call → Option (Result Control)
  | .setAdmin newAdmin => some (setAdmin env world.clock world.control newAdmin)
  | .updateFeeRate rate => some (updateFeeRate env world.clock world.control rate)
  | .updateMaxDiscount rate => some (updateMaxDiscount env world.clock world.control rate)
  | .updateDecayParams rate period =>
    some (updateDecayParams env world.clock world.control rate period)
  | .setDistributionContract distribution =>
    some (setDistributionContract env world.clock world.control distribution)
  | .setPriceOracle oracle => some (setPriceOracle env world.clock world.control oracle)
  | .setMaxOracleAge age => some (setMaxOracleAge env world.clock world.control age)
  | .registerOracle feed oracle => some (registerOracle env world.clock world.control feed oracle)
  | .removeOracle feed => some (removeOracle env world.clock world.control feed)
  | .registerTokenOracle feed token oracle =>
    some (registerTokenOracle env world.clock world.control feed token oracle)
  | .removeTokenOracle feed token =>
    some (removeTokenOracle env world.clock world.control feed token)
  | .checkOracleHealth feed token payer =>
    some (checkOracleHealth env world.clock world.control feed token payer)
  | .checkOracleVerification feed token payer =>
    some (checkOracleVerification env world.clock world.control feed token payer)
  | .resetOracleCircuit feed token =>
    some (resetOracleCircuit env world.clock world.control feed token)
  | .addPriceSource feed source => some (addPriceSource env world.clock world.control feed source)
  | .removePriceSource feed source =>
    some (removePriceSource env world.clock world.control feed source)
  | .setMaxPriceDeviationBps bps => some (setMaxPriceDeviationBps env world.clock world.control bps)
  | .addIdentityOracle feed source =>
    some (addIdentityOracle env world.clock world.control feed source)
  | .removeIdentityOracle feed source =>
    some (removeIdentityOracle env world.clock world.control feed source)
  | .setIdentityQuorum quorum => some (setIdentityQuorum env world.clock world.control quorum)
  | .setTwapEnabled feed enabled => some (setTwapEnabled env world.clock world.control feed enabled)
  | .setTwapWindow window => some (setTwapWindow env world.clock world.control window)
  | .recordTwapSample feed token price =>
    some (recordTwapSample env world.clock world.control feed token price)
  | .setInsurancePool pool => some (setInsurancePool env world.clock world.control pool)
  | .removeToken token => some (removeToken env world.clock world.control token)
  | .correctTokenDecimals token decimals =>
    some (correctTokenDecimals env world.clock world.control token decimals)
  | .pause => some (pause env world.clock world.control)
  | .unpause => some (unpause env world.clock world.control)
  | .initializeMultisigAdmin signers threshold =>
    some (initializeMultisigAdmin env world.control signers threshold)
  | .propose proposer action =>
    some (Prod.fst <$> propose env world.clock world.control proposer action)
  | .signProposal signer id => some (signProposal env world.clock world.control signer id)
  | .executeProposal caller id => some (executeProposal env world.clock world.control caller id)
  | .finalizeSignerRotation caller =>
    some (finalizeSignerRotation env world.clock world.control caller)
  | .cancelSignerRotation caller => some (cancelSignerRotation env world.control caller)
  | .upgrade => some (upgrade env world.clock world.control)
  | .migrate => some (migrate env world.clock world.control)
  | .rehearseRollback => some (rehearseRollback env world)
  | .updateFeeTiers tiers => some (updateFeeTiers env world.clock world.control tiers)
  | .updateConfig caller wanted => some (updateConfig env world.clock world.control caller wanted)
  | .setMinPayerReputation value => some (setMinPayerReputation env world.clock world.control value)
  | .setMaxInvoiceAmount value => some (setMaxInvoiceAmount env world.clock world.control value)
  | .setTokenVolumeCap token value =>
    some (setTokenVolumeCap env world.clock world.control token value)
  | _ => none

def invokeWorld (env : Env contract) (world : World) : Call → Result World
  | .initializeContract admin usdc eurc xlm => initializeContract world admin usdc eurc xlm
  | .addToken token decimals => addToken env world token decimals
  | .claimPendingPayout recipient token => Prod.fst <$> claimPendingPayout env world recipient token
  | .submitInvoice params => Prod.fst <$> submitInvoice env world params
  | .submitInvoicesBatch invoices => Prod.fst <$> submitInvoicesBatch env world invoices
  | .updateInvoice freelancer id amount dueDate discountRate =>
    updateInvoice env world freelancer id amount dueDate discountRate
  | .convertInvoiceToken freelancer id newToken =>
    convertInvoiceToken env world freelancer id newToken
  | .joinFundQueue lp id => joinFundQueue env world lp id
  | .resolveFundQueue id => Prod.fst <$> resolveFundQueue env world id
  | .recoverFundQueue id => Prod.fst <$> recoverFundQueue world id
  | .fundInvoice funder id amount verify => fundInvoice env world funder id amount verify
  | .transferInvoice id newFreelancer => transferInvoice env world id newFreelancer
  | .transferLpPosition id newLp => transferLpPosition env world id newLp
  | .cancelInvoice id => cancelInvoice env world id
  | .expireInvoice id => expireInvoice world id
  | .markPaid id amount => Prod.fst <$> markPaid env world id amount
  | .claimDefault funder id => claimDefault env world funder id
  | .appealDefault id evidenceHash => appealDefault env world id evidenceHash
  | .resolveAppeal id upheld => resolveAppeal env world id upheld
  | .disputeInvoice id reasonHash => disputeInvoice env world id reasonHash
  | .resolveDispute id resolution => resolveDispute env world id resolution
  | .autoResolveDispute id => autoResolveDispute world id
  | .payerScore payer =>
    .ok { world with scores := (getPayerScore world.clock world.control.config
      world.scores payer).1 }
  | _ => .error .trap

def invoke (env : Env contract) (world : World) (call : Call) : Result World := do
  require (call.wellTyped = true) .trap
  match invokeControl env world call with
  | some result => do
    let control ← result
    return { world with control }
  | none => invokeWorld env world call

section Routing

variable {env : Env contract} {world next : World} {call : Call}

theorem invoke_routed (ran : invoke env world call = .ok next) :
    (∃ control, invokeControl env world call = some (.ok control) ∧
      next = { world with control }) ∨
      invokeControl env world call = none ∧ invokeWorld env world call = .ok next := by
  simp only [invoke, ok_iff] at ran
  obtain ⟨_, _, ran⟩ := ran
  cases routed : invokeControl env world call with
  | none =>
    simp only [routed] at ran
    exact .inr ⟨rfl, ran⟩
  | some =>
    simp only [routed, ok_iff] at ran
    obtain ⟨control, rfl, rfl⟩ := ran
    exact .inl ⟨control, rfl, rfl⟩

theorem invoke_runs (unrouted : invokeControl env world call = none)
    (returned : invoke env world call = .ok next) : invokeWorld env world call = .ok next := by
  rcases invoke_routed returned with ⟨_, routed, _⟩ | ⟨_, ran⟩
  · cases routed.symm.trans unrouted
  · exact ran

end Routing

inductive Action (contract : Address) where
  | invoke (env : Env contract) (call : Call)
  | credit (token holder : Address) (amount : Int)
  | advance (seconds ledgers : Nat)

/-- Money elsewhere moves freely; the contract's own balance can only be topped up. -/
def creditHolder (contract : Address) (treasury : Treasury) (token holder : Address)
    (amount : Int) : Treasury :=
  if holder = contract ∧ amount < 0 then treasury else
    { treasury with
      balance := fun asset account =>
        treasury.balance asset account + (if asset = token ∧ account = holder then amount else 0) }

def step (world : World) : Action contract → World
  | .invoke env call =>
    match invoke env world call with
    | .ok next => next
    | .error _ => world
  | .credit token holder amount =>
    { world with treasury := creditHolder contract world.treasury token holder amount }
  | .advance seconds ledgers =>
    { world with clock := ⟨world.clock.timestamp + seconds, world.clock.sequence + ledgers⟩ }

def genesis (clock : Clock) (balance : Balances) : World where
  clock := clock
  control := {
    admin := none
    config := none
    feeRate := none
    feeTiers := []
    maxDiscountRate := none
    distributionContract := none
    insurancePool := none
    paused := false
    lastPauseTimestamp := 0
    minPayerReputation := 0
    maxInvoiceAmount := 0
    tokenVolumeCap := fun _ => 0
    invoiceCount := none
    storageVersion := none
    reentrancyLock := false
    rateLimit := fun _ => none
    adminActionCount := 0
    adminActionLog := fun _ => none
    approvedToken := fun _ => none
    tokenDecimals := fun _ => none
    tokenList := []
    oracle := {
      registry := fun _ => none
      tokenOracle := fun _ _ => none
      interfaceVersion := fun _ => none
      health := fun _ _ => none
      circuitTripped := fun _ _ => false
      circuitRecovery := fun _ _ => none
      priceSources := fun _ => []
      maxPriceDeviationBps := none
      identityOracles := fun _ => []
      identityQuorum := none
      twapEnabled := fun _ => false
      twapWindowLedgers := none
      minTwapObservations := none
      twapSamples := fun _ _ => [] }
    multisig := {
      admin := none
      proposal := fun _ => none
      nextProposalId := 1
      pendingAction := fun _ => none
      pendingRotation := none } }
  book := {
    nextInvoiceId := none
    invoices := fun _ => none
    core := fun _ => none
    metadata := fun _ => none
    funders := fun _ => []
    disputes := fun _ => none
    appeals := fun _ => none
    preDefaultPayerScore := fun _ => none }
  treasury := {
    balance
    pendingPayout := ∅
    pendingPayoutTotal := fun _ => none
    log := [] }
  scores := {
    payerScore := fun _ => none
    reputation := fun _ => none
    lpScore := fun _ => none
    topPayersHeap := [] }
  index := { submitterInvoices := fun _ => [], lpInvoices := fun _ => [] }
  stats := {
    totalInvoices := 0
    totalFunded := 0
    totalPaid := 0
    totalVolumeUsdc := 0
    totalVolumeEurc := 0
    totalVolumeXlm := 0
    tokenVolume := fun _ => 0
    referralCount := fun _ => 0 }
  queue := {
    fundQueue := fun _ => []
    queueResolution := fun _ => none
    fundQueueOpenedAt := fun _ => none
    queueResolvedAt := fun _ => none }
  nft := { invoiceNft := fun _ => none, invoiceNftOwner := fun _ => none }

/-- The world that a run reaches from an empty contract. -/
abbrev reach (clock : Clock) (balance : Balances) (actions : List (Action contract)) : World :=
  Transition.exec step (genesis clock balance) actions

theorem never_signed (contract : Address) (signers : List Address) :
    decide (contract ∈ signers ∧ contract ≠ contract) = false := by
  simp

/-- A host whose tokens are plain Stellar assets: a transfer returns when the amount is not
negative, the sender has it, and neither side is frozen. -/
def stellarHost (contract : Address) (signers frozen : List Address) : Env contract where
  signed address := decide (address ∈ signers ∧ address ≠ contract)
  unsigned := never_signed contract signers
  authorized _ holder := some (decide (holder ∉ frozen))
  decimals _ := some 6
  transferReturns balance token source target amount :=
    decide (0 ≤ amount ∧ amount ≤ balance token source ∧ source ∉ frozen ∧ target ∉ frozen)
  interfaceVersion _ := some oracleInterfaceVersion
  payerData _ _ := none
  distributionReturns _ := true
  ttlFieldsHealthy := true
  draw _ := 0
  draw_lt := fun _ positive => positive

def signedBy (signers : List Nat) (call : Call) : Action ⟨0⟩ :=
  .invoke (stellarHost ⟨0⟩ (signers.map Address.mk) []) call

def marketBalances : Balances := fun token holder =>
  if token.key = 10 ∧ holder.key ∈ [2, 3, 4] then 1000000000 else 0

def bill (amount : Int) (discountRate : Nat) : InvoiceParams :=
    ⟨⟨5⟩, ⟨2⟩, amount, 100000, discountRate, ⟨10⟩, none⟩

abbrev opening : Action ⟨0⟩ := signedBy [] (.initializeContract ⟨1⟩ ⟨10⟩ ⟨11⟩ ⟨12⟩)

def openingCalls (amount : Int) (discountRate : Nat) : List (Action ⟨0⟩) :=
  [opening, signedBy [5] (.submitInvoice (bill amount discountRate))]

def market : World := genesis ⟨1000, 10⟩ marketBalances

abbrev traded (actions : List (Action ⟨0⟩)) : World := Transition.exec step market actions

end InvoiceLiquidity
