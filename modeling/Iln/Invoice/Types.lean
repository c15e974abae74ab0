import Iln.Foundation.FixedWidth
import Iln.Foundation.Outcome

/-! Data of the `invoice_liquidity` contract (`invoice.rs`, `config.rs`, `errors.rs`,
`constants.rs`). Amounts (`i128`) are `Int`; `u32` and `u64` values are `Nat`, with the width
written where an operation can reach it. Hashes and referral codes are opaque numbers. An error and
a trap are both rolled back by the host, so both are a `Failure`. -/
namespace InvoiceLiquidity

structure Address where
  key : Nat
  deriving DecidableEq, Repr

abbrev Hash := Nat

inductive ContractError where
  | invoiceNotFound | alreadyFunded | alreadyPaid | notFunded | unauthorized | invalidAmount
  | invalidDiscountRate | invalidDueDate | invoiceDefaulted | nothingToClaim | notYetDefaulted
  | overfundingRejected | invoiceExpired | batchTooLarge | alreadyCancelled | alreadyInitialized
  | alreadyAppealed | appealWindowClosed | notDefaulted | alreadyInQueue | notApprovedFunder
  | invoiceAppealed | alreadyDisputed | notDisputed | invoiceDisputed | contractPaused
  | dueDateTooSoon | dueDateTooFar | selfInvoice | overpaymentRejected | payerReputationTooLow
  | arithmeticOverflow | feeOnTransferToken | payerUnverified | oracleDataStale | amountTooSmall
  | reentrancy | rateLimited | queueNotMature | incompatibleInterfaceVersion | oracleCircuitOpen
  | noPriceSource | allPriceSourcesRejected | maxInvoiceAmountExceeded | globalVolumeCapExceeded
  | invalidTwapWindow | queueFull | queueNotStalled
  -- returned by the sources although `errors.rs` does not list them yet
  | accountFrozen | alreadySigned | duplicateProposal | funderIndexOutOfBounds
  | insufficientContractBalance | insufficientTwapObservations | invalidDecayRate
  | invalidIdentityQuorum | invalidMultisigConfig | invalidRepThreshold | invalidTokenDecimals
  | multisigAlreadyConfigured | multisigNotConfigured | notAuthorizedSigner | oracleDuplicateUpdate
  | oracleTimestampRegression | proposalAlreadyExecuted | proposalExpired | proposalNotFound
  | queueIndexOutOfBounds | queueStateArchived | rollbackUnsafe | rotationAlreadyPending
  | rotationNotFound | rotationTimelockNotExpired | thresholdNotReached
  | tokenAuthorizationUnavailable | tokenDecimalsNotConfigured | tokenDecimalsUnavailable
  | tooManyFeeTiers | tooManyIdentityOracles | tooManyPriceSources | upgradeRemovesTtlFields
  deriving DecidableEq, Repr

/-- Why a call was rolled back: a returned error, or a trap of the host. -/
inductive Failure where
  | returned (error : ContractError)
  | trap
  deriving DecidableEq, Repr

instance : Coe ContractError Failure := ⟨.returned⟩

abbrev Result := Except Failure

inductive InvoiceStatus where
  | pending | funded | partiallyFunded | paid | defaulted | appealed | disputed | expired
  | cancelled
  deriving DecidableEq, Repr

structure Invoice where
  id : Nat
  freelancer : Address
  payer : Address
  token : Address
  amount : Int
  dueDate : Nat
  discountRate : Nat
  status : InvoiceStatus
  funder : Option Address
  fundedAt : Option Nat
  amountFunded : Int
  amountPaid : Int
  referralCode : Option Hash
  submitterReputation : Nat
  deriving DecidableEq, Repr

/-- The hot half of the split storage format. -/
structure InvoiceCore where
  id : Nat
  freelancer : Address
  payer : Address
  token : Address
  amount : Int
  dueDate : Nat
  discountRate : Nat
  status : InvoiceStatus
  amountFunded : Int
  amountPaid : Int
  deriving DecidableEq, Repr

/-- The cold half of the split storage format. -/
structure InvoiceMetadata where
  funder : Option Address
  fundedAt : Option Nat
  referralCode : Option Hash
  submitterReputation : Nat
  deriving DecidableEq, Repr

def InvoiceCore.withMetadata (core : InvoiceCore) (metadata : InvoiceMetadata) : Invoice where
  id := core.id
  freelancer := core.freelancer
  payer := core.payer
  token := core.token
  amount := core.amount
  dueDate := core.dueDate
  discountRate := core.discountRate
  status := core.status
  funder := metadata.funder
  fundedAt := metadata.fundedAt
  amountFunded := core.amountFunded
  amountPaid := core.amountPaid
  referralCode := metadata.referralCode
  submitterReputation := metadata.submitterReputation

structure InvoiceParams where
  freelancer : Address
  payer : Address
  amount : Int
  dueDate : Nat
  discountRate : Nat
  token : Address
  referralCode : Option Hash
  deriving DecidableEq, Repr

structure ReputationScore where
  score : Nat
  lastActivityLedger : Nat
  deriving DecidableEq, Repr

structure ReputationProfile where
  address : Address
  invoicesSubmitted : Nat
  invoicesPaid : Nat
  invoicesDefaulted : Nat
  score : Nat
  deriving DecidableEq, Repr

structure AppealRecord where
  evidenceHash : Hash
  appealedAt : Nat
  preDefaultScore : Nat
  deriving DecidableEq, Repr

structure DisputeRecord where
  reasonHash : Hash
  disputedAt : Nat
  deriving DecidableEq, Repr

structure TopPayerEntry where
  address : Address
  score : Nat
  deriving DecidableEq, Repr

structure LpFundRequest where
  lp : Address
  score : Nat
  deriving DecidableEq, Repr

structure InvoiceNftMetadata where
  invoiceId : Nat
  amount : Int
  dueDate : Nat
  discountRate : Nat
  token : Address
  owner : Address
  mintedAt : Nat
  deriving DecidableEq, Repr

structure Config where
  highRepThreshold : Nat
  bonusBps : Nat
  minDiscountRateBps : Nat
  decayRateBps : Nat
  decayPeriodLedgers : Nat
  disputeTimeoutLedgers : Nat
  xlmSacAddress : Address
  usdcSacAddress : Address
  eurcSacAddress : Address
  priceOracle : Option Address
  maxOracleAgeLedgers : Nat
  deriving DecidableEq, Repr

def maxDiscountRate : Nat := 5000
def defaultPayerScore : Nat := 50
def defaultLpScore : Nat := 50
def topPayersCapacity : Nat := 50
def currentStorageVersion : Nat := 3
def defaultRateLimitLedgers : Nat := 120
def adminChangeCooldownLedgers : Nat := 720
def upgradeCooldownLedgers : Nat := 1440
def economicParamCooldownLedgers : Nat := 360
def maxReputationDecayPeriods : Nat := 1000
def queueDelayLedgers : Nat := 120
def maxFundQueueLen : Nat := 50
def queueResolutionTtlLedgers : Nat := 720
def nearExpiryWindowSecs : Nat := 60 * 60 * 24
def appealWindowSeconds : Nat := 30 * 24 * 60 * 60
def minInvoiceDuration : Nat := 24 * 60 * 60
def maxInvoiceDuration : Nat := 365 * 24 * 60 * 60
def defaultMaxOracleAgeLedgers : Nat := 17280
def maxTokenDecimals : Nat := 18

end InvoiceLiquidity
