import Mathlib.Data.List.AList
import Iln.Invoice.Types

/-! Storage of the `invoice_liquidity` contract (`storage.rs`) and the host around it. The storage
keys are grouped by what they serve: `Control`, `Book` (invoice records), `Treasury` (token
balances, escrowed payouts and the log of what moved), and the secondary stores. `Env` is everything
one call takes from outside: signatures, the answers of other contracts and the random draw. -/
namespace InvoiceLiquidity

inductive OracleFeedType where
  | price | identity | credit
  deriving DecidableEq, Repr

/-- Names under which administrative calls are rate limited and logged. -/
inductive AdminCall where
  | setAdmin | updateFeeRate | updateMaxDiscount | updateDecayParams | setDistributionContract
  | setPriceOracle | setMaxOracleAge | registerOracle | removeOracle | registerTokenOracle
  | removeTokenOracle | resetOracleCircuit | addPriceSource | removePriceSource
  | setMaxPriceDeviationBps | addIdentityOracle | removeIdentityOracle | setIdentityQuorum
  | setTwapEnabled | setTwapWindow | setInsurancePool | addToken | removeToken
  | correctTokenDecimals | pause | unpause | upgrade | migrate | rehearseRollback | updateFeeTiers
  | updateConfig | setMinPayerReputation | setMaxInvoiceAmount | setTokenVolumeCap | resolveAppeal
  | resolveDispute
  deriving DecidableEq, Repr

structure AdminActionRecord where
  seq : Nat
  action : AdminCall
  admin : Address
  ledger : Nat
  timestamp : Nat
  deriving DecidableEq, Repr

inductive AdminAction where
  | pause
  | unpause
  | removeToken (token : Address)
  | setFeeRate (rate : Nat)
  | setMaxDiscount (rate : Nat)
  | updateMultisig (signers : List Address) (threshold : Nat)
  | rotateSigner (oldSigner newSigner : Address)
  deriving DecidableEq, Repr

structure MultisigAdmin where
  signers : List Address
  threshold : Nat
  deriving DecidableEq, Repr

inductive ProposalState where
  | pending | executed | expired
  deriving DecidableEq, Repr

structure MultisigProposal where
  id : Nat
  action : AdminAction
  signersApproved : List Address
  state : ProposalState
  expiresAt : Nat
  deriving DecidableEq, Repr

structure PendingRotation where
  oldSigner : Address
  newSigner : Address
  effectiveAt : Nat
  deriving DecidableEq, Repr

structure MultisigStore where
  admin : Option MultisigAdmin
  proposal : Nat → Option MultisigProposal
  nextProposalId : Nat
  pendingAction : AdminAction → Option Nat
  pendingRotation : Option PendingRotation

structure OracleHealthStatus where
  oracle : Address
  lastCheckedLedger : Nat
  lastDataTimestamp : Nat
  lastDataAgeLedgers : Nat
  isStale : Bool
  consecutiveStaleCount : Nat
  consecutiveDuplicateCount : Nat
  deriving DecidableEq, Repr

structure CircuitRecoveryState where
  trippedOracle : Address
  consecutiveHealthy : Nat
  firstHealthyLedger : Nat
  deriving DecidableEq, Repr

structure TwapSample where
  timestamp : Nat
  price : Int
  deriving DecidableEq, Repr

structure OracleStore where
  registry : OracleFeedType → Option Address
  tokenOracle : OracleFeedType → Address → Option Address
  interfaceVersion : OracleFeedType → Option Nat
  health : OracleFeedType → Address → Option OracleHealthStatus
  circuitTripped : OracleFeedType → Address → Bool
  circuitRecovery : OracleFeedType → Address → Option CircuitRecoveryState
  priceSources : OracleFeedType → List Address
  maxPriceDeviationBps : Option Nat
  identityOracles : OracleFeedType → List Address
  identityQuorum : Option Nat
  twapEnabled : OracleFeedType → Bool
  twapWindowLedgers : Option Nat
  minTwapObservations : Option Nat
  twapSamples : OracleFeedType → Address → List TwapSample

structure Control where
  admin : Option Address
  config : Option Config
  feeRate : Option Nat
  feeTiers : List (Int × Nat)
  maxDiscountRate : Option Nat
  distributionContract : Option Address
  insurancePool : Option Address
  paused : Bool
  lastPauseTimestamp : Nat
  minPayerReputation : Nat
  maxInvoiceAmount : Int
  tokenVolumeCap : Address → Int
  invoiceCount : Option Nat
  storageVersion : Option Nat
  reentrancyLock : Bool
  rateLimit : AdminCall → Option Nat
  adminActionCount : Nat
  adminActionLog : Nat → Option AdminActionRecord
  approvedToken : Address → Option Bool
  tokenDecimals : Address → Option Nat
  tokenList : List Address
  oracle : OracleStore
  multisig : MultisigStore

/-- Invoice records. A missing funder list is the empty list (`save_invoice_funders`). -/
structure Book where
  nextInvoiceId : Option Nat
  invoices : Nat → Option Invoice
  core : Nat → Option InvoiceCore
  metadata : Nat → Option InvoiceMetadata
  funders : Nat → List (Address × Int)
  disputes : Nat → Option DisputeRecord
  appeals : Nat → Option AppealRecord
  preDefaultPayerScore : Nat → Option Nat

/-- What the ledger shows of money: token transfers, and payouts kept back for a frozen account. -/
inductive Movement where
  | transfer (token source target : Address) (amount : Int)
  | escrow (token recipient : Address) (amount : Int)
  deriving DecidableEq, Repr

abbrev Balances := Address → Address → Int

structure Treasury where
  balance : Balances
  pendingPayout : AList (fun _ : Address × Address => Int)
  pendingPayoutTotal : Address → Option Int
  log : List Movement

structure ScoreStore where
  payerScore : Address → Option ReputationScore
  reputation : Address → Option ReputationProfile
  lpScore : Address → Option Nat
  topPayersHeap : List TopPayerEntry

structure IndexStore where
  submitterInvoices : Address → List Nat
  lpInvoices : Address → List Nat

structure StatStore where
  totalInvoices : Nat
  totalFunded : Nat
  totalPaid : Nat
  totalVolumeUsdc : Int
  totalVolumeEurc : Int
  totalVolumeXlm : Int
  tokenVolume : Address → Int
  referralCount : Hash → Nat

structure QueueStore where
  fundQueue : Nat → List LpFundRequest
  queueResolution : Nat → Option Address
  fundQueueOpenedAt : Nat → Option Nat
  queueResolvedAt : Nat → Option Nat

structure NftStore where
  invoiceNft : Nat → Option InvoiceNftMetadata
  invoiceNftOwner : Nat → Option Address

structure Clock where
  timestamp : Nat
  sequence : Nat
  deriving DecidableEq, Repr

structure World where
  clock : Clock
  control : Control
  book : Book
  treasury : Treasury
  scores : ScoreStore
  index : IndexStore
  stats : StatStore
  queue : QueueStore
  nft : NftStore

structure OracleVerificationResponse where
  isVerified : Bool
  timestamp : Nat
  deriving DecidableEq, Repr

/-- What one call takes from outside the contract deployed at `contract`. A missing answer is a call
that trapped, failed or returned something undecodable. A contract signs for its own address
only in calls it makes itself, and the host refuses to re-enter a running contract, so no
top-level call carries the signature of `contract`. -/
structure Env (contract : Address) where
  signed : Address → Bool
  unsigned : signed contract = false
  authorized : (token holder : Address) → Option Bool
  decimals : (token : Address) → Option Nat
  transferReturns : Balances → (token source target : Address) → Int → Bool
  interfaceVersion : (oracle : Address) → Option Nat
  payerData : (oracle payer : Address) → Option OracleVerificationResponse
  distributionReturns : (distribution : Address) → Bool
  ttlFieldsHealthy : Bool
  draw : (bound : Nat) → Nat
  draw_lt : ∀ bound, 0 < bound → draw bound < bound

end InvoiceLiquidity
