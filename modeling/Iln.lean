import Iln.Invoice.FeeTiers
import Iln.Invoice.Earnings
import Iln.Invoice.Spending
import Iln.Invoice.Progress
import Iln.Invoice.Deadlines
import Iln.Invoice.PauseFreeze
import Iln.Invoice.DisputeRoundTrip
import Iln.Invoice.NftInvariant
import Iln.Invoice.PartialExit
import Iln.Invoice.TokenRegistry
import Iln.Invoice.Statistics
import Iln.Invoice.Listing
import Iln.Invoice.MultisigSigners
import Iln.Invoice.OracleGate
import Iln.Distribution.Conservation
import Iln.Insurance.SolvencyBreaker
import Iln.Insurance.TimelockedChanges
import Iln.Insurance.Concentration
import Iln.ReputationBonus.Consent
import Iln.Governance.DelegationTally
import Iln.Governance.DepositEscrow
import Iln.Governance.ProductionDelay
import Iln.Governance.WeightingRule
import Iln.Governance.Dispatch
import Iln.CrossContract.Compensation
import Iln.CrossContract.FundingReward
import Iln.Governance.Paging
import Iln.Invoice.OracleTrips
import Iln.Invoice.Twap
import Iln.Invoice.TwapAccumulator
import Iln.Insurance.ClaimPrioritization
import Iln.CrossContract.ReputationDiscount
import Iln.Invoice.TopPayers
import Iln.Governance.SquareRoot
import Iln.Invoice.ConfigBounds
import Iln.Invoice.AuditLog
import Iln.Invoice.QueueOrder
import Iln.Invoice.Reentrancy
