/-
# `TradePlatform.Domain` — the contracts shared by research, risk and execution

The records and enumerations of `domain.py`, with the vocabulary the Python
program takes from its standard library: identifiers, timestamps, the blank-string
test, and the exceptions it raises, each with its class and message.
-/
import TradePlatform.Lib.Decimal

namespace TradePlatform

abbrev UUID := ℕ

/-- A `datetime`.  Two aware timestamps are equal when they are the same instant
(microseconds from the epoch); a naive one has only its wall clock. -/
inductive DateTime where
  | aware (instant : ℤ)
  | naive (wall : ℤ)
deriving DecidableEq, Repr

def DateTime.isAware : DateTime → Bool
  | .aware _ => true
  | .naive _ => false

/-- `value < instant`, for an aware `instant`: a naive value raises `TypeError`. -/
def DateTime.before (value : DateTime) (instant : ℤ) : Option Bool :=
  match value with
  | .aware t => some (decide (t < instant))
  | .naive _ => none

/-- `value < other`: a naive and an aware one raise `TypeError`. -/
def DateTime.lt (value other : DateTime) : Option Bool :=
  match value, other with
  | .aware s, .aware t => some (decide (s < t))
  | .naive s, .naive t => some (decide (s < t))
  | _, _ => none

def DateTime.add (value : DateTime) (microseconds : ℤ) : DateTime :=
  match value with
  | .aware t => .aware (t + microseconds)
  | .naive t => .naive (t + microseconds)

def utcDate (instant : ℤ) : ℤ := instant / (86400 * 10 ^ 6)

def isSpace (ch : Char) : Bool :=
  let n := ch.toNat
  (0x09 ≤ n && n ≤ 0x0D) || (0x1C ≤ n && n ≤ 0x20) || n == 0x85 || n == 0xA0 || n == 0x1680 ||
    (0x2000 ≤ n && n ≤ 0x200A) || n == 0x2028 || n == 0x2029 || n == 0x202F || n == 0x205F ||
    n == 0x3000

def blank (text : String) : Bool := text.toList.all isSpace

inductive Exn where
  | orderTransitionError (message : String)
  | paperOmsError (message : String)
  | brokerAdapterError (message : String)
  | brokerSyncError (message : String)
  | persistenceError (message : String)
  | postgresRiskStoreError (message : String)
  | operationalJobError (message : String)
  | eventBacktestValidationError (message : String)
  | paperAccountError (message : String)
  | strategyLabSplitError (message : String)
  | strategySdkError (message : String)
  | t4NormalizationError (message : String)
  | runnerLivenessError (message : String)
  | paperFillParityError (message : String)
  | captureArchiveError (message : String)
  | captureAuthorityError (message : String)
  | hourlySegmentAcceptanceError (message : String)
  | cryptoBasisMeanReversionError (message : String)
  | openToOpenValidationError (message : String)
  | cryptoLiquidityCapacityError (message : String)
  | knowledgeTimeDoctrineError (message : String)
  | researchDataPlaneError (message : String)
  | historicalMarketDataError (message : String)
  | corporateActionError (message : String)
  | scheduledAcquisitionConfigurationError (message : String)
  | portfolioConstructionError (message : String)
  | externalIdentityError (message : String)
  | authorityRerunError (message : String)
  | strategyLabManifestError (message : String)
  | paperFundingEvidenceError (message : String)
  | forwardFundingError (message : String)
  | cryptoDerivativesFeatureError (message : String)
  | featureAuthorityError (message : String)
  | datasetCompositionError (message : String)
  | providerIngestionError (message : String)
  | paperIncubationError (message : String)
  | alertError (message : String)
  | bybitTradeBarReconstructionError (message : String)
  | fundingHistoryError (message : String)
  | researchBarsError (message : String)
  | strategyLabStudyError (message : String)
  | exitCriteriaError (message : String)
  | t4MarkEvidenceError (message : String)
  | t4MarkPriceRefusal (code : String)
  | unicodeDecodeError
  | bybitPublicWebSocketError (message : String)
  | bybitPublicPeerClosedError (message : String)
  | offsiteError (message : String)
  | providerError (message : String)
  | valueError (message : String)
  | keyError (message : String)
  | permissionError (message : String)
  | integrityError (message : String)
  | attributeError (message : String)
  | osError (message : String)
  | indexError
  | typeError
  | arithmeticError
deriving DecidableEq, Repr

/-- `isinstance(error, ValueError)`: the domain errors derive from it, the
persistence errors and the arithmetic ones do not. -/
def Exn.isValueError : Exn → Bool
  | .orderTransitionError _ | .paperOmsError _ | .brokerAdapterError _ | .brokerSyncError _
  | .operationalJobError _ | .eventBacktestValidationError _ | .paperAccountError _
  | .strategyLabSplitError _ | .strategySdkError _ | .t4NormalizationError _
  | .runnerLivenessError _ | .paperFillParityError _ | .captureArchiveError _
  | .captureAuthorityError _ | .hourlySegmentAcceptanceError _
  | .cryptoBasisMeanReversionError _ | .openToOpenValidationError _
  | .cryptoLiquidityCapacityError _ | .knowledgeTimeDoctrineError _ | .researchDataPlaneError _
  | .historicalMarketDataError _ | .corporateActionError _
  | .scheduledAcquisitionConfigurationError _ | .portfolioConstructionError _
  | .externalIdentityError _ | .authorityRerunError _ | .strategyLabManifestError _
  | .paperFundingEvidenceError _ | .forwardFundingError _ | .cryptoDerivativesFeatureError _
  | .featureAuthorityError _ | .datasetCompositionError _ | .providerIngestionError _
  | .paperIncubationError _ | .alertError _ | .bybitTradeBarReconstructionError _
  | .fundingHistoryError _ | .researchBarsError _ | .strategyLabStudyError _
  | .exitCriteriaError _ | .t4MarkEvidenceError _ | .t4MarkPriceRefusal _ | .unicodeDecodeError | .valueError _ => true
  | .persistenceError _ | .postgresRiskStoreError _ | .keyError _ | .permissionError _
  | .integrityError _ | .attributeError _ | .osError _ | .offsiteError _ | .providerError _
  | .bybitPublicWebSocketError _ | .bybitPublicPeerClosedError _
  | .indexError | .typeError | .arithmeticError => false

def onValueError {α : Type} (raised : Exn) : Except Exn α → Except Exn α
  | .ok a => .ok a
  | .error e => .error (if e.isValueError then raised else e)

theorem onValueError_eq_ok {α : Type} {raised : Exn} {x : Except Exn α} {a : α} :
    onValueError raised x = .ok a ↔ x = .ok a := by
  cases x with
  | ok b => rfl
  | error e => simp [onValueError]

/-- A psycopg error, as `PostgresDatabase.transaction` raises it. -/
def transactionFailed : Exn := .persistenceError "postgres_transaction_failed"

/-! ## Enumerations -/

inductive SignalStatus where
  | candidate | validated | blockedByRisk | blockedByData | expired
deriving DecidableEq, Repr

inductive OrderSide where
  | buy | sell
deriving DecidableEq, Repr

def OrderSide.value : OrderSide → String
  | .buy => "BUY"
  | .sell => "SELL"

inductive OrderStatus where
  | proposed | riskPending | riskRejected | approved | submissionPending | submitted
  | acknowledged | partiallyFilled | filled | cancelPending | cancelled | rejected
  | expired | unknown | reconciliationRequired
deriving DecidableEq, Repr

def OrderStatus.value : OrderStatus → String
  | .proposed => "PROPOSED"
  | .riskPending => "RISK_PENDING"
  | .riskRejected => "RISK_REJECTED"
  | .approved => "APPROVED"
  | .submissionPending => "SUBMISSION_PENDING"
  | .submitted => "SUBMITTED"
  | .acknowledged => "ACKNOWLEDGED"
  | .partiallyFilled => "PARTIALLY_FILLED"
  | .filled => "FILLED"
  | .cancelPending => "CANCEL_PENDING"
  | .cancelled => "CANCELLED"
  | .rejected => "REJECTED"
  | .expired => "EXPIRED"
  | .unknown => "UNKNOWN"
  | .reconciliationRequired => "RECONCILIATION_REQUIRED"

inductive RiskDecisionType where
  | approve | reject
deriving DecidableEq, Repr

/-! ## Records -/

structure OrderIntent where
  intentId : UUID
  signalId : UUID
  instrumentId : String
  accountId : String
  side : OrderSide
  quantity : Decimal
  limitPrice : Decimal
  createdAt : DateTime
deriving DecidableEq

def OrderIntent.notional (c : Decimal.Context) (intent : OrderIntent) : Decimal :=
  c.mul intent.quantity intent.limitPrice

structure MarketSnapshot where
  instrumentId : String
  observedAt : DateTime
  bid : Decimal
  ask : Decimal
  last : Decimal
  dataQualityScore : Decimal
deriving DecidableEq

def MarketSnapshot.spreadFraction (c : Decimal.Context) (market : MarketSnapshot) :
    Option Decimal :=
  if market.bid ≤ 0 ∨ market.ask < market.bid then none
  else some (c.div (c.sub market.ask market.bid) market.ask)

structure Signal where
  signalId : UUID
  instrumentId : String
  strategyVersion : String
  status : SignalStatus
  expiresAt : DateTime
  dataQualityScore : Decimal
  direction : OrderSide
  entryLow : Option Decimal
  entryHigh : Option Decimal
  stopLevel : Option Decimal
deriving DecidableEq

structure RiskPolicy where
  minimumDataQuality : Decimal
  maximumSpreadFraction : Decimal
  maximumOrderNotional : Decimal
  maximumPositionNotional : Decimal
  maximumDailyOrderNotional : Decimal
  maximumEventRisk : Decimal
  maximumExpectedSlippageFraction : Decimal
  maxMarketAgeSeconds : ℤ
  maximumPerTradeLoss : Option Decimal
  maximumStopDistanceFraction : Option Decimal
  stopGapBufferFraction : Option Decimal
deriving DecidableEq

structure PortfolioState where
  accountId : String
  positionNotionals : List (String × Decimal)
  reconciliationComplete : Bool
  riskIncreaseAllowed : Bool
deriving DecidableEq

def PortfolioState.positionNotional (portfolio : PortfolioState) (instrumentId : String) :
    Decimal :=
  (portfolio.positionNotionals.lookup instrumentId).getD 0

structure RiskDecision where
  decisionId : UUID
  intentId : UUID
  decision : RiskDecisionType
  reasons : List String
  decidedAt : DateTime
deriving DecidableEq

end TradePlatform
