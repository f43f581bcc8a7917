/-
# `TradePlatform.PaperAccount` — the paper account ledger

`build_paper_account_ledger_v1` of `paper_account_v1.py`: recorded paper fills, replayed
under an account policy and a cost policy.  Every fill is a decision and, once its price
is known, an execution; the events are sorted, and a loop over them carries the positions,
the intentions, the pending orders and the money of the account.

Instants are microseconds from the epoch, and a day is its number.  A decimal written by
`_text` is its value, rounded as the normalization rounds it.  `identity_hash_v1` is a
parameter.  Of a stored signal the ledger reads its hash and one time; the rest of it is
its canonical text.
-/
import TradePlatform.Domain
import TradePlatform.Lib.Binary64
import TradePlatform.Lib.Dict
import TradePlatform.Lib.LastWriter
import TradePlatform.Lib.Replay
import TradePlatform.Lib.SortBy

namespace TradePlatform

/-! ## The account policy -/

inductive AccountKindV1 where
  | personalPaper | propPaper
deriving DecidableEq, Repr

/-- A parsed owner value; `notApplicable` is the literal of that name. -/
inductive PolicyValue where
  | decimal (value : Decimal)
  | int (value : ℤ)
  | symbols (value : List String)
  | text (value : String)
  | notApplicable
deriving DecidableEq

structure AccountPolicyV1 where
  accountId : String
  kind : AccountKindV1
  baseCurrency : String
  values : Dict String PolicyValue
  approvedBy : Option String
  approvedOn : Option String
  policyVersionId : String
  contentHash : String

def riskFieldsV1 : List String :=
  ["minimum_data_quality", "maximum_spread_fraction", "maximum_order_notional",
    "maximum_position_notional", "maximum_daily_order_notional", "maximum_event_risk",
    "maximum_expected_slippage_fraction", "max_market_age_seconds", "maximum_per_trade_loss",
    "maximum_stop_distance_fraction", "stop_gap_buffer_fraction"]

def accountFieldsV1 : List String :=
  ["paper_starting_capital", "paper_order_notional", "maximum_leverage", "daily_loss_limit",
    "maximum_drawdown_limit", "allowed_symbols"]

def propFieldsV1 : List String :=
  ["prop_firm", "prop_daily_loss_limit", "prop_max_trailing_drawdown", "prop_profit_target",
    "prop_min_trading_days"]

/-- Policy control, and the reason a value that is not `NOT_APPLICABLE` fails closed. -/
def evidenceControlsV1 : List (String × String) :=
  [("maximum_spread_fraction", "SPREAD_EVIDENCE_UNAVAILABLE_IN_PAPER_V1"),
    ("maximum_expected_slippage_fraction", "SLIPPAGE_EVIDENCE_UNAVAILABLE_IN_PAPER_V1"),
    ("maximum_event_risk", "EVENT_RISK_EVIDENCE_UNAVAILABLE_IN_PAPER_V1"),
    ("minimum_data_quality", "DATA_QUALITY_SCORE_UNAVAILABLE_IN_PAPER_V1"),
    ("maximum_per_trade_loss", "PROTECTIVE_STOP_UNAVAILABLE_STRATEGIES_EMIT_NO_STOP")]

namespace AccountPolicyV1

variable (policy : AccountPolicyV1)

def requiredFields : List String :=
  riskFieldsV1 ++ accountFieldsV1 ++
    match policy.kind with
    | .personalPaper => []
    | .propPaper => propFieldsV1

def unresolved : List String :=
  (policy.requiredFields.filter fun name => (policy.values.get? name).isNone).map
      (fun name => "MISSING_OWNER_" ++ name.toUpper ++ "_OR_11") ++
    if blank (policy.approvedBy.getD "") ∨ policy.approvedOn.getD "" = "" then
      ["MISSING_OWNER_APPROVAL_OR_11"]
    else []

def notApplicable : List String :=
  sortBy id ((policy.values.rows.filter fun item => decide (item.2 = .notApplicable)).map Prod.fst)

def decimalValue (name : String) : Except Exn Decimal :=
  match policy.values.get? name with
  | some (.decimal value) => .ok value
  | some (.int value) => .ok value
  | some (.symbols _) => .error (.valueError name)
  | some (.text _) => .error .arithmeticError
  | some .notApplicable => .error .arithmeticError
  | none => .error (.keyError name)

def intValue (name : String) : Except Exn ℤ :=
  match policy.values.get? name with
  | some (.int value) => .ok value
  | some _ => .error (.valueError name)
  | none => .error (.keyError name)

def allowedSymbols : Except Exn (List String) :=
  match policy.values.get? "allowed_symbols" with
  | some (.symbols value) => .ok value
  | some _ => .error .typeError
  | none => .error (.keyError "allowed_symbols")

def evidenceFailures : List String :=
  (evidenceControlsV1.filter fun control =>
    match policy.values.get? control.1 with
    | none => false
    | some value => decide (value ≠ .notApplicable)).map Prod.snd

end AccountPolicyV1

/-! ## The cost policy -/

/-- `takerFeeBps` is the fee of the verified schedule, if there is one; the names of the
slippage scenarios are unique. -/
structure CostPolicyV1 where
  takerFeeBps : Option Decimal
  slippageScenarios : Dict String Decimal
  contentHash : String

inductive CostMode where
  | grossNonPromotable | feeScheduled
deriving DecidableEq, Repr

namespace CostPolicyV1

variable (cost : CostPolicyV1)

def mode : CostMode := if cost.takerFeeBps.isNone then .grossNonPromotable else .feeScheduled

def promotableCostBasis : Bool :=
  cost.takerFeeBps.isSome && !cost.slippageScenarios.rows.isEmpty

def scenarios (a : Decimal.Arithmetic) : Dict String Decimal :=
  match cost.takerFeeBps with
  | none => Dict.empty.set "GROSS" 0
  | some fee =>
      if cost.slippageScenarios.rows.isEmpty then Dict.empty.set "FEES_ONLY" fee
      else
        cost.slippageScenarios.rows.foldl (fun named s => named.set s.1 (a.add fee s.2)) Dict.empty

end CostPolicyV1

/-- `max(scenarios, key=lambda name: (scenarios[name], name))`. -/
def severeScenario (scenarios : Dict String Decimal) : String :=
  (LastWriter.best (fun s : String × Decimal => toLex (s.2, s.1)) scenarios.rows).elim "" Prod.fst

structure AccountTerms where
  moneyUnit : String
  unit : Decimal
  capital : Decimal
  allowed : List String
  maximumOrderNotional : Decimal
  maximumPositionNotional : Decimal
  maximumDailyOrderNotional : Decimal
  maximumLeverage : Decimal
  dailyLossLimit : Decimal
  maximumDrawdownLimit : Decimal
  maxAge : ℤ
  evidenceFailures : List String
  scenarios : Dict String Decimal

def AccountTerms.severe (t : AccountTerms) : String := severeScenario t.scenarios

/-- `timedelta(seconds=seconds)` in microseconds; a timedelta has fewer than `10 ^ 9` days. -/
def timedeltaSeconds (seconds : ℤ) : Except Exn ℤ :=
  if seconds.natAbs < 86400 * 10 ^ 9 then .ok (seconds * 10 ^ 6) else .error .arithmeticError

def accountTerms (a : Decimal.Arithmetic) (policy : AccountPolicyV1) (cost : CostPolicyV1) :
    Except Exn AccountTerms := do
  let unit ← policy.decimalValue "paper_order_notional"
  let capital ← policy.decimalValue "paper_starting_capital"
  let allowed ← policy.allowedSymbols
  let order ← policy.decimalValue "maximum_order_notional"
  let position ← policy.decimalValue "maximum_position_notional"
  let daily ← policy.decimalValue "maximum_daily_order_notional"
  let leverage ← policy.decimalValue "maximum_leverage"
  let loss ← policy.decimalValue "daily_loss_limit"
  let drawdown ← policy.decimalValue "maximum_drawdown_limit"
  let seconds ← policy.intValue "max_market_age_seconds"
  let maxAge ← timedeltaSeconds seconds
  .ok ⟨policy.baseCurrency, unit, capital, allowed, order, position, daily, leverage, loss,
    drawdown, maxAge, policy.evidenceFailures, cost.scenarios a⟩

/-! ## Fills, signals and events -/

/-- A recorded fill; `openMarketKnowledgeMicros` is of its evidence, where it has any. -/
structure PaperFillV1 where
  signalId : String
  studyId : String
  trialId : String
  symbol : String
  targetTo : ℤ
  decidedAtMicros : ℤ
  fillBarOpenMicros : ℤ
  status : String
  fillPrice : Option Decimal
  openMarketKnowledgeMicros : Option ℤ
  signalContentHash : String
deriving DecidableEq

structure SignalIdentity where
  canonical : String
  completeMarketKnowledgeMicros : Option ℤ
deriving DecidableEq

abbrev StudyTrial := String × String

namespace PaperFillV1

variable (fill : PaperFillV1)

def key : StudyTrial := (fill.studyId, fill.trialId)

def Filled : Prop := fill.status = "FILLED"

instance : Decidable fill.Filled := inferInstanceAs (Decidable (_ = _))

def knownAt : Except Exn ℤ :=
  match fill.openMarketKnowledgeMicros with
  | some known => .ok known
  | none =>
      if fill.Filled then
        .error (.paperAccountError "filled_price_without_its_market_knowledge_time")
      else .ok (fill.fillBarOpenMicros + 60000000)

def price : Except Exn Decimal :=
  match fill.fillPrice with
  | some price => .ok price
  | none => .error .arithmeticError

end PaperFillV1

inductive EventKind where
  | decision | execution
deriving DecidableEq, Repr

def EventKind.code : EventKind → ℕ
  | .decision => 0
  | .execution => 1

structure LedgerEvent where
  instant : ℤ
  kind : EventKind
  fill : PaperFillV1
deriving DecidableEq

def LedgerEvent.sortKey (e : LedgerEvent) : ℤ ×ₗ ℕ ×ₗ ℤ ×ₗ String ×ₗ String ×ₗ String :=
  toLex (e.instant, toLex (e.kind.code, toLex (e.fill.decidedAtMicros,
    toLex (e.fill.studyId, toLex (e.fill.trialId, e.fill.signalId)))))

structure IdentityHash (ledger : Type) where
  ofSignal : SignalIdentity → String
  ofLedger : ledger → String

def PaperFillV1.events (fill : PaperFillV1) (known cutoff : ℤ) : List LedgerEvent :=
  if cutoff < fill.decidedAtMicros then []
  else
    ⟨fill.decidedAtMicros, .decision, fill⟩ ::
      if known ≤ cutoff then [⟨known, .execution, fill⟩] else []

def acceptFills (signalHash : SignalIdentity → String) (signals : Dict String SignalIdentity)
    (cutoff : ℤ) : List String → List PaperFillV1 → Except Exn (List LedgerEvent)
  | _, [] => .ok []
  | seen, fill :: fills => do
      let known ← fill.knownAt
      if known ≤ fill.decidedAtMicros then
        .error (.paperAccountError "fill_price_known_before_its_decision")
      else if fill.signalId ∈ seen then
        .error (.paperAccountError "a_signal_has_more_than_one_fill")
      else if (signals.get? fill.signalId).any (signalHash · ≠ fill.signalContentHash) then
        .error (.paperAccountError "stored_signal_does_not_match_its_fill")
      else do
        let rest ← acceptFills signalHash signals cutoff (fill.signalId :: seen) fills
        .ok (fill.events known cutoff ++ rest)

def ledgerEvents (signalHash : SignalIdentity → String) (signals : Dict String SignalIdentity)
    (cutoff : ℤ) (fills : List PaperFillV1) : Except Exn (List LedgerEvent) := do
  let events ← acceptFills signalHash signals cutoff [] fills
  .ok (sortBy LedgerEvent.sortKey events)

/-! ## The state of the account -/

/-- `_Position`: `quantity` is signed, `entryNotional` is not. -/
structure AccountPosition where
  units : ℤ
  quantity : Decimal
  entryPrice : Decimal
  entryNotional : Decimal
deriving DecidableEq

def AccountPosition.flat : AccountPosition := ⟨0, 0, 0, 0⟩

structure Mark where
  knownAt : ℤ
  symbol : String
  price : Decimal
deriving DecidableEq

structure AccountOrder where
  signalId : String
  studyId : String
  trialId : String
  symbol : String
  decidedAt : ℤ
  accountUnitsFrom : ℤ
  targetTo : ℤ
  reasons : List String
deriving DecidableEq

inductive LegKind where
  | closeLeg | openLeg
deriving DecidableEq, Repr

structure Leg where
  leg : LegKind
  quantity : Decimal
  notional : Decimal
deriving DecidableEq

inductive FilledDecision where
  | approvedFilled | openingRefusedZeroQuantityAfterRounding | openingRejectedCloseFilled
  | openingRejectedNothingToClose | nothingToClose
deriving DecidableEq, Repr

/-- The `decision` of an order, with what is recorded beside it. -/
inductive OrderDecision where
  | noOrderAlreadyAtTarget
  | rejected
  | pendingExecution
  | notFilled (fillStatus : String)
  | filled (decision : FilledDecision) (fillPrice : Decimal) (fillBarOpenAt : ℤ) (legs : List Leg)
deriving DecidableEq

structure LedgerOrder where
  order : AccountOrder
  decision : OrderDecision
deriving DecidableEq

structure PendingOrder where
  key : StudyTrial
  symbol : String
  desired : ℤ
  approvedOpen : Bool
  openNotional : Decimal
  decided : ℤ
  signalId : String
  sign : ℤ
  order : AccountOrder
deriving DecidableEq

/-- The variables of the event loop.  `latest` is the signal of a key's latest order, and
`executedAt` an instant whose executions are booked and not yet in the peak. -/
structure LedgerState where
  positions : Dict StudyTrial AccountPosition
  intended : Dict StudyTrial ℤ
  symbolOf : Dict StudyTrial String
  marks : List Mark
  realized : Dict String Decimal
  reservedByDay : Dict ℤ Decimal
  dayStartEquity : Dict ℤ Decimal
  peak : Decimal
  pending : Dict String PendingOrder
  orders : List LedgerOrder
  rejections : Dict String ℕ
  latest : Dict StudyTrial String
  executedAt : Option ℤ

end TradePlatform
