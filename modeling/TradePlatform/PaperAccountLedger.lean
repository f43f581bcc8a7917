/-
# `TradePlatform.PaperAccountLedger` — the event loop of the ledger, and its result

The body of `build_paper_account_ledger_v1`: `mark` and `equity`, `_execute`, the two kinds
of event, the loop, and the ledger that is read off the last state.  Every arithmetic step
is rounded by the arithmetic `a`.  The errors of the loop are all arithmetic: a price that
is missing or zero, a number too long to quantize, an instant outside the calendar.
-/
import TradePlatform.PaperAccount

namespace TradePlatform

def at_ (micros : ℤ) : Except Exn ℤ :=
  if -62135596800000000 ≤ micros ∧ micros < 253402300800000000 then .ok micros
  else .error .arithmeticError

def validOperation (x : Option Decimal) : Except Exn Decimal :=
  match x with
  | some value => .ok value
  | none => .error .arithmeticError

def divide (a : Decimal.Arithmetic) (x y : Decimal) : Except Exn Decimal :=
  if y = 0 then .error .arithmeticError else .ok (a.div x y)

def text (a : Decimal.Arithmetic) (value : Decimal) : Decimal := a.round value

def moneyText (a : Decimal.Arithmetic) (value : Decimal) : Except Exn Decimal := do
  let quantized ← validOperation (a.quantize 8 value)
  .ok (text a quantized)

/-- `mark`: the latest price of the symbol that is known before an instant. -/
def latestMark (marks : List Mark) (symbol : String) (before : ℤ) : Option Decimal :=
  ((marks.filter fun m => decide (m.symbol = symbol ∧ m.knownAt < before)).getLast?).map Mark.price

def zeroQuantityReason : String := "ZERO_QUANTITY_AFTER_ROUNDING"

def AccountOrder.atZeroQuantity (order : AccountOrder) : AccountOrder :=
  { order with reasons := order.reasons ++ [zeroQuantityReason] }

namespace LedgerState

variable (a : Decimal.Arithmetic) (t : AccountTerms) (signals : Dict String SignalIdentity)
  (s : LedgerState)

def initial (t : AccountTerms) : LedgerState where
  positions := Dict.empty
  intended := Dict.empty
  symbolOf := Dict.empty
  marks := []
  realized := t.scenarios.rows.foldl (fun realized s => realized.set s.1 0) Dict.empty
  reservedByDay := Dict.empty
  dayStartEquity := Dict.empty
  peak := t.capital
  pending := Dict.empty
  orders := []
  rejections := Dict.empty
  latest := Dict.empty
  executedAt := none

/-- `positions[key]`, present from the first event of the key on. -/
def position (key : StudyTrial) : AccountPosition := s.positions.getD key .flat

def unrealized (key : StudyTrial) (pos : AccountPosition) (before : ℤ) (total : Decimal) :
    Decimal :=
  if pos.units = 0 then total
  else
    match latestMark s.marks (s.symbolOf.getD key "") before with
    | none => total
    | some price => a.add total (a.mul pos.quantity (a.sub price pos.entryPrice))

def equity (name : String) (before : ℤ) : Decimal :=
  s.positions.rows.foldl (fun total item => s.unrealized a item.1 item.2 before total)
    (a.add t.capital (s.realized.getD name 0))

def samplePeak (instant : ℤ) : LedgerState :=
  match s.executedAt with
  | none => s
  | some executedAt =>
      if instant = executedAt then s
      else
        { s with
          peak := max s.peak (s.equity a t t.severe (executedAt + 1))
          executedAt := none }

def touch (fill : PaperFillV1) : LedgerState :=
  { s with
    symbolOf := s.symbolOf.set fill.key fill.symbol
    positions := s.positions.setdefault fill.key .flat }

def meet (e : LedgerEvent) : LedgerState := (s.samplePeak a t e.instant).touch e.fill

/-! ## Executions -/

/-- The loops over the scenarios: `f` gives the new realized amount from the bps of the
scenario and the old one. -/
def book (f : Decimal → Decimal → Decimal) : Dict String Decimal :=
  t.scenarios.rows.foldl (fun realized scenario =>
    realized.set scenario.1 (f scenario.2 (realized.getD scenario.1 0))) s.realized

structure Booked where
  state : LedgerState
  legs : List Leg

def closeHeld (key : StudyTrial) (price : Decimal) : Except Exn Booked :=
  let pos := s.position key
  if pos.units = 0 then .ok ⟨s, []⟩
  else do
    let legNotional := a.mul (a.abs pos.quantity) price
    let notional ← moneyText a legNotional
    .ok
      { state :=
          { s with
            realized := s.book t fun bps realized =>
              a.add realized (a.sub (a.mul pos.quantity (a.sub price pos.entryPrice))
                (a.div (a.mul legNotional bps) 10000))
            positions := s.positions.set key .flat }
        legs := [⟨.closeLeg, text a (a.neg pos.quantity), notional⟩] }

def openingQuantity (item : PendingOrder) (price : Decimal) : Except Exn Decimal := do
  let quotient ← divide a item.openNotional price
  let rounded ← validOperation (a.quantizeDown 12 quotient)
  .ok (a.mul rounded item.sign)

def openApproved (item : PendingOrder) (key : StudyTrial) (quantity price : Decimal) :
    Except Exn Booked := do
  let notional ← moneyText a (a.mul (a.abs quantity) price)
  .ok
    { state :=
        { s with
          realized := s.book t fun bps realized =>
            a.sub realized (a.div (a.mul (a.mul (a.abs quantity) price) bps) 10000)
          positions := s.positions.set key
            ⟨item.desired, quantity, price, a.mul (a.abs quantity) price⟩ }
      legs := [⟨.openLeg, text a quantity, notional⟩] }

def unopenedDecision (item : PendingOrder) (legs : List Leg) : FilledDecision :=
  if item.desired ≠ 0 then
    if legs = [] then .openingRejectedNothingToClose else .openingRejectedCloseFilled
  else if legs = [] then .nothingToClose else .approvedFilled

def record (order : AccountOrder) (decision : FilledDecision) (price : Decimal) (barOpen : ℤ)
    (legs : List Leg) : LedgerState :=
  { s with orders := s.orders ++ [⟨order, .filled decision (text a price) barOpen legs⟩] }

def execute (fill : PaperFillV1) (item : PendingOrder) (key : StudyTrial) :
    Except Exn LedgerState :=
  if ¬ fill.Filled then
    .ok { s with orders := s.orders ++ [⟨item.order, .notFilled fill.status⟩] }
  else do
    let price ← fill.price
    let closed ← s.closeHeld a t key price
    let quantity ← openingQuantity a item price
    let barOpen ← at_ fill.fillBarOpenMicros
    if item.approvedOpen ∧ quantity = 0 then
      .ok (closed.state.record a item.order.atZeroQuantity .openingRefusedZeroQuantityAfterRounding
        price barOpen closed.legs)
    else if item.approvedOpen then do
      let opened ← closed.state.openApproved a t item key quantity price
      .ok (opened.state.record a item.order .approvedFilled price barOpen
        (closed.legs ++ opened.legs))
    else
      .ok (closed.state.record a item.order (unopenedDecision item closed.legs) price barOpen
        closed.legs)

def settleIntended (fill : PaperFillV1) : LedgerState :=
  if s.latest.get? fill.key = some fill.signalId then
    { s with intended := s.intended.set fill.key (s.position fill.key).units }
  else s

def executePending (fill : PaperFillV1) : Except Exn LedgerState :=
  match s.pending.get? fill.signalId with
  | none => .ok s
  | some item => do
      let executed ← { s with pending := s.pending.erase fill.signalId }.execute a t fill item
        fill.key
      .ok (executed.settleIntended fill)

def addMark (fill : PaperFillV1) (instant : ℤ) : Except Exn LedgerState :=
  if fill.Filled then do
    let price ← fill.price
    .ok { s with marks := s.marks ++ [⟨instant, fill.symbol, price⟩] }
  else .ok s

def executionEvent (fill : PaperFillV1) (instant : ℤ) : Except Exn LedgerState := do
  let executed ← s.executePending a t fill
  let marked ← executed.addMark fill instant
  .ok { marked with executedAt := some instant }

/-! ## Decisions -/

def intendedUnits (key : StudyTrial) : ℤ := s.intended.getD key (s.position key).units

def pendingOf (key : StudyTrial) : List PendingOrder :=
  s.pending.values.filter fun p => decide (p.key = key)

def reserved (key : StudyTrial) : List PendingOrder :=
  s.pending.values.filter fun p => p.approvedOpen && decide (p.key ≠ key)

def markOrEntry (symbol : String) (decided : ℤ) (pos : AccountPosition) : Decimal :=
  match latestMark s.marks symbol decided with
  | none => pos.entryPrice
  | some price => if price = 0 then pos.entryPrice else price

/-- The notional of the leg that the order will close: of the latest pending order of the
key, or of the position it holds. -/
def closingNotional (fill : PaperFillV1) (decided : ℤ) : Decimal :=
  match LastWriter.best (fun p : PendingOrder => toLex (p.decided, p.signalId))
      (s.pendingOf fill.key) with
  | some p => p.openNotional
  | none =>
      let pos := s.position fill.key
      if pos.units = 0 then 0
      else a.mul (a.abs pos.quantity) (s.markOrEntry fill.symbol decided pos)

def sumOf (terms : List Decimal) : Decimal := terms.foldl a.add 0

def others (key : StudyTrial) : List (StudyTrial × AccountPosition) :=
  s.positions.rows.filter fun item => decide (item.2.units ≠ 0 ∧ item.1 ≠ key)

def grossOpen (key : StudyTrial) : Decimal :=
  a.add (sumOf a ((s.others key).map fun item => item.2.entryNotional))
    (sumOf a ((s.reserved key).map PendingOrder.openNotional))

def netSymbol (key : StudyTrial) (symbol : String) : Decimal :=
  a.add
    (sumOf a (((s.others key).filter fun item =>
        decide (s.symbolOf.getD item.1 "" = symbol)).map fun item =>
      a.mul item.2.entryNotional (if 0 < item.2.units then 1 else -1)))
    (sumOf a (((s.reserved key).filter fun p => decide (p.symbol = symbol)).map fun p =>
      a.mul p.openNotional p.sign))

/-- `symbol.endswith(money_unit) and len(symbol) > len(money_unit)`. -/
def quotedIn (symbol moneyUnit : String) : Bool :=
  moneyUnit.toList.isSuffixOf symbol.toList && decide (moneyUnit.length < symbol.length)

def checks (fill : PaperFillV1) (day : ℤ) (equityNow closing notional : Decimal) :
    List (Bool × String) :=
  let signed := a.mul notional (if 0 < fill.targetTo then 1 else -1)
  let dayLegs := a.add (s.reservedByDay.getD day 0) closing
  [(decide (fill.symbol ∈ t.allowed), "SYMBOL_NOT_ALLOWED"),
    (quotedIn fill.symbol t.moneyUnit, "SYMBOL_NOT_QUOTED_IN_ACCOUNT_CURRENCY"),
    (decide (notional ≤ t.maximumOrderNotional), "ORDER_NOTIONAL_LIMIT"),
    (decide (a.abs (a.add (s.netSymbol a fill.key fill.symbol) signed)
      ≤ t.maximumPositionNotional), "POSITION_NOTIONAL_LIMIT"),
    (decide (a.add dayLegs notional ≤ t.maximumDailyOrderNotional), "DAILY_ORDER_NOTIONAL_LIMIT"),
    (decide (0 < equityNow ∧
      a.div (a.add (s.grossOpen a fill.key) notional) equityNow ≤ t.maximumLeverage),
      "LEVERAGE_LIMIT"),
    (decide (a.sub (s.dayStartEquity.getD day 0) equityNow < t.dailyLossLimit),
      "DAILY_LOSS_LIMIT_REACHED"),
    (decide (a.sub s.peak equityNow < t.maximumDrawdownLimit), "DRAWDOWN_LIMIT_REACHED")]

def marketAgeReasons (fill : PaperFillV1) (decided : ℤ) : Except Exn (List String) :=
  match (signals.get? fill.signalId).bind SignalIdentity.completeMarketKnowledgeMicros with
  | none => .ok ["MARKET_AGE_UNASSESSABLE_SIGNAL_EVIDENCE_MISSING"]
  | some knowledge => do
      let known ← at_ knowledge
      .ok (if t.maxAge < decided - known then ["STALE_MARKET_DATA"] else [])

def openingReasons (fill : PaperFillV1) (decided : ℤ) (equityNow closing notional : Decimal) :
    Except Exn (List String) :=
  if fill.targetTo = 0 then .ok []
  else do
    let age ← marketAgeReasons t signals fill decided
    let failed := (s.checks a t fill (utcDate decided) equityNow closing notional).filter
      fun check => !check.1
    .ok (failed.map Prod.snd ++ age ++ t.evidenceFailures)

/-- `rejections[reason] = rejections.get(reason, 0) + 1`, for every reason. -/
def countRejections (reasons : List String) : Dict String ℕ :=
  reasons.foldl (fun rejections reason => rejections.set reason (rejections.getD reason 0 + 1))
    s.rejections

def newOrder (fill : PaperFillV1) (decided : ℤ) : AccountOrder where
  signalId := fill.signalId
  studyId := fill.studyId
  trialId := fill.trialId
  symbol := fill.symbol
  decidedAt := decided
  accountUnitsFrom := s.intendedUnits fill.key
  targetTo := fill.targetTo
  reasons := []

def evaluate (day : ℤ) (equityNow : Decimal) : LedgerState :=
  { s with
    dayStartEquity := s.dayStartEquity.setdefault day equityNow
    peak := max s.peak equityNow }

def reserve (fill : PaperFillV1) (decided : ℤ) (closing opened : Decimal) (target : ℤ)
    (reasons : List String) : LedgerState :=
  let day := utcDate decided
  { s with
    rejections := s.countRejections reasons
    reservedByDay :=
      s.reservedByDay.set day (a.add (a.add (s.reservedByDay.getD day 0) closing) opened)
    intended := s.intended.set fill.key target }

def enqueue (fill : PaperFillV1) (decided : ℤ) (approvedOpen : Bool) (opened : Decimal)
    (order : AccountOrder) : LedgerState :=
  { s with
    latest := s.latest.set fill.key fill.signalId
    pending := s.pending.set fill.signalId
      { key := fill.key
        symbol := fill.symbol
        desired := fill.targetTo
        approvedOpen := approvedOpen
        openNotional := opened
        decided := decided
        signalId := fill.signalId
        sign := if 0 < fill.targetTo then 1 else -1
        order := order } }

def decideOrder (fill : PaperFillV1) (decided : ℤ) : Except Exn LedgerState := do
  let equityNow := s.equity a t t.severe decided
  let evaluated := s.evaluate (utcDate decided) equityNow
  let closing := evaluated.closingNotional a fill decided
  let notional := a.mul t.unit |fill.targetTo|
  let reasons ← evaluated.openingReasons a t signals fill decided equityNow closing notional
  let approvedOpen : Bool := decide (fill.targetTo ≠ 0 ∧ reasons = [])
  let opened := if approvedOpen then notional else 0
  let target := if approvedOpen then fill.targetTo else 0
  let reservedState := evaluated.reserve a fill decided closing opened target reasons
  let order := { s.newOrder fill decided with reasons := reasons }
  -- a rejected opening of a flat key has nothing to execute
  if fill.targetTo ≠ 0 ∧ approvedOpen = false ∧ (s.position fill.key).units = 0
      ∧ s.pendingOf fill.key = [] then
    .ok { reservedState with orders := s.orders ++ [⟨order, .rejected⟩] }
  else .ok (reservedState.enqueue fill decided approvedOpen opened order)

def decisionEvent (fill : PaperFillV1) (instant : ℤ) : Except Exn LedgerState := do
  let decided ← at_ instant
  if fill.targetTo = s.intendedUnits fill.key then
    .ok { s with orders := s.orders ++ [⟨s.newOrder fill decided, .noOrderAlreadyAtTarget⟩] }
  else s.decideOrder a t signals fill decided

def step (e : LedgerEvent) : Except Exn LedgerState :=
  match e.kind with
  | .execution => (s.meet a t e).executionEvent a t e.fill e.instant
  | .decision => (s.meet a t e).decisionEvent a t signals e.fill e.instant

end LedgerState

/-! ## The ledger -/

structure OpenPosition where
  studyId : String
  trialId : String
  symbol : String
  units : ℤ
  quantity : Decimal
  entryPrice : Decimal
deriving DecidableEq

structure LedgerIdentity where
  schemaVersion : String := "paper-account-ledger-v1"
  accountId : String
  policyVersionId : String
  policyContentHash : String
  moneyUnit : String
  costPolicyHash : String
  costMode : CostMode
  riskScenario : String
  asOf : ℤ
  sizing : String := "FIXED_NOTIONAL_PER_UNIT_TARGET"
  marking : String := "LATEST_PAPER_FILL_PRICE_OF_THE_SYMBOL_KNOWN_BEFORE_THE_DECISION"
  notApplicableControls : List String
  startingCapital : Decimal
  equityByScenario : List (String × Decimal)
  realizedByScenario : List (String × Decimal)
  openPositions : List OpenPosition
  orders : List LedgerOrder
  rejectionsByReason : List (String × ℕ)
  funding : String := "NOT_MODELLED"
  costComplete : Bool := false
  promotable : Bool
  claim : String := "PAPER_ACCOUNT_SIMULATION_NOT_EXECUTION_AUTHORITY"
deriving DecidableEq

structure PaperAccountLedger extends LedgerIdentity where
  contentHash : String
deriving DecidableEq

/-- The order of the orders: decision, study, trial, signal.  UTC texts sort as the instants
do (`isoformat_lt_iff`). -/
def LedgerOrder.sortKey (o : LedgerOrder) : ℤ ×ₗ String ×ₗ String ×ₗ String :=
  toLex (o.order.decidedAt, toLex (o.order.studyId, toLex (o.order.trialId, o.order.signalId)))

namespace LedgerState

variable (a : Decimal.Arithmetic) (t : AccountTerms) (s : LedgerState)

def allOrders : List LedgerOrder :=
  s.orders ++ s.pending.values.map fun item => ⟨item.order, .pendingExecution⟩

def sortedPositions : List (StudyTrial × AccountPosition) :=
  sortBy (fun item => toLex item.1) s.positions.rows

def openPositions : List OpenPosition :=
  (s.sortedPositions.filter fun item => decide (item.2.units ≠ 0)).map fun item =>
    ⟨item.1.1, item.1.2, s.symbolOf.getD item.1 "", item.2.units, text a item.2.quantity,
      text a item.2.entryPrice⟩

/-- `{name: _text(_q(value, MONEY_QUANTUM_V1)) ...}` over the scenarios. -/
def moneyByScenario (value : String → Decimal) : Except Exn (List (String × Decimal)) :=
  t.scenarios.rows.mapM fun scenario => do
    let money ← moneyText a (value scenario.1)
    .ok (scenario.1, money)

def identity (policy : AccountPolicyV1) (cost : CostPolicyV1) (asOf cutoff : ℤ) :
    Except Exn LedgerIdentity := do
  let finalEquity ← moneyByScenario a t fun name => s.equity a t name (cutoff + 1)
  let realized ← moneyByScenario a t fun name => s.realized.getD name 0
  .ok
    { accountId := policy.accountId
      policyVersionId := policy.policyVersionId
      policyContentHash := policy.contentHash
      moneyUnit := policy.baseCurrency
      costPolicyHash := cost.contentHash
      costMode := cost.mode
      riskScenario := t.severe
      asOf := asOf
      notApplicableControls := policy.notApplicable
      startingCapital := text a t.capital
      equityByScenario := finalEquity
      realizedByScenario := realized
      openPositions := s.openPositions a
      orders := sortBy LedgerOrder.sortKey s.allOrders
      rejectionsByReason := sortBy Prod.fst s.rejections.rows
      promotable := cost.promotableCostBasis }

end LedgerState

/-- `int((as_of - _EPOCH) / timedelta(microseconds=1))`: the quotient is a double. -/
def cutoffOf (asOf : ℤ) : ℤ := Binary64.ofInt asOf

def buildPaperAccountLedgerV1 (a : Decimal.Arithmetic) (hash : IdentityHash LedgerIdentity)
    (policy : AccountPolicyV1) (fills : List PaperFillV1) (signals : Dict String SignalIdentity)
    (cost : CostPolicyV1) (asOf : ℤ) : Except Exn PaperAccountLedger :=
  if policy.unresolved ≠ [] then
    .error (.paperAccountError
      ("paper_account_requires_an_active_policy:" ++ ",".intercalate policy.unresolved))
  else if policy.kind ≠ .personalPaper then
    .error (.paperAccountError "prop_account_rules_are_not_enforced_by_paper_ledger_v1")
  else do
    let t ← accountTerms a policy cost
    let events ← ledgerEvents hash.ofSignal signals (cutoffOf asOf) fills
    let final ← Replay.replay (fun s e => LedgerState.step a t signals s e)
      (LedgerState.initial t) events
    let identity ← final.identity a t policy cost asOf (cutoffOf asOf)
    .ok { identity with contentHash := hash.ofLedger identity }

end TradePlatform
