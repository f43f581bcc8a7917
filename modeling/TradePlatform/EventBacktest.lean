/-
# `TradePlatform.EventBacktest` — the event-driven order simulation

`EventDrivenBacktester` of `event_backtest.py`, without corporate actions: orders wait
for their latency, trigger, fill against the volume of an event and expire; each fill
moves the position of its instrument and the cash.  `process` writes as it goes, so a
call that raises keeps what it wrote before: the answer and the state after it are
returned together.  `sqrt` is the square root of the decimal context.  The generated
fill ids are read by no method and are left out.
-/
import TradePlatform.PaperExecution
import TradePlatform.Lib.Table
import TradePlatform.Lib.Run

namespace TradePlatform

inductive SimulatedOrderType where
  | market | limit | stop | stopLimit
deriving DecidableEq, Repr

inductive SimulatedOrderStatus where
  | pendingLatency | working | partiallyFilled | filled | cancelled | expired
deriving DecidableEq, Repr

structure MarketEvent where
  instrumentId : String
  occurredAt : DateTime
  bid : Decimal
  ask : Decimal
  availableVolume : Decimal
  sessionOpen : Bool
deriving DecidableEq

def MarketEvent.validate (event : MarketEvent) : Except Exn Unit :=
  if event.bid ≤ 0 ∨ event.ask < event.bid ∨ event.availableVolume < 0 then
    .error (.eventBacktestValidationError "invalid_market_event")
  else .ok ()

structure ExecutionAssumptions where
  latency : ℤ
  maximumParticipation : Decimal
  commissionBps : Decimal
  fixedFee : Decimal
  impactCoefficient : Decimal
deriving DecidableEq

def ExecutionAssumptions.validate (a : ExecutionAssumptions) : Except Exn Unit :=
  if a.latency < 0 ∨ ¬ (0 < a.maximumParticipation ∧ a.maximumParticipation ≤ 1) then
    .error (.eventBacktestValidationError "invalid_execution_assumptions")
  else if a.commissionBps < 0 ∨ a.fixedFee < 0 ∨ a.impactCoefficient < 0 then
    .error (.eventBacktestValidationError "invalid_execution_assumptions")
  else .ok ()

structure SimulatedOrder where
  orderId : UUID
  instrumentId : String
  side : OrderSide
  orderType : SimulatedOrderType
  quantity : Decimal
  submittedAt : DateTime
  limitPrice : Option Decimal := none
  stopPrice : Option Decimal := none
  expiresAt : Option DateTime := none
  status : SimulatedOrderStatus := .pendingLatency
  triggered : Bool := false
  filledQuantity : Decimal := 0
deriving DecidableEq

structure SimulatedFill where
  orderId : UUID
  instrumentId : String
  occurredAt : DateTime
  side : OrderSide
  quantity : Decimal
  price : Decimal
  fee : Decimal
deriving DecidableEq

def missingPrice : Option Decimal → Bool
  | none => true
  | some price => decide (price ≤ 0)

def createOrder (orderId : UUID) (instrumentId : String) (side : OrderSide)
    (orderType : SimulatedOrderType) (quantity : Decimal) (submittedAt : DateTime)
    (limitPrice stopPrice : Option Decimal) (expiresAt : Option DateTime) :
    Except Exn SimulatedOrder :=
  let order : SimulatedOrder :=
    { orderId, instrumentId, side, orderType, quantity, submittedAt, limitPrice, stopPrice,
      expiresAt }
  if instrumentId = "" ∨ quantity ≤ 0 ∨ submittedAt.isAware = false then
    .error (.eventBacktestValidationError "invalid_order")
  else if orderType = .limit ∧ missingPrice limitPrice then
    .error (.eventBacktestValidationError "limit_order_requires_limit_price")
  else if orderType = .stop ∧ missingPrice stopPrice then
    .error (.eventBacktestValidationError "stop_order_requires_stop_price")
  else if orderType = .stopLimit ∧ (missingPrice stopPrice ∨ missingPrice limitPrice) then
    .error (.eventBacktestValidationError "stop_limit_order_requires_prices")
  else
    match expiresAt with
    | none => .ok order
    | some expiry =>
        match submittedAt.lt expiry with
        | none => .error .typeError
        | some false => .error (.eventBacktestValidationError "invalid_order_expiry")
        | some true => .ok order

namespace SimulatedOrder

variable (c : Decimal.Context) (order : SimulatedOrder) (event : MarketEvent)

def Created : Prop :=
  createOrder order.orderId order.instrumentId order.side order.orderType order.quantity
    order.submittedAt order.limitPrice order.stopPrice order.expiresAt = .ok order

instance : Decidable order.Created := inferInstanceAs (Decidable (_ = _))

def remainingQuantity : Decimal := c.sub order.quantity order.filledQuantity

def Closed : Prop :=
  order.status = .filled ∨ order.status = .cancelled ∨ order.status = .expired

instance : Decidable order.Closed := inferInstanceAs (Decidable (_ ∨ _))

def Working : Prop := order.status = .working ∨ order.status = .partiallyFilled

instance : Decidable order.Working := inferInstanceAs (Decidable (_ ∨ _))

/-- `expires_at is not None and occurred_at >= expires_at`. -/
def expired (at_ : DateTime) : Option Bool :=
  match order.expiresAt with
  | none => some false
  | some expiry => (at_.lt expiry).map not

def AwaitsTrigger : Prop :=
  (order.orderType = .stop ∨ order.orderType = .stopLimit) ∧ order.triggered = false

instance : Decidable order.AwaitsTrigger := inferInstanceAs (Decidable (_ ∧ _))

/-- The comparison with the stop price, which `None` would raise in. -/
def stopReached : Option Bool :=
  order.stopPrice.map fun stop =>
    match order.side with
    | .buy => decide (stop ≤ event.ask)
    | .sell => decide (event.bid ≤ stop)

def advance (latency : ℤ) : Option SimulatedOrder :=
  if order.Closed then some order
  else
    match order.expired event.occurredAt with
    | none => none
    | some true => some { order with status := .expired }
    | some false =>
        match event.occurredAt.lt (order.submittedAt.add latency) with
        | none => none
        | some true => some order
        | some false =>
            if order.AwaitsTrigger then
              (order.stopReached event).map fun reached =>
                { order with status := .working, triggered := reached }
            else if order.status = .pendingLatency then some { order with status := .working }
            else some order

def isExecutable : Option Bool :=
  if order.orderType = .limit ∨ (order.orderType = .stopLimit ∧ order.triggered) then
    order.limitPrice.map fun limit =>
      match order.side with
      | .buy => decide (event.ask ≤ limit)
      | .sell => decide (limit ≤ event.bid)
  else
    some (decide (order.orderType = .market ∨ (order.orderType = .stop ∧ order.triggered)))

end SimulatedOrder

structure EventDrivenBacktester where
  assumptions : ExecutionAssumptions
  orders : Table SimulatedOrder.orderId
  fills : List SimulatedFill
  lastEventAt : Option DateTime
  positions : Table Position.instrumentId
  cash : CashBalance

structure EventBacktestResult where
  orders : List SimulatedOrder
  fills : List SimulatedFill
  totalFees : Decimal
  netCashChange : Decimal
  positions : List Position
  cash : CashBalance

namespace EventDrivenBacktester

def new (assumptions : ExecutionAssumptions) (initialCash : Decimal) (cashCurrency : String) :
    Except Exn EventDrivenBacktester :=
  match assumptions.validate with
  | .error e => .error e
  | .ok () =>
      if initialCash < 0 ∨ blank cashCurrency then
        .error (.eventBacktestValidationError "invalid_initial_portfolio")
      else .ok ⟨assumptions, .empty _, [], none, .empty _, ⟨cashCurrency, initialCash⟩⟩

variable (c : Decimal.Context) (sqrt : Decimal → Decimal) (s : EventDrivenBacktester)
  (event : MarketEvent)

def submit (order : SimulatedOrder) : Except Exn EventDrivenBacktester :=
  match s.orders.find? order.orderId with
  | some _ => .error (.eventBacktestValidationError "duplicate_order_id")
  | none => .ok { s with orders := s.orders.put order }

def cancel (orderId : UUID) : Except Exn (SimulatedOrder × EventDrivenBacktester) :=
  match s.orders.find? orderId with
  | none => .error (.eventBacktestValidationError "unknown_order")
  | some order =>
      if order.Closed then .error (.eventBacktestValidationError "order_not_cancellable")
      else
        let cancelled := { order with status := .cancelled }
        .ok (cancelled, { s with orders := s.orders.put cancelled })

def executionPrice (side : OrderSide) (quantity : Decimal) : Decimal :=
  let impact := c.mul s.assumptions.impactCoefficient (sqrt (c.div quantity event.availableVolume))
  match side with
  | .buy => c.mul event.ask (c.add 1 impact)
  | .sell => c.mul event.bid (c.sub 1 impact)

def fee (quantity price : Decimal) : Decimal :=
  c.add s.assumptions.fixedFee
    (c.div (c.mul (c.mul quantity price) s.assumptions.commissionBps) 10000)

/-- `self._positions.get(instrument_id, Position(instrument_id, 0, 0))`. -/
def position (instrumentId : String) : Position :=
  (s.positions.find? instrumentId).getD ⟨instrumentId, 0, 0⟩

/-- The average cost after a fill: averaged while the position grows, restarted at the
price when it crosses zero. -/
def averageCost (existing : Position) (delta price updatedQuantity : Decimal) : Decimal :=
  if existing.quantity = 0 ∨ 0 < c.mul existing.quantity delta then
    c.div (c.add (c.mul (c.abs existing.quantity) existing.averageCost) (c.mul (c.abs delta) price))
      (c.abs updatedQuantity)
  else if updatedQuantity = 0 then 0
  else if c.mul existing.quantity updatedQuantity < 0 then price
  else existing.averageCost

def applyFill (fill : SimulatedFill) : EventDrivenBacktester :=
  let existing := s.position fill.instrumentId
  let delta := if fill.side = .buy then fill.quantity else c.neg fill.quantity
  let updatedQuantity := c.add existing.quantity delta
  let direction : Decimal := if fill.side = .buy then -1 else 1
  { s with
    positions := s.positions.put ⟨fill.instrumentId, updatedQuantity,
      averageCost c existing delta fill.price updatedQuantity⟩
    cash := ⟨s.cash.currency, c.sub
      (c.add s.cash.amount (c.mul (c.mul direction fill.quantity) fill.price)) fill.fee⟩ }

def fillOf (order : SimulatedOrder) (quantity : Decimal) : SimulatedFill :=
  let price := s.executionPrice c sqrt event order.side quantity
  ⟨order.orderId, order.instrumentId, event.occurredAt, order.side, quantity, price,
    s.fee c quantity price⟩

/-- `min(remaining, available_volume * maximum_participation)`. -/
def fillQuantity (order : SimulatedOrder) : Decimal :=
  min (order.remainingQuantity c) (c.mul event.availableVolume s.assumptions.maximumParticipation)

def fillOrder (order : SimulatedOrder) (quantity : Decimal) : EventDrivenBacktester :=
  let fill := s.fillOf c sqrt event order quantity
  let s' := applyFill c { s with fills := s.fills ++ [fill] } fill
  let filledQuantity := c.add order.filledQuantity quantity
  let status := if filledQuantity = order.quantity then .filled else .partiallyFilled
  { s' with
    orders := s'.orders.put { order with filledQuantity := filledQuantity, status := status } }

/-- The body of the loop of `process`, for one order of the snapshot. -/
def processOrder (original : SimulatedOrder) : Except Exn Unit × EventDrivenBacktester :=
  match original.advance event s.assumptions.latency with
  | none => (.error .typeError, s)
  | some order =>
      let s' := { s with orders := s.orders.put order }
      if ¬ order.Working ∨ event.sessionOpen = false ∨ order.instrumentId ≠ event.instrumentId then
        (.ok (), s')
      else
        match order.isExecutable event with
        | none => (.error .typeError, s')
        | some false => (.ok (), s')
        | some true =>
            let quantity := s'.fillQuantity c event order
            if quantity ≤ 0 then (.ok (), s')
            else (.ok (), s'.fillOrder c sqrt event order quantity)

def processAll :
    EventDrivenBacktester → List SimulatedOrder → Except Exn Unit × EventDrivenBacktester
  | s, [] => (.ok (), s)
  | s, order :: rest =>
      match s.processOrder c sqrt event order with
      | (.error e, s') => (.error e, s')
      | (.ok (), s') => processAll s' rest

/-- `_last_event_at is not None and occurred_at < _last_event_at`. -/
def regresses (at_ : DateTime) : Option Bool :=
  match s.lastEventAt with
  | none => some false
  | some last => at_.lt last

def process : Except Exn (List SimulatedFill) × EventDrivenBacktester :=
  match event.validate with
  | .error e => (.error e, s)
  | .ok () =>
      match s.regresses event.occurredAt with
      | none => (.error .typeError, s)
      | some true => (.error (.eventBacktestValidationError "event_time_regression"), s)
      | some false =>
          let s' := { s with lastEventAt := some event.occurredAt }
          match processAll c sqrt event s' s'.orders.rows with
          | (.error e, s'') => (.error e, s'')
          | (.ok (), s'') => (.ok (s''.fills.drop s.fills.length), s'')

def cashFlow (fill : SimulatedFill) : Decimal :=
  match fill.side with
  | .buy => c.sub (c.mul (c.neg fill.quantity) fill.price) fill.fee
  | .sell => c.sub (c.mul fill.quantity fill.price) fill.fee

def result : EventBacktestResult where
  orders := s.orders.rows
  fills := s.fills
  totalFees := s.fills.foldl (fun total fill => c.add total fill.fee) 0
  netCashChange := s.fills.foldl (fun total fill => c.add total (cashFlow c fill)) 0
  positions := s.positions.rows.mergeSort fun a b => decide (a.instrumentId ≤ b.instrumentId)
  cash := s.cash

end EventDrivenBacktester

inductive BacktestCall where
  | submit (order : SimulatedOrder)
  | cancel (orderId : UUID)
  | process (event : MarketEvent)
deriving DecidableEq

namespace EventDrivenBacktester

def step (c : Decimal.Context) (sqrt : Decimal → Decimal) (s : EventDrivenBacktester) :
    BacktestCall → EventDrivenBacktester
  | .submit order => (s.submit order).toOption.getD s
  | .cancel orderId => ((s.cancel orderId).toOption.map Prod.snd).getD s
  | .process event => (s.process c sqrt event).2

end EventDrivenBacktester

end TradePlatform
