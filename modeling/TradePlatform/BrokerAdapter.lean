/-
# `TradePlatform.BrokerAdapter` — the sandbox paper broker

`SandboxPaperBrokerAdapter` of `broker_adapter.py`: its own orders, positions, cash
and the event log that the synchronisation reads.  A method raises before it writes,
so it is one function to the state after it, or an exception; the generated event id
and the clock reading of the event are an argument (`EventStamp`).
-/
import TradePlatform.PaperExecution
import TradePlatform.Lib.Table
import TradePlatform.Lib.Replay
import TradePlatform.Lib.Run

namespace TradePlatform

open OrderStatus

/-- A text of a `details` mapping that holds a number: what `Decimal(text)` reads, or
`none` where it raises `InvalidOperation`. -/
abbrev DecimalText := Option Decimal.Numeral

/-- The `details` of an event, under the keys the code writes and reads; `none` is a
missing key. -/
structure EventDetails where
  mode : Option String := none
  externalFillId : Option String := none
  quantity : Option DecimalText := none
  price : Option DecimalText := none
  limitPrice : Option DecimalText := none
  fee : Option DecimalText := none
deriving DecidableEq

structure BrokerOrderEvent where
  sequence : ℤ
  eventId : UUID
  clientIntentId : UUID
  status : OrderStatus
  eventType : String
  occurredAt : DateTime
  externalEventId : String
  details : EventDetails
deriving DecidableEq

inductive BrokerMode where
  | simulatedPaper | sandboxPaper
deriving DecidableEq

def BrokerMode.value : BrokerMode → String
  | .simulatedPaper => "SIMULATED_PAPER"
  | .sandboxPaper => "SANDBOX_PAPER"

structure BrokerConfiguration where
  brokerName : String
  mode : BrokerMode
  accountId : String
  credentialReference : Option String
deriving DecidableEq

structure EventStamp where
  eventId : UUID
  occurredAt : DateTime
deriving DecidableEq

structure SandboxPaperBrokerAdapter where
  configuration : BrokerConfiguration
  cash : CashBalance
  orders : Table PaperOrder.intentId
  positions : Table Position.instrumentId
  events : List BrokerOrderEvent
  fillIds : List String
  realizedPnl : Decimal
  fees : Decimal

abbrev BrokerResult := Except Exn (PaperOrder × SandboxPaperBrokerAdapter)

namespace SandboxPaperBrokerAdapter

def opened (configuration : BrokerConfiguration) (cash : CashBalance) :
    SandboxPaperBrokerAdapter :=
  ⟨configuration, cash, .empty _, .empty _, [], [], 0, 0⟩

variable (c : Decimal.Context) (s : SandboxPaperBrokerAdapter)

def order (intentId : UUID) : Except Exn PaperOrder :=
  match s.orders.find? intentId with
  | none => .error (.brokerAdapterError "UNKNOWN_ORDER")
  | some order => .ok order

/-- `_event`: the next sequence number is also the external event id. -/
def event (order : PaperOrder) (eventType : String) (details : EventDetails)
    (stamp : EventStamp) : SandboxPaperBrokerAdapter :=
  let sequence := s.events.length + 1
  { s with events := s.events ++ [⟨sequence, stamp.eventId, order.intentId, order.status, eventType,
      stamp.occurredAt, "sandbox:" ++ toString sequence, details⟩] }

def submit (order : PaperOrder) (stamp : EventStamp) : BrokerResult :=
  if (s.orders.find? order.intentId).isSome then
    .error (.brokerAdapterError "DUPLICATE_INTENT")
  else if order.status ≠ approved then .error (.brokerAdapterError "INVALID_STATE")
  else do
    let submitted ← order.transition submissionPending
    let submitted ← submitted.transition .submitted
    let submitted ← submitted.transition acknowledged
    let s' := { s with orders := s.orders.put submitted }
    pure (submitted, s'.event submitted "ORDER_ACKNOWLEDGED"
      { mode := some s.configuration.mode.value } stamp)

def cancel (intentId : UUID) (stamp : EventStamp) : BrokerResult := do
  let order ← s.order intentId
  let cancelled ← onValueError (.brokerAdapterError "INVALID_STATE") do
    let pending ← order.transition cancelPending
    pending.transition cancelled
  let s' := { s with orders := s.orders.put cancelled }
  pure (cancelled, s'.event cancelled "ORDER_CANCELLED" {} stamp)

def replace (intentId : UUID) (quantity limitPrice : Decimal.Numeral) (stamp : EventStamp) :
    BrokerResult := do
  let order ← s.order intentId
  if ¬ order.MayAmend quantity.value limitPrice.value then
    .error (.brokerAdapterError "INVALID_REPLACEMENT")
  let amended := order.withTerms quantity.value limitPrice.value
  let s' := { s with orders := s.orders.put amended }
  pure (amended, s'.event amended "ORDER_REPLACED"
    { quantity := some (some quantity), limitPrice := some (some limitPrice) } stamp)

def signedQuantity (side : OrderSide) (quantity : Decimal) : Decimal :=
  match side with
  | .buy => quantity
  | .sell => c.neg quantity

def position (instrumentId : String) : Position :=
  (s.positions.find? instrumentId).getD ⟨instrumentId, 0, 0⟩

def Adds (position : Position) (signed : Decimal) : Prop :=
  position.quantity = 0 ∨ 0 < c.mul position.quantity signed

instance (position : Position) (signed : Decimal) : Decidable (Adds c position signed) :=
  inferInstanceAs (Decidable (_ ∨ _))

def averageCost (position : Position) (signed quantity price : Decimal) : Decimal :=
  let newQuantity := c.add position.quantity signed
  if Adds c position signed then
    c.div (c.add (c.mul position.averageCost (c.abs position.quantity)) (c.mul price quantity))
      (c.abs newQuantity)
  else if newQuantity ≠ 0 then position.averageCost else 0

def realized (position : Position) (quantity price : Decimal) : Decimal :=
  c.mul (c.mul (c.sub price position.averageCost) (min (c.abs position.quantity) quantity))
    (if 0 < position.quantity then 1 else -1)

/-- The writes of `simulate_fill`, once the order has taken the fill. -/
def applyFill (order filled : PaperOrder) (externalFillId : String)
    (quantity price fee : Decimal.Numeral) (stamp : EventStamp) : SandboxPaperBrokerAdapter :=
  let notional := c.mul quantity.value price.value
  let position := s.position order.intent.instrumentId
  let signed := signedQuantity c order.intent.side quantity.value
  let cashDelta := match order.intent.side with
    | .buy => c.neg notional
    | .sell => notional
  let averageCost := averageCost c position signed quantity.value price.value
  let realizedPnl := if Adds c position signed then s.realizedPnl
    else c.add s.realizedPnl (realized c position quantity.value price.value)
  let s' := { s with
    positions := s.positions.put ⟨order.intent.instrumentId, c.add position.quantity signed,
      averageCost⟩
    realizedPnl := realizedPnl
    cash := ⟨s.cash.currency, c.sub (c.add s.cash.amount cashDelta) fee.value⟩
    fees := c.add s.fees fee.value
    orders := s.orders.put filled
    fillIds := s.fillIds ++ [externalFillId] }
  let details : EventDetails := {
    externalFillId := some externalFillId
    quantity := some (some quantity)
    price := some (some price)
    fee := some (some fee) }
  s'.event filled "FILL" details stamp

def simulateFill (externalFillId : String) (intentId : UUID)
    (quantity price fee : Decimal.Numeral) (stamp : EventStamp) : BrokerResult :=
  if blank externalFillId ∨ fee.value < 0 ∨ externalFillId ∈ s.fillIds then
    .error (.brokerAdapterError "INVALID_FILL")
  else do
    let order ← s.order intentId
    let filled ← onValueError (.brokerAdapterError "INVALID_FILL")
      (order.fill c quantity.value price.value)
    pure (filled, s.applyFill c order filled externalFillId quantity price fee stamp)

def orderEvents (afterSequence : ℤ) : Except Exn (List BrokerOrderEvent) :=
  if afterSequence < 0 then .error (.brokerAdapterError "invalid_event_sequence")
  else .ok (s.events.filter fun event => decide (event.sequence > afterSequence))

end SandboxPaperBrokerAdapter

inductive BrokerCall where
  | submit (order : PaperOrder) (stamp : EventStamp)
  | cancel (intentId : UUID) (stamp : EventStamp)
  | replace (intentId : UUID) (quantity limitPrice : Decimal.Numeral) (stamp : EventStamp)
  | simulateFill (externalFillId : String) (intentId : UUID)
      (quantity price fee : Decimal.Numeral) (stamp : EventStamp)
deriving DecidableEq

namespace SandboxPaperBrokerAdapter

def call (c : Decimal.Context) (s : SandboxPaperBrokerAdapter) : BrokerCall → BrokerResult
  | .submit order stamp => s.submit order stamp
  | .cancel id stamp => s.cancel id stamp
  | .replace id q p stamp => s.replace id q p stamp
  | .simulateFill ext id q p fee stamp => s.simulateFill c ext id q p fee stamp

def step (c : Decimal.Context) (s : SandboxPaperBrokerAdapter) (a : BrokerCall) :
    SandboxPaperBrokerAdapter :=
  match s.call c a with
  | .ok (_, s') => s'
  | .error _ => s

/-! ## What each method can do -/

variable {c : Decimal.Context} {s s' : SandboxPaperBrokerAdapter} {o o' : PaperOrder} {id : UUID}
  {stamp : EventStamp} {q p fee : Decimal.Numeral} {ext : String}

theorem order_eq_ok : s.order id = .ok o ↔ s.orders.find? id = some o := by
  unfold order
  cases h : s.orders.find? id with
  | none => simp
  | some row => simp

theorem submit_eq_ok : s.submit o stamp = .ok (o', s') ↔
    s.orders.find? o.intentId = none ∧ o.status = approved ∧
      o' = { o with status := acknowledged } ∧
      s' = event { s with orders := s.orders.put o' } o' "ORDER_ACKNOWLEDGED"
        { mode := some s.configuration.mode.value } stamp := by
  unfold submit
  cases hf : s.orders.find? o.intentId with
  | some row => simp
  | none =>
      by_cases hs : o.status = approved
      · have h₁ : o.transition submissionPending = .ok { o with status := submissionPending } :=
          PaperOrder.transition_eq_ok.mpr ⟨by simp [hs, transitions], rfl⟩
        have h₂ : PaperOrder.transition { o with status := submissionPending } submitted =
            .ok { o with status := submitted } :=
          PaperOrder.transition_eq_ok.mpr ⟨by simp [transitions], rfl⟩
        have h₃ : PaperOrder.transition { o with status := submitted } acknowledged =
            .ok { o with status := acknowledged } :=
          PaperOrder.transition_eq_ok.mpr ⟨by simp [transitions], rfl⟩
        simp only [hs, Option.isSome_none, Bool.false_eq_true, if_false, ne_eq, not_true_eq_false,
          h₁, h₂, h₃, Except.ok_bind, Except.pure_eq_ok, Prod.mk.injEq, true_and]
        constructor
        · rintro ⟨rfl, rfl⟩
          exact ⟨rfl, rfl⟩
        · rintro ⟨rfl, rfl⟩
          exact ⟨rfl, rfl⟩
      · simp [hs]

theorem cancel_eq_ok : s.cancel id stamp = .ok (o', s') ↔
    ∃ o, s.orders.find? id = some o ∧ o.Working ∧ o' = { o with status := cancelled } ∧
      s' = event { s with orders := s.orders.put o' } o' "ORDER_CANCELLED" {} stamp := by
  simp only [cancel, Except.bind_eq_ok, order_eq_ok, onValueError_eq_ok, Except.pure_eq_ok,
    Prod.mk.injEq, PaperOrder.transition_eq_ok]
  refine exists_congr fun o => and_congr_right fun _ => ?_
  constructor
  · rintro ⟨_, ⟨_, ⟨hmem, rfl⟩, _, rfl⟩, rfl, rfl⟩
    exact ⟨PaperOrder.working_of_mem hmem, rfl, rfl⟩
  · rintro ⟨hw, rfl, rfl⟩
    exact ⟨_, ⟨_, ⟨PaperOrder.mem_of_working hw, rfl⟩, by simp [transitions], rfl⟩, rfl, rfl⟩

theorem replace_eq_ok : s.replace id q p stamp = .ok (o', s') ↔
    ∃ o, s.orders.find? id = some o ∧ o.MayAmend q.value p.value ∧
      o' = o.withTerms q.value p.value ∧
      s' = event { s with orders := s.orders.put o' } o' "ORDER_REPLACED"
        { quantity := some (some q), limitPrice := some (some p) } stamp := by
  simp only [replace, Except.bind_eq_ok, order_eq_ok]
  refine exists_congr fun o => and_congr_right fun _ => ?_
  by_cases hm : o.MayAmend q.value p.value
  · simp only [hm, not_true_eq_false, if_false, Except.pure_eq_ok, Prod.mk.injEq, true_and]
    constructor
    · rintro ⟨rfl, rfl⟩
      exact ⟨rfl, rfl⟩
    · rintro ⟨rfl, rfl⟩
      exact ⟨rfl, rfl⟩
  · simp [hm]

theorem simulateFill_eq_ok : s.simulateFill c ext id q p fee stamp = .ok (o', s') ↔
    (blank ext = false ∧ 0 ≤ fee.value ∧ ext ∉ s.fillIds) ∧
    ∃ o, s.orders.find? id = some o ∧ o.fill c q.value p.value = .ok o' ∧
      s' = s.applyFill c o o' ext q p fee stamp := by
  unfold simulateFill
  by_cases hv : blank ext ∨ fee.value < 0 ∨ ext ∈ s.fillIds
  · have hv' : ¬ (blank ext = false ∧ 0 ≤ fee.value ∧ ext ∉ s.fillIds) := by
      simpa only [not_and_or, Bool.not_eq_false, not_le, not_not] using hv
    simp only [if_pos hv, hv', reduceCtorEq, false_and]
  · have hv' : blank ext = false ∧ 0 ≤ fee.value ∧ ext ∉ s.fillIds := by
      simpa only [not_or, Bool.not_eq_true, not_lt] using hv
    rw [if_neg hv, and_iff_right hv']
    simp only [Except.bind_eq_ok, order_eq_ok, onValueError_eq_ok, Except.pure_eq_ok,
      Prod.mk.injEq]
    refine exists_congr fun o => and_congr_right fun _ => ?_
    constructor
    · rintro ⟨_, hf, rfl, rfl⟩
      exact ⟨hf, rfl⟩
    · rintro ⟨hf, rfl⟩
      exact ⟨o', hf, rfl, rfl⟩

end SandboxPaperBrokerAdapter

end TradePlatform
