/-
# `TradePlatform.BrokerSync` — receipts, cursors and the application of broker events

The SQLite path of `broker_sync.py`: the event store with its de-duplication by
external event id, and what `PaperBrokerSyncService.sync_events` does with one event.
The receipt of an event and its effect on the OMS are separate commits here; the
machines of `BrokerSyncCrash` and `BrokerSyncPair` put steps between them or not.
-/
import TradePlatform.BrokerAdapter
import TradePlatform.PaperOms

namespace TradePlatform

open OrderStatus

/-! ## The event store -/

structure StoredBrokerEvent where
  eventId : UUID
  brokerName : String
  sequence : ℤ
  externalEventId : String
  intentId : UUID
  eventType : String
  status : OrderStatus
  occurredAt : DateTime
deriving DecidableEq

def BrokerOrderEvent.stored (event : BrokerOrderEvent) (brokerName : String) : StoredBrokerEvent :=
  ⟨event.eventId, brokerName, event.sequence, event.externalEventId, event.clientIntentId,
    event.eventType, event.status, event.occurredAt⟩

structure BrokerCursor where
  brokerName : String
  sequence : ℤ
deriving DecidableEq

structure SQLiteBrokerEventStore where
  events : Table StoredBrokerEvent.externalEventId
  cursors : Table BrokerCursor.brokerName

namespace SQLiteBrokerEventStore

def empty : SQLiteBrokerEventStore := ⟨.empty _, .empty _⟩

variable (s : SQLiteBrokerEventStore)

def lastSequence (brokerName : String) : ℤ :=
  ((s.cursors.find? brokerName).map BrokerCursor.sequence).getD 0

/-- Either key of `broker_events` is taken: the insert raises `IntegrityError`. -/
def Duplicate (event : BrokerOrderEvent) : Prop :=
  s.events.find? event.externalEventId ≠ none ∨ ∃ row ∈ s.events.rows, row.eventId = event.eventId

instance (event : BrokerOrderEvent) : Decidable (s.Duplicate event) :=
  inferInstanceAs (Decidable (_ ∨ _))

def append (brokerName : String) (event : BrokerOrderEvent) :
    Except Exn (Bool × SQLiteBrokerEventStore) :=
  if event.sequence ≤ 0 ∨ blank event.externalEventId then
    .error (.brokerSyncError "invalid_broker_event")
  -- an `int` too large for an `INTEGER` column raises `OverflowError`
  else if 2 ^ 63 ≤ event.sequence then .error .arithmeticError
  else if s.Duplicate event then .ok (false, s)
  else
    let events := s.events.put (event.stored brokerName)
    if event.sequence > s.lastSequence brokerName then
      .ok (true, ⟨events, s.cursors.put ⟨brokerName, event.sequence⟩⟩)
    else .ok (true, ⟨events, s.cursors⟩)

end SQLiteBrokerEventStore

/-! ## One event -/

def detail {α : Type} (key : String) : Option α → Except Exn α
  | none => .error (.keyError key)
  | some value => .ok value

def decimalDetail (key : String) (value : Option DecimalText) : Except Exn Decimal.Numeral :=
  match detail key value with
  | .error e => .error e
  | .ok none => .error .arithmeticError
  | .ok (some n) => .ok n

/-- `except (KeyError, ValueError, PaperOmsError) as error: raise BrokerSyncError`. -/
def onSyncError {α : Type} (message : String) : Except Exn α → Except Exn α
  | .ok a => .ok a
  | .error (.keyError _) => .error (.brokerSyncError message)
  | .error e => .error (if e.isValueError then .brokerSyncError message else e)

theorem onSyncError_eq_ok {α : Type} {message : String} {x : Except Exn α} {a : α} :
    onSyncError message x = .ok a ↔ x = .ok a := by
  cases x with
  | ok b => rfl
  | error e => cases e <;> simp [onSyncError]

/-- The arguments `sync_events` takes from the details of a `FILL`. -/
def EventDetails.fillArguments (details : EventDetails) :
    Except Exn (String × Decimal.Numeral × Decimal.Numeral) := do
  let ext ← detail "external_fill_id" details.externalFillId
  let quantity ← decimalDetail "quantity" details.quantity
  let price ← decimalDetail "price" details.price
  pure (ext, quantity, price)

theorem EventDetails.externalFillId_of_fillArguments {details : EventDetails} {ext : String}
    {q p : Decimal.Numeral} (h : details.fillArguments = .ok (ext, q, p)) :
    details.externalFillId = some ext := by
  obtain ⟨ext', hext, h⟩ := Except.bind_eq_ok.mp h
  obtain ⟨q', _, h⟩ := Except.bind_eq_ok.mp h
  obtain ⟨p', _, h⟩ := Except.bind_eq_ok.mp h
  cases h
  cases hd : details.externalFillId with
  | none =>
      rw [hd] at hext
      cases hext
  | some x =>
      rw [hd] at hext
      cases hext
      rfl

/-- The arguments it takes from the details of an `ORDER_REPLACED`. -/
def EventDetails.termArguments (details : EventDetails) :
    Except Exn (Decimal.Numeral × Decimal.Numeral) := do
  let quantity ← decimalDetail "quantity" details.quantity
  let limitPrice ← decimalDetail "limit_price" details.limitPrice
  pure (quantity, limitPrice)

namespace SQLitePaperOms

variable (c : Decimal.Context) (s : SQLitePaperOms)

def syncFill (event : BrokerOrderEvent) : Except Exn (PaperOrder × SQLitePaperOms) :=
  onSyncError "broker_fill_event_rejected" do
    let (ext, quantity, price) ← event.details.fillArguments
    s.ingestFill c ext event.clientIntentId quantity price event.occurredAt

def syncReplace (event : BrokerOrderEvent) : Except Exn (PaperOrder × SQLitePaperOms) :=
  onSyncError "broker_replace_event_rejected" do
    let (quantity, limitPrice) ← event.details.termArguments
    s.amend event.clientIntentId quantity.value limitPrice.value "broker_sync"

/-- The `ORDER_CANCELLED` branch, to the order it found: only a working order is
cancelled. -/
def syncCancel (event : BrokerOrderEvent) : Except Exn PaperOrder × SQLitePaperOms :=
  match s.get event.clientIntentId with
  | .error e => (.error e, s)
  | .ok order =>
      if order.Working then s.cancel event.clientIntentId "broker_sync" else (.ok order, s)

variable {c s} {event : BrokerOrderEvent} {o : PaperOrder} {s' : SQLitePaperOms}

theorem syncFill_eq_ok : s.syncFill c event = .ok (o, s') ↔
    ∃ ext q p, event.details.fillArguments = .ok (ext, q, p) ∧
      s.ingestFill c ext event.clientIntentId q p event.occurredAt = .ok (o, s') := by
  simp only [syncFill, onSyncError_eq_ok, Except.bind_eq_ok, Prod.exists]

theorem syncReplace_eq_ok : s.syncReplace event = .ok (o, s') ↔
    ∃ q p, event.details.termArguments = .ok (q, p) ∧
      s.amend event.clientIntentId q.value p.value "broker_sync" = .ok (o, s') := by
  simp only [syncReplace, onSyncError_eq_ok, Except.bind_eq_ok, Prod.exists]

end SQLitePaperOms

end TradePlatform
