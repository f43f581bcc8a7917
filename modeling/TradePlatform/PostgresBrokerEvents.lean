/-
# `TradePlatform.PostgresBrokerEvents` — receipt, cursor and effect in one transaction

`PostgresPaperOms.apply_broker_event`, with the two tables it adds to those of the
OMS, and the read of the cursor by `PostgresBrokerEventStore`.  The external event id
is unique over all accounts and sources; the cursor is kept for each account and
source, and the account is the one of the event's intent.
-/
import TradePlatform.BrokerSync
import TradePlatform.PostgresPaperOms

namespace TradePlatform

open OrderStatus

structure BrokerSyncEvent where
  eventId : UUID
  accountId : String
  source : String
  sequence : ℤ
  externalEventId : String
  intentId : UUID
  eventType : String
  status : OrderStatus
  occurredAt : DateTime
deriving DecidableEq

structure BrokerEventCursor where
  accountId : String
  source : String
  cursor : ℤ
deriving DecidableEq

def BrokerEventCursor.key (row : BrokerEventCursor) : String × String := (row.accountId, row.source)

/-- The tables one `apply_broker_event` transaction reads and writes. -/
structure PostgresBrokerEvents where
  oms : PostgresPaperOms
  events : Table BrokerSyncEvent.externalEventId
  cursors : Table BrokerEventCursor.key

/-- `except (PaperOmsError, KeyError, ValueError): raise`, any other exception as a
`PaperOmsError`. -/
def eventGuarded {α : Type} : Except Exn α → Except Exn α
  | .ok a => .ok a
  | .error (.keyError key) => .error (.keyError key)
  | .error e =>
      .error (if e.isValueError then e
        else .paperOmsError "postgres_broker_event_transaction_failed")

theorem eventGuarded_eq_ok {α : Type} {x : Except Exn α} {a : α} :
    eventGuarded x = .ok a ↔ x = .ok a := by
  cases x with
  | ok b => rfl
  | error e => cases e <;> simp [eventGuarded]

namespace PostgresBrokerEvents

def empty : PostgresBrokerEvents := ⟨.empty, .empty _, .empty _⟩

variable (c : Decimal.Context) (env : PgEnv) (s : PostgresBrokerEvents)

def previous (accountId brokerName : String) : ℤ :=
  ((s.cursors.find? (accountId, brokerName)).map BrokerEventCursor.cursor).getD 0

/-- `PostgresBrokerEventStore.last_sequence`, of the store opened for `accountId`. -/
def lastSequence (accountId brokerName : String) : Except Exn ℤ :=
  if env.storesText accountId ∧ env.storesText brokerName then .ok (s.previous accountId brokerName)
  else .error (.paperOmsError "postgres_broker_cursor_read_failed")

/-- The constraints of `broker_sync_events`, on the row of an event whose external id is
new: the texts, the two references, `CHECK(sequence > 0)` on a `BIGINT`, the primary key
and `UNIQUE(account_id, source, sequence)`. -/
def Insertable (accountId brokerName : String) (event : BrokerOrderEvent) : Prop :=
  (∀ text ∈ event.eventType :: event.details.mode.toList ++ event.details.externalFillId.toList,
    env.storesText text = true) ∧
  env.accounts accountId = true ∧ s.oms.intents.find? event.clientIntentId ≠ none ∧
  0 < event.sequence ∧ event.sequence < 2 ^ 63 ∧
  ∀ row ∈ s.events.rows, row.eventId ≠ event.eventId ∧
    (row.accountId, row.source, row.sequence) ≠ (accountId, brokerName, event.sequence)

instance (accountId brokerName : String) (event : BrokerOrderEvent) :
    Decidable (s.Insertable env accountId brokerName event) :=
  inferInstanceAs (Decidable (_ ∧ _))

def effect (oms : PostgresPaperOms) (event : BrokerOrderEvent) : Except Exn PostgresPaperOms :=
  if event.eventType = "FILL" then do
    let (ext, quantity, price) ← event.details.fillArguments
    let (_, oms) ← oms.ingestFillIn c env ext event.clientIntentId quantity.value price.value
      event.occurredAt
    pure oms
  else if event.eventType = "ORDER_CANCELLED" then do
    let order ← oms.order c event.clientIntentId
    if order.Working then
      let pending ← order.transition cancelPending
      let oms ← oms.appendEvent env event.clientIntentId ["broker_sync"]
        (.orderStatusChanged order.status pending.status "broker_sync")
      oms.appendEvent env event.clientIntentId ["broker_sync"]
        (.orderStatusChanged pending.status cancelled "broker_sync")
    else pure oms
  else if event.eventType = "ORDER_REPLACED" then do
    let order ← oms.order c event.clientIntentId
    let (quantity, limitPrice) ← event.details.termArguments
    if ¬ order.MayAmend quantity.value limitPrice.value then
      .error (.paperOmsError "invalid_order_amendment")
    oms.appendEvent env event.clientIntentId ["broker_sync"]
      (.orderAmended order.intent.quantity quantity.value order.intent.limitPrice limitPrice.value
        "broker_sync")
  else pure oms

def applyBrokerEvent (accountId brokerName : String) (event : BrokerOrderEvent) :
    Except Exn (Bool × PostgresBrokerEvents) :=
  eventGuarded <|
    if env.storesText event.externalEventId = false then .error transactionFailed
    else if s.events.find? event.externalEventId ≠ none then .ok (false, s)
    else if env.storesText accountId = false ∨ env.storesText brokerName = false then
      .error transactionFailed
    else if event.sequence ≤ s.previous accountId brokerName then
      .error (.paperOmsError "broker_event_sequence_not_monotonic")
    else if ¬ s.Insertable env accountId brokerName event then .error transactionFailed
    else do
      let oms ← effect c env s.oms event
      let events := s.events.put ⟨event.eventId, accountId, brokerName, event.sequence,
        event.externalEventId, event.clientIntentId, event.eventType, event.status,
        env.timestamptz event.occurredAt⟩
      pure (true, ⟨oms, events, s.cursors.put ⟨accountId, brokerName, event.sequence⟩⟩)

/-- What `sync_events` does with one event when the OMS has `apply_broker_event`. -/
def syncEvent (brokerName : String) (event : BrokerOrderEvent) :
    Except Exn (Bool × PostgresBrokerEvents) :=
  onSyncError "broker_event_atomic_persistence_failed" do
    let order ← s.oms.get c event.clientIntentId
    s.applyBrokerEvent c env order.intent.accountId brokerName event

variable {c env s} {s' : PostgresBrokerEvents} {event : BrokerOrderEvent}

theorem applyBrokerEvent_new {accountId brokerName : String} {stored : Bool}
    (hnew : s.events.find? event.externalEventId = none)
    (h : s.applyBrokerEvent c env accountId brokerName event = .ok (stored, s')) :
    stored = true ∧ ∃ oms, effect c env s.oms event = .ok oms ∧
      s' = ⟨oms, s.events.put ⟨event.eventId, accountId, brokerName, event.sequence,
        event.externalEventId, event.clientIntentId, event.eventType, event.status,
        env.timestamptz event.occurredAt⟩,
        s.cursors.put ⟨accountId, brokerName, event.sequence⟩⟩ := by
  rw [applyBrokerEvent, eventGuarded_eq_ok] at h
  split at h
  · cases h
  split at h
  · rename_i hne
    exact absurd hnew hne
  split at h
  · cases h
  split at h
  · cases h
  split at h
  · cases h
  obtain ⟨oms, heff, h⟩ := Except.bind_eq_ok.mp h
  cases h
  exact ⟨rfl, oms, heff, rfl⟩

end PostgresBrokerEvents

end TradePlatform
