/-
# `TradePlatform.BrokerService` — two brokers over one OMS and one event store

`PaperBrokerSyncService` is written against any OMS and event store: `SyncStores` is
what it calls, `SyncStores.sqlite` and `SyncStores.postgres` are the two it is used
with.  `BrokerPair` is two services with an adapter each, over the same stores; their
submissions, the calls on the adapters and the events of their `sync_events` calls
interleave freely.
-/
import TradePlatform.PostgresBrokerEvents

namespace TradePlatform

open OrderStatus

/-- What the service calls on its OMS and its event store.  A raised exception leaves
what was committed before it. -/
structure SyncStores (τ : Type) where
  empty : τ
  create : τ → PaperOrder → Except Exn (PaperOrder × τ)
  transition : τ → UUID → OrderStatus → String → Except Exn (PaperOrder × τ)
  get : τ → UUID → Except Exn PaperOrder
  lastSequence : τ → BrokerConfiguration → Except Exn ℤ
  /-- The body of the loop of `sync_events`: whether the event was stored. -/
  syncEvent : τ → BrokerConfiguration → BrokerOrderEvent → Except Exn Bool × τ
  /-- The event id of the receipt under an external event id. -/
  receipt : τ → String → Option UUID

/-! ## The SQLite stores -/

structure SQLiteSync where
  oms : SQLitePaperOms
  store : SQLiteBrokerEventStore

namespace SQLiteSync

variable (c : Decimal.Context) (s : SQLiteSync)

def effect (event : BrokerOrderEvent) : Except Exn Unit × SQLitePaperOms :=
  if event.eventType = "FILL" then
    match s.oms.syncFill c event with
    | .ok (_, oms) => (.ok (), oms)
    | .error e => (.error e, s.oms)
  else if event.eventType = "ORDER_CANCELLED" then
    match s.oms.syncCancel event with
    | (.ok _, oms) => (.ok (), oms)
    | (.error e, oms) => (.error e, oms)
  else if event.eventType = "ORDER_REPLACED" then
    match s.oms.syncReplace event with
    | .ok (_, oms) => (.ok (), oms)
    | .error e => (.error e, s.oms)
  else (.ok (), s.oms)

def syncEvent (brokerName : String) (event : BrokerOrderEvent) : Except Exn Bool × SQLiteSync :=
  match s.store.append brokerName event with
  | .error e => (.error e, s)
  | .ok (false, _) => (.ok false, s)
  | .ok (true, store) =>
      match s.effect c event with
      | (.ok _, oms) => (.ok true, ⟨oms, store⟩)
      | (.error e, oms) => (.error e, ⟨oms, store⟩)

end SQLiteSync

def liftOms {σ τ : Type} (put : σ → τ) : Except Exn (PaperOrder × σ) → Except Exn (PaperOrder × τ)
  | .ok (order, oms) => .ok (order, put oms)
  | .error e => .error e

theorem liftOms_eq_ok {σ τ : Type} {put : σ → τ} {x : Except Exn (PaperOrder × σ)}
    {o : PaperOrder} {t : τ} : liftOms put x = .ok (o, t) ↔ ∃ s, x = .ok (o, s) ∧ t = put s := by
  rcases x with e | ⟨o', s⟩
  · simp [liftOms]
  · simp only [liftOms, Except.ok.injEq, Prod.mk.injEq]
    constructor
    · rintro ⟨rfl, rfl⟩
      exact ⟨s, ⟨rfl, rfl⟩, rfl⟩
    · rintro ⟨_, ⟨rfl, rfl⟩, rfl⟩
      exact ⟨rfl, rfl⟩

def SyncStores.sqlite (c : Decimal.Context) : SyncStores SQLiteSync where
  empty := ⟨.empty, .empty⟩
  create s order := liftOms (fun oms => { s with oms := oms }) (s.oms.create order)
  transition s id st actor :=
    liftOms (fun oms => { s with oms := oms }) (s.oms.transition id st actor)
  get s id := s.oms.get id
  lastSequence s configuration := .ok (s.store.lastSequence configuration.brokerName)
  syncEvent s configuration event := s.syncEvent c configuration.brokerName event
  receipt s ext := (s.store.events.find? ext).map StoredBrokerEvent.eventId

/-! ## The PostgreSQL stores -/

def SyncStores.postgres (c : Decimal.Context) (env : PgEnv) : SyncStores PostgresBrokerEvents where
  empty := .empty
  create s order := liftOms (fun oms => { s with oms := oms }) (s.oms.create c env order)
  transition s id st actor :=
    liftOms (fun oms => { s with oms := oms }) (s.oms.transition c env id st actor)
  get s id := s.oms.get c id
  lastSequence s configuration :=
    s.lastSequence env configuration.accountId configuration.brokerName
  syncEvent s configuration event :=
    match s.syncEvent c env configuration.brokerName event with
    | .ok (stored, s') => (.ok stored, s')
    | .error e => (.error e, s)
  receipt s ext := (s.events.find? ext).map BrokerSyncEvent.eventId

/-! ## The service -/

namespace SyncStores

variable {τ : Type} (T : SyncStores τ)

def progress (id : UUID) (actor : String) : τ → List OrderStatus → Except Exn Unit × τ
  | t, [] => (.ok (), t)
  | t, st :: rest =>
      match T.transition t id st actor with
      | .error e => (.error e, t)
      | .ok (_, t') => progress id actor t' rest

/-- `_submit_checked_assessment` from the OMS order to the last transition; `riskApproved` is
the outcome of `evaluate_pre_trade`.  The `sync_events` call it ends with comes as steps
of its own. -/
def submitCheckedAssessment (t : τ) (adapter : SandboxPaperBrokerAdapter) (intent : OrderIntent)
    (riskApproved : Bool) (stamp : EventStamp) : Except Exn Unit × τ × SandboxPaperBrokerAdapter :=
  match T.create t { intent := intent } with
  | .error _ => (.error (.brokerSyncError "unable_to_create_oms_order"), t, adapter)
  | .ok (order, t₁) =>
      if order.status ≠ proposed then
        (.error (.brokerSyncError "duplicate_or_non_proposed_oms_order"), t₁, adapter)
      else
        match T.transition t₁ intent.intentId riskPending "risk" with
        | .error e => (.error e, t₁, adapter)
        | .ok (pending, t₂) =>
            if riskApproved = false then
              match T.transition t₂ pending.intentId riskRejected "pre_trade" with
              | .error e => (.error e, t₂, adapter)
              | .ok (_, t₃) => (.ok (), t₃, adapter)
            else
              match T.transition t₂ pending.intentId .approved "risk" with
              | .error e => (.error e, t₂, adapter)
              | .ok (approvedOrder, t₃) =>
                  match adapter.submit approvedOrder stamp with
                  | .error _ =>
                      let (_, t₄) := T.progress intent.intentId "broker_sync" t₃
                        [submissionPending, rejected]
                      (.error (.brokerSyncError "paper_broker_submission_failed"), t₄, adapter)
                  | .ok (acknowledgedOrder, adapter') =>
                      match T.progress intent.intentId "broker_sync" t₃
                          [submissionPending, submitted, acknowledged] with
                      | (.error e, t₄) => (.error e, t₄, adapter')
                      | (.ok _, t₄) =>
                          if acknowledgedOrder.status ≠ acknowledged then
                            (.error (.brokerSyncError "unexpected_paper_broker_status"), t₄,
                              adapter')
                          else (.ok (), t₄, adapter')

end SyncStores

/-! ## Two brokers -/

inductive BrokerAction where
  | cancel (intentId : UUID)
  | replace (intentId : UUID) (quantity limitPrice : Decimal.Numeral)
  | simulateFill (externalFillId : String) (intentId : UUID) (quantity price fee : Decimal.Numeral)

def BrokerAction.call (stamp : EventStamp) : BrokerAction → BrokerCall
  | .cancel id => .cancel id stamp
  | .replace id q p => .replace id q p stamp
  | .simulateFill ext id q p fee => .simulateFill ext id q p fee stamp

/-- The stores, the two adapters, the events each running `sync_events` call has yet to
look at, and the number of event ids issued so far: `uuid4` never repeats one. -/
structure BrokerPair (τ : Type) where
  stores : τ
  brokers : Bool → SandboxPaperBrokerAdapter
  todo : Bool → List BrokerOrderEvent
  issued : ℕ

inductive PairAction where
  | submit (broker : Bool) (intent : OrderIntent) (riskApproved : Bool) (now : ℤ)
  | broker (broker : Bool) (a : BrokerAction) (now : ℤ)
  /-- `sync_events()` reads the cursor and the adapter's events. -/
  | fetch (broker : Bool)
  /-- It looks at its next event; an exception ends the call. -/
  | next (broker : Bool)

namespace BrokerPair

variable {τ : Type} (T : SyncStores τ) (c : Decimal.Context) (σ : BrokerPair τ)

def opened (configuration : Bool → BrokerConfiguration) (cash : Bool → CashBalance) :
    BrokerPair τ :=
  ⟨T.empty, fun b => .opened (configuration b) (cash b), fun _ => [], 0⟩

def fetched (b : Bool) : Except Exn (List BrokerOrderEvent) := do
  let last ← T.lastSequence σ.stores (σ.brokers b).configuration
  (σ.brokers b).orderEvents last

def step : PairAction → BrokerPair τ
  | .submit b intent riskApproved now =>
      let r := T.submitCheckedAssessment σ.stores (σ.brokers b) intent riskApproved
        ⟨σ.issued, .aware now⟩
      ⟨r.2.1, Function.update σ.brokers b r.2.2, σ.todo, σ.issued + 1⟩
  | .broker b a now =>
      let s' := (σ.brokers b).step c (a.call ⟨σ.issued, .aware now⟩)
      ⟨σ.stores, Function.update σ.brokers b s', σ.todo, σ.issued + 1⟩
  | .fetch b =>
      { σ with todo := Function.update σ.todo b ((σ.fetched T b).toOption.getD []) }
  | .next b =>
      match σ.todo b with
      | [] => σ
      | event :: rest =>
          match T.syncEvent σ.stores (σ.brokers b).configuration event with
          | (.ok _, t) => { σ with stores := t, todo := Function.update σ.todo b rest }
          | (.error _, t) => { σ with stores := t, todo := Function.update σ.todo b [] }

def run (configuration : Bool → BrokerConfiguration) (cash : Bool → CashBalance)
    (actions : List PairAction) : BrokerPair τ :=
  Run.exec (step T c) (opened T configuration cash) actions

/-- Both brokers are fully synced: a further `sync_events` call of either reads only
events that have a receipt under their external id, and skips them all. -/
def FullySynced : Prop :=
  ∀ b, ∃ events, σ.fetched T b = .ok events ∧
    ∀ event ∈ events, T.receipt σ.stores event.externalEventId ≠ none

/-- Every order of each broker is in the OMS with the same status, filled quantity and
average fill price. -/
def OrdersAgree : Prop :=
  ∀ b id o, (σ.brokers b).orders.find? id = some o → ∃ o', T.get σ.stores id = .ok o' ∧
    o'.status = o.status ∧ o'.filledQuantity = o.filledQuantity ∧
    o'.averageFillPrice = o.averageFillPrice

def NoneSuppressed : Prop :=
  ∀ b, ∀ event ∈ (σ.brokers b).events,
    T.receipt σ.stores event.externalEventId = some event.eventId

end BrokerPair

end TradePlatform
