/-
# `TradePlatform.PostgresPaperOms` — the event-sourced PostgreSQL paper OMS

`PostgresPaperOms` of `postgres_paper_oms.py`.  An order is an immutable intent row
and the events of the intent in sequence order; the current order is rebuilt by
`_order`, which replays the events through `PaperOrder`.  Every public method is one
database transaction: it commits at its end or an exception rolls it back.

The events of an intent are kept with its row, so the foreign key of `oms_events`
holds by construction.  What the statements rely on outside the store is `PgEnv`:
the rows of the referenced tables, the text of a UUID, the time zone of the session,
and the texts a column takes.
-/
import TradePlatform.PaperOms

namespace TradePlatform

open OrderStatus

structure PgEnv where
  /-- `UUID(text)`, or `none` where it raises `ValueError`. -/
  uuid : String → Option UUID
  /-- `str(uuid)`. -/
  uuidText : UUID → String
  /-- The instant of a wall clock time in the time zone of the session. -/
  sessionInstant : ℤ → ℤ
  /-- The texts a `TEXT` or `JSONB` column takes (those without a NUL character). -/
  storesText : String → Bool
  /-- The rows of `signals`, `accounts` and `instruments`. -/
  signals : UUID → Bool
  accounts : String → Bool
  instruments : UUID → Bool

def PgEnv.sample : PgEnv where
  uuid := fun text => if text = "00000000-0000-0000-0000-000000000001" then some 1 else none
  uuidText := fun _ => "00000000-0000-0000-0000-000000000001"
  sessionInstant := id
  storesText := fun text => text.toList.all fun ch => ch.toNat != 0
  signals := fun _ => true
  accounts := fun _ => true
  instruments := fun _ => true

/-- The value a `TIMESTAMPTZ` column returns for a timestamp. -/
def PgEnv.timestamptz (env : PgEnv) : DateTime → DateTime
  | .aware instant => .aware instant
  | .naive wall => .aware (env.sessionInstant wall)

/-- A row of `paper_order_intents`, as it reads back, with its rows of `oms_events`
in sequence order. -/
structure IntentLog where
  intent : OrderIntent
  events : List OmsEvent
deriving DecidableEq

def IntentLog.intentId (log : IntentLog) : UUID := log.intent.intentId

structure PgFill where
  externalFillId : String
  intentId : UUID
  occurredAt : DateTime
  quantity : Decimal
  price : Decimal
deriving DecidableEq

/-- `except PaperOmsError: raise`, `except Exception: raise PaperOmsError(message)`. -/
def guarded {α : Type} (message : String) : Except Exn α → Except Exn α
  | .ok a => .ok a
  | .error (.paperOmsError m) => .error (.paperOmsError m)
  | .error _ => .error (.paperOmsError message)

theorem guarded_eq_ok {α : Type} {message : String} {x : Except Exn α} {a : α} :
    guarded message x = .ok a ↔ x = .ok a := by
  cases x with
  | ok b => rfl
  | error e => cases e <;> simp [guarded]

def applyEvent (c : Decimal.Context) (order : PaperOrder) : OmsEvent → Except Exn PaperOrder
  | .orderStatusChanged _ next _ => order.transition next
  | .orderAmended _ quantity _ limitPrice _ => .ok (order.withTerms quantity limitPrice)
  | .fillIngested _ quantity price _ => order.fill c quantity price
  | .orderCreated _ => .ok order

def IntentLog.order (c : Decimal.Context) (log : IntentLog) : Except Exn PaperOrder :=
  Replay.replay (applyEvent c) { intent := log.intent } log.events

def IntentLog.append (log : IntentLog) (event : OmsEvent) : IntentLog :=
  { log with events := log.events ++ [event] }

/-- The insert into `paper_order_intents`, to the row as it reads back. -/
def insertIntent (env : PgEnv) (intent : OrderIntent) : Except Exn OrderIntent :=
  match env.uuid intent.instrumentId with
  | none => .error (.valueError "badly formed hexadecimal UUID string")
  | some instrument =>
      match Decimal.numeric 30 12 intent.quantity, Decimal.numeric 30 12 intent.limitPrice with
      | some quantity, some limitPrice =>
          -- CHECK(quantity > 0), CHECK(limit_price > 0) and the three foreign keys
          if 0 < quantity ∧ 0 < limitPrice ∧ env.signals intent.signalId = true ∧
              env.accounts intent.accountId = true ∧ env.instruments instrument = true then
            .ok { intent with
              instrumentId := env.uuidText instrument
              quantity := quantity
              limitPrice := limitPrice
              createdAt := env.timestamptz intent.createdAt }
          else .error transactionFailed
      | _, _ => .error transactionFailed

structure PostgresPaperOms where
  intents : Table IntentLog.intentId
  fills : Table PgFill.externalFillId

namespace PostgresPaperOms

def empty : PostgresPaperOms := ⟨.empty _, .empty _⟩

variable (c : Decimal.Context) (env : PgEnv) (s : PostgresPaperOms)

/-- `_order`: the intent row, and the replay of its events. -/
def order (intentId : UUID) : Except Exn PaperOrder :=
  match s.intents.find? intentId with
  | none => .error (.paperOmsError "unknown_order_intent")
  | some log => log.order c

/-- `_append_event`; every caller has read the intent row before.  The texts of the
payload are stored as JSON. -/
def appendEvent (intentId : UUID) (texts : List String) (event : OmsEvent) :
    Except Exn PostgresPaperOms :=
  match s.intents.find? intentId with
  | none => .error transactionFailed
  | some log =>
      if texts.all env.storesText then .ok { s with intents := s.intents.put (log.append event) }
      else .error transactionFailed

def create (order : PaperOrder) : Except Exn (PaperOrder × PostgresPaperOms) :=
  if order.status ≠ proposed then .error (.paperOmsError "new_order_must_be_proposed")
  else guarded "postgres_oms_create_failed" <|
    match s.intents.find? order.intentId with
    | some log => do
        let existing ← log.order c
        if existing.intent ≠ order.intent then
          .error (.paperOmsError "idempotency_key_payload_conflict")
        pure (existing, s)
    | none => do
        let intent ← insertIntent env order.intent
        pure (order, { s with intents := s.intents.put ⟨intent, [.orderCreated proposed]⟩ })

def get (intentId : UUID) : Except Exn PaperOrder :=
  guarded "postgres_oms_read_failed" (s.order c intentId)

def transition (intentId : UUID) (nextStatus : OrderStatus) (actor : String) :
    Except Exn (PaperOrder × PostgresPaperOms) :=
  guarded "postgres_oms_transition_failed" do
    let order ← s.order c intentId
    let updated ← onValueError (.paperOmsError "invalid_order_transition")
      (order.transition nextStatus)
    let s' ← s.appendEvent env intentId [actor]
      (.orderStatusChanged order.status nextStatus actor)
    pure (updated, s')

/-- The insert into `fills`: two `NUMERIC(30,12)` columns with a `CHECK`. -/
def insertFill (externalFillId : String) (intentId : UUID) (quantity price : Decimal)
    (occurredAt : DateTime) : Except Exn PostgresPaperOms :=
  match Decimal.numeric 30 12 quantity, Decimal.numeric 30 12 price with
  | some q, some p =>
      if 0 < q ∧ 0 < p then
        .ok { s with
          fills := s.fills.put ⟨externalFillId, intentId, env.timestamptz occurredAt, q, p⟩ }
      else .error transactionFailed
  | _, _ => .error transactionFailed

def ingestFillIn (externalFillId : String) (intentId : UUID) (quantity price : Decimal)
    (occurredAt : DateTime) : Except Exn (PaperOrder × PostgresPaperOms) :=
  if env.storesText externalFillId = false then .error transactionFailed
  else
    match s.fills.find? externalFillId with
    | some existing =>
        if existing.intentId ≠ intentId ∨ existing.quantity ≠ quantity ∨ existing.price ≠ price then
          .error (.paperOmsError "external_fill_id_conflict")
        else do
          let order ← s.order c intentId
          pure (order, s)
    | none => do
        let order ← s.order c intentId
        let updated ← onValueError (.paperOmsError "fill_rejected_by_order_state")
          (order.fill c quantity price)
        let s' ← s.insertFill env externalFillId intentId quantity price occurredAt
        let s' ← s'.appendEvent env intentId [externalFillId]
          (.fillIngested externalFillId quantity price updated.status)
        pure (updated, s')

def ingestFill (externalFillId : String) (intentId : UUID) (quantity price : Decimal)
    (occurredAt : DateTime) : Except Exn (PaperOrder × PostgresPaperOms) :=
  if blank externalFillId ∨ quantity ≤ 0 ∨ price ≤ 0 ∨ occurredAt.isAware = false then
    .error (.paperOmsError "invalid_fill")
  else guarded "postgres_fill_ingestion_failed"
    (s.ingestFillIn c env externalFillId intentId quantity price occurredAt)

def cancel (intentId : UUID) (actor : String) : Answer PostgresPaperOms :=
  match s.transition c env intentId cancelPending actor with
  | .error e => (.error e, s)
  | .ok (_, s') => commit s' (s'.transition c env intentId cancelled actor)

def amend (intentId : UUID) (quantity limitPrice : Decimal) (actor : String) :
    Except Exn (PaperOrder × PostgresPaperOms) :=
  guarded "postgres_order_amend_failed" do
    let order ← s.order c intentId
    if ¬ order.MayAmend quantity limitPrice then
      .error (.paperOmsError "invalid_order_amendment")
    let amended := order.withTerms quantity limitPrice
    let s' ← s.appendEvent env intentId [actor]
      (.orderAmended order.intent.quantity quantity order.intent.limitPrice limitPrice actor)
    pure (amended, s')

def call : OmsCall → Answer PostgresPaperOms
  | .create order => commit s (s.create c env order)
  | .transition id st actor => commit s (s.transition c env id st actor)
  | .ingestFill ext id q p occurredAt =>
      commit s (s.ingestFill c env ext id q.value p.value occurredAt)
  | .cancel id actor => s.cancel c env id actor
  | .amend id q p actor => commit s (s.amend c env id q p actor)

def step (a : OmsCall) : PostgresPaperOms := (s.call c env a).2

def book : Book := fun id => (s.order c id).toOption

/-! ## What each method can do -/

variable {c env s} {s' : PostgresPaperOms} {log : IntentLog} {o o' : PaperOrder} {id : UUID}
  {st : OrderStatus} {event : OmsEvent} {actor ext : String} {texts : List String}
  {quantity price limitPrice : Decimal} {at_ : DateTime}

theorem order_eq_ok : s.order c id = .ok o ↔
    ∃ log, s.intents.find? id = some log ∧ log.order c = .ok o := by
  unfold order
  cases h : s.intents.find? id with
  | none => simp
  | some log => simp

theorem get_eq_ok : s.get c id = .ok o ↔ s.order c id = .ok o := guarded_eq_ok

theorem book_eq_some : s.book c id = some o ↔ s.order c id = .ok o := Except.toOption_eq_some

theorem order_append (event : OmsEvent) (h : log.order c = .ok o)
    (he : applyEvent c o event = .ok o') :
    (log.append event).order c = .ok o' :=
  Replay.replay_snoc_ok h he

theorem intentId_of_order (h : log.order c = .ok o) : o.intentId = log.intentId := by
  refine Replay.replay_inv (P := fun o : PaperOrder => o.intentId = log.intentId) ?_ rfl h
  intro o event o' ho he
  cases event with
  | orderCreated => cases he; exact ho
  | orderStatusChanged => exact (PaperOrder.intentId_of_transition he).trans ho
  | fillIngested => exact (PaperOrder.intentId_of_fill he).trans ho
  | orderAmended => cases he; exact ho

theorem intentId_of_book (h : s.book c id = some o) : o.intentId = id := by
  obtain ⟨log, row, ho⟩ := order_eq_ok.mp (book_eq_some.mp h)
  exact (intentId_of_order ho).trans (Table.key_of_find? row)

theorem appendEvent_eq_ok (row : s.intents.find? id = some log) :
    s.appendEvent env id texts event = .ok s' ↔
      texts.all env.storesText = true ∧ s' = ⟨s.intents.put (log.append event), s.fills⟩ := by
  unfold appendEvent
  rw [row]
  by_cases ht : texts.all env.storesText = true
  · simp [ht, eq_comm]
  · simp [ht]

theorem transition_eq_ok : s.transition c env id st actor = .ok (o', s') ↔
    ∃ log o, s.intents.find? id = some log ∧ log.order c = .ok o ∧ o.transition st = .ok o' ∧
      env.storesText actor = true ∧
      s' = ⟨s.intents.put (log.append (.orderStatusChanged o.status st actor)), s.fills⟩ := by
  simp only [transition, guarded_eq_ok, Except.bind_eq_ok, order_eq_ok, onValueError_eq_ok,
    Except.pure_eq_ok, Prod.mk.injEq]
  constructor
  · rintro ⟨o, ⟨log, row, ho⟩, u, hu, w, hw, rfl, rfl⟩
    obtain ⟨ht, rfl⟩ := (appendEvent_eq_ok row).mp hw
    exact ⟨log, o, row, ho, hu, by simpa using ht, rfl⟩
  · rintro ⟨log, o, row, ho, hu, ht, rfl⟩
    exact ⟨o, ⟨log, row, ho⟩, o', hu, _,
      (appendEvent_eq_ok row).mpr ⟨by simpa using ht, rfl⟩, rfl, rfl⟩

theorem amend_eq_ok : s.amend c env id quantity limitPrice actor = .ok (o', s') ↔
    ∃ log o, s.intents.find? id = some log ∧ log.order c = .ok o ∧
      o.MayAmend quantity limitPrice ∧ env.storesText actor = true ∧
      o' = o.withTerms quantity limitPrice ∧
      s' = ⟨s.intents.put (log.append (.orderAmended o.intent.quantity quantity
        o.intent.limitPrice limitPrice actor)), s.fills⟩ := by
  simp only [amend, guarded_eq_ok, Except.bind_eq_ok, order_eq_ok]
  constructor
  · rintro ⟨o, ⟨log, row, ho⟩, h⟩
    by_cases hm : o.MayAmend quantity limitPrice
    · simp only [hm, not_true_eq_false, if_false, Except.bind_eq_ok, Except.pure_eq_ok,
        Prod.mk.injEq] at h
      obtain ⟨w, hw, rfl, rfl⟩ := h
      obtain ⟨ht, rfl⟩ := (appendEvent_eq_ok row).mp hw
      exact ⟨log, o, row, ho, hm, by simpa using ht, rfl, rfl⟩
    · simp [hm] at h
  · rintro ⟨log, o, row, ho, hm, ht, rfl, rfl⟩
    refine ⟨o, ⟨log, row, ho⟩, ?_⟩
    have hw : s.appendEvent env id [actor] (.orderAmended o.intent.quantity quantity
        o.intent.limitPrice limitPrice actor) = .ok _ :=
      (appendEvent_eq_ok row).mpr ⟨by simpa using ht, rfl⟩
    simp only [hm, not_true_eq_false, if_false, hw]
    rfl

theorem insertFill_eq_ok : s.insertFill env ext id quantity price at_ = .ok s' ↔
    ∃ q p, Decimal.numeric 30 12 quantity = some q ∧ Decimal.numeric 30 12 price = some p ∧
      0 < q ∧ 0 < p ∧
      s' = ⟨s.intents, s.fills.put ⟨ext, id, env.timestamptz at_, q, p⟩⟩ := by
  unfold insertFill
  cases hq : Decimal.numeric 30 12 quantity with
  | none => simp
  | some q =>
      cases hp : Decimal.numeric 30 12 price with
      | none => simp
      | some p =>
          by_cases h : 0 < q ∧ 0 < p
          · simp [h, eq_comm]
          · simp only [if_neg h, reduceCtorEq, Option.some.injEq, false_iff]
            rintro ⟨_, _, rfl, rfl, h₁, h₂, _⟩
            exact h ⟨h₁, h₂⟩

theorem ingestFillIn_fresh (fresh : s.fills.find? ext = none) :
    s.ingestFillIn c env ext id quantity price at_ = .ok (o', s') ↔
      env.storesText ext = true ∧ ∃ log o q p, s.intents.find? id = some log ∧
        log.order c = .ok o ∧ o.fill c quantity price = .ok o' ∧
        Decimal.numeric 30 12 quantity = some q ∧ Decimal.numeric 30 12 price = some p ∧
        0 < q ∧ 0 < p ∧
        s' = ⟨s.intents.put (log.append (.fillIngested ext quantity price o'.status)),
          s.fills.put ⟨ext, id, env.timestamptz at_, q, p⟩⟩ := by
  unfold ingestFillIn
  by_cases ht : env.storesText ext = false
  · simp [ht]
  rw [if_neg ht, fresh]
  rw [Bool.not_eq_false] at ht
  simp only [Except.bind_eq_ok, order_eq_ok, onValueError_eq_ok, insertFill_eq_ok,
    Except.pure_eq_ok, Prod.mk.injEq, ht, true_and]
  constructor
  · rintro ⟨o, ⟨log, row, ho⟩, u, hu, w, ⟨q, p, hq, hp, h₁, h₂, hw⟩, v, hv, rfl, rfl⟩
    have hrow : w.intents.find? id = some log := by rw [hw]; exact row
    obtain ⟨_, hv⟩ := (appendEvent_eq_ok hrow).mp hv
    rw [hw] at hv
    exact ⟨log, o, q, p, row, ho, hu, hq, hp, h₁, h₂, hv⟩
  · rintro ⟨log, o, q, p, row, ho, hu, hq, hp, h₁, h₂, hs⟩
    let w : PostgresPaperOms :=
      ⟨s.intents, s.fills.put ⟨ext, id, env.timestamptz at_, q, p⟩⟩
    have hrow : w.intents.find? id = some log := row
    exact ⟨o, ⟨log, row, ho⟩, o', hu, w, ⟨q, p, hq, hp, h₁, h₂, rfl⟩, s',
      (appendEvent_eq_ok hrow).mpr ⟨by simp [ht], hs⟩, rfl, rfl⟩

theorem ingestFillIn_known_iff {f : PgFill} (known : s.fills.find? ext = some f) :
    s.ingestFillIn c env ext id quantity price at_ = .ok (o', s') ↔
      env.storesText ext = true ∧ (f.intentId = id ∧ f.quantity = quantity ∧ f.price = price) ∧
        s.order c id = .ok o' ∧ s' = s := by
  unfold ingestFillIn
  by_cases ht : env.storesText ext = false
  · simp [ht]
  rw [if_neg ht, known]
  rw [Bool.not_eq_false] at ht
  by_cases he : f.intentId = id ∧ f.quantity = quantity ∧ f.price = price
  · have hne : ¬ (f.intentId ≠ id ∨ f.quantity ≠ quantity ∨ f.price ≠ price) := by
      simpa only [ne_eq, not_or, not_not] using he
    simp only [if_neg hne, Except.bind_eq_ok, Except.pure_eq_ok, Prod.mk.injEq, ht, true_and,
      and_iff_right he]
    constructor
    · rintro ⟨o, ho, rfl, rfl⟩
      exact ⟨ho, rfl⟩
    · rintro ⟨ho, rfl⟩
      exact ⟨o', ho, rfl, rfl⟩
  · have hne : f.intentId ≠ id ∨ f.quantity ≠ quantity ∨ f.price ≠ price := by
      simpa only [not_and_or] using he
    simp only [if_pos hne, reduceCtorEq, he, false_and, and_false]

theorem ingestFillIn_known {f : PgFill} (known : s.fills.find? ext = some f)
    (h : s.ingestFillIn c env ext id quantity price at_ = .ok (o', s')) : s' = s :=
  ((ingestFillIn_known_iff known).mp h).2.2.2

theorem ingestFill_eq_ok : s.ingestFill c env ext id quantity price at_ = .ok (o', s') ↔
    (blank ext = false ∧ 0 < quantity ∧ 0 < price ∧ at_.isAware = true) ∧
      s.ingestFillIn c env ext id quantity price at_ = .ok (o', s') := by
  unfold ingestFill
  by_cases hv : blank ext ∨ quantity ≤ 0 ∨ price ≤ 0 ∨ at_.isAware = false
  · have hv' : ¬ (blank ext = false ∧ 0 < quantity ∧ 0 < price ∧ at_.isAware = true) := by
      simpa only [not_and_or, Bool.not_eq_false, not_lt, Bool.not_eq_true] using hv
    simp only [if_pos hv, hv', reduceCtorEq, false_and]
  · have hv' : blank ext = false ∧ 0 < quantity ∧ 0 < price ∧ at_.isAware = true := by
      simpa only [not_or, Bool.not_eq_true, not_le, Bool.not_eq_false] using hv
    rw [if_neg hv, guarded_eq_ok]
    exact (and_iff_right hv').symm

theorem create_eq_ok : s.create c env o = .ok (o', s') ↔ o.status = proposed ∧
    ((s.order c o.intentId = .ok o' ∧ o'.intent = o.intent ∧ s' = s) ∨
     (s.intents.find? o.intentId = none ∧ o' = o ∧ ∃ intent,
      insertIntent env o.intent = .ok intent ∧
      s' = ⟨s.intents.put ⟨intent, [.orderCreated proposed]⟩, s.fills⟩)) := by
  unfold create
  by_cases hp : o.status = proposed
  swap
  · simp [hp]
  simp only [hp, ne_eq, not_true_eq_false, if_false, guarded_eq_ok, true_and]
  cases hr : s.intents.find? o.intentId with
  | none =>
      simp only [Except.bind_eq_ok, Except.pure_eq_ok, Prod.mk.injEq, order, hr, reduceCtorEq,
        false_and, false_or, true_and]
      constructor
      · rintro ⟨intent, hi, rfl, rfl⟩
        exact ⟨rfl, intent, hi, rfl⟩
      · rintro ⟨rfl, intent, hi, rfl⟩
        exact ⟨intent, hi, rfl, rfl⟩
  | some log =>
      simp only [Except.bind_eq_ok, order, hr, reduceCtorEq, false_and, or_false]
      constructor
      · rintro ⟨existing, he, h⟩
        by_cases hi : existing.intent = o.intent
        · simp only [hi, not_true_eq_false, if_false, Except.pure_eq_ok, Prod.mk.injEq] at h
          obtain ⟨rfl, rfl⟩ := h
          exact ⟨he, hi, rfl⟩
        · simp [hi] at h
      · rintro ⟨he, hi, rfl⟩
        exact ⟨o', he, by simp [hi, pure, Except.pure]⟩

theorem cancel_ok (h : s.transition c env id cancelPending actor = .ok (o', s')) :
    ∃ log o o₁ o₂, s.intents.find? id = some log ∧ log.order c = .ok o ∧
      o.transition cancelPending = .ok o₁ ∧ o₁.transition cancelled = .ok o₂ ∧
      env.storesText actor = true ∧
      s.cancel c env id actor = (.ok o₂,
        ⟨(s.intents.put (log.append (.orderStatusChanged o.status cancelPending actor))).put
          ((log.append (.orderStatusChanged o.status cancelPending actor)).append
            (.orderStatusChanged cancelPending cancelled actor)), s.fills⟩) := by
  obtain ⟨log, o, row, ho, ht, hx, hs⟩ := transition_eq_ok.mp h
  have hid : log.intentId = id := Table.key_of_find? row
  have hst : o'.status = cancelPending := by
    obtain ⟨_, rfl⟩ := PaperOrder.transition_eq_ok.mp ht
    rfl
  have hrow : s'.intents.find? id =
      some (log.append (.orderStatusChanged o.status cancelPending actor)) := by
    rw [hs, ← hid]
    exact Table.find?_put_self _ (log.append _)
  have h₂ := transition_eq_ok.mpr ⟨_, o', hrow, order_append _ ho ht,
    PaperOrder.transition_cancelled ht, hx, rfl⟩
  refine ⟨log, o, o', _, row, ho, ht, PaperOrder.transition_cancelled ht, hx, ?_⟩
  unfold cancel
  rw [h]
  simp only
  rw [h₂, hst, hs]
  rfl

theorem book_put (t : Table IntentLog.intentId) (f₁ f₂ : Table PgFill.externalFillId) :
    book c ⟨t.put log, f₁⟩ =
      Function.update (book c ⟨t, f₂⟩) log.intentId (log.order c).toOption := by
  funext id
  by_cases h : log.intentId = id
  · subst h
    simp [book, order]
  · rw [Function.update_of_ne (Ne.symm h)]
    simp only [book, order, Table.find?_put_of_ne h]

theorem insertIntent_intentId {intent row : OrderIntent} (h : insertIntent env intent = .ok row) :
    row.intentId = intent.intentId := by
  unfold insertIntent at h
  split at h
  · cases h
  · split at h
    · split at h
      · cases h
        rfl
      · cases h
    · cases h

theorem insertIntent_quantity {intent row : OrderIntent} (h : insertIntent env intent = .ok row) :
    0 < row.quantity := by
  unfold insertIntent at h
  split at h
  · cases h
  · split at h
    · split at h
      · rename_i hchk
        cases h
        exact hchk.1
      · cases h
    · cases h

theorem book_append {fl : Table PgFill.externalFillId} (event : OmsEvent)
    (row : s.intents.find? id = some log) (ho : log.order c = .ok o)
    (he : applyEvent c o event = .ok o') :
    book c ⟨s.intents.put (log.append event), fl⟩ = Function.update (s.book c) id (some o') := by
  rw [book_put _ _ s.fills, order_append event ho he]
  have hid : log.intentId = id := Table.key_of_find? row
  show Function.update _ log.intentId _ = _
  rw [hid]
  rfl

theorem step_effect (c : Decimal.Context) (env : PgEnv) (s : PostgresPaperOms) (a : OmsCall) :
    Effect c (s.book c) a ((s.step c env a).book c) := by
  have hbook : ∀ {id log o}, s.intents.find? id = some log → log.order c = .ok o →
      s.book c id = some o :=
    fun row ho => book_eq_some.mpr (order_eq_ok.mpr ⟨_, row, ho⟩)
  cases a with
  | create order =>
      show Effect c _ _ ((commit s (s.create c env order)).2.book c)
      cases h : s.create c env order with
      | error e => exact .none
      | ok r =>
          obtain ⟨hp, ⟨_, _, hs⟩ | ⟨hn, _, intent, hi, hs⟩⟩ := create_eq_ok.mp h
          · exact hs ▸ .none
          · have hk : IntentLog.intentId ⟨intent, [.orderCreated proposed]⟩ = order.intentId :=
              insertIntent_intentId hi
            show Effect c _ _ (r.2.book c)
            rw [hs, book_put _ _ s.fills, hk]
            have hfresh : s.book c order.intentId = none := by
              simp [book, PostgresPaperOms.order, hn, Except.toOption]
            exact @Effect.create c _ order { intent := intent } hfresh rfl rfl (.inl rfl)
  | transition id st actor =>
      show Effect c _ _ ((commit s (s.transition c env id st actor)).2.book c)
      cases h : s.transition c env id st actor with
      | error e => exact .none
      | ok r =>
          obtain ⟨log, o, row, ho, ok, _, hs⟩ := transition_eq_ok.mp h
          show Effect c _ _ (r.2.book c)
          rw [hs, book_append (.orderStatusChanged o.status st actor) row ho ok]
          exact .transition (hbook row ho) ok
  | ingestFill ext id q p at_ =>
      show Effect c _ _ ((commit s (s.ingestFill c env ext id q.value p.value at_)).2.book c)
      cases h : s.ingestFill c env ext id q.value p.value at_ with
      | error e => exact .none
      | ok r =>
          have hin := (ingestFill_eq_ok.mp h).2
          show Effect c _ _ (r.2.book c)
          cases hf : s.fills.find? ext with
          | some f => exact ingestFillIn_known hf hin ▸ .none
          | none =>
              obtain ⟨_, log, o, _, _, row, ho, ok, _, _, _, _, hs⟩ :=
                (ingestFillIn_fresh hf).mp hin
              rw [hs, book_append (.fillIngested ext q.value p.value r.1.status) row ho ok]
              exact .fill (hbook row ho) ok
  | cancel id actor =>
      show Effect c _ _ ((s.cancel c env id actor).2.book c)
      cases h : s.transition c env id cancelPending actor with
      | error e =>
          have hc : s.cancel c env id actor = (.error e, s) := by
            unfold cancel
            rw [h]
          rw [hc]
          exact .none
      | ok r =>
          obtain ⟨log, o, o₁, o₂, row, ho, pending, done, _, hc⟩ := cancel_ok h
          have hid : log.intentId = id := Table.key_of_find? row
          rw [hc]
          show Effect c _ _ (book c ⟨_, s.fills⟩)
          have h₁ := order_append (.orderStatusChanged o.status cancelPending actor)
            ho pending
          rw [book_put _ _ s.fills,
            book_append (.orderStatusChanged o.status cancelPending actor) row ho pending,
            order_append (.orderStatusChanged cancelPending cancelled actor) h₁ done]
          show Effect c _ _ (Function.update (Function.update _ id _) log.intentId (some o₂))
          rw [hid, Function.update_idem]
          exact .cancel (hbook row ho) pending done
  | amend id q p actor =>
      show Effect c _ _ ((commit s (s.amend c env id q p actor)).2.book c)
      cases h : s.amend c env id q p actor with
      | error e => exact .none
      | ok r =>
          obtain ⟨log, o, row, ho, may, _, hr, hs⟩ := amend_eq_ok.mp h
          show Effect c _ _ (r.2.book c)
          have happly : applyEvent c o
              (.orderAmended o.intent.quantity q o.intent.limitPrice p actor) =
              .ok (o.withTerms q p) := rfl
          rw [hs, book_append _ row ho happly]
          exact .amend (hbook row ho) may

end PostgresPaperOms

end TradePlatform
