/-
# `TradePlatform.PaperOms` — the SQLite paper OMS

`SQLitePaperOms` of `paper_oms.py`: the current order rows, the append-only events
and the recorded fills.  Every method reads, checks, writes and commits at its end,
so it is one function to the state after its commit, or an exception.  `cancel` is
two transitions with a commit each.

The rows are kept as the values the columns read back to (`Decimal(str(q))` is `q`);
the quantity and price of a fill keep the text as well, since `ingest_fill` compares
it.  Generated ids and event times are read by no method here and are left out.
-/
import TradePlatform.OrderBook
import TradePlatform.Lib.Table
import TradePlatform.Lib.Replay

namespace TradePlatform

open OrderStatus

/-- A row of `paper_order_events`: its type with the payload. -/
inductive OmsEvent where
  | orderCreated (status : OrderStatus)
  | orderStatusChanged (previous next : OrderStatus) (actor : String)
  | fillIngested (externalFillId : String) (quantity price : Decimal) (status : OrderStatus)
  | orderAmended (previousQuantity quantity previousLimitPrice limitPrice : Decimal)
      (actor : String)
deriving DecidableEq

structure PaperFill where
  externalFillId : String
  intentId : UUID
  occurredAt : DateTime
  quantity : Decimal.Numeral
  price : Decimal.Numeral
deriving DecidableEq

structure SQLitePaperOms where
  orders : Table PaperOrder.intentId
  events : List (UUID × OmsEvent)
  fills : Table PaperFill.externalFillId

namespace SQLitePaperOms

def empty : SQLitePaperOms := ⟨.empty _, [], .empty _⟩

variable (c : Decimal.Context) (s : SQLitePaperOms)

def get (intentId : UUID) : Except Exn PaperOrder :=
  match s.orders.find? intentId with
  | none => .error (.paperOmsError "unknown_order_intent")
  | some row => .ok row

def appendEvent (intentId : UUID) (event : OmsEvent) : SQLitePaperOms :=
  { s with events := s.events ++ [(intentId, event)] }

/-- `_write_order`: the five columns an update touches, in the row of the intent. -/
def writeOrder (order : PaperOrder) : Except Exn SQLitePaperOms :=
  match s.orders.find? order.intentId with
  | none => .error (.paperOmsError "unknown_order_intent")
  | some row =>
      let intent := { row.intent with
        quantity := order.intent.quantity
        limitPrice := order.intent.limitPrice }
      .ok { s with
        orders := s.orders.put
          ⟨intent, order.status, order.filledQuantity, order.averageFillPrice⟩ }

def create (order : PaperOrder) : Except Exn (PaperOrder × SQLitePaperOms) :=
  if order.status ≠ proposed then .error (.paperOmsError "new_order_must_be_proposed")
  else
    match s.orders.find? order.intentId with
    | some existing =>
        if existing.intent ≠ order.intent then
          .error (.paperOmsError "idempotency_key_payload_conflict")
        else .ok (existing, s)
    | none =>
        -- the row gets no average price, and the caller gets the order it passed
        let s' := { s with orders := s.orders.put { order with averageFillPrice := none } }
        .ok (order, s'.appendEvent order.intentId (.orderCreated order.status))

def transition (intentId : UUID) (nextStatus : OrderStatus) (actor : String) :
    Except Exn (PaperOrder × SQLitePaperOms) := do
  let order ← s.get intentId
  let updated ← onValueError (.paperOmsError "invalid_order_transition")
    (order.transition nextStatus)
  let s' ← s.writeOrder updated
  pure (updated, s'.appendEvent intentId (.orderStatusChanged order.status nextStatus actor))

def ingestFill (externalFillId : String) (intentId : UUID) (quantity price : Decimal.Numeral)
    (occurredAt : DateTime) : Except Exn (PaperOrder × SQLitePaperOms) :=
  if blank externalFillId ∨ quantity.value ≤ 0 ∨ price.value ≤ 0 then
    .error (.paperOmsError "invalid_fill")
  else if occurredAt.isAware = false then
    .error (.paperOmsError "fill_timestamp_must_be_timezone_aware")
  else
    match s.fills.find? externalFillId with
    | some existing =>
        if (existing.intentId, existing.quantity, existing.price) ≠ (intentId, quantity, price) then
          .error (.paperOmsError "external_fill_id_conflict")
        else do
          let order ← s.get intentId
          pure (order, s)
    | none => do
        let order ← s.get intentId
        let updated ← onValueError (.paperOmsError "fill_rejected_by_order_state")
          (order.fill c quantity.value price.value)
        let s' := { s with
          fills := s.fills.put ⟨externalFillId, intentId, occurredAt, quantity, price⟩ }
        let s' ← s'.writeOrder updated
        pure (updated, s'.appendEvent intentId
          (.fillIngested externalFillId quantity.value price.value updated.status))

/-- Two transactions: a `cancel` that fails in the second keeps the first. -/
def cancel (intentId : UUID) (actor : String) : Answer SQLitePaperOms :=
  match s.transition intentId cancelPending actor with
  | .error e => (.error e, s)
  | .ok (pending, s') => commit s' (s'.transition pending.intentId cancelled actor)

def amend (intentId : UUID) (quantity limitPrice : Decimal) (actor : String) :
    Except Exn (PaperOrder × SQLitePaperOms) := do
  let order ← s.get intentId
  if ¬ order.MayAmend quantity limitPrice then
    .error (.paperOmsError "invalid_order_amendment")
  let amended := order.withTerms quantity limitPrice
  let s' ← s.writeOrder amended
  pure (amended, s'.appendEvent intentId
    (.orderAmended order.intent.quantity quantity order.intent.limitPrice limitPrice actor))

def call : OmsCall → Answer SQLitePaperOms
  | .create order => commit s (s.create order)
  | .transition id st actor => commit s (s.transition id st actor)
  | .ingestFill ext id q p occurredAt => commit s (s.ingestFill c ext id q p occurredAt)
  | .cancel id actor => s.cancel id actor
  | .amend id q p actor => commit s (s.amend id q p actor)

def step (a : OmsCall) : SQLitePaperOms := (s.call c a).2

def book : Book := fun id => s.orders.find? id

def fillsOf (id : UUID) : List PaperFill := s.fills.rows.filter fun f => decide (f.intentId = id)

/-! ## What each method can do -/

variable {c s} {s' : SQLitePaperOms} {o o' : PaperOrder} {id : UUID} {st : OrderStatus}
  {actor ext : String} {q p : Decimal.Numeral} {at_ : DateTime} {quantity limitPrice : Decimal}

theorem get_eq_ok : s.get id = .ok o ↔ s.orders.find? id = some o := by
  unfold get
  cases h : s.orders.find? id with
  | none => simp
  | some row => simp

theorem writeOrder_eq (row : s.orders.find? o'.intentId = some o)
    (terms : o'.intent = { o.intent with
      quantity := o'.intent.quantity, limitPrice := o'.intent.limitPrice }) :
    s.writeOrder o' = .ok { s with orders := s.orders.put o' } := by
  unfold writeOrder
  rw [row]
  show Except.ok { s with orders := s.orders.put ⟨{ o.intent with
    quantity := o'.intent.quantity, limitPrice := o'.intent.limitPrice }, _, _, _⟩ } = _
  rw [← terms]

theorem create_eq_ok : s.create o = .ok (o', s') ↔ o.status = proposed ∧
    ((s.orders.find? o.intentId = some o' ∧ o'.intent = o.intent ∧ s' = s) ∨
     (s.orders.find? o.intentId = none ∧ o' = o ∧
      s' = ⟨s.orders.put { o with averageFillPrice := none },
        s.events ++ [(o.intentId, .orderCreated o.status)], s.fills⟩)) := by
  unfold create
  by_cases hp : o.status = proposed
  · cases hr : s.orders.find? o.intentId with
    | none => simp [hp, appendEvent, eq_comm]
    | some row =>
        by_cases hi : row.intent = o.intent
        · have hrow : row = o' → o'.intent = o.intent := fun e => e ▸ hi
          simp only [hp, hi, ne_eq, not_true_eq_false, if_false, Except.ok.injEq, Prod.mk.injEq,
            Option.some.injEq, reduceCtorEq, false_and, or_false, true_and]
          exact ⟨fun h => ⟨h.1, hrow h.1, h.2.symm⟩, fun h => ⟨h.1, h.2.2.symm⟩⟩
        · have hrow : row = o' → o'.intent ≠ o.intent := fun e => e ▸ hi
          simp only [hp, hi, ne_eq, not_true_eq_false, not_false_eq_true, if_false, if_true,
            reduceCtorEq, Option.some.injEq, false_and, or_false, true_and, false_iff]
          exact fun h => hrow h.1 h.2.1
  · simp [hp]

theorem transition_eq_ok : s.transition id st actor = .ok (o', s') ↔
    ∃ o, s.orders.find? id = some o ∧ o.transition st = .ok o' ∧
      s' = ⟨s.orders.put o', s.events ++ [(id, .orderStatusChanged o.status st actor)],
        s.fills⟩ := by
  simp only [transition, Except.bind_eq_ok, get_eq_ok, onValueError_eq_ok]
  refine exists_congr fun o => and_congr_right fun row => ?_
  constructor
  · rintro ⟨u, hu, w, hw, hpure⟩
    have hid : u.intentId = id := (PaperOrder.intentId_of_transition hu).trans
      (Table.key_of_find? row)
    rw [writeOrder_eq (o := o) (hid ▸ row)
      (by obtain ⟨_, rfl⟩ := PaperOrder.transition_eq_ok.mp hu; rfl)] at hw
    cases hw
    cases hpure
    exact ⟨hu, rfl⟩
  · rintro ⟨hu, rfl⟩
    have hid : o'.intentId = id := (PaperOrder.intentId_of_transition hu).trans
      (Table.key_of_find? row)
    exact ⟨o', hu, _, writeOrder_eq (o := o) (hid ▸ row)
      (by obtain ⟨_, rfl⟩ := PaperOrder.transition_eq_ok.mp hu; rfl), rfl⟩

/-- An accepted fill is either known, and changes nothing, or new, and moves the
order by `PaperOrder.fill`. -/
theorem ingestFill_eq_ok : s.ingestFill c ext id q p at_ = .ok (o', s') ↔
    (blank ext = false ∧ 0 < q.value ∧ 0 < p.value ∧ at_.isAware = true) ∧
    ((∃ f, s.fills.find? ext = some f ∧ (f.intentId, f.quantity, f.price) = (id, q, p) ∧
        s.orders.find? id = some o' ∧ s' = s) ∨
     (s.fills.find? ext = none ∧ ∃ o, s.orders.find? id = some o ∧
        o.fill c q.value p.value = .ok o' ∧
        s' = ⟨s.orders.put o', s.events ++ [(id, .fillIngested ext q.value p.value o'.status)],
          s.fills.put ⟨ext, id, at_, q, p⟩⟩)) := by
  unfold ingestFill
  by_cases hv : blank ext ∨ q.value ≤ 0 ∨ p.value ≤ 0
  · have hv' : ¬ (blank ext = false ∧ 0 < q.value ∧ 0 < p.value) := by
      rcases hv with h | h | h
      · simp [h]
      · exact fun e => absurd e.2.1 (not_lt.mpr h)
      · exact fun e => absurd e.2.2 (not_lt.mpr h)
    simp only [if_pos hv, reduceCtorEq, false_iff]
    exact fun e => hv' ⟨e.1.1, e.1.2.1, e.1.2.2.1⟩
  have hv' : blank ext = false ∧ 0 < q.value ∧ 0 < p.value := by
    simpa only [not_or, Bool.not_eq_true, not_le] using hv
  rw [if_neg hv]
  by_cases ha : at_.isAware = false
  · simp [ha]
  rw [if_neg ha]
  rw [Bool.not_eq_false] at ha
  simp only [hv', ha, and_self, true_and]
  cases hf : s.fills.find? ext with
  | some f =>
      by_cases he : (f.intentId, f.quantity, f.price) = (id, q, p)
      · simp only [he, ne_eq, not_true_eq_false, if_false, Except.bind_eq_ok, get_eq_ok,
          Except.pure_eq_ok, Prod.mk.injEq, Option.some.injEq, reduceCtorEq, false_and, or_false]
        constructor
        · rintro ⟨_, row, rfl, rfl⟩
          exact ⟨f, rfl, by simpa only [Prod.mk.injEq] using he, row, rfl⟩
        · rintro ⟨_, rfl, _, row, rfl⟩
          exact ⟨o', row, rfl, rfl⟩
      · simp only [he, ne_eq, not_false_eq_true, if_true, reduceCtorEq, Option.some.injEq,
          false_and, or_false, false_iff]
        rintro ⟨_, rfl, he', _⟩
        exact he (by simpa only [Prod.mk.injEq] using he')
  | none =>
      simp only [Except.bind_eq_ok, get_eq_ok, onValueError_eq_ok, reduceCtorEq, false_and,
        exists_false, false_or, true_and]
      refine exists_congr fun o => and_congr_right fun row => ?_
      constructor
      · rintro ⟨u, hu, w, hw, hpure⟩
        have hid : u.intentId = id := (PaperOrder.intentId_of_fill hu).trans
          (Table.key_of_find? row)
        rw [writeOrder_eq (o := o) (hid ▸ row)
          (by obtain ⟨_, rfl⟩ := PaperOrder.fill_eq_ok.mp hu; rfl)] at hw
        cases hw
        cases hpure
        exact ⟨hu, rfl⟩
      · rintro ⟨hu, rfl⟩
        have hid : o'.intentId = id := (PaperOrder.intentId_of_fill hu).trans
          (Table.key_of_find? row)
        exact ⟨o', hu, _, writeOrder_eq (o := o) (hid ▸ row)
          (by obtain ⟨_, rfl⟩ := PaperOrder.fill_eq_ok.mp hu; rfl), rfl⟩

theorem amend_eq_ok : s.amend id quantity limitPrice actor = .ok (o', s') ↔
    ∃ o, s.orders.find? id = some o ∧ o.MayAmend quantity limitPrice ∧
      o' = o.withTerms quantity limitPrice ∧
      s' = ⟨s.orders.put o', s.events ++ [(id, .orderAmended o.intent.quantity quantity
        o.intent.limitPrice limitPrice actor)], s.fills⟩ := by
  simp only [amend, Except.bind_eq_ok, get_eq_ok]
  refine exists_congr fun o => and_congr_right fun row => ?_
  have hw : s.writeOrder (o.withTerms quantity limitPrice) =
      .ok { s with orders := s.orders.put (o.withTerms quantity limitPrice) } :=
    writeOrder_eq (o := o) ((Table.key_of_find? row).symm ▸ row) rfl
  by_cases hm : o.MayAmend quantity limitPrice
  · simp only [hm, not_true_eq_false, if_false, hw, Except.ok_bind, true_and]
    constructor
    · rintro ⟨⟩
      exact ⟨rfl, rfl⟩
    · rintro ⟨rfl, rfl⟩
      rfl
  · simp [hm]

theorem cancel_eq (s : SQLitePaperOms) (id : UUID) (actor : String) :
    s.cancel id actor = (match s.transition id cancelPending actor with
      | .error e => (.error e, s)
      | .ok (o₁, s₁) => (.ok { o₁ with status := cancelled },
          ⟨s₁.orders.put { o₁ with status := cancelled },
            s₁.events ++ [(id, .orderStatusChanged cancelPending cancelled actor)],
            s₁.fills⟩)) := by
  unfold cancel
  cases h : s.transition id cancelPending actor with
  | error e => rfl
  | ok r =>
      obtain ⟨o₁, s₁⟩ := r
      obtain ⟨o, row, ht, rfl⟩ := transition_eq_ok.mp h
      have hid : o₁.intentId = id := (PaperOrder.intentId_of_transition ht).trans
        (Table.key_of_find? row)
      have hs : o₁.status = cancelPending := by
        obtain ⟨_, rfl⟩ := PaperOrder.transition_eq_ok.mp ht
        rfl
      let s₁ : SQLitePaperOms := ⟨s.orders.put o₁, s.events ++
        [(id, .orderStatusChanged o.status cancelPending actor)], s.fills⟩
      have h₂ : s₁.transition o₁.intentId cancelled actor = .ok (_, _) := transition_eq_ok.mpr
        ⟨o₁, Table.find?_put_self s.orders o₁, PaperOrder.transition_cancelled ht, rfl⟩
      rw [hs, hid] at h₂
      simp only [hid]
      rw [h₂]
      rfl

inductive Step (c : Decimal.Context) (s : SQLitePaperOms) : OmsCall → SQLitePaperOms → Prop
  | none {call : OmsCall} : Step c s call s
  | create {order : PaperOrder} {ev : List (UUID × OmsEvent)} (proposed : order.status = proposed)
      (fresh : s.orders.find? order.intentId = none) :
      Step c s (.create order) ⟨s.orders.put { order with averageFillPrice := none }, ev, s.fills⟩
  | transition {id : UUID} {st : OrderStatus} {actor : String} {o o' : PaperOrder}
      {ev : List (UUID × OmsEvent)} (row : s.orders.find? id = some o)
      (ok : o.transition st = .ok o') :
      Step c s (.transition id st actor) ⟨s.orders.put o', ev, s.fills⟩
  | fill {ext : String} {id : UUID} {q p : Decimal.Numeral} {at_ : DateTime} {o o' : PaperOrder}
      {ev : List (UUID × OmsEvent)} (fresh : s.fills.find? ext = none)
      (row : s.orders.find? id = some o) (ok : o.fill c q.value p.value = .ok o') :
      Step c s (.ingestFill ext id q p at_)
        ⟨s.orders.put o', ev, s.fills.put ⟨ext, id, at_, q, p⟩⟩
  | cancel {id : UUID} {actor : String} {o o₁ o₂ : PaperOrder} {ev : List (UUID × OmsEvent)}
      (row : s.orders.find? id = some o) (pending : o.transition cancelPending = .ok o₁)
      (done : o₁.transition cancelled = .ok o₂) :
      Step c s (.cancel id actor) ⟨(s.orders.put o₁).put o₂, ev, s.fills⟩
  | amend {id : UUID} {q p : Decimal} {actor : String} {o : PaperOrder}
      {ev : List (UUID × OmsEvent)} (row : s.orders.find? id = some o) (may : o.MayAmend q p) :
      Step c s (.amend id q p actor) ⟨s.orders.put (o.withTerms q p), ev, s.fills⟩

theorem step_spec (c : Decimal.Context) (s : SQLitePaperOms) (a : OmsCall) :
    Step c s a (s.step c a) := by
  cases a with
  | create order =>
      show Step c s _ (commit s (s.create order)).2
      cases h : s.create order with
      | error e => exact .none
      | ok r =>
          obtain ⟨hp, ⟨_, _, hs⟩ | ⟨hn, _, hs⟩⟩ := create_eq_ok.mp h
          · exact hs ▸ .none
          · exact hs ▸ .create hp hn
  | transition id st actor =>
      show Step c s _ (commit s (s.transition id st actor)).2
      cases h : s.transition id st actor with
      | error e => exact .none
      | ok r =>
          obtain ⟨o, row, ok, hs⟩ := transition_eq_ok.mp h
          exact hs ▸ .transition row ok
  | ingestFill ext id q p at_ =>
      show Step c s _ (commit s (s.ingestFill c ext id q p at_)).2
      cases h : s.ingestFill c ext id q p at_ with
      | error e => exact .none
      | ok r =>
          obtain ⟨_, ⟨_, _, _, _, hs⟩ | ⟨fresh, o, row, ok, hs⟩⟩ := ingestFill_eq_ok.mp h
          · exact hs ▸ .none
          · exact hs ▸ .fill fresh row ok
  | cancel id actor =>
      show Step c s _ (s.cancel id actor).2
      rw [cancel_eq]
      cases h : s.transition id cancelPending actor with
      | error e => exact .none
      | ok r =>
          obtain ⟨o₁, s₁⟩ := r
          obtain ⟨o, row, pending, rfl⟩ := transition_eq_ok.mp h
          exact .cancel row pending (PaperOrder.transition_cancelled pending)
  | amend id q p actor =>
      show Step c s _ (commit s (s.amend id q p actor)).2
      cases h : s.amend id q p actor with
      | error e => exact .none
      | ok r =>
          obtain ⟨o, row, may, ho, hs⟩ := amend_eq_ok.mp h
          exact (hs.trans (by rw [ho])) ▸ .amend row may

theorem book_put (t : Table PaperOrder.intentId) (o : PaperOrder) :
    (fun id => (t.put o).find? id) =
      Function.update (fun id => t.find? id) o.intentId (some o) := by
  funext id
  by_cases h : o.intentId = id
  · subst h
    simp
  · rw [Table.find?_put_of_ne h, Function.update_of_ne (Ne.symm h)]

theorem step_effect (c : Decimal.Context) (s : SQLitePaperOms) (a : OmsCall) :
    Effect c s.book a (s.step c a).book := by
  have h := step_spec c s a
  revert h
  generalize s.step c a = s'
  intro h
  cases h with
  | none => exact .none
  | @create order ev hp fresh =>
      show Effect c _ _ fun id => (s.orders.put _).find? id
      rw [book_put]
      exact .create fresh hp rfl (.inr rfl)
  | @transition id st actor o o' ev row ok =>
      show Effect c _ _ fun id => (s.orders.put _).find? id
      rw [book_put, (PaperOrder.intentId_of_transition ok).trans (Table.key_of_find? row)]
      exact .transition row ok
  | @fill ext id q p at_ o o' ev fresh row ok =>
      show Effect c _ _ fun id => (s.orders.put _).find? id
      rw [book_put, (PaperOrder.intentId_of_fill ok).trans (Table.key_of_find? row)]
      exact .fill row ok
  | @cancel id actor o o₁ o₂ ev row pending done =>
      have h₁ : o₁.intentId = id :=
        (PaperOrder.intentId_of_transition pending).trans (Table.key_of_find? row)
      have h₂ : o₂.intentId = id := (PaperOrder.intentId_of_transition done).trans h₁
      show Effect c _ _ fun id => ((s.orders.put _).put _).find? id
      rw [book_put, book_put, h₁, h₂, Function.update_idem]
      exact .cancel row pending done
  | @amend id q p actor o ev row may =>
      show Effect c _ _ fun id => (s.orders.put _).find? id
      rw [book_put, PaperOrder.withTerms_intentId, Table.key_of_find? row]
      exact .amend row may

end SQLitePaperOms

end TradePlatform
