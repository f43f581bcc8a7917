/-
# `TradePlatform.EventBacktestAccounts` — what a simulation conserves

With exact arithmetic and orders as `create_order` builds them: the cash and the positions
are those of the fills, an order has filled what its fills say and no more than its
quantity, and no fill is early, late, or after a cancellation.  `OrderStep` says all that
the loop of `process` may do with one order; the invariant goes through the loop with the
orders of the snapshot that are still to come, none of which an earlier one touched.
-/
import TradePlatform.EventBacktest

namespace TradePlatform

/-! ## Time -/

namespace DateTime

variable {a b d : DateTime}

theorem not_lt_trans (h : a.lt b = some false) (h' : b.lt d = some false) :
    a.lt d = some false := by
  cases a <;> cases b <;> cases d <;> simp only [lt, reduceCtorEq, Option.some.injEq,
    decide_eq_false_iff_not, not_lt] at h h' ⊢ <;> omega

end DateTime

namespace SimulatedOrder

variable {original order : SimulatedOrder} {event : MarketEvent} {latency : ℤ}

/-- What an advanced order is: the same order in another status, which works only once its
latency is over and before it expires. -/
structure Advanced (original : SimulatedOrder) (event : MarketEvent) (latency : ℤ)
    (order : SimulatedOrder) : Prop where
  same : order = { original with status := order.status, triggered := order.triggered }
  closed : original.Closed → order = original
  timely : order.Working → original.expired event.occurredAt = some false ∧
    (event.occurredAt.lt (original.submittedAt.add latency) = some false ∨ original.Working)

theorem not_closed_of_working (h : order.Working) : ¬ order.Closed := by
  rcases h with h | h <;> simp [Closed, h]

theorem advance_spec (h : original.advance event latency = some order) :
    Advanced original event latency order := by
  unfold advance at h
  by_cases hc : original.Closed
  · rw [if_pos hc] at h
    cases h
    exact ⟨rfl, fun _ => rfl, fun hw => absurd hc (not_closed_of_working hw)⟩
  rw [if_neg hc] at h
  cases he : original.expired event.occurredAt with
  | none =>
      rw [he] at h
      cases h
  | some expired =>
      rw [he] at h
      cases expired with
      | true =>
          cases h
          refine ⟨rfl, fun h => absurd h hc, fun hw => ?_⟩
          rcases hw with hw | hw <;> cases hw
      | false =>
          cases hl : event.occurredAt.lt (original.submittedAt.add latency) with
          | none =>
              rw [hl] at h
              cases h
          | some early =>
              rw [hl] at h
              cases early with
              | true =>
                  cases h
                  exact ⟨rfl, fun _ => rfl, fun hw => ⟨he, .inr hw⟩⟩
              | false =>
                  have htimely : ∀ {p : Prop}, p → original.expired event.occurredAt = some false ∧
                      (event.occurredAt.lt (original.submittedAt.add latency) = some false ∨
                        original.Working) := fun _ => ⟨he, .inl hl⟩
                  simp only at h
                  split at h
                  · obtain ⟨reached, _, rfl⟩ := Option.map_eq_some_iff.mp h
                    exact ⟨rfl, fun h => absurd h hc, htimely⟩
                  · split at h
                    · cases h
                      exact ⟨rfl, fun h => absurd h hc, htimely⟩
                    · cases h
                      exact ⟨rfl, fun _ => rfl, htimely⟩

end SimulatedOrder

namespace EventDrivenBacktester

variable {sqrt : Decimal → Decimal} {s s' : EventDrivenBacktester} {event : MarketEvent}
  {original order : SimulatedOrder} {quantity initialCash : Decimal}

/-! ## What one order can do -/

inductive OrderStep (sqrt : Decimal → Decimal) (event : MarketEvent) (s : EventDrivenBacktester)
    (original : SimulatedOrder) : EventDrivenBacktester → Prop
  | raised : OrderStep sqrt event s original s
  | advanced {order : SimulatedOrder}
      (advance : original.Advanced event s.assumptions.latency order) :
      OrderStep sqrt event s original { s with orders := s.orders.put order }
  | filled {order : SimulatedOrder} {quantity : Decimal}
      (advance : original.Advanced event s.assumptions.latency order) (working : order.Working)
      (positive : 0 < quantity) (fits : quantity ≤ order.quantity - order.filledQuantity) :
      OrderStep sqrt event s original
        (fillOrder .exact sqrt { s with orders := s.orders.put order } event order quantity)

theorem processOrder_spec (sqrt : Decimal → Decimal) (s : EventDrivenBacktester)
    (event : MarketEvent) (original : SimulatedOrder) :
    OrderStep sqrt event s original (s.processOrder .exact sqrt event original).2 := by
  unfold processOrder
  cases hadv : original.advance event s.assumptions.latency with
  | none => exact .raised
  | some order =>
      have hspec := SimulatedOrder.advance_spec hadv
      simp only
      split
      · exact .advanced hspec
      · rename_i hopen
        cases hex : order.isExecutable event with
        | none => exact .advanced hspec
        | some executable =>
            cases executable with
            | false => exact .advanced hspec
            | true =>
                simp only
                split
                · exact .advanced hspec
                · rename_i hq
                  have hworking : order.Working := by
                    by_contra hw
                    exact hopen (.inl hw)
                  exact .filled hspec hworking (not_le.mp hq) (min_le_left _ _)

/-! ## The invariant -/

def fillsOf (s : EventDrivenBacktester) (orderId : UUID) : List SimulatedFill :=
  s.fills.filter fun fill => decide (fill.orderId = orderId)

def signedQuantity (fill : SimulatedFill) : Decimal :=
  if fill.side = .buy then fill.quantity else -fill.quantity

/-- An order has filled what its fills say, within its quantity, and each of them after its
latency and before its expiry. -/
structure OrderSound (s : EventDrivenBacktester) (order : SimulatedOrder) : Prop where
  filled : order.filledQuantity = ((s.fillsOf order.orderId).map SimulatedFill.quantity).sum
  fits : order.filledQuantity ≤ order.quantity
  timely : ∀ fill ∈ s.fillsOf order.orderId,
    fill.occurredAt.lt (order.submittedAt.add s.assumptions.latency) = some false ∧
      order.expired fill.occurredAt = some false

structure Conserved (initialCash : Decimal) (s : EventDrivenBacktester) : Prop where
  cash : s.cash.amount = initialCash + (s.result .exact).netCashChange
  positions : ∀ instrumentId, (s.position instrumentId).quantity =
    ((s.fills.filter fun fill => decide (fill.instrumentId = instrumentId)).map signedQuantity).sum
  orders : ∀ order ∈ s.orders.rows, s.OrderSound order

/-- With what carries it through the loop: a working order is past its latency, and every
fill is of an order. -/
structure Inv (initialCash : Decimal) (s : EventDrivenBacktester) : Prop
    extends Conserved initialCash s where
  working : ∀ order ∈ s.orders.rows, order.Working → ∃ last, s.lastEventAt = some last ∧
    last.lt (order.submittedAt.add s.assumptions.latency) = some false
  known : ∀ fill ∈ s.fills, ∃ order, s.orders.find? fill.orderId = some order

theorem find?_put_known {t : Table SimulatedOrder.orderId} {id : UUID}
    (h : ∃ o, t.find? id = some o) (order : SimulatedOrder) :
    ∃ o, (t.put order).find? id = some o := by
  by_cases hid : order.orderId = id
  · exact ⟨order, hid ▸ Table.find?_put_self t order⟩
  · rw [Table.find?_put_of_ne hid]
    exact h

theorem Inv.put (h : Inv initialCash s) (sound : s.OrderSound order)
    (working : order.Working → ∃ last, s.lastEventAt = some last ∧
      last.lt (order.submittedAt.add s.assumptions.latency) = some false) :
    Inv initialCash { s with orders := s.orders.put order } where
  cash := h.cash
  positions := h.positions
  orders o ho := by
    rcases Table.mem_put.mp ho with rfl | ⟨ho, _⟩
    · exact ⟨sound.filled, sound.fits, sound.timely⟩
    · exact ⟨(h.orders o ho).filled, (h.orders o ho).fits, (h.orders o ho).timely⟩
  working o ho hw := by
    rcases Table.mem_put.mp ho with rfl | ⟨ho, _⟩
    · exact working hw
    · exact h.working o ho hw
  known fill hf := find?_put_known (h.known fill hf) order

theorem OrderSound.advance (h : s.OrderSound original)
    (adv : original.Advanced event s.assumptions.latency order) : s.OrderSound order := by
  rw [adv.same]
  exact ⟨h.filled, h.fits, h.timely⟩

theorem Inv.advance (h : Inv initialCash s) (row : s.orders.find? original.orderId = some original)
    (now : s.lastEventAt = some event.occurredAt)
    (adv : original.Advanced event s.assumptions.latency order) :
    Inv initialCash { s with orders := s.orders.put order } := by
  have hmem := Table.mem_of_find? row
  refine h.put ((h.orders original hmem).advance adv) fun hw => ⟨_, now, ?_⟩
  have hsub : order.submittedAt = original.submittedAt := by rw [adv.same]
  rw [hsub]
  rcases (adv.timely hw).2 with hlat | hworking
  · exact hlat
  · obtain ⟨last, hlast, hlat⟩ := h.working original hmem hworking
    cases now.symm.trans hlast
    exact hlat

/-! ## One fill -/

theorem cashFlow_exact (fill : SimulatedFill) : cashFlow .exact fill =
    (if fill.side = .buy then -1 else 1) * fill.quantity * fill.price - fill.fee := by
  unfold cashFlow
  cases fill.side <;>
    simp [Decimal.Context.sub, Decimal.Context.mul, Decimal.Context.neg]

theorem netCashChange_eq (s : EventDrivenBacktester) :
    (s.result .exact).netCashChange = (s.fills.map (cashFlow .exact)).sum := by
  show s.fills.foldl (fun total fill => total + cashFlow .exact fill) 0 = _
  rw [List.sum_eq_foldl, List.foldl_map]

theorem cash_applyFill (s : EventDrivenBacktester) (fill : SimulatedFill) :
    (s.applyFill .exact fill).cash.amount = s.cash.amount + cashFlow .exact fill := by
  rw [cashFlow_exact]
  show s.cash.amount + (if fill.side = .buy then (-1 : ℚ) else 1) * fill.quantity * fill.price
    - fill.fee = _
  ring

theorem position_applyFill (s : EventDrivenBacktester) (fill : SimulatedFill)
    (instrumentId : String) : ((s.applyFill .exact fill).position instrumentId).quantity =
      (s.position instrumentId).quantity +
        if fill.instrumentId = instrumentId then signedQuantity fill else 0 := by
  unfold position applyFill
  simp only [Table.find?_put]
  by_cases h : fill.instrumentId = instrumentId
  · subst h
    simp only [if_true, Option.getD_some]
    rfl
  · simp only [if_neg h, add_zero]

theorem fillsOf_fillOrder (sqrt : Decimal → Decimal) (s : EventDrivenBacktester)
    (event : MarketEvent) (order : SimulatedOrder) (quantity : Decimal) (id : UUID) :
    (s.fillOrder .exact sqrt event order quantity).fillsOf id =
      if order.orderId = id then s.fillsOf id ++ [s.fillOf .exact sqrt event order quantity]
      else s.fillsOf id := by
  show (s.fills ++ [s.fillOf .exact sqrt event order quantity]).filter _ = _
  have hown : (s.fillOf .exact sqrt event order quantity).orderId = order.orderId := rfl
  rw [List.filter_append, List.filter_singleton]
  by_cases hid : order.orderId = id
  · simp [hown, hid, fillsOf]
  · simp [hown, hid, fillsOf]

theorem Inv.fillOrder (h : Inv initialCash s) (row : s.orders.find? order.orderId = some order)
    (now : s.lastEventAt = some event.occurredAt)
    (latency : event.occurredAt.lt (order.submittedAt.add s.assumptions.latency) = some false)
    (expiry : order.expired event.occurredAt = some false)
    (fits : quantity ≤ order.quantity - order.filledQuantity) :
    Inv initialCash (s.fillOrder .exact sqrt event order quantity) := by
  let fill := s.fillOf .exact sqrt event order quantity
  have sound := h.orders order (Table.mem_of_find? row)
  have hfills : (s.fillOrder .exact sqrt event order quantity).fills = s.fills ++ [fill] := rfl
  have hof := fillsOf_fillOrder sqrt s event order quantity
  refine ⟨⟨?_, ?_, ?_⟩, ?_, ?_⟩
  · show (applyFill .exact { s with fills := s.fills ++ [fill] } fill).cash.amount = _
    rw [cash_applyFill, netCashChange_eq, hfills, List.map_append, List.sum_append]
    show s.cash.amount + _ = _
    rw [h.cash, netCashChange_eq]
    simp [add_assoc]
  · intro instrumentId
    show ((applyFill .exact { s with fills := s.fills ++ [fill] } fill).position
      instrumentId).quantity = _
    rw [position_applyFill, hfills, List.filter_append, List.map_append, List.sum_append]
    show (s.position instrumentId).quantity + _ = _
    rw [h.positions]
    by_cases hi : fill.instrumentId = instrumentId
    · simp [hi]
    · simp [hi]
  · intro o ho
    rcases Table.mem_put.mp ho with rfl | ⟨ho, hne⟩
    · have hown := hof order.orderId
      rw [if_pos rfl] at hown
      refine ⟨?_, ?_, ?_⟩
      · show order.filledQuantity + quantity =
          (((s.fillOrder .exact sqrt event order quantity).fillsOf order.orderId).map _).sum
        rw [hown, List.map_append, List.sum_append, ← sound.filled]
        simp [fillOf]
      · show order.filledQuantity + quantity ≤ order.quantity
        linarith
      · intro f hf
        have hf' : f ∈ s.fillsOf order.orderId ++ [fill] := hown ▸ hf
        rcases List.mem_append.mp hf' with hf' | hf'
        · exact sound.timely f hf'
        · cases List.mem_singleton.mp hf'
          exact ⟨latency, expiry⟩
    · have hother := hof o.orderId
      rw [if_neg fun e => hne e.symm] at hother
      have hs := h.orders o ho
      refine ⟨?_, hs.fits, ?_⟩
      · rw [hother]
        exact hs.filled
      · rw [hother]
        exact hs.timely
  · intro o ho hw
    rcases Table.mem_put.mp ho with rfl | ⟨ho, _⟩
    · exact ⟨_, now, latency⟩
    · exact h.working o ho hw
  · intro f hf
    have hf' : f ∈ s.fills ++ [fill] := hf
    rcases List.mem_append.mp hf' with hf' | hf'
    · exact find?_put_known (h.known f hf') _
    · cases List.mem_singleton.mp hf'
      exact ⟨_, Table.find?_put_self s.orders _⟩

/-! ## One event -/

structure Pending (s : EventDrivenBacktester) (rest : List SimulatedOrder) : Prop where
  nodup : (rest.map SimulatedOrder.orderId).Nodup
  rows : ∀ order ∈ rest, s.orders.find? order.orderId = some order

theorem OrderStep.frame (h : OrderStep sqrt event s original s') {id : UUID}
    (hid : original.orderId ≠ id) :
    s'.orders.find? id = s.orders.find? id ∧ s'.fillsOf id = s.fillsOf id := by
  cases h with
  | raised => exact ⟨rfl, rfl⟩
  | @advanced order adv =>
      have hkey : order.orderId ≠ id := by rw [adv.same]; exact hid
      exact ⟨Table.find?_put_of_ne hkey, rfl⟩
  | @filled order quantity adv working positive fits =>
      have hkey : order.orderId ≠ id := by rw [adv.same]; exact hid
      refine ⟨?_, ?_⟩
      · refine (Table.find?_put_of_ne ?_).trans (Table.find?_put_of_ne hkey)
        exact hkey
      · rw [fillsOf_fillOrder, if_neg hkey]
        rfl

theorem OrderStep.pending {rest : List SimulatedOrder} (h : OrderStep sqrt event s order s')
    (hp : s.Pending (order :: rest)) : s'.Pending rest := by
  have hnodup := List.nodup_cons.mp hp.nodup
  refine ⟨hnodup.2, fun o ho => ?_⟩
  have hne : order.orderId ≠ o.orderId := fun e => hnodup.1 (e ▸ List.mem_map.mpr ⟨o, ho, rfl⟩)
  rw [(h.frame hne).1]
  exact hp.rows o (List.mem_cons_of_mem _ ho)

theorem OrderStep.inv (h : Inv initialCash s) (now : s.lastEventAt = some event.occurredAt)
    (row : s.orders.find? original.orderId = some original)
    (hstep : OrderStep sqrt event s original s') :
    Inv initialCash s' ∧ s'.lastEventAt = some event.occurredAt := by
  cases hstep with
  | raised => exact ⟨h, now⟩
  | advanced adv => exact ⟨h.advance row now adv, now⟩
  | @filled order quantity adv working positive fits =>
      have hinv := h.advance row now adv
      have hrow : (s.orders.put order).find? order.orderId = some order :=
        Table.find?_put_self s.orders order
      obtain ⟨last, hlast, hlat⟩ := hinv.working order (Table.mem_of_find? hrow) working
      cases now.symm.trans hlast
      have hexp : order.expired event.occurredAt = some false := by
        rw [adv.same]
        exact (adv.timely working).1
      exact ⟨hinv.fillOrder hrow now hlat hexp fits, now⟩

theorem processAll_inv (sqrt : Decimal → Decimal) (event : MarketEvent)
    (rest : List SimulatedOrder) (s : EventDrivenBacktester) (h : Inv initialCash s)
    (now : s.lastEventAt = some event.occurredAt) (hp : s.Pending rest) :
    Inv initialCash (s.processAll .exact sqrt event rest).2 := by
  induction rest generalizing s with
  | nil => exact h
  | cons order rest ih =>
      have hstep := processOrder_spec sqrt s event order
      obtain ⟨h', now'⟩ := hstep.inv h now (hp.rows order List.mem_cons_self)
      have hp' := hstep.pending hp
      unfold processAll
      rcases hr : s.processOrder .exact sqrt event order with ⟨_ | _, s'⟩
      · rw [hr] at h'
        exact h'
      · rw [hr] at h' now' hp'
        exact ih s' h' now' hp'

theorem OrderStep.closed (h : OrderStep sqrt event s original s')
    (row : s.orders.find? original.orderId = some original) (closed : original.Closed) :
    s'.orders.find? original.orderId = some original ∧
      s'.fillsOf original.orderId = s.fillsOf original.orderId := by
  cases h with
  | raised => exact ⟨row, rfl⟩
  | @advanced order adv =>
      cases adv.closed closed
      exact ⟨Table.find?_put_self s.orders original, rfl⟩
  | @filled order quantity adv working positive fits =>
      cases adv.closed closed
      exact absurd closed (SimulatedOrder.not_closed_of_working working)

theorem processAll_closed (sqrt : Decimal → Decimal) (event : MarketEvent)
    (rest : List SimulatedOrder) (s : EventDrivenBacktester) (hp : s.Pending rest)
    (row : s.orders.find? order.orderId = some order) (closed : order.Closed) :
    (s.processAll .exact sqrt event rest).2.orders.find? order.orderId = some order ∧
      (s.processAll .exact sqrt event rest).2.fillsOf order.orderId = s.fillsOf order.orderId := by
  induction rest generalizing s with
  | nil => exact ⟨row, rfl⟩
  | cons o rest ih =>
      have hstep := processOrder_spec sqrt s event o
      have ho := hp.rows o List.mem_cons_self
      have hkept : (s.processOrder .exact sqrt event o).2.orders.find? order.orderId = some order ∧
          (s.processOrder .exact sqrt event o).2.fillsOf order.orderId =
            s.fillsOf order.orderId := by
        by_cases hid : o.orderId = order.orderId
        · rw [← hid] at row
          cases ho.symm.trans row
          exact hstep.closed ho closed
        · obtain ⟨hrow, hfills⟩ := hstep.frame hid
          exact ⟨hrow.trans row, hfills⟩
      have hp' := hstep.pending hp
      unfold processAll
      rcases hr : s.processOrder .exact sqrt event o with ⟨_ | _, s'⟩
      · rw [hr] at hkept
        exact hkept
      · rw [hr] at hkept hp'
        obtain ⟨hrow, hfills⟩ := ih s' hp' hkept.1
        exact ⟨hrow, hfills.trans hkept.2⟩

/-! ## One call -/

theorem pending_rows (s : EventDrivenBacktester) (at_ : Option DateTime) :
    Pending { s with lastEventAt := at_ } s.orders.rows :=
  ⟨s.orders.nodup, fun _ ho => Table.find?_key ho⟩

theorem Inv.now (h : Inv initialCash s) (hr : s.regresses event.occurredAt = some false) :
    Inv initialCash { s with lastEventAt := some event.occurredAt } where
  cash := h.cash
  positions := h.positions
  orders o ho := ⟨(h.orders o ho).filled, (h.orders o ho).fits, (h.orders o ho).timely⟩
  working o ho hw := by
    obtain ⟨last, hlast, hlat⟩ := h.working o ho hw
    unfold regresses at hr
    rw [hlast] at hr
    exact ⟨_, rfl, DateTime.not_lt_trans hr hlat⟩
  known := h.known

/-- A call on a running simulation that `create_order` built the order of. -/
def SubmitsCreated : BacktestCall → Prop
  | .submit order => order.Created
  | _ => True

theorem created_fields (h : order.Created) :
    order.status = .pendingLatency ∧ order.filledQuantity = 0 ∧ 0 < order.quantity := by
  unfold SimulatedOrder.Created createOrder at h
  simp only at h
  split at h
  · cases h
  rename_i hq
  have hpos : 0 < order.quantity := not_le.mp fun e => hq (.inr (.inl e))
  have hbuilt : ∀ {built : SimulatedOrder}, built.status = .pendingLatency →
      built.filledQuantity = 0 → (Except.ok built : Except Exn SimulatedOrder) = .ok order →
      order.status = .pendingLatency ∧ order.filledQuantity = 0 ∧ 0 < order.quantity := by
    rintro built hst hf ⟨⟩
    exact ⟨hst, hf, hpos⟩
  split at h
  · cases h
  split at h
  · cases h
  split at h
  · cases h
  split at h
  · exact hbuilt rfl rfl h
  · split at h
    · cases h
    · cases h
    · exact hbuilt rfl rfl h

theorem Inv.step (h : Inv initialCash s) (call : BacktestCall) (ok : SubmitsCreated call) :
    Inv initialCash (s.step .exact sqrt call) := by
  cases call with
  | submit o =>
      show Inv initialCash ((s.submit o).toOption.getD s)
      unfold submit
      cases hrow : s.orders.find? o.orderId with
      | some _ => exact h
      | none =>
          obtain ⟨hst, hf, hpos⟩ := created_fields ok
          have hnone : s.fillsOf o.orderId = [] := by
            refine List.filter_eq_nil_iff.mpr fun f hf' hid => ?_
            obtain ⟨o', ho'⟩ := h.known f hf'
            rw [of_decide_eq_true hid, hrow] at ho'
            cases ho'
          refine h.put ⟨?_, ?_, ?_⟩ fun hw => ?_
          · rw [hnone, hf]
            rfl
          · rw [hf]
            exact hpos.le
          · rw [hnone]
            exact fun _ hf => absurd hf List.not_mem_nil
          · rcases hw with hw | hw <;> cases hst.symm.trans hw
  | cancel id =>
      show Inv initialCash (((s.cancel id).toOption.map Prod.snd).getD s)
      unfold cancel
      cases hrow : s.orders.find? id with
      | none => exact h
      | some o =>
          simp only
          split
          · exact h
          · have hs := h.orders o (Table.mem_of_find? hrow)
            refine h.put ⟨hs.filled, hs.fits, hs.timely⟩ fun hw => ?_
            rcases hw with hw | hw <;> cases hw
  | process event =>
      show Inv initialCash (s.process .exact sqrt event).2
      unfold process
      cases event.validate with
      | error e => exact h
      | ok u =>
          cases hr : s.regresses event.occurredAt with
          | none => exact h
          | some early =>
              cases early with
              | true => exact h
              | false =>
                  have hall := processAll_inv sqrt event s.orders.rows _ (h.now hr) rfl
                    (pending_rows s (some event.occurredAt))
                  simp only
                  split <;> rename_i hp <;> rw [hp] at hall <;> exact hall

theorem step_closed (sqrt : Decimal → Decimal) (s : EventDrivenBacktester) (call : BacktestCall)
    (row : s.orders.find? order.orderId = some order) (closed : order.Closed) :
    (s.step .exact sqrt call).orders.find? order.orderId = some order ∧
      (s.step .exact sqrt call).fillsOf order.orderId = s.fillsOf order.orderId := by
  cases call with
  | submit o =>
      show ((s.submit o).toOption.getD s).orders.find? order.orderId = some order ∧
        ((s.submit o).toOption.getD s).fillsOf order.orderId = _
      unfold submit
      cases hrow : s.orders.find? o.orderId with
      | some _ => exact ⟨row, rfl⟩
      | none =>
          have hne : o.orderId ≠ order.orderId := by
            intro e
            rw [e, row] at hrow
            cases hrow
          exact ⟨(Table.find?_put_of_ne hne).trans row, rfl⟩
  | cancel id =>
      show (((s.cancel id).toOption.map Prod.snd).getD s).orders.find? order.orderId = some order ∧
        (((s.cancel id).toOption.map Prod.snd).getD s).fillsOf order.orderId = _
      unfold cancel
      cases hrow : s.orders.find? id with
      | none => exact ⟨row, rfl⟩
      | some o =>
          simp only
          split
          · exact ⟨row, rfl⟩
          · rename_i hopen
            have hid : o.orderId = id := Table.key_of_find? hrow
            have hne : o.orderId ≠ order.orderId := by
              intro e
              rw [← hid, e, row] at hrow
              cases hrow
              exact hopen closed
            refine ⟨(Table.find?_put_of_ne ?_).trans row, rfl⟩
            exact hne
  | process event =>
      show (s.process .exact sqrt event).2.orders.find? order.orderId = some order ∧
        (s.process .exact sqrt event).2.fillsOf order.orderId = _
      unfold process
      cases event.validate with
      | error e => exact ⟨row, rfl⟩
      | ok u =>
          cases s.regresses event.occurredAt with
          | none => exact ⟨row, rfl⟩
          | some early =>
              cases early with
              | true => exact ⟨row, rfl⟩
              | false =>
                  have hall := processAll_closed sqrt event s.orders.rows
                    { s with lastEventAt := some event.occurredAt }
                    (pending_rows s (some event.occurredAt)) row closed
                  simp only
                  split <;> rename_i hp <;> rw [hp] at hall <;> exact hall

theorem exec_closed (sqrt : Decimal → Decimal) (calls : List BacktestCall)
    (s : EventDrivenBacktester) (row : s.orders.find? order.orderId = some order)
    (closed : order.Closed) :
    (Run.exec (step .exact sqrt) s calls).fillsOf order.orderId = s.fillsOf order.orderId := by
  have hrun := Run.exec_inv (f := step .exact sqrt) (J := fun t : EventDrivenBacktester =>
      t.orders.find? order.orderId = some order ∧
        t.fillsOf order.orderId = s.fillsOf order.orderId) ?_ calls ⟨row, rfl⟩
  · exact hrun.2
  · rintro t call ⟨hrow, hfills⟩
    obtain ⟨hrow', hfills'⟩ := step_closed sqrt t call hrow closed
    exact ⟨hrow', hfills'.trans hfills⟩

theorem inv_new {assumptions : ExecutionAssumptions} {currency : String}
    (h : new assumptions initialCash currency = .ok s) : Inv initialCash s := by
  unfold new at h
  split at h
  · cases h
  split at h
  · cases h
  cases h
  refine ⟨⟨?_, fun _ => rfl, fun _ ho => absurd ho List.not_mem_nil⟩, fun _ ho =>
    absurd ho List.not_mem_nil, fun _ hf => absurd hf List.not_mem_nil⟩
  exact (add_zero initialCash).symm

/-- In every simulation whose submitted orders `create_order` built, with exact arithmetic and
whatever the square root: after every call cash, positions and orders are those of the
fills, each fill is within its order, after its latency and before its expiry; and an order
that is cancelled after some of the calls has no further fill after the rest of them. -/
theorem simulation_conserves (sqrt : Decimal → Decimal) (assumptions : ExecutionAssumptions)
    (initialCash : Decimal) (currency : String) (s : EventDrivenBacktester)
    (opened : new assumptions initialCash currency = .ok s) (calls : List BacktestCall)
    (created : ∀ order, .submit order ∈ calls → order.Created) :
    Run.Always (step .exact sqrt) (Conserved initialCash) s calls ∧
    ∀ before after, calls = before ++ after → ∀ order : SimulatedOrder,
      (Run.exec (step .exact sqrt) s before).orders.find? order.orderId = some order →
      order.status = .cancelled →
      (Run.exec (step .exact sqrt) s calls).fillsOf order.orderId =
        (Run.exec (step .exact sqrt) s before).fillsOf order.orderId := by
  constructor
  · have hstep : ∀ (t : EventDrivenBacktester) (call : BacktestCall), Inv initialCash t →
        SubmitsCreated call → Inv initialCash (t.step .exact sqrt call) :=
      fun t call h ok => h.step call ok
    have hcalls : Run.Each (step .exact sqrt) (fun _ call => SubmitsCreated call) s calls := by
      refine Run.Each.of_forall fun call hcall _ => ?_
      cases call with
      | submit order => exact created order hcall
      | cancel id => trivial
      | process event => trivial
    exact (Run.Each.always hstep (inv_new opened) hcalls).mono fun _ h => h.toConserved
  · rintro before after rfl order row hcancelled
    have hrun : Run.exec (step .exact sqrt) s (before ++ after) =
        Run.exec (step .exact sqrt) (Run.exec (step .exact sqrt) s before) after :=
      List.foldl_append
    rw [hrun]
    exact exec_closed sqrt after _ row (.inr (.inl hcancelled))

/-! ## Runs on fixed inputs -/

def cutSqrt (x : Decimal) : Decimal := (Nat.sqrt (x.num.toNat * 10 ^ 56 / x.den) : ℚ) / 10 ^ 28

def quarterVolume : ExecutionAssumptions where
  latency := 10 ^ 6
  maximumParticipation := 1 / 4
  commissionBps := 10
  fixedFee := 1
  impactCoefficient := 1 / 10

def openedWith1000 : EventDrivenBacktester :=
  ⟨quarterVolume, .empty _, [], none, .empty _, ⟨"USD", 1000⟩⟩

theorem new_openedWith1000 : new quarterVolume 1000 "USD" = .ok openedWith1000 := by
  have hvalid : quarterVolume.validate = .ok () := by decide +kernel
  unfold new
  rw [hvalid]
  exact if_neg (by decide +kernel)

/-- A market order for 75, as `create_order` builds it at the epoch. -/
def marketOrder : SimulatedOrder where
  orderId := 1
  instrumentId := "US:NYSE:SPY"
  side := .buy
  orderType := .market
  quantity := 75
  submittedAt := .aware 0

def quoteAfter (seconds : ℤ) : MarketEvent :=
  ⟨"US:NYSE:SPY", .aware (seconds * 10 ^ 6), 100, 101, 100, true⟩

/-- One quote in the latency, one fill of 25, and a cancellation before the next quote. -/
theorem simulation_conserves_cancelled :
    let before : List BacktestCall := [.submit marketOrder, .process (quoteAfter 0),
      .process (quoteAfter 1), .cancel 1]
    let after : List BacktestCall := [.process (quoteAfter 2)]
    Run.Always (step .exact cutSqrt) (Conserved 1000) openedWith1000 (before ++ after) ∧
      (Run.exec (step .exact cutSqrt) openedWith1000 (before ++ after)).fillsOf 1 =
        (Run.exec (step .exact cutSqrt) openedWith1000 before).fillsOf 1 := by
  intro before after
  have h := simulation_conserves cutSqrt quarterVolume 1000 "USD" openedWith1000
    new_openedWith1000 (before ++ after) (by
      intro order horder
      have hsubmit : order = marketOrder := by simpa [before, after] using horder
      rw [hsubmit]
      decide +kernel)
  exact ⟨h.1, h.2 before after rfl
    { marketOrder with status := .cancelled, filledQuantity := 25 } (by decide +kernel) rfl⟩

/-- `submit` takes any order: one that says it is filled for 3 has no fills, and one that
says it works is filled within its latency. -/
theorem submit_unchecked :
    new quarterVolume 1000 "USD" = .ok openedWith1000 ∧
    ¬ Run.Always (step .exact cutSqrt) (Conserved 1000) openedWith1000
      [.submit { marketOrder with filledQuantity := 3 }] ∧
    ¬ Run.Always (step .exact cutSqrt) (Conserved 1000) openedWith1000
      [.submit { marketOrder with status := .working }, .process (quoteAfter 0)] := by
  refine ⟨new_openedWith1000, ?_, ?_⟩
  · intro h
    have hsound := h.exec.orders { marketOrder with filledQuantity := 3 } (by decide +kernel)
    exact absurd hsound.filled (by decide +kernel)
  · intro h
    have hsound := h.exec.orders
      { marketOrder with status := .partiallyFilled, filledQuantity := 25 } (by decide +kernel)
    have hfills : ((Run.exec (step .exact cutSqrt) openedWith1000
        [.submit { marketOrder with status := .working }, .process (quoteAfter 0)]).fillsOf
          1).map SimulatedFill.occurredAt = [.aware 0] := by decide +kernel
    have hmem : DateTime.aware 0 ∈ [DateTime.aware 0] := List.mem_singleton_self _
    obtain ⟨fill, hfill, hat⟩ := List.mem_map.mp (hfills ▸ hmem)
    have hlatency := (hsound.timely fill hfill).1
    rw [hat] at hlatency
    exact absurd hlatency (by decide +kernel)

end EventDrivenBacktester

end TradePlatform
