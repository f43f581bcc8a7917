/-
# `TradePlatform.EventBacktestPrices` — the prices that a simulation fills at

`_is_executable` compares the quote of an event with the limit of an order, and
`_execution_price` adds the impact of the quantity afterwards.  With exact arithmetic, and any
square root that is not negative, the fills of a run are at positive prices and within the limits
of their orders precisely when each event leaves room for the impact of its fills
(`fairlyPriced_iff`).
-/
import TradePlatform.CorporateActionRuns
import TradePlatform.EventBacktestEvents

namespace TradePlatform

namespace SimulatedOrder

variable {original order : SimulatedOrder}

/-- The limit that an order is filled within: of a limit order, or of a stop-limit order. -/
def bound (order : SimulatedOrder) : Option Decimal :=
  if order.orderType = .limit ∨ order.orderType = .stopLimit then order.limitPrice else none

theorem SameTerms.bound (h : SameTerms original order) : order.bound = original.bound := by
  rw [h]
  rfl

end SimulatedOrder

def NoWorse (limit price : Decimal) : OrderSide → Prop
  | .buy => price ≤ limit
  | .sell => limit ≤ price

instance (limit price : Decimal) : ∀ side, Decidable (NoWorse limit price side)
  | .buy => inferInstanceAs (Decidable (price ≤ limit))
  | .sell => inferInstanceAs (Decidable (limit ≤ price))

def RoomFor (event : MarketEvent) (bound : Option Decimal) (impact : Decimal) : OrderSide → Prop
  | .buy => ∀ limit ∈ bound, impact ≤ (limit - event.ask) / event.ask
  | .sell => impact < 1 ∧ ∀ limit ∈ bound, impact ≤ (event.bid - limit) / event.bid

instance (event : MarketEvent) (bound : Option Decimal) (impact : Decimal) :
    ∀ side, Decidable (RoomFor event bound impact side)
  | .buy => inferInstanceAs (Decidable (∀ _ ∈ _, _))
  | .sell => inferInstanceAs (Decidable (_ ∧ ∀ _ ∈ _, _))

namespace EventDrivenBacktester

open SimulatedOrder (executes executed SameTerms)

variable {sqrt : Decimal → Decimal} {s s' t : EventDrivenBacktester} {event : MarketEvent}
  {order : SimulatedOrder} {fill : SimulatedFill}

/-! ## The price of one fill -/

def impactAt (sqrt : Decimal → Decimal) (s : EventDrivenBacktester) (event : MarketEvent)
    (order : SimulatedOrder) : Decimal :=
  s.assumptions.impactCoefficient * sqrt (s.fillQuantity .exact event order / event.availableVolume)

def LeavesRoom (sqrt : Decimal → Decimal) (s : EventDrivenBacktester) (event : MarketEvent)
    (order : SimulatedOrder) : Prop :=
  RoomFor event order.bound (s.impactAt sqrt event order) order.side

instance : Decidable (LeavesRoom sqrt s event order) := inferInstanceAs (Decidable (RoomFor ..))

def FairFill (s : EventDrivenBacktester) (fill : SimulatedFill) : Prop :=
  0 < fill.price ∧ ∀ order ∈ s.orders.rows, order.orderId = fill.orderId →
    ∀ limit ∈ order.bound, NoWorse limit fill.price fill.side

instance : Decidable (s.FairFill fill) := inferInstanceAs (Decidable (_ ∧ ∀ _ ∈ _, _))

theorem impactAt_nonneg (hsqrt : ∀ x, 0 ≤ x → 0 ≤ sqrt x)
    (hassumptions : s.assumptions.validate = .ok ()) (hvalid : event.validate = .ok ())
    (hquantity : 0 < s.fillQuantity .exact event order) : 0 ≤ s.impactAt sqrt event order := by
  obtain ⟨-, hassumptions⟩ := Except.of_ite_error hassumptions
  obtain ⟨hcosts, -⟩ := Except.of_ite_error hassumptions
  obtain ⟨hevent, -⟩ := Except.of_ite_error hvalid
  simp only [not_or, not_lt] at hcosts hevent
  exact mul_nonneg hcosts.2.2 (hsqrt _ (div_nonneg hquantity.le hevent.2.2))

theorem fair_price_iff (hsqrt : ∀ x, 0 ≤ x → 0 ≤ sqrt x)
    (hassumptions : s.assumptions.validate = .ok ()) (hvalid : event.validate = .ok ())
    (hquantity : 0 < s.fillQuantity .exact event order) :
    (0 < (s.fillOf .exact sqrt event order (s.fillQuantity .exact event order)).price ∧
      ∀ limit ∈ order.bound, NoWorse limit
        (s.fillOf .exact sqrt event order (s.fillQuantity .exact event order)).price order.side) ↔
      s.LeavesRoom sqrt event order := by
  have himpact := impactAt_nonneg hsqrt hassumptions hvalid hquantity
  obtain ⟨hevent, -⟩ := Except.of_ite_error hvalid
  simp only [not_or, not_le, not_lt] at hevent
  obtain ⟨hbid, hspread, -⟩ := hevent
  have hask : 0 < event.ask := hbid.trans_le hspread
  have hprice : (s.fillOf .exact sqrt event order (s.fillQuantity .exact event order)).price =
      match order.side with
      | .buy => event.ask * (1 + s.impactAt sqrt event order)
      | .sell => event.bid * (1 - s.impactAt sqrt event order) := rfl
  rw [hprice]
  unfold LeavesRoom
  cases order.side with
  | buy =>
      refine (and_iff_right (mul_pos hask (by linarith))).trans (forall₂_congr fun limit _ => ?_)
      rw [le_div_iff₀ hask]
      show event.ask * (1 + s.impactAt sqrt event order) ≤ limit ↔ _
      constructor <;> intro h <;> linarith
  | sell =>
      refine and_congr ?_ (forall₂_congr fun limit _ => ?_)
      · rw [mul_pos_iff_of_pos_left hbid, sub_pos]
      · rw [le_div_iff₀ hbid]
        show limit ≤ event.bid * (1 - s.impactAt sqrt event order) ↔ _
        constructor <;> intro h <;> linarith

/-! ## The orders keep their terms -/

/-- The orders of `s` are there in `s'`, with the same terms. -/
def KeepsTerms (s s' : EventDrivenBacktester) : Prop :=
  ∀ order ∈ s.orders.rows, ∃ order' ∈ s'.orders.rows, SameTerms order order'

theorem KeepsTerms.of_orders (h : s'.orders = s.orders) : KeepsTerms s s' := by
  intro order horder
  exact ⟨order, h ▸ horder, .refl order⟩

theorem KeepsTerms.known (h : KeepsTerms s s') (ho : order ∈ s.orders.rows) :
    ∃ order' ∈ s'.orders.rows, order'.orderId = order.orderId := by
  obtain ⟨order', horder', hsame⟩ := h order ho
  exact ⟨order', horder', hsame.orderId⟩

theorem KeepsTerms.fair_iff (h : KeepsTerms s s')
    (hknown : ∃ order ∈ s.orders.rows, order.orderId = fill.orderId) :
    s'.FairFill fill ↔ s.FairFill fill := by
  obtain ⟨order, horder, hid⟩ := hknown
  obtain ⟨order', horder', hsame⟩ := h order horder
  have hid' : order'.orderId = fill.orderId := hsame.orderId.trans hid
  refine and_congr_right fun _ => ?_
  constructor
  · intro hfair o ho hoid
    obtain rfl : o = order :=
      List.inj_on_of_nodup_map s.orders.nodup ho horder (hoid.trans hid.symm)
    exact hsame.bound ▸ hfair order' horder' hid'
  · intro hfair o ho hoid
    obtain rfl : o = order' :=
      List.inj_on_of_nodup_map s'.orders.nodup ho horder' (hoid.trans hid'.symm)
    exact hsame.bound ▸ hfair order horder hid

theorem keepsTerms_process (c : Decimal.Context) (sqrt : Decimal → Decimal)
    (s : EventDrivenBacktester) (event : MarketEvent) :
    KeepsTerms s (s.process c sqrt event).2 := by
  intro order horder
  rw [rows_process]
  split
  · exact (sameTerms_settleAll c s event s.orders.rows).exists_of_mem horder
  · exact ⟨order, horder, .refl order⟩

theorem keepsTerms_submit (c : Decimal.Context) (sqrt : Decimal → Decimal)
    (s : EventDrivenBacktester) (order : SimulatedOrder) :
    KeepsTerms s (s.step c sqrt (.submit order)) := by
  intro o ho
  rw [step_submit]
  split
  · rename_i hnone
    refine ⟨o, Table.mem_put.mpr (.inr ⟨ho, fun hid => ?_⟩), .refl o⟩
    exact Table.find?_eq_none.mp hnone o ho hid
  · exact ⟨o, ho, .refl o⟩

theorem keepsTerms_cancel (c : Decimal.Context) (sqrt : Decimal → Decimal)
    (s : EventDrivenBacktester) (orderId : UUID) :
    KeepsTerms s (s.step c sqrt (.cancel orderId)) := by
  intro o ho
  obtain ⟨orders, hstep, hrows⟩ := step_cancel c sqrt s orderId
  rw [hstep]
  refine ⟨cancelled orderId o, ?_, sameTerms_cancelled orderId o⟩
  show _ ∈ orders.rows
  rw [hrows]
  exact List.mem_map_of_mem ho

/-! ## One call -/

def FairlyPriced (s : EventDrivenBacktester) : Prop := ∀ fill ∈ s.fills, s.FairFill fill

instance : Decidable s.FairlyPriced := inferInstanceAs (Decidable (∀ _ ∈ _, _))

/-- What carries it: the assumptions have been validated, and every fill is of an order. -/
structure Traded (s : EventDrivenBacktester) : Prop where
  assumptions : s.assumptions.validate = .ok ()
  known : ∀ fill ∈ s.fills, ∃ order ∈ s.orders.rows, order.orderId = fill.orderId

def RoomAt (sqrt : Decimal → Decimal) (s : EventDrivenBacktester) (event : MarketEvent) : Prop :=
  ∀ order ∈ s.executedAt event, 0 < s.fillQuantity .exact event order →
    s.LeavesRoom sqrt event order

instance : Decidable (RoomAt sqrt s event) := inferInstanceAs (Decidable (∀ order ∈ _, _))

theorem Traded.keep (h : Traded s) (hterms : KeepsTerms s s')
    (hassumptions : s'.assumptions = s.assumptions) (hfills : s'.fills = s.fills) :
    Traded s' ∧ (s'.FairlyPriced ↔ s.FairlyPriced) := by
  refine ⟨⟨hassumptions ▸ h.assumptions, fun fill hfill => ?_⟩, ?_⟩
  · obtain ⟨order, horder, hid⟩ := h.known fill (hfills ▸ hfill)
    obtain ⟨order', horder', hid'⟩ := hterms.known horder
    exact ⟨order', horder', hid'.trans hid⟩
  · unfold FairlyPriced
    rw [hfills]
    exact forall₂_congr fun fill hfill => hterms.fair_iff (h.known fill hfill)

theorem executedAt_takes (h : order ∈ s.executedAt event) : s.Takes event := by
  by_contra htakes
  unfold executedAt at h
  rw [if_neg htakes] at h
  exact absurd h List.not_mem_nil

theorem executedAt_known (h : order ∈ s.executedAt event) :
    ∃ original ∈ s.orders.rows, SameTerms original order := by
  have htakes := executedAt_takes h
  unfold executedAt at h
  rw [if_pos htakes] at h
  obtain ⟨original, horiginal, hexecutable⟩ := SimulatedOrder.mem_executed h
  exact ⟨original, horiginal, (SimulatedOrder.advance_spec hexecutable.advance).sameTerms⟩

theorem mem_fillsFor {c : Decimal.Context} {orders : List SimulatedOrder} :
    fill ∈ s.fillsFor c sqrt event orders ↔ ∃ order ∈ orders, 0 < s.fillQuantity c event order ∧
      s.fillOf c sqrt event order (s.fillQuantity c event order) = fill := by
  simp only [fillsFor, List.mem_map, List.mem_filter, decide_eq_true_eq, and_assoc]

theorem fair_executed_iff (hsqrt : ∀ x, 0 ≤ x → 0 ≤ sqrt x) (h : Traded s)
    (hterms : KeepsTerms s s') (horder : order ∈ s.executedAt event)
    (hquantity : 0 < s.fillQuantity .exact event order) :
    s'.FairFill (s.fillOf .exact sqrt event order (s.fillQuantity .exact event order)) ↔
      s.LeavesRoom sqrt event order := by
  obtain ⟨original, horiginal, hsame⟩ := executedAt_known horder
  rw [← fair_price_iff hsqrt h.assumptions (executedAt_takes horder).1 hquantity,
    hterms.fair_iff ⟨original, horiginal, hsame.orderId.symm⟩]
  refine and_congr_right fun _ => ?_
  constructor
  · intro hfair
    rw [hsame.bound]
    exact hfair original horiginal hsame.orderId.symm
  · intro hfair o ho hid
    obtain rfl : o = original :=
      List.inj_on_of_nodup_map s.orders.nodup ho horiginal (hid.trans hsame.orderId)
    rw [← hsame.bound]
    exact hfair

theorem Traded.process (hsqrt : ∀ x, 0 ≤ x → 0 ≤ sqrt x) (h : Traded s) (hfair : s.FairlyPriced)
    (event : MarketEvent) : Traded (s.process .exact sqrt event).2 ∧
      ((s.process .exact sqrt event).2.FairlyPriced ↔ s.RoomAt sqrt event) := by
  have hassumptions := assumptions_process .exact sqrt s event
  have hterms := keepsTerms_process .exact sqrt s event
  have hfills := fills_process .exact sqrt s event
  generalize (s.process .exact sqrt event).2 = s' at hassumptions hterms hfills
  refine ⟨⟨hassumptions ▸ h.assumptions, fun fill hfill => ?_⟩, ?_, ?_⟩
  · rw [hfills] at hfill
    rcases List.mem_append.mp hfill with hfill | hfill
    · obtain ⟨order, horder, hid⟩ := h.known fill hfill
      obtain ⟨order', horder', hid'⟩ := hterms.known horder
      exact ⟨order', horder', hid'.trans hid⟩
    · obtain ⟨order, horder, -, rfl⟩ := mem_fillsFor.mp hfill
      obtain ⟨original, horiginal, hsame⟩ := executedAt_known horder
      obtain ⟨order', horder', hid'⟩ := hterms.known horiginal
      exact ⟨order', horder', hid'.trans hsame.orderId.symm⟩
  · intro hfair' order horder hquantity
    refine (fair_executed_iff hsqrt h hterms horder hquantity).mp (hfair' _ ?_)
    rw [hfills]
    exact List.mem_append_right _ (mem_fillsFor.mpr ⟨order, horder, hquantity, rfl⟩)
  · intro hroom fill hfill
    rw [hfills] at hfill
    rcases List.mem_append.mp hfill with hfill | hfill
    · exact (hterms.fair_iff (h.known fill hfill)).mpr (hfair fill hfill)
    · obtain ⟨order, horder, hquantity, rfl⟩ := mem_fillsFor.mp hfill
      exact (fair_executed_iff hsqrt h hterms horder hquantity).mpr
        (hroom order horder hquantity)

theorem Traded.step (hsqrt : ∀ x, 0 ≤ x → 0 ≤ sqrt x) (h : Traded s) (hfair : s.FairlyPriced)
    (call : BacktestCall) : Traded (s.step .exact sqrt call) ∧
      ((s.step .exact sqrt call).FairlyPriced ↔
        match call with
        | .process event => s.RoomAt sqrt event
        | _ => True) := by
  have hkeep : ∀ {s'}, KeepsTerms s s' → s'.assumptions = s.assumptions → s'.fills = s.fills →
      Traded s' ∧ (s'.FairlyPriced ↔ True) := by
    intro s' hterms hassumptions hfills
    obtain ⟨htraded, hiff⟩ := h.keep hterms hassumptions hfills
    exact ⟨htraded, hiff.trans (iff_true_intro hfair)⟩
  cases call with
  | submit order =>
      refine hkeep (keepsTerms_submit .exact sqrt s order) ?_ ?_ <;>
      · rw [step_submit]
        split <;> rfl
  | cancel orderId =>
      have hterms := keepsTerms_cancel .exact sqrt s orderId
      obtain ⟨orders, hstep, -⟩ := step_cancel .exact sqrt s orderId
      rw [hstep] at hterms ⊢
      exact hkeep hterms rfl rfl
  | process event => exact h.process hsqrt hfair event

end EventDrivenBacktester

namespace Simulation

open EventDrivenBacktester (Traded KeepsTerms)

variable {sqrt : Decimal → Decimal}

def HasRoom (sqrt : Decimal → Decimal) (s : Simulation) : SimulationCall → Prop
  | .trade (.process event) => s.RoomAt sqrt event
  | _ => True

instance (s : Simulation) : ∀ call, Decidable (HasRoom sqrt s call)
  | .trade (.process event) => inferInstanceAs (Decidable (s.RoomAt sqrt event))
  | .trade (.submit _) => inferInstanceAs (Decidable True)
  | .trade (.cancel _) => inferInstanceAs (Decidable True)
  | .applyCorporateActions _ => inferInstanceAs (Decidable True)

theorem step_fairlyPriced (hsqrt : ∀ x, 0 ≤ x → 0 ≤ sqrt x) (s : Simulation)
    (call : SimulationCall) (h : Traded s.toEventDrivenBacktester) (hfair : s.FairlyPriced) :
    Traded (s.step .exact sqrt call).toEventDrivenBacktester ∧
      ((s.step .exact sqrt call).FairlyPriced ↔ HasRoom sqrt s call) := by
  cases call with
  | trade call =>
      have hstep := h.step hsqrt hfair call
      cases call with
      | submit order => exact hstep
      | cancel orderId => exact hstep
      | process event => exact hstep
  | applyCorporateActions call =>
      have hsame := sameTrading_applyCorporateActions .exact s call
      obtain ⟨htraded, hiff⟩ := h.keep (KeepsTerms.of_orders hsame.orders) hsame.assumptions
        hsame.fills
      exact ⟨htraded, hiff.trans (iff_true_intro hfair)⟩

/-- The fills of a run are at positive prices, within the limits of their orders, precisely when
every event of the run leaves room for the impact of its fills. -/
theorem fairlyPriced_iff (sqrt : Decimal → Decimal) (hsqrt : ∀ x, 0 ≤ x → 0 ≤ sqrt x)
    (assumptions : ExecutionAssumptions) (initialCash : Decimal) (cashCurrency : String)
    (s : Simulation) (hnew : new assumptions initialCash cashCurrency = .ok s)
    (calls : List SimulationCall) :
    Run.Always (step .exact sqrt) (fun s => s.FairlyPriced) s calls ↔
      Run.Each (step .exact sqrt) (HasRoom sqrt) s calls := by
  obtain ⟨engine, hengine, h⟩ := Except.bind_eq_ok.mp hnew
  obtain rfl := Except.pure_eq_ok.mp h
  unfold EventDrivenBacktester.new at hengine
  cases hvalid : assumptions.validate with
  | error e =>
      rw [hvalid] at hengine
      cases hengine
  | ok u =>
      rw [hvalid] at hengine
      obtain ⟨-, hengine⟩ := Except.of_ite_error hengine
      cases hengine
      have hstart : Traded ⟨assumptions, .empty _, [], none, .empty _,
          ⟨cashCurrency, initialCash⟩⟩ := ⟨hvalid, fun _ h => absurd h List.not_mem_nil⟩
      refine (Run.always_iff_each (J := fun s => Traded s.toEventDrivenBacktester)
        (fun s call h hfair _ => (step_fairlyPriced hsqrt s call h hfair).1)
        (fun s call h hfair => (step_fairlyPriced hsqrt s call h hfair).2) hstart).trans ?_
      exact and_iff_right fun _ h => absurd h List.not_mem_nil

def quarterAt (coefficient : Decimal) : ExecutionAssumptions := ⟨0, 1 / 4, 0, 0, coefficient⟩

def openedAt (coefficient : Decimal) : Simulation :=
  ⟨⟨quarterAt coefficient, .empty _, [], none, .empty _, ⟨"USD", 0⟩⟩, ∅⟩

theorem new_openedAt (coefficient : Decimal) (h : (quarterAt coefficient).validate = .ok ()) :
    new (quarterAt coefficient) 0 "USD" = .ok (openedAt coefficient) := by
  unfold new EventDrivenBacktester.new
  rw [h]
  simp only
  rw [if_neg (by decide +kernel)]
  rfl

def limitOrder (side : OrderSide) (limit : Decimal) : List SimulationCall :=
  [.trade (.submit { (EventDrivenBacktester.buyTen 1) with
      side := side
      orderType := .limit
      quantity := 25
      limitPrice := some limit }),
    .trade (.process EventDrivenBacktester.hundredOffered)]

theorem cutSqrt_nonneg (x : Decimal) : 0 ≤ EventDrivenBacktester.cutSqrt x := by
  unfold EventDrivenBacktester.cutSqrt
  positivity

/-- The impact takes the price from 100 to 105, and the limit is 110. -/
theorem limitOrder_fairlyPriced :
    Run.Always (step .exact EventDrivenBacktester.cutSqrt) (fun s => s.FairlyPriced)
      (openedAt (1 / 10)) (limitOrder .buy 110) :=
  (fairlyPriced_iff EventDrivenBacktester.cutSqrt (fun x _ => cutSqrt_nonneg x) (quarterAt (1 / 10))
    0 "USD" _ (new_openedAt _ (by decide +kernel)) _).mpr (by decide +kernel)

/-- With a limit of 100 the order is filled at 105, and with the impact of two quotes a sale is at
a negative price. -/
theorem limitOrder_filled_beyond :
    new (quarterAt (1 / 10)) 0 "USD" = .ok (openedAt (1 / 10)) ∧
    ¬ Run.Always (step .exact EventDrivenBacktester.cutSqrt) (fun s => s.FairlyPriced)
      (openedAt (1 / 10)) (limitOrder .buy 100) ∧
    new (quarterAt 4) 0 "USD" = .ok (openedAt 4) ∧
    ∃ fill ∈ (Run.exec (step .exact EventDrivenBacktester.cutSqrt) (openedAt 4)
      (limitOrder .sell 90)).fills, fill.price < 0 := by
  refine ⟨new_openedAt _ (by decide +kernel), ?_, new_openedAt _ (by decide +kernel), ?_⟩
  · intro h
    exact absurd h.exec (by decide +kernel)
  · decide +kernel

end Simulation

end TradePlatform
