/-
# `TradePlatform.EventBacktestEvents` — one event of a simulation, order by order

The loop of `process` treats each order of the snapshot on its own: `SimulatedOrder.executes`
is what the event does with it, `executed` the orders that it executes before one raises, and
`EventDrivenBacktester.settle` what becomes of an order (`rows_process`).  The fills of an event
are those of the executed orders (`fills_process`), each up to the same share of the volume: so
together they keep to it precisely when the orders share it (`filledAt_le_iff`).
-/
import TradePlatform.EventBacktestAccounts
import TradePlatform.Lib.DecimalOrder
import TradePlatform.Lib.Replay

namespace TradePlatform

namespace SimulatedOrder

variable {latency : ℤ} {event : MarketEvent} {original order : SimulatedOrder}

/-- What an event does with an order: `none` is a `TypeError`, and `some none` executes
nothing. -/
def executes (latency : ℤ) (event : MarketEvent) (original : SimulatedOrder) :
    Option (Option SimulatedOrder) :=
  match original.advance event latency with
  | none => none
  | some order =>
      if ¬ order.Working ∨ event.sessionOpen = false ∨
          order.instrumentId ≠ event.instrumentId then
        some none
      else (order.isExecutable event).map fun executable => if executable then some order else none

def executed (latency : ℤ) (event : MarketEvent) : List SimulatedOrder → List SimulatedOrder
  | [] => []
  | original :: rest =>
      match original.executes latency event with
      | none => []
      | some none => executed latency event rest
      | some (some order) => order :: executed latency event rest

structure Executable (latency : ℤ) (event : MarketEvent) (original order : SimulatedOrder) :
    Prop where
  advance : original.advance event latency = some order
  working : order.Working
  instrument : order.instrumentId = event.instrumentId
  executable : order.isExecutable event = some true

theorem executes_eq_some (h : original.executes latency event = some (some order)) :
    Executable latency event original order := by
  unfold executes at h
  cases hadvance : original.advance event latency with
  | none =>
      rw [hadvance] at h
      cases h
  | some advanced =>
      rw [hadvance] at h
      simp only at h
      split at h
      · cases h
      · rename_i hopen
        obtain ⟨executable, hexecutable, h⟩ := Option.map_eq_some_iff.mp h
        cases executable with
        | false => cases h
        | true =>
            obtain rfl : advanced = order := by simpa using h
            have hworking : advanced.Working := by
              by_contra hw
              exact hopen (.inl hw)
            have hinstrument : advanced.instrumentId = event.instrumentId := by
              by_contra hi
              exact hopen (.inr (.inr hi))
            exact ⟨hadvance, hworking, hinstrument, hexecutable⟩

theorem mem_executed {rest : List SimulatedOrder} (h : order ∈ executed latency event rest) :
    ∃ original ∈ rest, Executable latency event original order := by
  induction rest with
  | nil => exact absurd h List.not_mem_nil
  | cons original rest ih =>
      unfold executed at h
      cases hexecutes : original.executes latency event with
      | none =>
          rw [hexecutes] at h
          exact absurd h List.not_mem_nil
      | some met =>
          rw [hexecutes] at h
          cases met with
          | none =>
              obtain ⟨o, ho, hexecutable⟩ := ih h
              exact ⟨o, List.mem_cons_of_mem _ ho, hexecutable⟩
          | some advanced =>
              rcases List.mem_cons.mp h with rfl | h
              · exact ⟨original, List.mem_cons_self, executes_eq_some hexecutes⟩
              · obtain ⟨o, ho, hexecutable⟩ := ih h
                exact ⟨o, List.mem_cons_of_mem _ ho, hexecutable⟩

def SameTerms (original order : SimulatedOrder) : Prop :=
  order = { original with
    status := order.status
    triggered := order.triggered
    filledQuantity := order.filledQuantity }

theorem SameTerms.refl (order : SimulatedOrder) : SameTerms order order := rfl

theorem SameTerms.trans {o₁ o₂ o₃ : SimulatedOrder} (h : SameTerms o₁ o₂) (h' : SameTerms o₂ o₃) :
    SameTerms o₁ o₃ := by
  unfold SameTerms at h h' ⊢
  rw [h', h]

theorem SameTerms.orderId (h : SameTerms original order) : order.orderId = original.orderId := by
  rw [h]

theorem Advanced.sameTerms (h : Advanced original event latency order) :
    SameTerms original order := by
  unfold SameTerms
  rw [h.same]

end SimulatedOrder

namespace EventDrivenBacktester

open SimulatedOrder (executes executed SameTerms)

variable {c : Decimal.Context} {sqrt : Decimal → Decimal} {s s' : EventDrivenBacktester}
  {event : MarketEvent} {original order : SimulatedOrder}

/-! ## The loop -/

def fillsFor (c : Decimal.Context) (sqrt : Decimal → Decimal) (s : EventDrivenBacktester)
    (event : MarketEvent) (orders : List SimulatedOrder) : List SimulatedFill :=
  (orders.filter fun order => decide (0 < s.fillQuantity c event order)).map fun order =>
    s.fillOf c sqrt event order (s.fillQuantity c event order)

def settle (c : Decimal.Context) (s : EventDrivenBacktester) (event : MarketEvent)
    (original : SimulatedOrder) : SimulatedOrder :=
  match original.executes s.assumptions.latency event with
  | some (some order) =>
      let quantity := s.fillQuantity c event order
      if quantity ≤ 0 then order
      else
        let filledQuantity := c.add order.filledQuantity quantity
        { order with
          filledQuantity := filledQuantity
          status := if filledQuantity = order.quantity then .filled else .partiallyFilled }
  | _ => (original.advance event s.assumptions.latency).getD original

def settleAll (c : Decimal.Context) (s : EventDrivenBacktester) (event : MarketEvent) :
    List SimulatedOrder → List SimulatedOrder
  | [] => []
  | original :: rest =>
      match original.executes s.assumptions.latency event with
      | none => s.settle c event original :: rest
      | some _ => s.settle c event original :: settleAll c s event rest

inductive OrderMet (c : Decimal.Context) (sqrt : Decimal → Decimal) (event : MarketEvent)
    (s : EventDrivenBacktester) (original : SimulatedOrder) :
    Except Exn Unit × EventDrivenBacktester → Prop
  | raised (met : original.executes s.assumptions.latency event = none)
      (advance : original.advance event s.assumptions.latency = none) :
      OrderMet c sqrt event s original (.error .typeError, s)
  | unpriced {order : SimulatedOrder}
      (met : original.executes s.assumptions.latency event = none)
      (advance : original.advance event s.assumptions.latency = some order) :
      OrderMet c sqrt event s original (.error .typeError, { s with orders := s.orders.put order })
  | passed {order : SimulatedOrder}
      (met : original.executes s.assumptions.latency event = some none)
      (advance : original.advance event s.assumptions.latency = some order) :
      OrderMet c sqrt event s original (.ok (), { s with orders := s.orders.put order })
  | unfilled {order : SimulatedOrder}
      (met : original.executes s.assumptions.latency event = some (some order))
      (none : ¬ 0 < s.fillQuantity c event order) :
      OrderMet c sqrt event s original (.ok (), { s with orders := s.orders.put order })
  | filled {order : SimulatedOrder}
      (met : original.executes s.assumptions.latency event = some (some order))
      (positive : 0 < s.fillQuantity c event order) :
      OrderMet c sqrt event s original
        (.ok (), fillOrder c sqrt { s with orders := s.orders.put order } event order
          (s.fillQuantity c event order))

theorem processOrder_met (c : Decimal.Context) (sqrt : Decimal → Decimal)
    (s : EventDrivenBacktester) (event : MarketEvent) (original : SimulatedOrder) :
    OrderMet c sqrt event s original (s.processOrder c sqrt event original) := by
  have hpass := @OrderMet.passed c sqrt event s original
  have hnot := @OrderMet.unfilled c sqrt event s original
  have hfill := @OrderMet.filled c sqrt event s original
  have hraise := @OrderMet.raised c sqrt event s original
  have hunpriced := @OrderMet.unpriced c sqrt event s original
  unfold executes at hpass hnot hfill hraise hunpriced
  unfold processOrder
  cases hadvance : original.advance event s.assumptions.latency with
  | none =>
      simp only [hadvance] at hraise
      exact hraise trivial trivial
  | some order =>
      simp only [hadvance] at hpass hnot hfill hunpriced
      by_cases hclosed : ¬ order.Working ∨ event.sessionOpen = false ∨
          order.instrumentId ≠ event.instrumentId
      · simp only [if_pos hclosed] at hpass ⊢
        exact hpass trivial rfl
      · simp only [if_neg hclosed] at hpass hnot hfill hunpriced ⊢
        cases hexecutable : order.isExecutable event with
        | none =>
            simp only [hexecutable] at hunpriced
            exact hunpriced rfl rfl
        | some executable =>
            simp only [hexecutable, Option.map_some] at hpass hnot hfill
            cases executable with
            | false => exact hpass rfl rfl
            | true =>
                by_cases hquantity : s.fillQuantity c event order ≤ 0
                · exact (if_pos hquantity).symm ▸ hnot rfl (not_lt.mpr hquantity)
                · exact (if_neg hquantity).symm ▸ hfill rfl (not_le.mp hquantity)

theorem settle_congr (h : s'.assumptions = s.assumptions) (original : SimulatedOrder) :
    s'.settle c event original = s.settle c event original := by
  unfold settle fillQuantity
  rw [h]

theorem settleAll_congr (h : s'.assumptions = s.assumptions) (rest : List SimulatedOrder) :
    s'.settleAll c event rest = s.settleAll c event rest := by
  induction rest with
  | nil => rfl
  | cons original rest ih =>
      unfold settleAll
      rw [settle_congr h, ih, h]

theorem fillsFor_congr (h : s'.assumptions = s.assumptions) (orders : List SimulatedOrder) :
    s'.fillsFor c sqrt event orders = s.fillsFor c sqrt event orders := by
  unfold fillsFor fillOf executionPrice fee fillQuantity
  rw [h]

theorem OrderMet.assumptions {answer : Except Exn Unit}
    (h : OrderMet c sqrt event s original (answer, s')) : s'.assumptions = s.assumptions := by
  cases h <;> rfl

theorem OrderMet.lastEventAt {answer : Except Exn Unit}
    (h : OrderMet c sqrt event s original (answer, s')) : s'.lastEventAt = s.lastEventAt := by
  cases h <;> rfl

theorem processAll_frame (c : Decimal.Context) (sqrt : Decimal → Decimal) (event : MarketEvent)
    (rest : List SimulatedOrder) (s : EventDrivenBacktester) :
    (s.processAll c sqrt event rest).2.assumptions = s.assumptions ∧
      (s.processAll c sqrt event rest).2.lastEventAt = s.lastEventAt := by
  induction rest generalizing s with
  | nil => exact ⟨rfl, rfl⟩
  | cons original rest ih =>
      have hmet := processOrder_met c sqrt s event original
      unfold processAll
      rcases hr : s.processOrder c sqrt event original with ⟨e | ⟨⟩, s'⟩
      · rw [hr] at hmet
        exact ⟨hmet.assumptions, hmet.lastEventAt⟩
      · rw [hr] at hmet
        exact ⟨(ih s').1.trans hmet.assumptions, (ih s').2.trans hmet.lastEventAt⟩

theorem fills_processAll (c : Decimal.Context) (sqrt : Decimal → Decimal) (event : MarketEvent)
    (rest : List SimulatedOrder) (s : EventDrivenBacktester) :
    (s.processAll c sqrt event rest).2.fills =
      s.fills ++ s.fillsFor c sqrt event (executed s.assumptions.latency event rest) := by
  induction rest generalizing s with
  | nil => exact (List.append_nil _).symm
  | cons original rest ih =>
      have hmet := processOrder_met c sqrt s event original
      unfold processAll executed
      rcases hr : s.processOrder c sqrt event original with ⟨e | ⟨⟩, s'⟩
      · rw [hr] at hmet
        cases hmet with
        | raised met advance =>
            rw [met]
            exact (List.append_nil _).symm
        | unpriced met advance =>
            rw [met]
            exact (List.append_nil _).symm
      · rw [hr] at hmet
        have hassumptions := hmet.assumptions
        show (s'.processAll c sqrt event rest).2.fills = _
        rw [ih s', hassumptions, fillsFor_congr hassumptions]
        cases hmet with
        | passed met advance => rw [met]
        | @unfilled order met none =>
            rw [met]
            show s.fills ++ _ = _
            unfold fillsFor
            rw [List.filter_cons_of_neg (by simpa using none)]
        | @filled order met positive =>
            rw [met]
            show (s.fills ++ [_]) ++ _ = _
            unfold fillsFor
            rw [List.filter_cons_of_pos (by simpa using positive), List.map_cons,
              List.append_assoc]
            rfl

def Takes (s : EventDrivenBacktester) (event : MarketEvent) : Prop :=
  event.validate = .ok () ∧ s.regresses event.occurredAt = some false

instance : Decidable (s.Takes event) := inferInstanceAs (Decidable (_ ∧ _))

def executedAt (s : EventDrivenBacktester) (event : MarketEvent) : List SimulatedOrder :=
  if s.Takes event then executed s.assumptions.latency event s.orders.rows else []

theorem process_state (c : Decimal.Context) (sqrt : Decimal → Decimal)
    (s : EventDrivenBacktester) (event : MarketEvent) : (s.process c sqrt event).2 =
      if s.Takes event then
        (processAll c sqrt event { s with lastEventAt := some event.occurredAt } s.orders.rows).2
      else s := by
  by_cases htakes : s.Takes event
  · rw [if_pos htakes]
    obtain ⟨hvalid, hregresses⟩ := htakes
    unfold process
    rw [hvalid]
    simp only [hregresses]
    rcases processAll c sqrt event { s with lastEventAt := some event.occurredAt }
      s.orders.rows with ⟨e | ⟨⟩, s'⟩
    · rfl
    · rfl
  · rw [if_neg htakes]
    unfold process
    cases hvalid : event.validate with
    | error e => rfl
    | ok u =>
        cases hregresses : s.regresses event.occurredAt with
        | none => rfl
        | some regresses =>
            cases regresses with
            | true => rfl
            | false => exact absurd ⟨hvalid, hregresses⟩ htakes

theorem assumptions_process (c : Decimal.Context) (sqrt : Decimal → Decimal)
    (s : EventDrivenBacktester) (event : MarketEvent) :
    (s.process c sqrt event).2.assumptions = s.assumptions := by
  rw [process_state]
  split
  · exact (processAll_frame c sqrt event _ _).1
  · rfl

theorem lastEventAt_process (c : Decimal.Context) (sqrt : Decimal → Decimal)
    (s : EventDrivenBacktester) (event : MarketEvent) :
    (s.process c sqrt event).2.lastEventAt =
      if s.Takes event then some event.occurredAt else s.lastEventAt := by
  rw [process_state]
  split
  · exact (processAll_frame c sqrt event _ _).2
  · rfl

theorem fills_process (c : Decimal.Context) (sqrt : Decimal → Decimal)
    (s : EventDrivenBacktester) (event : MarketEvent) :
    (s.process c sqrt event).2.fills = s.fills ++ s.fillsFor c sqrt event (s.executedAt event) := by
  rw [process_state]
  unfold executedAt
  split
  · exact fills_processAll c sqrt event s.orders.rows _
  · exact (List.append_nil _).symm

/-! ## The orders after an event -/

theorem OrderMet.rows {answer : Except Exn Unit} {before rest : List SimulatedOrder}
    (h : OrderMet c sqrt event s original (answer, s'))
    (hrows : s.orders.rows = before ++ original :: rest) :
    s'.orders.rows = before ++ s.settle c event original :: rest := by
  have hput : ∀ {order}, original.advance event s.assumptions.latency = some order →
      (s.orders.put order).rows = before ++ order :: rest := by
    intro order hadvance
    have hid : order.orderId = original.orderId := by
      rw [(SimulatedOrder.advance_spec hadvance).same]
    exact Table.rows_put_of_append hrows hid
  cases h with
  | raised met advance =>
      unfold settle
      rw [met, advance]
      exact hrows
  | unpriced met advance =>
      unfold settle
      rw [met, advance]
      exact hput advance
  | passed met advance =>
      unfold settle
      rw [met, advance]
      exact hput advance
  | @unfilled order met none =>
      unfold settle
      rw [met]
      simp only [if_pos (not_lt.mp none)]
      exact hput (SimulatedOrder.executes_eq_some met).advance
  | @filled order met positive =>
      unfold settle
      rw [met]
      simp only [if_neg (not_le.mpr positive)]
      exact Table.rows_put_of_append (hput (SimulatedOrder.executes_eq_some met).advance) rfl

theorem sameTerms_settle (c : Decimal.Context) (s : EventDrivenBacktester) (event : MarketEvent)
    (original : SimulatedOrder) : SameTerms original (s.settle c event original) := by
  unfold settle
  split
  · rename_i order met
    have hadvanced := SimulatedOrder.advance_spec (SimulatedOrder.executes_eq_some met).advance
    have hsame := hadvanced.sameTerms
    simp only
    split
    · exact hsame
    · exact hsame.trans rfl
  · cases hadvance : original.advance event s.assumptions.latency with
    | none => exact .refl original
    | some order => exact (SimulatedOrder.advance_spec hadvance).sameTerms

theorem sameTerms_settleAll (c : Decimal.Context) (s : EventDrivenBacktester)
    (event : MarketEvent) (rest : List SimulatedOrder) :
    List.Forall₂ SameTerms rest (s.settleAll c event rest) := by
  induction rest with
  | nil => exact .nil
  | cons original rest ih =>
      unfold settleAll
      split
      · exact .cons (sameTerms_settle c s event original) (List.forall₂_same.mpr fun o _ => .refl o)
      · exact .cons (sameTerms_settle c s event original) ih

theorem rows_processAll (c : Decimal.Context) (sqrt : Decimal → Decimal) (event : MarketEvent)
    {before rest : List SimulatedOrder} (s : EventDrivenBacktester)
    (hrows : s.orders.rows = before ++ rest) :
    (s.processAll c sqrt event rest).2.orders.rows = before ++ s.settleAll c event rest := by
  induction rest generalizing s before with
  | nil => exact hrows
  | cons original rest ih =>
      have hmet := processOrder_met c sqrt s event original
      unfold processAll settleAll
      rcases hr : s.processOrder c sqrt event original with ⟨e | ⟨⟩, s'⟩
      · rw [hr] at hmet
        have hnone : original.executes s.assumptions.latency event = none := by
          cases hmet with
          | raised met advance => exact met
          | unpriced met advance => exact met
        rw [hnone]
        exact hmet.rows hrows
      · rw [hr] at hmet
        obtain ⟨met, hsome⟩ : ∃ met, original.executes s.assumptions.latency event = some met := by
          cases hmet with
          | passed met advance => exact ⟨_, met⟩
          | unfilled met none => exact ⟨_, met⟩
          | filled met positive => exact ⟨_, met⟩
        have hrows' := hmet.rows hrows
        have hsettle : s'.settleAll c event rest = s.settleAll c event rest :=
          settleAll_congr hmet.assumptions rest
        rw [hsome]
        show (s'.processAll c sqrt event rest).2.orders.rows = _
        rw [List.append_cons] at hrows'
        rw [ih s' hrows', hsettle]
        exact (List.append_cons ..).symm

theorem rows_process (c : Decimal.Context) (sqrt : Decimal → Decimal)
    (s : EventDrivenBacktester) (event : MarketEvent) :
    (s.process c sqrt event).2.orders.rows =
      if s.Takes event then s.settleAll c event s.orders.rows else s.orders.rows := by
  rw [process_state]
  split
  · have hrows := @rows_processAll c sqrt event [] s.orders.rows
      { s with lastEventAt := some event.occurredAt } rfl
    have hsettle := @settleAll_congr c s { s with lastEventAt := some event.occurredAt } event rfl
      s.orders.rows
    exact hrows.trans hsettle
  · rfl

/-! ## The other calls -/

theorem step_submit (c : Decimal.Context) (sqrt : Decimal → Decimal) (s : EventDrivenBacktester)
    (order : SimulatedOrder) : s.step c sqrt (.submit order) =
      if s.orders.find? order.orderId = none then { s with orders := s.orders.put order } else s := by
  show (s.submit order).toOption.getD s = _
  unfold submit
  cases s.orders.find? order.orderId with
  | none => rfl
  | some o => rfl

def cancelled (orderId : UUID) (order : SimulatedOrder) : SimulatedOrder :=
  if order.orderId = orderId ∧ ¬ order.Closed then { order with status := .cancelled } else order

theorem sameTerms_cancelled (orderId : UUID) (order : SimulatedOrder) :
    SameTerms order (cancelled orderId order) := by
  unfold cancelled
  split
  · rfl
  · exact .refl order

theorem step_cancel (c : Decimal.Context) (sqrt : Decimal → Decimal) (s : EventDrivenBacktester)
    (orderId : UUID) : ∃ orders : Table SimulatedOrder.orderId,
      s.step c sqrt (.cancel orderId) = { s with orders := orders } ∧
        orders.rows = s.orders.rows.map (cancelled orderId) := by
  show ∃ orders : Table SimulatedOrder.orderId,
    ((s.cancel orderId).toOption.map Prod.snd).getD s = { s with orders := orders } ∧ _
  unfold cancel
  cases hfind : s.orders.find? orderId with
  | none =>
      refine ⟨s.orders, rfl, (List.map_id _).symm.trans (List.map_congr_left fun o ho => ?_)⟩
      exact (if_neg fun h => Table.find?_eq_none.mp hfind o ho h.1).symm
  | some order =>
      obtain ⟨before, rest, hrows⟩ := List.append_of_mem (Table.mem_of_find? hfind)
      have hid : order.orderId = orderId := Table.key_of_find? hfind
      have hothers : ∀ o ∈ before ++ rest, cancelled orderId o = o := by
        intro o ho
        refine if_neg fun h => ?_
        have hnodup := s.orders.nodup
        rw [hrows, List.map_append, List.map_cons] at hnodup
        have hfresh := (List.nodup_middle.mp hnodup).notMem
        rw [← List.map_append] at hfresh
        exact hfresh (List.mem_map.mpr ⟨o, ho, h.1.trans hid.symm⟩)
      have hmap : (before ++ order :: rest).map (cancelled orderId) =
          before ++ cancelled orderId order :: rest := by
        have hbefore : before.map (cancelled orderId) = before :=
          (List.map_congr_left fun o ho => hothers o (List.mem_append_left _ ho)).trans
            (List.map_id _)
        have hrest : rest.map (cancelled orderId) = rest :=
          (List.map_congr_left fun o ho => hothers o (List.mem_append_right _ ho)).trans
            (List.map_id _)
        rw [List.map_append, List.map_cons, hbefore, hrest]
      by_cases hclosed : order.Closed
      · simp only [if_pos hclosed]
        refine ⟨s.orders, rfl, ?_⟩
        rw [hrows, hmap]
        unfold cancelled
        rw [if_neg fun h => h.2 hclosed]
      · simp only [if_neg hclosed]
        refine ⟨_, rfl, ?_⟩
        rw [hrows, hmap]
        unfold cancelled
        rw [if_pos ⟨hid, hclosed⟩]
        exact Table.rows_put_of_append hrows rfl

/-! ## The volume of an event -/

def filledAt (c : Decimal.Context) (sqrt : Decimal → Decimal) (s : EventDrivenBacktester)
    (event : MarketEvent) : Decimal :=
  (((s.process c sqrt event).2.fills.drop s.fills.length).map SimulatedFill.quantity).sum

def volumeCap (c : Decimal.Context) (s : EventDrivenBacktester) (event : MarketEvent) : Decimal :=
  c.mul event.availableVolume s.assumptions.maximumParticipation

def leftAt (c : Decimal.Context) (s : EventDrivenBacktester) (event : MarketEvent) :
    List Decimal :=
  ((s.executedAt event).map (SimulatedOrder.remainingQuantity c)).filter fun left =>
    decide (0 < left)

/-- There is nothing to share, one order at most has something left, or all that is left fits
into the share of the volume. -/
def SharesVolume (c : Decimal.Context) (s : EventDrivenBacktester) (event : MarketEvent) : Prop :=
  s.volumeCap c event = 0 ∨ (s.leftAt c event).length ≤ 1 ∨
    (s.leftAt c event).sum ≤ s.volumeCap c event

instance : Decidable (SharesVolume c s event) := inferInstanceAs (Decidable (_ ∨ _))

/-- Positive amounts, each cut at `cap`, keep to `cap` together when there is one of them at
most, or they do uncut. -/
theorem sum_min_le_iff {cap : ℚ} {rs : List ℚ} (hcap : 0 < cap) (hpos : ∀ r ∈ rs, 0 < r) :
    (rs.map fun r => min r cap).sum ≤ cap ↔ rs.length ≤ 1 ∨ rs.sum ≤ cap := by
  constructor
  · intro hsum
    by_contra hmany
    obtain ⟨hlength, htotal⟩ := not_or.mp hmany
    -- one of them is cut, and the others are there too
    obtain ⟨r, hr, hcut⟩ : ∃ r ∈ rs, cap < r := by
      by_contra hnone
      have hmap : (rs.map fun r => min r cap) = rs := by
        refine (List.map_congr_left fun r hr => ?_).trans (List.map_id rs)
        exact min_eq_left (not_lt.mp fun h => hnone ⟨r, hr, h⟩)
      rw [hmap] at hsum
      exact htotal hsum
    have hperm := (List.perm_cons_erase hr).map fun r => min r cap
    rw [hperm.sum_eq, List.map_cons, List.sum_cons, min_eq_right hcut.le] at hsum
    have hrest : 0 < ((rs.erase r).map fun r => min r cap).sum := by
      refine List.sum_pos _ (fun x hx => ?_) fun hempty => ?_
      · obtain ⟨r', hr', rfl⟩ := List.mem_map.mp hx
        exact lt_min (hpos r' (List.mem_of_mem_erase hr')) hcap
      · have hlength' := congrArg List.length (List.map_eq_nil_iff.mp hempty)
        rw [List.length_erase_of_mem hr, List.length_nil] at hlength'
        omega
    linarith
  · rintro (hone | htotal)
    · match rs, hone with
      | [], _ => exact hcap.le
      | [r], _ => simp
    · calc (rs.map fun r => min r cap).sum ≤ (rs.map id).sum :=
            List.sum_le_sum fun r _ => min_le_left r cap
        _ ≤ cap := by rwa [List.map_id]

theorem filledAt_eq (c : Decimal.Context) (sqrt : Decimal → Decimal) (s : EventDrivenBacktester)
    (event : MarketEvent) : s.filledAt c sqrt event =
      ((((s.executedAt event).map (SimulatedOrder.remainingQuantity c)).map fun left =>
        min left (s.volumeCap c event)).filter fun quantity => decide (0 < quantity)).sum := by
  unfold filledAt
  rw [fills_process, List.drop_left]
  unfold fillsFor
  rw [List.map_map, List.map_map, List.filter_map]
  rfl

/-- The fills of an event keep to the share of its volume precisely when its orders share
it. -/
theorem filledAt_le_iff (c : Decimal.Context) (sqrt : Decimal → Decimal)
    (s : EventDrivenBacktester) (event : MarketEvent) (hround : ∀ x, 0 ≤ x → 0 ≤ c.round x)
    (hassumptions : s.assumptions.validate = .ok ()) (hvalid : event.validate = .ok ()) :
    s.filledAt c sqrt event ≤ s.volumeCap c event ↔ s.SharesVolume c event := by
  have hcap : 0 ≤ s.volumeCap c event := by
    obtain ⟨hevent, -⟩ := Except.of_ite_error hvalid
    obtain ⟨hparticipation, -⟩ := Except.of_ite_error hassumptions
    simp only [not_or, not_lt, not_not, not_le] at hevent hparticipation
    exact hround _ (mul_nonneg hevent.2.2 hparticipation.2.1.le)
  rw [filledAt_eq]
  unfold SharesVolume leftAt
  generalize (s.executedAt event).map (SimulatedOrder.remainingQuantity c) = left
  rcases hcap.eq_or_lt with hzero | hpos
  · -- no volume, no fill
    have hnone : (left.map fun r => min r (s.volumeCap c event)).filter
        (fun quantity => decide (0 < quantity)) = [] := by
      refine List.filter_eq_nil_iff.mpr fun x hx => ?_
      obtain ⟨r, -, rfl⟩ := List.mem_map.mp hx
      have hmin : min r (s.volumeCap c event) ≤ 0 := (min_le_right _ _).trans hzero.symm.le
      simpa only [decide_eq_true_eq, not_lt] using hmin
    rw [hnone]
    simp [← hzero]
  · have hfilter : (left.map fun r => min r (s.volumeCap c event)).filter
        (fun quantity => decide (0 < quantity)) =
        (left.filter fun r => decide (0 < r)).map fun r => min r (s.volumeCap c event) := by
      rw [List.filter_map]
      refine congrArg _ (List.filter_congr fun r _ => ?_)
      simp [hpos]
    rw [hfilter, sum_min_le_iff hpos fun r hr => of_decide_eq_true (List.mem_filter.mp hr).2]
    simp [hpos.ne']

def buyTen (id : UUID) : SimulatedOrder where
  orderId := id
  instrumentId := "I"
  side := .buy
  orderType := .market
  quantity := 10
  submittedAt := .aware 0

def tenthOfVolume (orders : List SimulatedOrder) : EventDrivenBacktester where
  assumptions := ⟨0, 1 / 10, 0, 0, 0⟩
  orders := orders.foldl Table.put (.empty _)
  fills := []
  lastEventAt := none
  positions := .empty _
  cash := ⟨"USD", 0⟩

def hundredOffered : MarketEvent := ⟨"I", .aware 1, 99, 100, 100, true⟩

theorem one_order_within_volume :
    (tenthOfVolume [buyTen 1]).filledAt .default id hundredOffered ≤
      (tenthOfVolume [buyTen 1]).volumeCap .default hundredOffered :=
  (filledAt_le_iff .default id _ _ (fun _ hx => Decimal.roundSig_nonneg (by norm_num) hx)
    (by decide +kernel) (by decide +kernel)).mpr (by decide +kernel)

/-- Two orders fill twenty of the ten that are theirs. -/
theorem two_orders_exceed_volume :
    ¬ (tenthOfVolume [buyTen 1, buyTen 2]).filledAt .default id hundredOffered ≤
      (tenthOfVolume [buyTen 1, buyTen 2]).volumeCap .default hundredOffered := by
  decide +kernel

end EventDrivenBacktester

end TradePlatform
