/-
# `TradePlatform.EventBacktestIsolation` — two runs that differ in other instruments

`_advance_order` advances every order on every event, and compares the stop price of an order with
the quote of the event, whichever instrument that is of.  Two runs of the same calls, but for the
events of other instruments than `X`, keep the orders on `X` and their fills the same precisely
when no stop order on `X` is reached by the one event and not by the other
(`sameOwn_iff`).
-/
import TradePlatform.CorporateActionRuns
import TradePlatform.EventBacktestEvents

namespace TradePlatform

namespace SimulatedOrder

variable {latency : ℤ} {event event₁ event₂ : MarketEvent} {original order : SimulatedOrder}

/-! ## Orders that raise with an event, if at all -/

/-- What `create_order` makes sure of: the times have a zone, and the prices of the type are
there. -/
structure Priced (order : SimulatedOrder) : Prop where
  submitted : order.submittedAt.isAware = true
  expires : ∀ expiry, order.expiresAt = some expiry → expiry.isAware = true
  limit : order.orderType = .limit ∨ order.orderType = .stopLimit → order.limitPrice ≠ none
  stop : order.orderType = .stop ∨ order.orderType = .stopLimit → order.stopPrice ≠ none

theorem priced_of_created (h : order.Created) : order.Priced := by
  have hmissing : ∀ {price : Option Decimal}, ¬ missingPrice price = true → price ≠ none := by
    rintro _ hprice rfl
    exact hprice rfl
  unfold Created createOrder at h
  obtain ⟨hinvalid, h⟩ := Except.of_ite_error h
  obtain ⟨hlimit, h⟩ := Except.of_ite_error h
  obtain ⟨hstop, h⟩ := Except.of_ite_error h
  obtain ⟨hboth, h⟩ := Except.of_ite_error h
  simp only [not_or, not_and] at hinvalid hlimit hstop hboth
  have haware : order.submittedAt.isAware = true := by simpa using hinvalid.2.2
  refine ⟨haware, fun expiry hexpiry => ?_, ?_, ?_⟩
  · rw [hexpiry] at h
    cases hat : order.submittedAt with
    | naive t =>
        rw [hat] at haware
        cases haware
    | aware t =>
        cases expiry with
        | aware u => rfl
        | naive u =>
            rw [hat] at h
            cases h
  · rintro (htype | htype)
    · exact hmissing (hlimit htype)
    · exact hmissing (hboth htype).2
  · rintro (htype | htype)
    · exact hmissing (hstop htype)
    · exact hmissing (hboth htype).1

theorem SameTerms.symm (h : SameTerms original order) : SameTerms order original := by
  unfold SameTerms at h ⊢
  rw [h]

theorem SameTerms.priced (h : SameTerms original order) (hpriced : original.Priced) :
    order.Priced := by
  rw [h]
  exact ⟨hpriced.submitted, hpriced.expires, hpriced.limit, hpriced.stop⟩

theorem SameTerms.instrumentId (h : SameTerms original order) :
    order.instrumentId = original.instrumentId := by
  rw [h]

theorem advance_closed (h : original.Closed) : original.advance event latency = some original :=
  if_pos h

theorem executes_closed (h : original.Closed) : original.executes latency event = some none := by
  have hworking : ¬ original.Working := fun hw => not_closed_of_working hw h
  unfold executes
  rw [advance_closed h]
  exact if_pos (.inl hworking)

theorem advance_naive {wall : ℤ} (hnaive : event.occurredAt = .naive wall)
    (hpriced : original.Priced) (h : ¬ original.Closed) :
    original.advance event latency = none := by
  have hsubmitted := hpriced.submitted
  have hexpires := hpriced.expires
  unfold advance expired
  rw [if_neg h, hnaive]
  cases hexpiry : original.expiresAt with
  | none =>
      cases hat : original.submittedAt with
      | aware t => rfl
      | naive t =>
          rw [hat] at hsubmitted
          cases hsubmitted
  | some expiry =>
      cases expiry with
      | aware t => rfl
      | naive t => exact absurd (hexpires _ hexpiry) Bool.false_ne_true

/-- The order waits for its stop price, at a time after its latency and before its expiry. -/
structure AwaitsAt (latency : ℤ) (at_ : DateTime) (order : SimulatedOrder) : Prop where
  open_ : ¬ order.Closed
  unexpired : order.expired at_ = some false
  late : at_.lt (order.submittedAt.add latency) = some false
  awaits : order.AwaitsTrigger

instance (latency : ℤ) (at_ : DateTime) (order : SimulatedOrder) :
    Decidable (AwaitsAt latency at_ order) :=
  decidable_of_iff (¬ order.Closed ∧ order.expired at_ = some false ∧
      at_.lt (order.submittedAt.add latency) = some false ∧ order.AwaitsTrigger)
    ⟨fun h => ⟨h.1, h.2.1, h.2.2.1, h.2.2.2⟩, fun h => ⟨h.open_, h.unexpired, h.late, h.awaits⟩⟩

theorem advance_awaits (h : AwaitsAt latency event.occurredAt original) :
    original.advance event latency = (original.stopReached event).map fun reached =>
      { original with status := .working, triggered := reached } := by
  unfold advance
  rw [if_neg h.open_, h.unexpired, h.late]
  exact if_pos h.awaits

/-- What an event does with an order that does not wait for its stop price is a matter of the
time. -/
theorem advance_congr (h : ¬ AwaitsAt latency event₁.occurredAt original)
    (htime : event₁.occurredAt = event₂.occurredAt) :
    original.advance event₁ latency = original.advance event₂ latency := by
  by_cases hclosed : original.Closed
  · rw [advance_closed hclosed, advance_closed hclosed]
  unfold advance
  rw [if_neg hclosed, if_neg hclosed, ← htime]
  cases hexpired : original.expired event₁.occurredAt with
  | none => rfl
  | some expired =>
      cases expired with
      | true => rfl
      | false =>
          cases hlate : event₁.occurredAt.lt (original.submittedAt.add latency) with
          | none => rfl
          | some early =>
              cases early with
              | true => rfl
              | false =>
                  have hawaits : ¬ original.AwaitsTrigger :=
                    fun hawaits => h ⟨hclosed, hexpired, hlate, hawaits⟩
                  simp only [if_neg hawaits]

theorem executes_aware {instant : ℤ} (haware : event.occurredAt = .aware instant)
    (hpriced : original.Priced) : ∃ met, original.executes latency event = some met := by
  obtain ⟨order, hadvance⟩ := advance_aware haware hpriced
  have hpriced' := (advance_spec hadvance).sameTerms.priced hpriced
  obtain ⟨executable, hexecutable⟩ : ∃ executable, order.isExecutable event = some executable := by
    unfold isExecutable
    split
    · rename_i htype
      obtain ⟨limit, hlimit⟩ := Option.ne_none_iff_exists'.mp
        (hpriced'.limit (htype.imp_right And.left))
      exact ⟨_, congrArg _ hlimit⟩
    · exact ⟨_, rfl⟩
  unfold executes
  rw [hadvance]
  simp only
  split
  · exact ⟨_, rfl⟩
  · rw [hexecutable]
    exact ⟨_, rfl⟩
where
  advance_aware {instant : ℤ} (haware : event.occurredAt = .aware instant)
      (hpriced : original.Priced) : ∃ order, original.advance event latency = some order := by
    by_cases hawaits : AwaitsAt latency event.occurredAt original
    · obtain ⟨stop, hstop⟩ := Option.ne_none_iff_exists'.mp (hpriced.stop hawaits.awaits.1)
      rw [advance_awaits hawaits]
      unfold stopReached
      rw [hstop]
      exact ⟨_, rfl⟩
    by_cases hclosed : original.Closed
    · exact ⟨_, advance_closed hclosed⟩
    have hexpires := hpriced.expires
    have hsubmitted := hpriced.submitted
    obtain ⟨expired, hexpired⟩ : ∃ expired, original.expired event.occurredAt = some expired := by
      unfold SimulatedOrder.expired
      rw [haware]
      cases hexpiry : original.expiresAt with
      | none => exact ⟨_, rfl⟩
      | some expiry =>
          cases expiry with
          | aware t => exact ⟨_, rfl⟩
          | naive t => exact absurd (hexpires _ hexpiry) Bool.false_ne_true
    obtain ⟨early, hearly⟩ : ∃ early,
        event.occurredAt.lt (original.submittedAt.add latency) = some early := by
      rw [haware]
      cases hat : original.submittedAt with
      | aware t => exact ⟨_, rfl⟩
      | naive t =>
          rw [hat] at hsubmitted
          cases hsubmitted
    unfold advance
    rw [if_neg hclosed, hexpired, hearly]
    cases expired with
    | true => exact ⟨_, rfl⟩
    | false =>
        cases early with
        | true => exact ⟨_, rfl⟩
        | false =>
            have hnot : ¬ original.AwaitsTrigger :=
              fun h => hawaits ⟨hclosed, hexpired, hearly, h⟩
            simp only [if_neg hnot]
            split <;> exact ⟨_, rfl⟩

/-- Two events at one time do the same with an order that neither executes, unless one of them
alone reaches its stop price. -/
theorem advance_eq_iff (hpriced : original.Priced)
    (htime : event₁.occurredAt = event₂.occurredAt) :
    (original.advance event₁ latency).getD original =
        (original.advance event₂ latency).getD original ↔
      (AwaitsAt latency event₁.occurredAt original →
        original.stopReached event₁ = original.stopReached event₂) := by
  by_cases hawaits : AwaitsAt latency event₁.occurredAt original
  · obtain ⟨stop, hstop⟩ := Option.ne_none_iff_exists'.mp (hpriced.stop hawaits.awaits.1)
    have hawaits' := htime ▸ hawaits
    rw [advance_awaits hawaits, advance_awaits hawaits']
    unfold stopReached
    rw [hstop]
    constructor
    · intro h _
      exact congrArg some (congrArg SimulatedOrder.triggered h)
    · intro h
      rw [h hawaits]
  · rw [advance_congr hawaits htime]
    exact iff_of_true rfl fun h => absurd h hawaits

end SimulatedOrder

namespace EventDrivenBacktester

open SimulatedOrder (executes executed SameTerms Priced AwaitsAt)

variable {c : Decimal.Context} {sqrt : Decimal → Decimal} {s t s' t' : EventDrivenBacktester}
  {event event₁ event₂ : MarketEvent} {order : SimulatedOrder} {X : String}
  {rest : List SimulatedOrder}

/-! ## One event, for the orders on one instrument -/

def ordersOn (s : EventDrivenBacktester) (X : String) : List SimulatedOrder :=
  s.orders.rows.filter fun order => decide (order.instrumentId = X)

def fillsOn (s : EventDrivenBacktester) (X : String) : List SimulatedFill :=
  s.fills.filter fun fill => decide (fill.instrumentId = X)

theorem settle_naive {wall : ℤ} (hnaive : event.occurredAt = .naive wall)
    (hpriced : order.Priced) : s.settle c event order = order := by
  unfold settle
  by_cases hclosed : order.Closed
  · rw [SimulatedOrder.executes_closed hclosed, SimulatedOrder.advance_closed hclosed]
    rfl
  · have hadvance : order.advance event s.assumptions.latency = none :=
      SimulatedOrder.advance_naive hnaive hpriced hclosed
    have hexecutes : order.executes s.assumptions.latency event = none := by
      unfold executes
      rw [hadvance]
    rw [hexecutes, hadvance]
    rfl

theorem settleAll_eq_map (hpriced : ∀ order ∈ rest, order.Priced) :
    s.settleAll c event rest = rest.map (s.settle c event) := by
  cases hat : event.occurredAt with
  | aware instant =>
      induction rest with
      | nil => rfl
      | cons order rest ih =>
          obtain ⟨met, hmet⟩ : ∃ met, order.executes s.assumptions.latency event = some met :=
            SimulatedOrder.executes_aware hat (hpriced order List.mem_cons_self)
          unfold settleAll
          rw [hmet, ih fun o ho => hpriced o (List.mem_cons_of_mem _ ho)]
          rfl
  | naive wall =>
      have hmap : rest.map (s.settle c event) = rest :=
        (List.map_congr_left fun o ho => settle_naive hat (hpriced o ho)).trans (List.map_id _)
      rw [hmap]
      clear hmap
      induction rest with
      | nil => rfl
      | cons order rest ih =>
          unfold settleAll
          rw [settle_naive hat (hpriced order List.mem_cons_self),
            ih fun o ho => hpriced o (List.mem_cons_of_mem _ ho)]
          split <;> rfl

def executedOf (s : EventDrivenBacktester) (event : MarketEvent) (order : SimulatedOrder) :
    Option SimulatedOrder :=
  (order.executes s.assumptions.latency event).join

theorem executedOf_naive {wall : ℤ} (hnaive : event.occurredAt = .naive wall)
    (hpriced : order.Priced) : s.executedOf event order = none := by
  unfold executedOf
  by_cases hclosed : order.Closed
  · rw [SimulatedOrder.executes_closed hclosed]
    rfl
  · unfold executes
    rw [SimulatedOrder.advance_naive hnaive hpriced hclosed]
    rfl

theorem executed_eq_filterMap (hpriced : ∀ order ∈ rest, order.Priced) :
    executed s.assumptions.latency event rest = rest.filterMap (s.executedOf event) := by
  induction rest with
  | nil => rfl
  | cons order rest ih =>
      have ih' := ih fun o ho => hpriced o (List.mem_cons_of_mem _ ho)
      unfold executed
      cases hmet : order.executes s.assumptions.latency event with
      | none =>
          -- the event has no zone, and executes none of the others either
          have hnone : ∀ o ∈ order :: rest, s.executedOf event o = none := by
            intro o ho
            cases hat : event.occurredAt with
            | naive wall => exact executedOf_naive hat (hpriced o ho)
            | aware instant =>
                obtain ⟨met, hsome⟩ : ∃ met, order.executes s.assumptions.latency event = some met :=
                  SimulatedOrder.executes_aware hat (hpriced order List.mem_cons_self)
                rw [hmet] at hsome
                cases hsome
          exact (List.filterMap_eq_nil_iff.mpr hnone).symm
      | some met =>
          have hof : s.executedOf event order = met := by
            unfold executedOf
            rw [hmet]
            rfl
          rw [List.filterMap_cons, hof, ← ih']
          cases met <;> rfl

theorem executedOf_instrument {executed : SimulatedOrder}
    (h : s.executedOf event order = some executed) :
    executed.instrumentId = order.instrumentId ∧ executed.instrumentId = event.instrumentId := by
  have hmet := SimulatedOrder.executes_eq_some (Option.join_eq_some_iff.mp h)
  exact ⟨(SimulatedOrder.advance_spec hmet.advance).sameTerms.instrumentId, hmet.instrument⟩

theorem ordersOn_map {f : SimulatedOrder → SimulatedOrder}
    (hrows : s'.orders.rows = s.orders.rows.map f) (hf : ∀ order, SameTerms order (f order)) :
    s'.ordersOn X = (s.ordersOn X).map f := by
  unfold ordersOn
  rw [hrows, List.filter_map]
  refine congrArg _ (List.filter_congr fun o _ => ?_)
  show decide ((f o).instrumentId = X) = _
  rw [(hf o).instrumentId]

theorem ordersOn_process (sqrt : Decimal → Decimal) (event : MarketEvent)
    (hpriced : ∀ order ∈ s.orders.rows, order.Priced) :
    (s.process c sqrt event).2.ordersOn X =
      if s.Takes event then (s.ordersOn X).map (s.settle c event) else s.ordersOn X := by
  have hrows := rows_process c sqrt s event
  split
  · rename_i htakes
    rw [if_pos htakes, settleAll_eq_map hpriced] at hrows
    exact ordersOn_map hrows (sameTerms_settle c s event)
  · rename_i htakes
    rw [if_neg htakes] at hrows
    unfold ordersOn
    rw [hrows]

theorem fillsOn_process (sqrt : Decimal → Decimal) (event : MarketEvent)
    (hpriced : ∀ order ∈ s.orders.rows, order.Priced) :
    (s.process c sqrt event).2.fillsOn X = s.fillsOn X ++
      if s.Takes event then
        s.fillsFor c sqrt event ((s.ordersOn X).filterMap (s.executedOf event))
      else [] := by
  have hfills : ∀ orders : List SimulatedOrder,
      (s.fillsFor c sqrt event orders).filter (fun fill => decide (fill.instrumentId = X)) =
        s.fillsFor c sqrt event (orders.filter fun order => decide (order.instrumentId = X)) := by
    intro orders
    unfold fillsFor
    rw [List.filter_map, List.filter_comm]
    rfl
  have hexecuted : ∀ rows : List SimulatedOrder,
      (rows.filterMap (s.executedOf event)).filter (fun o => decide (o.instrumentId = X)) =
        (rows.filter fun o => decide (o.instrumentId = X)).filterMap (s.executedOf event) := by
    intro rows
    induction rows with
    | nil => rfl
    | cons o rows ih =>
        rw [List.filter_cons]
        cases hof : s.executedOf event o with
        | none =>
            rw [List.filterMap_cons_none hof, ih]
            split
            · exact (List.filterMap_cons_none hof).symm
            · rfl
        | some o' =>
            obtain ⟨hinstrument, -⟩ := executedOf_instrument hof
            rw [List.filterMap_cons_some hof, List.filter_cons, hinstrument, ih]
            split
            · exact (List.filterMap_cons_some hof).symm
            · rfl
  unfold fillsOn
  rw [fills_process, List.filter_append, hfills]
  unfold executedAt
  split
  · rw [executed_eq_filterMap hpriced, hexecuted]
    rfl
  · rfl

/-! ## Two simulations -/

def SameOwn (X : String) (s t : EventDrivenBacktester) : Prop :=
  s.ordersOn X = t.ordersOn X ∧ s.fillsOn X = t.fillsOn X

instance : Decidable (SameOwn X s t) := inferInstanceAs (Decidable (_ ∧ _))

structure Twin (s t : EventDrivenBacktester) : Prop where
  assumptions : t.assumptions = s.assumptions
  lastEventAt : t.lastEventAt = s.lastEventAt
  terms : List.Forall₂ SameTerms s.orders.rows t.orders.rows
  priced : ∀ order ∈ s.orders.rows, order.Priced

theorem Twin.symm (h : Twin s t) : Twin t s where
  assumptions := h.assumptions.symm
  lastEventAt := h.lastEventAt.symm
  terms := (h.terms.imp fun _ _ hsame => hsame.symm).flip
  priced order horder := by
    obtain ⟨original, horiginal, hsame⟩ := h.terms.flip.exists_of_mem horder
    exact SimulatedOrder.SameTerms.priced hsame (h.priced original horiginal)

theorem Twin.map {f g : SimulatedOrder → SimulatedOrder} (h : Twin s t)
    (hf : ∀ order, SameTerms order (f order)) (hg : ∀ order, SameTerms order (g order))
    (hs : s'.orders.rows = s.orders.rows.map f) (ht : t'.orders.rows = t.orders.rows.map g)
    (hassumptions : t'.assumptions = s'.assumptions) (hlast : t'.lastEventAt = s'.lastEventAt) :
    Twin s' t' where
  assumptions := hassumptions
  lastEventAt := hlast
  terms := by
    rw [hs, ht, List.forall₂_map_left_iff, List.forall₂_map_right_iff]
    exact h.terms.imp fun o o' hsame => ((hf o).symm.trans hsame).trans (hg o')
  priced order horder := by
    rw [hs] at horder
    obtain ⟨original, horiginal, rfl⟩ := List.mem_map.mp horder
    exact (hf original).priced (h.priced original horiginal)

theorem Twin.takes_iff (h : Twin s t) (htime : event₁.occurredAt = event₂.occurredAt)
    (hvalid : event₁.validate = event₂.validate) : t.Takes event₂ ↔ s.Takes event₁ := by
  unfold Takes regresses
  rw [h.lastEventAt, htime, hvalid]

theorem rows_process_eq_map (sqrt : Decimal → Decimal) (event : MarketEvent)
    (hpriced : ∀ order ∈ s.orders.rows, order.Priced) :
    (s.process c sqrt event).2.orders.rows = s.orders.rows.map fun order =>
      if s.Takes event then s.settle c event order else order := by
  rw [rows_process]
  split
  · exact settleAll_eq_map hpriced
  · exact (List.map_id _).symm

theorem Twin.process (h : Twin s t) (htime : event₁.occurredAt = event₂.occurredAt)
    (hvalid : event₁.validate = event₂.validate) :
    Twin (s.process c sqrt event₁).2 (t.process c sqrt event₂).2 := by
  have hsettle : ∀ (s : EventDrivenBacktester) (event : MarketEvent) (order : SimulatedOrder),
      SameTerms order (if s.Takes event then s.settle c event order else order) := by
    intro s event order
    split
    · exact sameTerms_settle c s event order
    · exact .refl order
  refine h.map (hsettle s event₁) (hsettle t event₂) (rows_process_eq_map sqrt event₁ h.priced)
    (rows_process_eq_map sqrt event₂ h.symm.priced) ?_ ?_
  · rw [assumptions_process, assumptions_process, h.assumptions]
  · rw [lastEventAt_process, lastEventAt_process, h.lastEventAt, htime]
    simp only [h.takes_iff htime hvalid]

theorem SameOwn.process (h : Twin s t) (hown : SameOwn X s t) (event : MarketEvent) :
    SameOwn X (s.process c sqrt event).2 (t.process c sqrt event).2 := by
  obtain ⟨horders, hfills⟩ := hown
  have htakes : t.Takes event ↔ s.Takes event := h.takes_iff rfl rfl
  have hsettle : t.settle c event = s.settle c event :=
    funext fun order => settle_congr h.assumptions order
  have hof : t.executedOf event = s.executedOf event := by
    funext order
    unfold executedOf
    rw [h.assumptions]
  constructor
  · rw [ordersOn_process sqrt event h.priced, ordersOn_process sqrt event h.symm.priced, horders,
      hsettle]
    simp only [htakes]
  · rw [fillsOn_process sqrt event h.priced, fillsOn_process sqrt event h.symm.priced, horders,
      hfills, hof]
    simp only [htakes, fillsFor_congr h.assumptions]

/-- The two events do the same with the stop orders on an instrument that are still waiting. -/
def TriggersAlike (X : String) (s : EventDrivenBacktester) (event₁ event₂ : MarketEvent) : Prop :=
  s.Takes event₁ → ∀ order ∈ s.ordersOn X,
    AwaitsAt s.assumptions.latency event₁.occurredAt order →
      order.stopReached event₁ = order.stopReached event₂

instance : Decidable (TriggersAlike X s event₁ event₂) :=
  inferInstanceAs (Decidable (_ → ∀ _ ∈ _, _ → _))

theorem executedOf_other (h : order.instrumentId = X) (hother : event.instrumentId ≠ X) :
    s.executedOf event order = none := by
  cases hof : s.executedOf event order with
  | none => rfl
  | some executed =>
      obtain ⟨hinstrument, hevent⟩ := executedOf_instrument hof
      exact absurd (hevent.symm.trans (hinstrument.trans h)) hother

theorem settle_other (h : order.instrumentId = X) (hother : event.instrumentId ≠ X) :
    s.settle c event order = (order.advance event s.assumptions.latency).getD order := by
  have hof := executedOf_other (s := s) h hother
  unfold executedOf at hof
  unfold settle
  cases hmet : order.executes s.assumptions.latency event with
  | none => rfl
  | some met =>
      rw [hmet] at hof
      cases met with
      | none => rfl
      | some executed => cases hof

theorem sameOwn_process_iff (h : Twin s t) (hown : SameOwn X s t)
    (hother₁ : event₁.instrumentId ≠ X) (hother₂ : event₂.instrumentId ≠ X)
    (htime : event₁.occurredAt = event₂.occurredAt)
    (hvalid : event₁.validate = event₂.validate) :
    SameOwn X (s.process c sqrt event₁).2 (t.process c sqrt event₂).2 ↔
      s.TriggersAlike X event₁ event₂ := by
  obtain ⟨horders, hfills⟩ := hown
  have htakes := h.takes_iff htime hvalid
  have hon : ∀ {s : EventDrivenBacktester} {order}, order ∈ s.ordersOn X →
      order ∈ s.orders.rows ∧ order.instrumentId = X := by
    intro s order horder
    obtain ⟨hrow, hinstrument⟩ := List.mem_filter.mp horder
    exact ⟨hrow, of_decide_eq_true hinstrument⟩
  have hnofill : ∀ {s : EventDrivenBacktester} {event}, event.instrumentId ≠ X →
      (∀ order ∈ s.orders.rows, order.Priced) →
      (s.process c sqrt event).2.fillsOn X = s.fillsOn X := by
    intro s event hother hpriced
    have hnone : (s.ordersOn X).filterMap (s.executedOf event) = [] :=
      List.filterMap_eq_nil_iff.mpr fun o ho => executedOf_other (hon ho).2 hother
    rw [fillsOn_process sqrt event hpriced, hnone]
    split <;> exact List.append_nil _
  unfold SameOwn TriggersAlike
  rw [hnofill hother₁ h.priced, hnofill hother₂ h.symm.priced, and_iff_left hfills,
    ordersOn_process sqrt event₁ h.priced, ordersOn_process sqrt event₂ h.symm.priced, ← horders]
  simp only [htakes]
  by_cases htaken : s.Takes event₁
  · rw [if_pos htaken, if_pos htaken, List.map_inj_left]
    refine Iff.trans (forall₂_congr fun order horder => ?_)
      ⟨fun halike _ => halike, fun halike => halike htaken⟩
    obtain ⟨hrow, hinstrument⟩ := hon horder
    rw [settle_other hinstrument hother₁, settle_other hinstrument hother₂, h.assumptions]
    exact SimulatedOrder.advance_eq_iff (h.priced order hrow) htime
  · rw [if_neg htaken, if_neg htaken]
    exact iff_of_true rfl fun h => absurd h htaken

theorem Twin.submit (c : Decimal.Context) (sqrt : Decimal → Decimal) (h : Twin s t)
    (hown : SameOwn X s t) (hcreated : order.Created) :
    Twin (s.step c sqrt (.submit order)) (t.step c sqrt (.submit order)) ∧
      SameOwn X (s.step c sqrt (.submit order)) (t.step c sqrt (.submit order)) := by
  have hunknown : ∀ {s t : EventDrivenBacktester}, Twin s t →
      s.orders.find? order.orderId = none → t.orders.find? order.orderId = none := by
    intro s t h hnone
    refine Table.find?_eq_none.mpr fun o ho hid => ?_
    obtain ⟨original, horiginal, hsame⟩ := h.symm.terms.exists_of_mem ho
    exact Table.find?_eq_none.mp hnone original horiginal (hsame.orderId.trans hid)
  rw [step_submit, step_submit]
  by_cases hnone : s.orders.find? order.orderId = none
  · have hnone' := hunknown h hnone
    have hrows := Table.rows_put_of_none hnone
    have hrows' := Table.rows_put_of_none hnone'
    rw [if_pos hnone, if_pos hnone']
    refine ⟨⟨h.assumptions, h.lastEventAt, ?_, fun o ho => ?_⟩, ?_, hown.2⟩
    · rw [hrows, hrows']
      exact List.rel_append h.terms (.cons (.refl order) .nil)
    · rw [hrows] at ho
      rcases List.mem_append.mp ho with ho | ho
      · exact h.priced o ho
      · obtain rfl := List.mem_singleton.mp ho
        exact SimulatedOrder.priced_of_created hcreated
    · have hown' := hown.1
      unfold ordersOn at hown' ⊢
      rw [hrows, hrows', List.filter_append, List.filter_append, hown']
  · rw [if_neg hnone, if_neg fun hnone' => hnone (hunknown h.symm hnone')]
    exact ⟨h, hown⟩

theorem Twin.cancel (c : Decimal.Context) (sqrt : Decimal → Decimal) (h : Twin s t)
    (hown : SameOwn X s t) (orderId : UUID) :
    Twin (s.step c sqrt (.cancel orderId)) (t.step c sqrt (.cancel orderId)) ∧
      SameOwn X (s.step c sqrt (.cancel orderId)) (t.step c sqrt (.cancel orderId)) := by
  have hterms := sameTerms_cancelled orderId
  obtain ⟨orders, hs, hrows⟩ := step_cancel c sqrt s orderId
  obtain ⟨orders', ht, hrows'⟩ := step_cancel c sqrt t orderId
  rw [hs, ht]
  refine ⟨h.map hterms hterms hrows hrows' h.assumptions h.lastEventAt, ?_, hown.2⟩
  refine (ordersOn_map hrows hterms).trans (Eq.trans ?_ (ordersOn_map hrows' hterms).symm)
  rw [hown.1]

end EventDrivenBacktester

namespace Simulation

open EventDrivenBacktester (Twin SameOwn TriggersAlike)

variable {c : Decimal.Context} {sqrt : Decimal → Decimal} {X : String}

/-! ## Two runs -/

/-- A call of each of two runs: the same one, or events of other instruments than `X` at the same
time, both valid or neither. -/
inductive PairedCall (X : String) where
  | submit (order : SimulatedOrder) (created : order.Created)
  | cancel (orderId : UUID)
  | process (event : MarketEvent)
  | others (event₁ event₂ : MarketEvent) (other₁ : event₁.instrumentId ≠ X)
      (other₂ : event₂.instrumentId ≠ X) (time : event₁.occurredAt = event₂.occurredAt)
      (valid : event₁.validate = event₂.validate)
  | applyCorporateActions (call : CorporateCall)

namespace PairedCall

def left : PairedCall X → SimulationCall
  | .submit order _ => .trade (.submit order)
  | .cancel orderId => .trade (.cancel orderId)
  | .process event => .trade (.process event)
  | .others event₁ _ _ _ _ _ => .trade (.process event₁)
  | .applyCorporateActions call => .applyCorporateActions call

def right : PairedCall X → SimulationCall
  | .submit order _ => .trade (.submit order)
  | .cancel orderId => .trade (.cancel orderId)
  | .process event => .trade (.process event)
  | .others _ event₂ _ _ _ _ => .trade (.process event₂)
  | .applyCorporateActions call => .applyCorporateActions call

end PairedCall

def stepBoth (c : Decimal.Context) (sqrt : Decimal → Decimal) (runs : Simulation × Simulation)
    (call : PairedCall X) : Simulation × Simulation :=
  (runs.1.step c sqrt call.left, runs.2.step c sqrt call.right)

/-- Events of other instruments do the same with the stop orders on `X` that are waiting. -/
def AlikeFor (X : String) (runs : Simulation × Simulation) : PairedCall X → Prop
  | .others event₁ event₂ _ _ _ _ => runs.1.TriggersAlike X event₁ event₂
  | _ => True

instance (runs : Simulation × Simulation) : ∀ call, Decidable (AlikeFor X runs call)
  | .others event₁ event₂ _ _ _ _ =>
      inferInstanceAs (Decidable (runs.1.TriggersAlike X event₁ event₂))
  | .submit _ _ => inferInstanceAs (Decidable True)
  | .cancel _ => inferInstanceAs (Decidable True)
  | .process _ => inferInstanceAs (Decidable True)
  | .applyCorporateActions _ => inferInstanceAs (Decidable True)

theorem stepBoth_sameOwn (call : PairedCall X) {runs : Simulation × Simulation}
    (h : Twin runs.1.toEventDrivenBacktester runs.2.toEventDrivenBacktester)
    (hown : SameOwn X runs.1.toEventDrivenBacktester runs.2.toEventDrivenBacktester) :
    Twin (stepBoth c sqrt runs call).1.toEventDrivenBacktester
        (stepBoth c sqrt runs call).2.toEventDrivenBacktester ∧
      (SameOwn X (stepBoth c sqrt runs call).1.toEventDrivenBacktester
        (stepBoth c sqrt runs call).2.toEventDrivenBacktester ↔ AlikeFor X runs call) := by
  cases call with
  | submit order created =>
      obtain ⟨htwin, hown'⟩ := h.submit c sqrt hown created
      exact ⟨htwin, iff_true_intro hown'⟩
  | cancel orderId =>
      obtain ⟨htwin, hown'⟩ := h.cancel c sqrt hown orderId
      exact ⟨htwin, iff_true_intro hown'⟩
  | process event =>
      exact ⟨h.process rfl rfl, iff_true_intro (SameOwn.process h hown event)⟩
  | others event₁ event₂ other₁ other₂ time valid =>
      exact ⟨h.process time valid,
        EventDrivenBacktester.sameOwn_process_iff h hown other₁ other₂ time valid⟩
  | applyCorporateActions call =>
      have hleft := sameTrading_applyCorporateActions c runs.1 call
      have hright := sameTrading_applyCorporateActions c runs.2 call
      obtain ⟨horders, hfills⟩ := hown
      refine ⟨⟨?_, ?_, ?_, ?_⟩, iff_true_intro ⟨?_, ?_⟩⟩
      · exact hright.assumptions.trans (h.assumptions.trans hleft.assumptions.symm)
      · exact hright.lastEventAt.trans (h.lastEventAt.trans hleft.lastEventAt.symm)
      · exact hleft.orders ▸ hright.orders ▸ h.terms
      · exact hleft.orders ▸ h.priced
      · unfold EventDrivenBacktester.ordersOn at horders ⊢
        exact hleft.orders ▸ hright.orders ▸ horders
      · unfold EventDrivenBacktester.fillsOn at hfills ⊢
        exact hleft.fills ▸ hright.fills ▸ hfills

/-- Two runs that differ in the events of other instruments than `X` have the same orders and
fills on `X` throughout precisely when these events trigger its stop orders alike. -/
theorem sameOwn_iff (c : Decimal.Context) (sqrt : Decimal → Decimal) (X : String)
    (assumptions : ExecutionAssumptions) (initialCash : Decimal) (cashCurrency : String)
    (s : Simulation) (hnew : new assumptions initialCash cashCurrency = .ok s)
    (calls : List (PairedCall X)) :
    Run.Always (stepBoth c sqrt)
        (fun runs => SameOwn X runs.1.toEventDrivenBacktester runs.2.toEventDrivenBacktester)
        (s, s) calls ↔
      Run.Each (stepBoth c sqrt) (AlikeFor X) (s, s) calls := by
  have hrows : s.orders.rows = [] := by
    obtain ⟨engine, hengine, h⟩ := Except.bind_eq_ok.mp hnew
    obtain rfl := Except.pure_eq_ok.mp h
    unfold EventDrivenBacktester.new at hengine
    split at hengine
    · cases hengine
    · obtain ⟨-, hengine⟩ := Except.of_ite_error hengine
      cases hengine
      rfl
  have hstart : Twin s.toEventDrivenBacktester s.toEventDrivenBacktester := by
    refine ⟨rfl, rfl, List.forall₂_same.mpr fun o _ => .refl o, ?_⟩
    rw [hrows]
    exact fun _ h => absurd h List.not_mem_nil
  refine (Run.always_iff_each
    (J := fun runs => Twin runs.1.toEventDrivenBacktester runs.2.toEventDrivenBacktester)
    (fun runs call h hown _ => (stepBoth_sameOwn call h hown).1)
    (fun runs call h hown => (stepBoth_sameOwn call h hown).2) hstart).trans ?_
  exact and_iff_right ⟨rfl, rfl⟩

def unused : Simulation := ⟨EventDrivenBacktester.tenthOfVolume [], ∅⟩

theorem new_unused : new unused.assumptions 0 "USD" = .ok unused := by
  have hvalid : unused.assumptions.validate = .ok () := by decide +kernel
  unfold new EventDrivenBacktester.new
  rw [hvalid]
  simp only
  rw [if_neg (by decide +kernel)]
  rfl

/-- A stop order at 105 on `I`, and an event of another instrument with one ask or another. -/
def stopAt105 (ask₁ ask₂ : Decimal)
    (valid : (⟨"J", .aware 1, 1, ask₁, 100, true⟩ : MarketEvent).validate =
      (⟨"J", .aware 1, 1, ask₂, 100, true⟩ : MarketEvent).validate) : List (PairedCall "I") :=
  [.submit { (EventDrivenBacktester.buyTen 1) with orderType := .stop, stopPrice := some 105 }
      (by decide +kernel),
    .others ⟨"J", .aware 1, 1, ask₁, 100, true⟩ ⟨"J", .aware 1, 1, ask₂, 100, true⟩
      (show "J" ≠ "I" by decide) (show "J" ≠ "I" by decide) rfl valid]

/-- Neither event reaches the stop price. -/
theorem stopAt105_sameOwn : Run.Always (stepBoth .exact id)
    (fun runs => SameOwn "I" runs.1.toEventDrivenBacktester runs.2.toEventDrivenBacktester)
    (unused, unused) (stopAt105 50 60 (by decide +kernel)) :=
  (sameOwn_iff .exact id "I" unused.assumptions 0 "USD" unused new_unused _).mpr
    (by decide +kernel)

/-- One event of another instrument triggers the order, and the other does not. -/
theorem stopAt105_not_sameOwn : new unused.assumptions 0 "USD" = .ok unused ∧
    ¬ Run.Always (stepBoth .exact id)
      (fun runs => SameOwn "I" runs.1.toEventDrivenBacktester runs.2.toEventDrivenBacktester)
      (unused, unused) (stopAt105 50 200 (by decide +kernel)) := by
  refine ⟨new_unused, fun h => ?_⟩
  exact absurd h.exec (by decide +kernel)

end Simulation

end TradePlatform
