/-
# `TradePlatform.BrokerEventLog` — the event log of an adapter tells its orders

Every accepted call of the sandbox adapter appends one event.  What the event says is
made a function on orders (`applyTo`), and the log is sound: numbered without gaps from
1, with the number in the external event id, and with an acknowledgement or an order it
moves the way the event says.
-/
import TradePlatform.BrokerSync

namespace TradePlatform

open OrderStatus

namespace BrokerOrderEvent

def applyTo (c : Decimal.Context) (event : BrokerOrderEvent) (order : PaperOrder) :
    Except Exn PaperOrder :=
  if event.eventType = "FILL" then do
    let (_, quantity, price) ← event.details.fillArguments
    order.fill c quantity.value price.value
  else if event.eventType = "ORDER_CANCELLED" then do
    let pending ← order.transition cancelPending
    pending.transition cancelled
  else if event.eventType = "ORDER_REPLACED" then do
    let (quantity, limitPrice) ← event.details.termArguments
    if ¬ order.MayAmend quantity.value limitPrice.value then
      .error (.paperOmsError "invalid_order_amendment")
    pure (order.withTerms quantity.value limitPrice.value)
  else .ok order

def fillId (event : BrokerOrderEvent) : Option String :=
  if event.eventType = "FILL" then event.details.externalFillId else none

variable {c : Decimal.Context} {event : BrokerOrderEvent} {order updated : PaperOrder}

theorem applyTo_fill (h : event.eventType = "FILL") : event.applyTo c order = .ok updated ↔
    ∃ ext quantity price, event.details.fillArguments = .ok (ext, quantity, price) ∧
      order.fill c quantity.value price.value = .ok updated := by
  simp only [applyTo, if_pos h, Except.bind_eq_ok, Prod.exists]

theorem applyTo_cancelled (h : event.eventType = "ORDER_CANCELLED") :
    event.applyTo c order = .ok updated ↔
      order.Working ∧ updated = { order with status := cancelled } := by
  have h₁ : event.eventType ≠ "FILL" := by rw [h]; decide
  simp only [applyTo, if_neg h₁, if_pos h, Except.bind_eq_ok]
  constructor
  · rintro ⟨pending, hp, hc⟩
    obtain ⟨hmem, rfl⟩ := PaperOrder.transition_eq_ok.mp hp
    obtain ⟨_, rfl⟩ := PaperOrder.transition_eq_ok.mp hc
    exact ⟨PaperOrder.working_of_mem hmem, rfl⟩
  · rintro ⟨hw, rfl⟩
    have hp := PaperOrder.transition_eq_ok.mpr
      ⟨PaperOrder.mem_of_working hw, rfl⟩
    exact ⟨_, hp, PaperOrder.transition_cancelled hp⟩

theorem applyTo_replaced (h : event.eventType = "ORDER_REPLACED") :
    event.applyTo c order = .ok updated ↔
      ∃ quantity limitPrice, event.details.termArguments = .ok (quantity, limitPrice) ∧
        order.MayAmend quantity.value limitPrice.value ∧
        updated = order.withTerms quantity.value limitPrice.value := by
  have h₁ : event.eventType ≠ "FILL" := by rw [h]; decide
  have h₂ : event.eventType ≠ "ORDER_CANCELLED" := by rw [h]; decide
  simp only [applyTo, if_neg h₁, if_neg h₂, if_pos h, Except.bind_eq_ok, Prod.exists]
  refine exists_congr fun q => exists_congr fun p => and_congr_right fun _ => ?_
  by_cases hm : order.MayAmend q.value p.value
  · simp [hm, pure, Except.pure, eq_comm]
  · simp [hm]

theorem applyTo_other (h₁ : event.eventType ≠ "FILL") (h₂ : event.eventType ≠ "ORDER_CANCELLED")
    (h₃ : event.eventType ≠ "ORDER_REPLACED") :
    event.applyTo c order = .ok updated ↔ order = updated := by
  simp only [applyTo, if_neg h₁, if_neg h₂, if_neg h₃, Except.ok.injEq]

theorem intentId_of_applyTo (h : event.applyTo c order = .ok updated) :
    updated.intentId = order.intentId ∧ (order.status ≠ proposed → updated.status ≠ proposed) := by
  by_cases h₁ : event.eventType = "FILL"
  · obtain ⟨_, _, _, _, hf⟩ := (applyTo_fill h₁).mp h
    refine ⟨PaperOrder.intentId_of_fill hf, fun _ => ?_⟩
    obtain ⟨_, rfl⟩ := PaperOrder.fill_eq_ok.mp hf
    simp only
    split <;> simp
  by_cases h₂ : event.eventType = "ORDER_CANCELLED"
  · obtain ⟨_, rfl⟩ := (applyTo_cancelled h₂).mp h
    exact ⟨rfl, fun _ => by simp⟩
  by_cases h₃ : event.eventType = "ORDER_REPLACED"
  · obtain ⟨_, _, _, _, rfl⟩ := (applyTo_replaced h₃).mp h
    exact ⟨rfl, fun hp => hp⟩
  · rw [applyTo_other h₁ h₂ h₃] at h
    exact ⟨h ▸ rfl, fun hp => h ▸ hp⟩

end BrokerOrderEvent

def BrokerCall.stamp : BrokerCall → EventStamp
  | .submit _ stamp | .cancel _ stamp | .replace _ _ _ stamp
  | .simulateFill _ _ _ _ _ stamp => stamp

namespace SandboxPaperBrokerAdapter

/-! ## One call, one event -/

structure Emits (c : Decimal.Context) (s : SandboxPaperBrokerAdapter) (stamp : EventStamp)
    (o' : PaperOrder) (event : BrokerOrderEvent) (s' : SandboxPaperBrokerAdapter) : Prop where
  configuration : s'.configuration = s.configuration
  events : s'.events = s.events ++ [event]
  orders : s'.orders = s.orders.put o'
  fillIds : s'.fillIds = s.fillIds ++ event.fillId.toList
  freshFill : ∀ ext ∈ event.fillId, ext ∉ s.fillIds ∧ blank ext = false
  sequence : event.sequence = ((s.events.length + 1 : ℕ) : ℤ)
  externalEventId : event.externalEventId = "sandbox:" ++ toString (s.events.length + 1)
  stamp : event.eventId = stamp.eventId ∧ event.occurredAt = stamp.occurredAt
  intentId : event.clientIntentId = o'.intentId
  order : (s.orders.find? o'.intentId = none ∧ event.eventType = "ORDER_ACKNOWLEDGED") ∨
    ∃ o, s.orders.find? o'.intentId = some o ∧ event.applyTo c o = .ok o'

variable {c : Decimal.Context} {s s' : SandboxPaperBrokerAdapter} {o o' : PaperOrder}
  {stamp : EventStamp}

theorem submit_emits (h : s.submit o stamp = .ok (o', s')) :
    o' = { o with status := acknowledged } ∧ s.orders.find? o'.intentId = none ∧
      ∃ event, event.eventType = "ORDER_ACKNOWLEDGED" ∧ Emits c s stamp o' event s' := by
  obtain ⟨hnew, _, ho, rfl⟩ := submit_eq_ok.mp h
  have hid : s.orders.find? o'.intentId = none := by
    rw [ho]
    exact hnew
  exact ⟨ho, hid, _, rfl, ⟨rfl, rfl, rfl, by simp [event, BrokerOrderEvent.fillId],
    by simp [BrokerOrderEvent.fillId], rfl, rfl, ⟨rfl, rfl⟩, rfl, .inl ⟨hid, rfl⟩⟩⟩

theorem call_emits {a : BrokerCall} (h : s.call c a = .ok (o', s')) :
    ∃ event, Emits c s a.stamp o' event s' := by
  cases a with
  | submit order stamp =>
      obtain ⟨_, _, event, _, he⟩ := submit_emits (c := c) h
      exact ⟨event, he⟩
  | cancel id stamp =>
      obtain ⟨o, row, hw, ho, rfl⟩ := cancel_eq_ok.mp h
      have hid : o'.intentId = id := by
        rw [ho]
        exact (Table.key_of_find? row :)
      refine ⟨_, ⟨rfl, rfl, rfl, by simp [event, BrokerOrderEvent.fillId],
        by simp [BrokerOrderEvent.fillId], rfl, rfl, ⟨rfl, rfl⟩, rfl, .inr ⟨o, hid ▸ row, ?_⟩⟩⟩
      exact (BrokerOrderEvent.applyTo_cancelled rfl).mpr ⟨hw, ho⟩
  | replace id q p stamp =>
      obtain ⟨o, row, hm, ho, rfl⟩ := replace_eq_ok.mp h
      have hid : o'.intentId = id := by
        rw [ho]
        exact (Table.key_of_find? row :)
      refine ⟨_, ⟨rfl, rfl, rfl, by simp [event, BrokerOrderEvent.fillId],
        by simp [BrokerOrderEvent.fillId], rfl, rfl, ⟨rfl, rfl⟩, rfl, .inr ⟨o, hid ▸ row, ?_⟩⟩⟩
      exact (BrokerOrderEvent.applyTo_replaced rfl).mpr ⟨q, p, rfl, hm, ho⟩
  | simulateFill ext id q p fee stamp =>
      obtain ⟨⟨hb, _, hfresh⟩, o, row, hfill, rfl⟩ := simulateFill_eq_ok.mp h
      have hid : o'.intentId = id :=
        (PaperOrder.intentId_of_fill hfill).trans (Table.key_of_find? row)
      refine ⟨_, ⟨rfl, rfl, rfl, rfl, ?_, rfl, rfl, ⟨rfl, rfl⟩, rfl,
        .inr ⟨o, hid ▸ row, ?_⟩⟩⟩
      · intro x hx
        cases hx
        exact ⟨hfresh, hb⟩
      · exact (BrokerOrderEvent.applyTo_fill rfl).mpr ⟨ext, q, p, rfl, hfill⟩

/-! ## The log -/

/-- The log of an adapter whose event ids are below `issued`. -/
structure LogSound (s : SandboxPaperBrokerAdapter) (issued : ℕ) : Prop where
  numbered : ∀ i event, s.events[i]? = some event →
    event.sequence = ((i + 1 : ℕ) : ℤ) ∧ event.externalEventId = "sandbox:" ++ toString (i + 1)
  issued : ∀ event ∈ s.events, event.eventId < issued
  nodup : (s.events.map BrokerOrderEvent.eventId).Nodup
  aware : ∀ event ∈ s.events, event.occurredAt.isAware = true
  orders : ∀ id, s.orders.find? id ≠ none ↔ ∃ event ∈ s.events, event.clientIntentId = id
  fillIds : s.events.filterMap BrokerOrderEvent.fillId = s.fillIds
  fresh : s.fillIds.Nodup
  notBlank : ∀ ext ∈ s.fillIds, blank ext = false

namespace LogSound

variable {issued : ℕ} {event : BrokerOrderEvent}

theorem opened (configuration : BrokerConfiguration) (cash : CashBalance) :
    (SandboxPaperBrokerAdapter.opened configuration cash).LogSound issued := by
  refine ⟨?_, ?_, List.nodup_nil, ?_, ?_, rfl, List.nodup_nil, ?_⟩ <;>
    simp [SandboxPaperBrokerAdapter.opened]

theorem mono (h : s.LogSound issued) : s.LogSound (issued + 1) :=
  { h with issued := fun e he => Nat.lt_succ_of_lt (h.issued e he) }

theorem emit (h : s.LogSound issued) (he : Emits c s stamp o' event s')
    (hid : stamp.eventId = issued) (haware : stamp.occurredAt.isAware = true) :
    s'.LogSound (issued + 1) := by
  have heid : event.eventId = issued := he.stamp.1.trans hid
  refine ⟨?_, ?_, ?_, ?_, ?_, ?_, ?_, ?_⟩
  · intro i e hi
    rw [he.events, List.getElem?_append] at hi
    split at hi
    · exact h.numbered i e hi
    · rename_i hle
      have hlt := (List.getElem?_eq_some_iff.mp hi).1
      have hi' : i = s.events.length := by
        simp only [List.length_singleton] at hlt
        omega
      subst hi'
      rw [Nat.sub_self] at hi
      cases hi
      exact ⟨he.sequence, he.externalEventId⟩
  · intro e hmem
    rw [he.events] at hmem
    rcases List.mem_append.mp hmem with hmem | hmem
    · exact Nat.lt_succ_of_lt (h.issued e hmem)
    · rw [List.mem_singleton.mp hmem, heid]
      exact Nat.lt_succ_self _
  · rw [he.events, List.map_append]
    refine List.nodup_append.mpr ⟨h.nodup, List.nodup_singleton _, ?_⟩
    intro a ha b hb
    obtain ⟨e, hmem, rfl⟩ := List.mem_map.mp ha
    rw [List.mem_singleton.mp hb, heid]
    exact (h.issued e hmem).ne
  · intro e hmem
    rw [he.events] at hmem
    rcases List.mem_append.mp hmem with hmem | hmem
    · exact h.aware e hmem
    · rw [List.mem_singleton.mp hmem, he.stamp.2]
      exact haware
  · intro id
    rw [he.orders, he.events, Table.find?_put]
    by_cases hk : o'.intentId = id
    · simp only [if_pos hk, ne_eq, reduceCtorEq, not_false_eq_true, true_iff]
      exact ⟨event, by simp, he.intentId.trans hk⟩
    · rw [if_neg hk, h.orders id]
      constructor
      · rintro ⟨e, hmem, hi⟩
        exact ⟨e, List.mem_append_left _ hmem, hi⟩
      · rintro ⟨e, hmem, hi⟩
        rcases List.mem_append.mp hmem with hmem | hmem
        · exact ⟨e, hmem, hi⟩
        · rw [List.mem_singleton.mp hmem, he.intentId] at hi
          exact absurd hi hk
  · rw [he.events, he.fillIds, List.filterMap_append, h.fillIds]
    cases hf : event.fillId <;> simp [hf]
  · rw [he.fillIds]
    refine List.nodup_append.mpr ⟨h.fresh, ?_, ?_⟩
    · cases event.fillId <;> simp
    · intro a ha b hb heq
      exact (he.freshFill b (Option.mem_toList.mp hb)).1 (heq ▸ ha)
  · intro ext hext
    rw [he.fillIds] at hext
    rcases List.mem_append.mp hext with hext | hext
    · exact h.notBlank ext hext
    · exact (he.freshFill ext (Option.mem_toList.mp hext)).2

theorem externalEventId_inj (h : s.LogSound issued) {i j : ℕ} {e e' : BrokerOrderEvent}
    (hi : s.events[i]? = some e) (hj : s.events[j]? = some e')
    (heq : e.externalEventId = e'.externalEventId) : i = j := by
  rw [(h.numbered i e hi).2, (h.numbered j e' hj).2, String.append_right_inj] at heq
  exact Nat.succ.inj (Nat.repr_injective heq)

theorem orderEvents_eq (h : s.LogSound issued) {last : ℤ} {events : List BrokerOrderEvent}
    (he : s.orderEvents last = .ok events) : events = s.events.drop last.toNat ∧ 0 ≤ last := by
  unfold SandboxPaperBrokerAdapter.orderEvents at he
  split at he
  · cases he
  rename_i hlast
  cases he
  rw [not_lt] at hlast
  refine ⟨?_, hlast⟩
  obtain ⟨k, rfl⟩ := Int.eq_ofNat_of_zero_le hlast
  -- by position: the events up to `k` are filtered out, the others kept
  have hnum := h.numbered
  rw [Int.toNat_natCast]
  conv_lhs => rw [← List.take_append_drop k s.events]
  rw [List.filter_append]
  have h₁ : (s.events.take k).filter (fun event => decide (event.sequence > (k : ℤ))) = [] := by
    refine List.filter_eq_nil_iff.mpr ?_
    intro e hmem
    obtain ⟨i, hi⟩ := List.mem_iff_getElem?.mp hmem
    rw [List.getElem?_take] at hi
    split at hi
    · rename_i hlt
      have := (hnum i e hi).1
      simp only [decide_eq_true_eq, not_lt]
      omega
    · cases hi
  have h₂ : (s.events.drop k).filter (fun event => decide (event.sequence > (k : ℤ))) =
      s.events.drop k := by
    refine List.filter_eq_self.mpr ?_
    intro e hmem
    obtain ⟨i, hi⟩ := List.mem_iff_getElem?.mp hmem
    rw [List.getElem?_drop] at hi
    have := (hnum (k + i) e hi).1
    simp only [decide_eq_true_eq]
    omega
  rw [h₁, h₂, List.nil_append]

end LogSound

end SandboxPaperBrokerAdapter

end TradePlatform
