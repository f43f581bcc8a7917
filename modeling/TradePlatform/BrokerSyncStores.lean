/-
# `TradePlatform.BrokerSyncStores` — both stores, with two brokers

The SQLite stores and the PostgreSQL store obey `SyncStores.Laws`, so over either the
two brokers agree with the OMS precisely while one of them is silent.
-/
import TradePlatform.BrokerSyncAgreement

namespace TradePlatform

open OrderStatus

/-! ## Receipts -/

section Receipts

variable {ν : Type} {ext : ν → String} {id : ν → UUID} {sequence : ν → ℤ} {events : Table ext}
  {done : List BrokerOrderEvent} {event : BrokerOrderEvent}

/-- The rows of a receipt table are those of the events `done`. -/
def Receipts (id : ν → UUID) (sequence : ν → ℤ) (events : Table ext)
    (done : List BrokerOrderEvent) : Prop :=
  events.rows.map (fun row => (id row, sequence row, ext row)) =
    done.map fun e => (e.eventId, e.sequence, e.externalEventId)

theorem Receipts.exists_event (h : Receipts id sequence events done) {row : ν}
    (hrow : row ∈ events.rows) : ∃ e ∈ done, e.eventId = id row ∧ e.sequence = sequence row ∧
      e.externalEventId = ext row := by
  have hin : (id row, sequence row, ext row) ∈
      events.rows.map fun row => (id row, sequence row, ext row) :=
    List.mem_map.mpr ⟨row, hrow, rfl⟩
  rw [h] at hin
  obtain ⟨e, he, heq⟩ := List.mem_map.mp hin
  simp only [Prod.mk.injEq] at heq
  exact ⟨e, he, heq⟩

theorem Receipts.find?_of_mem (h : Receipts id sequence events done) (he : event ∈ done) :
    (events.find? event.externalEventId).map id = some event.eventId := by
  have hin : (event.eventId, event.sequence, event.externalEventId) ∈
      done.map fun e => (e.eventId, e.sequence, e.externalEventId) :=
    List.mem_map.mpr ⟨event, he, rfl⟩
  rw [← h] at hin
  obtain ⟨row, hrow, heq⟩ := List.mem_map.mp hin
  simp only [Prod.mk.injEq] at heq
  rw [← heq.2.2, Table.find?_key hrow, ← heq.1]
  rfl

theorem Receipts.mem_of_find? (h : Receipts id sequence events done) {k : String}
    (hk : (events.find? k).map id ≠ none) : ∃ e ∈ done, e.externalEventId = k := by
  obtain ⟨row, hrow⟩ : ∃ row, events.find? k = some row := by
    refine Option.ne_none_iff_exists'.mp fun hnone => hk ?_
    rw [hnone]
    rfl
  obtain ⟨e, he, _, _, hx⟩ := h.exists_event (Table.mem_of_find? hrow)
  exact ⟨e, he, hx.trans (Table.key_of_find? hrow)⟩

theorem Receipts.fresh (h : Receipts id sequence events done)
    (hext : ∀ e ∈ done, e.externalEventId ≠ event.externalEventId)
    (hid : ∀ e ∈ done, e.eventId ≠ event.eventId)
    (hseq : ∀ e ∈ done, e.sequence ≠ event.sequence) :
    events.find? event.externalEventId = none ∧
      ∀ row ∈ events.rows, id row ≠ event.eventId ∧ sequence row ≠ event.sequence := by
  constructor
  · refine Table.find?_eq_none.mpr fun row hmem heq => ?_
    obtain ⟨e, he, _, _, hx⟩ := h.exists_event hmem
    exact hext e he (hx.trans heq)
  · intro row hmem
    obtain ⟨e, he, hi, hs, _⟩ := h.exists_event hmem
    exact ⟨fun heq => hid e he (hi.trans heq), fun heq => hseq e he (hs.trans heq)⟩

theorem Receipts.put (h : Receipts id sequence events done) (row : ν)
    (hrow : (id row, sequence row, ext row) =
      (event.eventId, event.sequence, event.externalEventId))
    (hnew : events.find? event.externalEventId = none) :
    Receipts id sequence (events.put row) (done ++ [event]) := by
  simp only [Prod.mk.injEq] at hrow
  unfold Receipts
  rw [Table.rows_put_of_none (hrow.2.2.symm ▸ hnew), List.map_append, List.map_append, h]
  simp [hrow]

end Receipts

theorem fill_fresh {ν : Type} {key : ν → String} {fills : Table key}
    {done : List BrokerOrderEvent} {ext : String}
    (hfills : fills.rows.map key = done.filterMap BrokerOrderEvent.fillId)
    (hext : ∀ e ∈ done, ext ∉ e.fillId) : fills.find? ext = none := by
  refine Table.find?_eq_none.mpr fun row hmem heq => ?_
  have hin : ext ∈ fills.rows.map key := List.mem_map.mpr ⟨row, hmem, heq⟩
  rw [hfills] at hin
  obtain ⟨e, he, hx⟩ := List.mem_filterMap.mp hin
  exact hext e he hx

theorem filterMap_fillId_snoc {done : List BrokerOrderEvent} {event : BrokerOrderEvent} :
    (done ++ [event]).filterMap BrokerOrderEvent.fillId =
      done.filterMap BrokerOrderEvent.fillId ++ event.fillId.toList := by
  rw [List.filterMap_append]
  cases h : event.fillId <;> simp [h]

/-! ## SQLite -/

namespace SQLiteSync

variable {c : Decimal.Context} {s : SQLiteSync} {event : BrokerOrderEvent} {o o' : PaperOrder}

theorem effect_of_applyTo (row : s.oms.book event.clientIntentId = some o)
    (happ : event.applyTo c o = .ok o') (haware : event.occurredAt.isAware = true)
    (hfill : ∀ ext ∈ event.fillId, blank ext = false ∧ s.oms.fills.find? ext = none) :
    ∃ oms, s.effect c event = (.ok (), oms) ∧
      oms.book = Function.update s.oms.book event.clientIntentId (some o') ∧
      oms.fills.rows.map PaperFill.externalFillId =
        s.oms.fills.rows.map PaperFill.externalFillId ++ event.fillId.toList := by
  have hkey : o.intentId = event.clientIntentId := Table.key_of_find? row
  have hkey' : o'.intentId = event.clientIntentId :=
    (BrokerOrderEvent.intentId_of_applyTo happ).1.trans hkey
  unfold effect
  by_cases h₁ : event.eventType = "FILL"
  · obtain ⟨ext, q, p, hargs, hf⟩ := (BrokerOrderEvent.applyTo_fill h₁).mp happ
    have hid : event.fillId = some ext := by
      rw [BrokerOrderEvent.fillId, if_pos h₁]
      exact EventDetails.externalFillId_of_fillArguments hargs
    obtain ⟨hb, hfresh⟩ := hfill ext hid
    obtain ⟨⟨_, hq, hp, _⟩, _⟩ := PaperOrder.fill_eq_ok.mp hf
    have hin := SQLitePaperOms.syncFill_eq_ok.mpr ⟨ext, q, p, hargs,
      SQLitePaperOms.ingestFill_eq_ok.mpr ⟨⟨hb, hq, hp, haware⟩,
        .inr ⟨hfresh, o, row, hf, rfl⟩⟩⟩
    rw [if_pos h₁, hin]
    refine ⟨_, rfl, ?_, ?_⟩
    · show (fun id => (s.oms.orders.put o').find? id) = _
      rw [SQLitePaperOms.book_put, hkey']
      rfl
    · show ((s.oms.fills.put _).rows.map _) = _
      rw [Table.rows_put_of_none hfresh, List.map_append, hid]
      rfl
  have hnofill : event.fillId.toList = [] := by
    rw [BrokerOrderEvent.fillId, if_neg h₁]
    rfl
  rw [if_neg h₁, hnofill, List.append_nil]
  by_cases h₂ : event.eventType = "ORDER_CANCELLED"
  · obtain ⟨hw, rfl⟩ := (BrokerOrderEvent.applyTo_cancelled h₂).mp happ
    have hpend := PaperOrder.transition_eq_ok.mpr ⟨PaperOrder.mem_of_working hw, rfl⟩
    have htr : s.oms.transition event.clientIntentId cancelPending "broker_sync" = .ok (_, _) :=
      SQLitePaperOms.transition_eq_ok.mpr ⟨o, row, hpend, rfl⟩
    have hcancel := SQLitePaperOms.cancel_eq s.oms event.clientIntentId "broker_sync"
    rw [htr] at hcancel
    rw [if_pos h₂, SQLitePaperOms.syncCancel, SQLitePaperOms.get_eq_ok.mpr row]
    simp only [if_pos hw, hcancel]
    refine ⟨_, rfl, ?_, rfl⟩
    show (fun id => ((s.oms.orders.put _).put _).find? id) = _
    rw [SQLitePaperOms.book_put, SQLitePaperOms.book_put]
    show Function.update (Function.update _ o.intentId _) o.intentId _ = _
    rw [Function.update_idem, hkey]
    rfl
  rw [if_neg h₂]
  by_cases h₃ : event.eventType = "ORDER_REPLACED"
  · obtain ⟨q, p, hargs, hm, rfl⟩ := (BrokerOrderEvent.applyTo_replaced h₃).mp happ
    have hrep := SQLitePaperOms.syncReplace_eq_ok.mpr
      ⟨q, p, hargs, SQLitePaperOms.amend_eq_ok.mpr ⟨o, row, hm, rfl, rfl⟩⟩
    rw [if_pos h₃, hrep]
    refine ⟨_, rfl, ?_, rfl⟩
    show (fun id => (s.oms.orders.put _).find? id) = _
    rw [SQLitePaperOms.book_put, hkey']
    rfl
  · rw [BrokerOrderEvent.applyTo_other h₁ h₂ h₃] at happ
    subst happ
    rw [if_neg h₃]
    refine ⟨_, rfl, ?_, rfl⟩
    rw [← row, Function.update_eq_self]

/-- The rows of the SQLite stores are those of the events `done`. -/
structure Consumed (s : SQLiteSync) (done : List BrokerOrderEvent) : Prop where
  receipts : Receipts StoredBrokerEvent.eventId StoredBrokerEvent.sequence s.store.events done
  cursors : ∀ row ∈ s.store.cursors.rows, row.sequence ≤ (done.length : ℤ)
  fills : s.oms.fills.rows.map PaperFill.externalFillId = done.filterMap BrokerOrderEvent.fillId

theorem Consumed.lastSequence_le {done : List BrokerOrderEvent} (h : s.Consumed done)
    (brokerName : String) : s.store.lastSequence brokerName ≤ (done.length : ℤ) := by
  unfold SQLiteBrokerEventStore.lastSequence
  cases hrow : s.store.cursors.find? brokerName with
  | none => exact Int.natCast_nonneg _
  | some row => exact h.cursors row (Table.mem_of_find? hrow)

theorem append_next {done : List BrokerOrderEvent} (h : s.Consumed done)
    (hN : SyncStores.Next c (.sqlite c) s done event o o') (hsmall : event.sequence < 2 ^ 63)
    (brokerName : String) : ∃ store, s.store.append brokerName event = .ok (true, store) ∧
      Receipts StoredBrokerEvent.eventId StoredBrokerEvent.sequence store.events (done ++ [event]) ∧
      ∀ row ∈ store.cursors.rows, row.sequence ≤ ((done ++ [event]).length : ℤ) := by
  have hseq := hN.sequence
  obtain ⟨hnew, hrows⟩ := h.receipts.fresh hN.newExternal hN.newId hN.newSequence
  have hdup : ¬ s.store.Duplicate event := by
    rintro (hx | ⟨row, hmem, hid⟩)
    · exact hx hnew
    · exact (hrows row hmem).1 hid
  have hput := h.receipts.put (event.stored brokerName) rfl hnew
  have hlen : ((done ++ [event]).length : ℤ) = done.length + 1 := by simp
  unfold SQLiteBrokerEventStore.append
  rw [if_neg (by rw [hN.externalEventId, hseq]; simp), if_neg (not_le.mpr hsmall),
    if_neg hdup]
  by_cases hlast : event.sequence > s.store.lastSequence brokerName
  · simp only [if_pos hlast]
    refine ⟨_, rfl, hput, ?_⟩
    intro row hmem
    rcases Table.mem_put.mp hmem with rfl | ⟨hmem, _⟩
    · rw [hlen]
      exact hseq.le.trans (by simp)
    · exact (h.cursors row hmem).trans (by rw [hlen]; omega)
  · simp only [if_neg hlast]
    exact ⟨_, rfl, hput, fun row hmem => (h.cursors row hmem).trans (by rw [hlen]; omega)⟩

theorem get_eq_ok {id : UUID} {r : PaperOrder} :
    (SyncStores.sqlite c).get s id = .ok r ↔ s.oms.book id = some r :=
  SQLitePaperOms.get_eq_ok

def laws (c : Decimal.Context) : SyncStores.Laws c (.sqlite c) where
  Consumed s _ done := s.Consumed done
  consumed_empty _ := ⟨rfl, fun _ h => absurd h List.not_mem_nil, rfl⟩
  lastSequence_le h hlast := by
    cases hlast
    exact h.lastSequence_le _
  receipt_of_mem h he := h.receipts.find?_of_mem he
  mem_of_receipt h hext := h.receipts.mem_of_find? hext
  intentId_of_get h := Table.key_of_find? (get_eq_ok.mp h)
  create_ok := by
    intro s t' o o' h
    obtain ⟨oms, hc, rfl⟩ := liftOms_eq_ok.mp h
    obtain ⟨hp, ⟨row, _, rfl⟩ | ⟨hnone, _, rfl⟩⟩ := SQLitePaperOms.create_eq_ok.mp hc
    · exact .inl ⟨rfl, get_eq_ok.mpr row⟩
    · refine .inr ⟨?_, ⟨_, get_eq_ok.mpr (Table.find?_put_self ..), hp⟩, ?_, ?_⟩
      · intro r hr
        rw [get_eq_ok, SQLitePaperOms.book, hnone] at hr
        cases hr
      · exact fun _ _ h => ⟨h.receipts, h.cursors, h.fills⟩
      · intro k r hk hr
        refine get_eq_ok.mpr ?_
        show (s.oms.orders.put { o with averageFillPrice := none }).find? k = some r
        have hne : PaperOrder.intentId { o with averageFillPrice := none } ≠ k := Ne.symm hk
        rw [Table.find?_put_of_ne hne]
        exact get_eq_ok.mp hr
  transition_ok := by
    intro s t' id st actor o' h
    obtain ⟨oms, ht, rfl⟩ := liftOms_eq_ok.mp h
    obtain ⟨o, row, ho, rfl⟩ := SQLitePaperOms.transition_eq_ok.mp ht
    have hid : o'.intentId = id :=
      (PaperOrder.intentId_of_transition ho).trans (Table.key_of_find? row)
    refine ⟨⟨o, get_eq_ok.mpr row, ho⟩, ?_, fun _ _ h => ⟨h.receipts, h.cursors, h.fills⟩, ?_⟩
    · exact get_eq_ok.mpr (hid ▸ Table.find?_put_self s.oms.orders o')
    · intro k r hk hr
      exact get_eq_ok.mpr ((Table.find?_put_of_ne fun e => hk (e.symm.trans hid)).trans
        (get_eq_ok.mp hr))
  transition_total := by
    intro s id st o o' hget ho
    exact ⟨_, liftOms_eq_ok.mpr ⟨_, SQLitePaperOms.transition_eq_ok.mpr
      ⟨o, get_eq_ok.mp hget, ho, rfl⟩, rfl⟩⟩
  sync_seen := by
    intro s cfg event hrec
    have hdup : s.store.Duplicate event := by
      refine .inl fun hnone => hrec ?_
      show (s.store.events.find? event.externalEventId).map _ = none
      rw [hnone]
      rfl
    show (s.syncEvent c cfg.brokerName event).2 = s
    unfold syncEvent SQLiteBrokerEventStore.append
    by_cases h₁ : event.sequence ≤ 0 ∨ blank event.externalEventId
    · rw [if_pos h₁]
    rw [if_neg h₁]
    by_cases h₂ : 2 ^ 63 ≤ event.sequence
    · rw [if_pos h₂]
    · rw [if_neg h₂, if_pos hdup]
  sync_next := by
    intro s cfg done event o o' hcon hN
    show (∃ e, s.syncEvent c cfg.brokerName event = (.error e, s)) ∨ _
    by_cases hbig : 2 ^ 63 ≤ event.sequence
    · refine .inl ⟨.arithmeticError, ?_⟩
      unfold syncEvent SQLiteBrokerEventStore.append
      rw [if_neg (by rw [hN.externalEventId, hN.sequence]; simp), if_pos hbig]
    obtain ⟨store, happend, hrec, hcur⟩ := append_next hcon hN (not_le.mp hbig) cfg.brokerName
    obtain ⟨oms, heff, hbook, hfills⟩ := effect_of_applyTo (get_eq_ok.mp hN.get) hN.applyTo hN.aware
      fun ext hx => ⟨(hN.newFill ext hx).1, fill_fresh hcon.fills (hN.newFill ext hx).2⟩
    refine .inr ⟨⟨oms, store⟩, ?_, ⟨hrec, hcur, ?_⟩, ?_, ?_⟩
    · show s.syncEvent c cfg.brokerName event = _
      unfold syncEvent
      rw [happend]
      simp only [heff]
    · rw [hfills, hcon.fills, filterMap_fillId_snoc]
    · refine get_eq_ok.mpr ?_
      show oms.book _ = _
      rw [hbook, Function.update_self]
    · intro k r hk hr
      refine get_eq_ok.mpr ?_
      show oms.book _ = _
      rw [hbook, Function.update_of_ne hk]
      exact get_eq_ok.mp hr

end SQLiteSync

/-! ## PostgreSQL -/

namespace PostgresBrokerEvents

variable {c : Decimal.Context} {env : PgEnv} {s s' : PostgresBrokerEvents}
  {event : BrokerOrderEvent} {o o' : PaperOrder}

theorem effect_of_applyTo {oms oms' : PostgresPaperOms}
    (row : oms.book c event.clientIntentId = some o) (happ : event.applyTo c o = .ok o')
    (hfill : ∀ ext ∈ event.fillId, oms.fills.find? ext = none)
    (h : effect c env oms event = .ok oms') :
    oms'.book c = Function.update (oms.book c) event.clientIntentId (some o') ∧
      oms'.fills.rows.map PgFill.externalFillId =
        oms.fills.rows.map PgFill.externalFillId ++ event.fillId.toList := by
  have horder := PostgresPaperOms.book_eq_some.mp row
  obtain ⟨log, hlog, ho⟩ := PostgresPaperOms.order_eq_ok.mp horder
  unfold effect at h
  by_cases h₁ : event.eventType = "FILL"
  · obtain ⟨ext, q, p, hargs, hf⟩ := (BrokerOrderEvent.applyTo_fill h₁).mp happ
    have hid : event.fillId = some ext := by
      rw [BrokerOrderEvent.fillId, if_pos h₁]
      exact EventDetails.externalFillId_of_fillArguments hargs
    have hfresh := hfill ext hid
    rw [if_pos h₁] at h
    obtain ⟨args, hargs', h⟩ := Except.bind_eq_ok.mp h
    cases hargs.symm.trans hargs'
    obtain ⟨⟨r, w⟩, hin, h⟩ := Except.bind_eq_ok.mp h
    cases h
    obtain ⟨_, log', o₂, _, _, hlog', ho', hf', _, _, _, _, rfl⟩ :=
      (PostgresPaperOms.ingestFillIn_fresh hfresh).mp hin
    cases hlog.symm.trans hlog'
    cases ho.symm.trans ho'
    cases hf.symm.trans hf'
    refine ⟨PostgresPaperOms.book_append (.fillIngested ext q.value p.value o'.status)
      hlog ho hf, ?_⟩
    rw [Table.rows_put_of_none hfresh, List.map_append, hid]
    rfl
  have hnofill : event.fillId.toList = [] := by
    rw [BrokerOrderEvent.fillId, if_neg h₁]
    rfl
  rw [if_neg h₁] at h
  rw [hnofill, List.append_nil]
  by_cases h₂ : event.eventType = "ORDER_CANCELLED"
  · obtain ⟨hw, rfl⟩ := (BrokerOrderEvent.applyTo_cancelled h₂).mp happ
    have hpend := PaperOrder.transition_eq_ok.mpr ⟨PaperOrder.mem_of_working hw, rfl⟩
    rw [if_pos h₂, horder] at h
    simp only [Except.ok_bind, if_pos hw, hpend] at h
    obtain ⟨w, hw₁, h⟩ := Except.bind_eq_ok.mp h
    obtain ⟨_, rfl⟩ := (PostgresPaperOms.appendEvent_eq_ok hlog).mp hw₁
    have hkey : log.intentId = event.clientIntentId := Table.key_of_find? hlog
    let log₁ := log.append (.orderStatusChanged o.status cancelPending "broker_sync")
    let oms₁ : PostgresPaperOms := ⟨oms.intents.put log₁, oms.fills⟩
    have hlog₁ : oms₁.intents.find? event.clientIntentId = some log₁ :=
      hkey ▸ Table.find?_put_self oms.intents log₁
    have ho₁ := PostgresPaperOms.order_append
      (.orderStatusChanged o.status cancelPending "broker_sync") ho hpend
    obtain ⟨_, rfl⟩ := (PostgresPaperOms.appendEvent_eq_ok hlog₁).mp h
    refine ⟨?_, rfl⟩
    have hb₁ : oms₁.book c = Function.update (oms.book c) event.clientIntentId (some _) :=
      PostgresPaperOms.book_append (.orderStatusChanged o.status cancelPending "broker_sync") hlog
        ho hpend
    refine (PostgresPaperOms.book_append (.orderStatusChanged cancelPending cancelled "broker_sync")
      hlog₁ ho₁ (PaperOrder.transition_cancelled hpend)).trans ?_
    rw [hb₁, Function.update_idem]
  rw [if_neg h₂] at h
  by_cases h₃ : event.eventType = "ORDER_REPLACED"
  · obtain ⟨q, p, hargs, hm, rfl⟩ := (BrokerOrderEvent.applyTo_replaced h₃).mp happ
    rw [if_pos h₃, horder, hargs] at h
    simp only [Except.ok_bind, hm, not_true_eq_false, if_false] at h
    obtain ⟨_, rfl⟩ := (PostgresPaperOms.appendEvent_eq_ok hlog).mp h
    exact ⟨PostgresPaperOms.book_append (.orderAmended o.intent.quantity q.value o.intent.limitPrice
      p.value "broker_sync") hlog ho rfl, rfl⟩
  · rw [BrokerOrderEvent.applyTo_other h₁ h₂ h₃] at happ
    subst happ
    rw [if_neg h₃] at h
    cases h
    refine ⟨?_, rfl⟩
    rw [← row, Function.update_eq_self]

structure Consumed (s : PostgresBrokerEvents) (done : List BrokerOrderEvent) : Prop where
  receipts : Receipts BrokerSyncEvent.eventId BrokerSyncEvent.sequence s.events done
  cursors : ∀ row ∈ s.cursors.rows, row.cursor ≤ (done.length : ℤ)
  fills : s.oms.fills.rows.map PgFill.externalFillId = done.filterMap BrokerOrderEvent.fillId

theorem Consumed.previous_le {done : List BrokerOrderEvent} (h : s.Consumed done)
    (accountId brokerName : String) : s.previous accountId brokerName ≤ (done.length : ℤ) := by
  unfold previous
  cases hrow : s.cursors.find? (accountId, brokerName) with
  | none => exact Int.natCast_nonneg _
  | some row => exact h.cursors row (Table.mem_of_find? hrow)

theorem get_eq_ok (env : PgEnv) {id : UUID} {r : PaperOrder} :
    (SyncStores.postgres c env).get s id = .ok r ↔ s.oms.book c id = some r :=
  PostgresPaperOms.get_eq_ok.trans PostgresPaperOms.book_eq_some.symm

def laws (c : Decimal.Context) (env : PgEnv) (hactor : env.storesText "broker_sync" = true) :
    SyncStores.Laws c (.postgres c env) where
  Consumed s _ done := s.Consumed done
  consumed_empty _ := ⟨rfl, fun _ h => absurd h List.not_mem_nil, rfl⟩
  lastSequence_le := by
    intro s cfg done last h hlast
    have hlast : s.lastSequence env cfg.accountId cfg.brokerName = .ok last := hlast
    unfold lastSequence at hlast
    split at hlast
    · cases hlast
      exact h.previous_le _ _
    · cases hlast
  receipt_of_mem h he := h.receipts.find?_of_mem he
  mem_of_receipt h hext := h.receipts.mem_of_find? hext
  intentId_of_get := by
    intro s id o h
    exact PostgresPaperOms.intentId_of_book ((get_eq_ok env).mp h)
  create_ok := by
    intro s t' o o' h
    obtain ⟨oms, hc, rfl⟩ := liftOms_eq_ok.mp h
    obtain ⟨hp, ⟨row, _, rfl⟩ | ⟨hnone, _, intent, hins, rfl⟩⟩ :=
      PostgresPaperOms.create_eq_ok.mp hc
    · exact .inl ⟨rfl, (get_eq_ok env).mpr (PostgresPaperOms.book_eq_some.mpr row)⟩
    have hid : IntentLog.intentId ⟨intent, [.orderCreated proposed]⟩ = o.intentId :=
      PostgresPaperOms.insertIntent_intentId hins
    have hbook : PostgresPaperOms.book c ⟨s.oms.intents.put ⟨intent, [.orderCreated proposed]⟩,
        s.oms.fills⟩ = Function.update (s.oms.book c) o.intentId (some { intent := intent }) := by
      rw [PostgresPaperOms.book_put _ _ s.oms.fills, hid]
      rfl
    refine .inr ⟨?_, ⟨{ intent := intent }, (get_eq_ok env).mpr ?_, rfl⟩,
      fun _ _ h => ⟨h.receipts, h.cursors, h.fills⟩, ?_⟩
    · intro r hr
      obtain ⟨log, hlog, _⟩ := PostgresPaperOms.order_eq_ok.mp
        (PostgresPaperOms.book_eq_some.mp ((get_eq_ok env).mp hr))
      rw [hnone] at hlog
      cases hlog
    · show PostgresPaperOms.book c ⟨s.oms.intents.put _, s.oms.fills⟩ _ = _
      rw [hbook, Function.update_self]
    · intro k r hk hr
      refine (get_eq_ok env).mpr ?_
      show PostgresPaperOms.book c ⟨s.oms.intents.put _, s.oms.fills⟩ _ = _
      rw [hbook, Function.update_of_ne hk]
      exact (get_eq_ok env).mp hr
  transition_ok := by
    intro s t' id st actor o' h
    obtain ⟨oms, ht, rfl⟩ := liftOms_eq_ok.mp h
    obtain ⟨log, o, row, ho, htr, _, rfl⟩ := PostgresPaperOms.transition_eq_ok.mp ht
    have hbook : PostgresPaperOms.book c ⟨s.oms.intents.put
        (log.append (.orderStatusChanged o.status st actor)), s.oms.fills⟩ = _ :=
      PostgresPaperOms.book_append (.orderStatusChanged o.status st actor) row ho htr
    refine ⟨⟨o, (get_eq_ok env).mpr ?_, htr⟩, (get_eq_ok env).mpr ?_,
      fun _ _ h => ⟨h.receipts, h.cursors, h.fills⟩, ?_⟩
    · exact PostgresPaperOms.book_eq_some.mpr (PostgresPaperOms.order_eq_ok.mpr ⟨log, row, ho⟩)
    · show PostgresPaperOms.book c _ _ = _
      rw [hbook, Function.update_self]
    · intro k r hk hr
      refine (get_eq_ok env).mpr ?_
      show PostgresPaperOms.book c _ _ = _
      rw [hbook, Function.update_of_ne hk]
      exact (get_eq_ok env).mp hr
  transition_total := by
    intro s id st o o' hget ho
    obtain ⟨log, row, horder⟩ := PostgresPaperOms.order_eq_ok.mp
      (PostgresPaperOms.book_eq_some.mp ((get_eq_ok env).mp hget))
    exact ⟨_, liftOms_eq_ok.mpr ⟨_, PostgresPaperOms.transition_eq_ok.mpr
      ⟨log, o, row, horder, ho, hactor, rfl⟩, rfl⟩⟩
  sync_seen := by
    intro s cfg event hrec
    have hseen : s.events.find? event.externalEventId ≠ none := by
      intro hnone
      refine hrec ?_
      show (s.events.find? event.externalEventId).map _ = none
      rw [hnone]
      rfl
    simp only [SyncStores.postgres]
    cases hs : s.syncEvent c env cfg.brokerName event with
    | error e => rfl
    | ok r =>
        obtain ⟨order, _, h⟩ := Except.bind_eq_ok.mp (onSyncError_eq_ok.mp hs)
        rw [applyBrokerEvent, eventGuarded_eq_ok, if_pos hseen] at h
        split at h
        · cases h
        · cases h
          rfl
  sync_next := by
    intro s cfg done event o o' hcon hN
    obtain ⟨hnew, _⟩ := hcon.receipts.fresh hN.newExternal hN.newId hN.newSequence
    simp only [SyncStores.postgres]
    cases hs : s.syncEvent c env cfg.brokerName event with
    | error e => exact .inl ⟨e, rfl⟩
    | ok r =>
    obtain ⟨stored, s'⟩ := r
    obtain ⟨order, _, h⟩ := Except.bind_eq_ok.mp (onSyncError_eq_ok.mp hs)
    obtain ⟨rfl, oms, heff, rfl⟩ := applyBrokerEvent_new hnew h
    obtain ⟨hbook, hfills⟩ := effect_of_applyTo ((get_eq_ok env).mp hN.get) hN.applyTo
      (fun ext hx => fill_fresh hcon.fills (hN.newFill ext hx).2) heff
    refine .inr ⟨_, rfl, ⟨hcon.receipts.put _ rfl hnew, ?_, ?_⟩, (get_eq_ok env).mpr ?_, ?_⟩
    · intro row hmem
      rw [List.length_append]
      rcases Table.mem_put.mp hmem with rfl | ⟨hmem, _⟩
      · exact hN.sequence.le
      · exact (hcon.cursors row hmem).trans (by simp)
    · rw [filterMap_fillId_snoc, ← hcon.fills]
      exact hfills
    · show oms.book c _ = _
      rw [hbook, Function.update_self]
    · intro k r hk hr
      refine (get_eq_ok env).mpr ?_
      show oms.book c _ = _
      rw [hbook, Function.update_of_ne hk]
      exact (get_eq_ok env).mp hr

end PostgresBrokerEvents

/-! ## Both stores -/

namespace BrokerPair

/-- Over either store: once both brokers are fully synced, all their orders agree with
the OMS and no event is suppressed precisely when one of the two has no event. -/
theorem orders_agree_iff (c : Decimal.Context) (env : PgEnv)
    (hactor : env.storesText "broker_sync" = true) (configuration : Bool → BrokerConfiguration)
    (cash : Bool → CashBalance) (actions : List PairAction) :
    (let σ := run (.sqlite c) c configuration cash actions;
      σ.FullySynced (.sqlite c) → (σ.OrdersAgree (.sqlite c) ∧ σ.NoneSuppressed (.sqlite c) ↔
        (σ.brokers false).events = [] ∨ (σ.brokers true).events = [])) ∧
    (let σ := run (.postgres c env) c configuration cash actions;
      σ.FullySynced (.postgres c env) →
        (σ.OrdersAgree (.postgres c env) ∧ σ.NoneSuppressed (.postgres c env) ↔
          (σ.brokers false).events = [] ∨ (σ.brokers true).events = [])) :=
  ⟨agree_iff (SQLiteSync.laws c) configuration cash actions,
    agree_iff (PostgresBrokerEvents.laws c env hactor) configuration cash actions⟩

def twoBrokers (b : Bool) : BrokerConfiguration :=
  ⟨if b then "second" else "first", .sandboxPaper, "account", none⟩

def noCash (_ : Bool) : CashBalance := ⟨"USD", 0⟩

def filledOrder (b : Bool) (id : UUID) (fillId : String) : List PairAction :=
  [.submit b (PaperOrder.limit id .buy 10 100).intent true 0,
    .broker b (.simulateFill fillId id ⟨10, 0⟩ ⟨100, 0⟩ ⟨0, 0⟩) 1]

def syncTwo (b : Bool) : List PairAction := [.fetch b, .next b, .next b]

/-- With an order at the first broker only, the two syncs bring the fill to the OMS. -/
theorem orders_agree_one_broker :
    let actions := filledOrder false 1 "f1" ++ syncTwo false ++ syncTwo true
    (run (.sqlite .default) .default twoBrokers noCash actions).OrdersAgree (.sqlite .default) ∧
    (run (.postgres .default .sample) .default twoBrokers noCash actions).OrdersAgree
      (.postgres .default .sample) := by
  intro actions
  have h := orders_agree_iff .default .sample (by decide +kernel) twoBrokers noCash actions
  constructor
  · refine ((h.1 ?_).mpr (.inr (by decide +kernel))).1
    intro b
    refine ⟨[], ?_, fun _ he => nomatch he⟩
    cases b <;> decide +kernel
  · refine ((h.2 ?_).mpr (.inr (by decide +kernel))).1
    intro b
    refine ⟨[], ?_, fun _ he => nomatch he⟩
    cases b <;> decide +kernel

/-- Both brokers fill an order; the first is synced first, and the two events of the
second are skipped as repetitions: its fill never reaches the OMS. -/
theorem second_broker_suppressed :
    let actions := filledOrder false 1 "f1" ++ filledOrder true 2 "f2" ++ syncTwo false ++
      syncTwo true
    (let σ := run (.sqlite .default) .default twoBrokers noCash actions;
      σ.FullySynced (.sqlite .default) ∧ ¬ σ.OrdersAgree (.sqlite .default)) ∧
    (let σ := run (.postgres .default .sample) .default twoBrokers noCash actions;
      σ.FullySynced (.postgres .default .sample) ∧
        ¬ σ.OrdersAgree (.postgres .default .sample)) := by
  intro actions
  constructor
  · intro σ
    constructor
    · intro b
      cases b
      · exact ⟨[], by decide +kernel, fun _ he => nomatch he⟩
      · exact ⟨(σ.brokers true).events, by decide +kernel, by decide +kernel⟩
    · intro h
      obtain ⟨o', hget, hstatus, _⟩ := h true 2 { PaperOrder.limit 2 .buy 10 100 with
        status := filled, filledQuantity := 10, averageFillPrice := some 100 } (by decide +kernel)
      have homs : (SyncStores.sqlite .default).get σ.stores 2 =
          .ok { PaperOrder.limit 2 .buy 10 100 with status := acknowledged } := by decide +kernel
      cases homs.symm.trans hget
      cases hstatus
  · intro σ
    constructor
    · intro b
      cases b
      · exact ⟨[], by decide +kernel, fun _ he => nomatch he⟩
      · exact ⟨(σ.brokers true).events, by decide +kernel, by decide +kernel⟩
    · intro h
      obtain ⟨o', hget, hstatus, _⟩ := h true 2 { PaperOrder.limit 2 .buy 10 100 with
        status := filled, filledQuantity := 10, averageFillPrice := some 100 } (by decide +kernel)
      have homs : (SyncStores.postgres .default .sample).get σ.stores 2 =
          .ok { PaperOrder.limit 2 .buy 10 100 with status := acknowledged } := by decide +kernel
      cases homs.symm.trans hget
      cases hstatus

end BrokerPair

end TradePlatform
