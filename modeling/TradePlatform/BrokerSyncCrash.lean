/-
# `TradePlatform.BrokerSyncCrash` — crashes and errors between a receipt and its effect

`sync_events` over the SQLite stores, one durable commit a step: the receipt of an
event (with the cursor), then its effect on the OMS, a cancellation in two commits.
A crash or an exception ends the running call anywhere; calls can follow without
bound, over whatever events an adapter returns, and other callers use the OMS at any
time.  A received event is never looked at again, so a `FILL` is lost exactly when
its call ends between the two commits.
-/
import TradePlatform.BrokerSync

namespace TradePlatform

open OrderStatus

/-- Where the running `sync_events` call stands, after its last commit. -/
inductive SyncPhase where
  | idle
  | syncing (todo : List BrokerOrderEvent)
  | received (event : BrokerOrderEvent) (todo : List BrokerOrderEvent)
  | cancelling (intentId : UUID) (todo : List BrokerOrderEvent)

def SyncPhase.applying : SyncPhase → Option BrokerOrderEvent
  | .received event _ => some event
  | _ => none

/-- The durable stores, the running call, and the events that have a receipt: the
`broker_events` rows keep no details, so the list keeps them for the statement. -/
structure SyncState where
  oms : SQLitePaperOms
  store : SQLiteBrokerEventStore
  phase : SyncPhase
  consumed : List BrokerOrderEvent

inductive SyncAction where
  /-- `sync_events()`, with the events the adapter returns. -/
  | call (events : List BrokerOrderEvent)
  /-- The running call, up to its next commit, its return or its exception. -/
  | next
  | crash
  /-- Another caller of the OMS. -/
  | oms (a : OmsCall)

namespace SyncState

variable (c : Decimal.Context) (brokerName : String) (σ : SyncState)

def empty : SyncState := ⟨.empty, .empty, .idle, []⟩

def apply (event : BrokerOrderEvent) (todo : List BrokerOrderEvent) : SyncState :=
  if event.eventType = "FILL" then
    match σ.oms.syncFill c event with
    | .ok (_, oms) => { σ with oms := oms, phase := .syncing todo }
    | .error _ => { σ with phase := .idle }
  else if event.eventType = "ORDER_CANCELLED" then
    match σ.oms.get event.clientIntentId with
    | .error _ => { σ with phase := .idle }
    | .ok order =>
        if order.Working then
          match σ.oms.transition event.clientIntentId cancelPending "broker_sync" with
          | .ok (_, oms) => { σ with oms := oms, phase := .cancelling event.clientIntentId todo }
          | .error _ => { σ with phase := .idle }
        else { σ with phase := .syncing todo }
  else if event.eventType = "ORDER_REPLACED" then
    match σ.oms.syncReplace event with
    | .ok (_, oms) => { σ with oms := oms, phase := .syncing todo }
    | .error _ => { σ with phase := .idle }
  else { σ with phase := .syncing todo }

def next : SyncState :=
  match σ.phase with
  | .idle => σ
  | .syncing [] => { σ with phase := .idle }
  | .syncing (event :: todo) =>
      match σ.store.append brokerName event with
      | .error _ => { σ with phase := .idle }
      | .ok (false, _) => { σ with phase := .syncing todo }
      | .ok (true, store) => ⟨σ.oms, store, .received event todo, σ.consumed ++ [event]⟩
  | .received event todo => σ.apply c event todo
  | .cancelling intentId todo =>
      match σ.oms.transition intentId cancelled "broker_sync" with
      | .ok (_, oms) => { σ with oms := oms, phase := .syncing todo }
      | .error _ => { σ with phase := .idle }

def step : SyncAction → SyncState
  | .call events =>
      match σ.phase with
      | .idle => { σ with phase := .syncing events }
      | _ => σ
  | .next => σ.next c brokerName
  | .crash => { σ with phase := .idle }
  | .oms a => { σ with oms := σ.oms.step c a }

end SyncState

/-! ## What is recorded, and what can be -/

namespace SQLitePaperOms

variable (c : Decimal.Context) (s : SQLitePaperOms)

/-- The fill of a `FILL` event is among the fills of the OMS. -/
def Recorded (event : BrokerOrderEvent) : Prop :=
  ∃ ext quantity price, event.details.fillArguments = .ok (ext, quantity, price) ∧
    ∃ fill ∈ s.fills.rows, fill.externalFillId = ext ∧
      fill.intentId = event.clientIntentId ∧ fill.quantity = quantity ∧ fill.price = price

/-- The OMS takes a `FILL` event: its details are complete, its numbers positive, its
time aware, its intent known; and its fill id is new and the order takes the fill, or
the fill is the one recorded under that id. -/
def Admits (event : BrokerOrderEvent) : Prop :=
  ∃ ext quantity price, event.details.fillArguments = .ok (ext, quantity, price) ∧
    (blank ext = false ∧ 0 < quantity.value ∧ 0 < price.value ∧ event.occurredAt.isAware = true) ∧
    ∃ order, s.orders.find? event.clientIntentId = some order ∧
      ((s.fills.find? ext = none ∧
          ∃ updated, order.fill c quantity.value price.value = .ok updated) ∨
       (∃ fill, s.fills.find? ext = some fill ∧
        (fill.intentId, fill.quantity, fill.price) = (event.clientIntentId, quantity, price)))

variable {c s} {event : BrokerOrderEvent}

theorem admits_iff : s.Admits c event ↔ ∃ r, s.syncFill c event = .ok r := by
  constructor
  · rintro ⟨ext, q, p, hargs, hv, o, row, ⟨fresh, u, hu⟩ | ⟨f, hf, heq⟩⟩
    · exact ⟨(u, _), syncFill_eq_ok.mpr ⟨ext, q, p, hargs,
        ingestFill_eq_ok.mpr ⟨hv, .inr ⟨fresh, o, row, hu, rfl⟩⟩⟩⟩
    · exact ⟨(o, s), syncFill_eq_ok.mpr ⟨ext, q, p, hargs,
        ingestFill_eq_ok.mpr ⟨hv, .inl ⟨f, hf, heq, row, rfl⟩⟩⟩⟩
  · rintro ⟨⟨o, s'⟩, hr⟩
    obtain ⟨ext, q, p, hargs, hin⟩ := syncFill_eq_ok.mp hr
    obtain ⟨hv, ⟨f, hf, heq, row, _⟩ | ⟨fresh, o', row, hu, _⟩⟩ := ingestFill_eq_ok.mp hin
    · exact ⟨ext, q, p, hargs, hv, o, row, .inr ⟨f, hf, heq⟩⟩
    · exact ⟨ext, q, p, hargs, hv, o', row, .inl ⟨fresh, o, hu⟩⟩

theorem recorded_of_syncFill {o : PaperOrder} {s' : SQLitePaperOms}
    (h : s.syncFill c event = .ok (o, s')) : s'.Recorded event := by
  obtain ⟨ext, q, p, hargs, hin⟩ := syncFill_eq_ok.mp h
  refine ⟨ext, q, p, hargs, ?_⟩
  obtain ⟨_, ⟨f, hf, heq, _, rfl⟩ | ⟨_, _, _, _, rfl⟩⟩ := ingestFill_eq_ok.mp hin
  · simp only [Prod.mk.injEq] at heq
    exact ⟨f, Table.mem_of_find? hf, Table.key_of_find? hf, heq.1, heq.2.1, heq.2.2⟩
  · exact ⟨_, Table.mem_put.mpr (.inl rfl), rfl, rfl, rfl, rfl⟩

theorem fills_step_mono {a : OmsCall} {fill : PaperFill} (h : fill ∈ s.fills.rows) :
    fill ∈ (s.step c a).fills.rows := by
  have hs := s.step_spec c a
  revert hs
  generalize s.step c a = s'
  intro hs
  cases hs with
  | fill fresh row ok =>
      refine Table.mem_put.mpr (.inr ⟨h, fun e => ?_⟩)
      exact Table.find?_eq_none.mp fresh fill h e
  | _ => exact h

theorem Recorded.mono {s' : SQLitePaperOms} (h : s.Recorded event)
    (hs : ∀ fill ∈ s.fills.rows, fill ∈ s'.fills.rows) : s'.Recorded event := by
  obtain ⟨ext, q, p, hargs, f, hf, hrow⟩ := h
  exact ⟨ext, q, p, hargs, f, hs f hf, hrow⟩

theorem fills_syncFill_mono {o : PaperOrder} {s' : SQLitePaperOms}
    (h : s.syncFill c event = .ok (o, s')) {fill : PaperFill} (hf : fill ∈ s.fills.rows) :
    fill ∈ s'.fills.rows := by
  obtain ⟨ext, q, p, _, hin⟩ := syncFill_eq_ok.mp h
  have hstep : s.step c (.ingestFill ext event.clientIntentId q p event.occurredAt) = s' := by
    simp [step, call, commit, hin]
  exact hstep ▸ fills_step_mono hf

theorem fills_transition {id : UUID} {st : OrderStatus} {actor : String} {o : PaperOrder}
    {s' : SQLitePaperOms} (h : s.transition id st actor = .ok (o, s')) : s'.fills = s.fills := by
  obtain ⟨_, _, _, rfl⟩ := transition_eq_ok.mp h
  rfl

theorem fills_syncReplace {o : PaperOrder} {s' : SQLitePaperOms}
    (h : s.syncReplace event = .ok (o, s')) : s'.fills = s.fills := by
  obtain ⟨_, _, _, h⟩ := syncReplace_eq_ok.mp h
  obtain ⟨_, _, _, _, rfl⟩ := amend_eq_ok.mp h
  rfl

end SQLitePaperOms

/-! ## No fill is lost -/

namespace SyncState

variable {c : Decimal.Context} {brokerName : String} {σ σ' : SyncState}

theorem applying_apply (event : BrokerOrderEvent) (todo : List BrokerOrderEvent) :
    (σ.apply c event todo).phase.applying = none := by
  unfold apply
  split
  · split <;> rfl
  · split
    · split
      · rfl
      · split
        · split <;> rfl
        · rfl
    · split
      · split <;> rfl
      · rfl

/-- Every `FILL` event with a receipt is recorded in the OMS, or is being applied by
the running call. -/
structure NoFillLost (brokerName : String) (σ : SyncState) : Prop where
  receipts : σ.store.events.rows = σ.consumed.map (·.stored brokerName)
  applied : ∀ event ∈ σ.consumed, event.eventType = "FILL" →
    σ.phase.applying = some event ∨ σ.oms.Recorded event

/-- The condition on a step: a `FILL` that has its receipt is applied before the call
can crash, and the OMS takes it then (or has it recorded already). -/
def AppliesFills (c : Decimal.Context) (σ : SyncState) : SyncAction → Prop
  | .next => ∀ event, σ.phase.applying = some event → event.eventType = "FILL" →
      σ.oms.Admits c event ∨ σ.oms.Recorded event
  | .crash => ∀ event, σ.phase.applying = some event → event.eventType = "FILL" →
      σ.oms.Recorded event
  | _ => True

def ApplyingConsumed (σ : SyncState) : Prop :=
  ∀ event, σ.phase.applying = some event → event ∈ σ.consumed

/-- A step that appends no receipt and keeps the recorded fills: only the event that
was being applied, and no longer is, must be accounted for. -/
theorem NoFillLost.of_frame (h : σ.NoFillLost brokerName)
    (hstore : σ'.store = σ.store) (hconsumed : σ'.consumed = σ.consumed)
    (hfills : ∀ fill ∈ σ.oms.fills.rows, fill ∈ σ'.oms.fills.rows)
    (happlied : ∀ event, σ.phase.applying = some event → event.eventType = "FILL" →
      σ'.phase.applying = some event ∨ σ'.oms.Recorded event) : σ'.NoFillLost brokerName where
  receipts := by
    rw [hstore, hconsumed]
    exact h.receipts
  applied := by
    intro event he ht
    rw [hconsumed] at he
    rcases h.applied event he ht with h' | h'
    · exact happlied event h' ht
    · exact .inr (h'.mono hfills)

theorem leave_iff (h : σ.NoFillLost brokerName) (hin : σ.ApplyingConsumed)
    (hstore : σ'.store = σ.store) (hconsumed : σ'.consumed = σ.consumed) (homs : σ'.oms = σ.oms)
    (hphase : σ'.phase.applying = none) :
    σ'.NoFillLost brokerName ↔ ∀ event, σ.phase.applying = some event →
      event.eventType = "FILL" → σ.oms.Recorded event := by
  constructor
  · intro h' event he ht
    rcases h'.applied event (hconsumed ▸ hin event he) ht with h'' | h''
    · rw [hphase] at h''
      cases h''
    · exact homs ▸ h''
  · intro hrec
    exact h.of_frame hstore hconsumed (by rw [homs]; exact fun _ hf => hf)
      fun event he ht => .inr (homs ▸ hrec event he ht)

theorem apply_noFillLost_iff (h : σ.NoFillLost brokerName) (hin : σ.ApplyingConsumed)
    {event : BrokerOrderEvent} {todo : List BrokerOrderEvent}
    (hphase : σ.phase = .received event todo) :
    (σ.apply c event todo).NoFillLost brokerName ↔
      (event.eventType = "FILL" → σ.oms.Admits c event ∨ σ.oms.Recorded event) := by
  have happlying : ∀ e, σ.phase.applying = some e → e = event := by
    intro e he
    rw [hphase] at he
    exact (Option.some.inj he).symm
  have hself : σ.phase.applying = some event := by rw [hphase]; rfl
  unfold apply
  by_cases hfill : event.eventType = "FILL"
  · rw [if_pos hfill]
    cases hsync : σ.oms.syncFill c event with
    | ok r =>
        refine iff_of_true ?_ fun _ => .inl (SQLitePaperOms.admits_iff.mpr ⟨r, hsync⟩)
        refine h.of_frame rfl rfl (fun f hf => SQLitePaperOms.fills_syncFill_mono hsync hf) ?_
        intro e he _
        rw [happlying e he]
        exact .inr (SQLitePaperOms.recorded_of_syncFill hsync)
    | error err =>
        have hno : ¬ σ.oms.Admits c event := by
          intro hadm
          obtain ⟨r, hr⟩ := SQLitePaperOms.admits_iff.mp hadm
          rw [hsync] at hr
          cases hr
        refine Iff.trans (leave_iff h hin rfl rfl rfl rfl) ?_
        constructor
        · intro hrec _
          exact .inr (hrec event hself hfill)
        · intro hcond e he _
          rw [happlying e he]
          exact (hcond hfill).resolve_left hno
  · -- an event of another type leaves the fills as they are
    refine iff_of_true ?_ fun e => absurd e hfill
    have hnone : ∀ {ν : SyncState}, ν.store = σ.store → ν.consumed = σ.consumed →
        ν.oms.fills = σ.oms.fills → ν.NoFillLost brokerName := by
      intro ν hs hc hf
      refine h.of_frame hs hc (by rw [hf]; exact fun _ h => h) ?_
      intro e he ht
      exact absurd (happlying e he ▸ ht) hfill
    rw [if_neg hfill]
    split
    · split
      · exact hnone rfl rfl rfl
      · split
        · split
          · rename_i htr
            exact hnone rfl rfl (SQLitePaperOms.fills_transition htr)
          · exact hnone rfl rfl rfl
        · exact hnone rfl rfl rfl
    · split
      · split
        · rename_i hrep
          exact hnone rfl rfl (SQLitePaperOms.fills_syncReplace hrep)
        · exact hnone rfl rfl rfl
      · exact hnone rfl rfl rfl

theorem append_noFillLost (h : σ.NoFillLost brokerName) {event : BrokerOrderEvent}
    {todo : List BrokerOrderEvent} {store : SQLiteBrokerEventStore}
    (hphase : σ.phase = .syncing (event :: todo))
    (happend : σ.store.append brokerName event = .ok (true, store)) :
    NoFillLost brokerName ⟨σ.oms, store, .received event todo, σ.consumed ++ [event]⟩ := by
  have hrows : store.events.rows = σ.store.events.rows ++ [event.stored brokerName] := by
    unfold SQLiteBrokerEventStore.append at happend
    split at happend
    · cases happend
    split at happend
    · cases happend
    split at happend
    · cases happend
    rename_i hdup
    have hnew : σ.store.events.find? (event.stored brokerName).externalEventId = none := by
      by_contra hne
      exact hdup (.inl hne)
    have hput := Table.rows_put_of_none hnew
    split at happend
    · cases happend
      exact hput
    · cases happend
      exact hput
  constructor
  · show store.events.rows = _
    rw [hrows, h.receipts, List.map_append]
    rfl
  · intro e he ht
    rcases List.mem_append.mp he with he | he
    · rcases h.applied e he ht with h' | h'
      · rw [hphase] at h'
        cases h'
      · exact .inr h'
    · rw [List.mem_singleton.mp he]
      exact .inl rfl

/-- A step of the running call keeps every fill precisely when it applies the one it
has received. -/
theorem next_noFillLost_iff (h : σ.NoFillLost brokerName) (hin : σ.ApplyingConsumed) :
    (σ.next c brokerName).NoFillLost brokerName ↔ AppliesFills c σ .next := by
  have hnone : σ.phase.applying = none → ∀ {ν : SyncState}, ν.store = σ.store →
      ν.consumed = σ.consumed → ν.oms.fills = σ.oms.fills → ν.NoFillLost brokerName := by
    intro hidle ν hs hc hf
    refine h.of_frame hs hc (by rw [hf]; exact fun _ h => h) ?_
    intro e he
    rw [hidle] at he
    cases he
  have htrue : σ.phase.applying = none → AppliesFills c σ .next := by
    intro hidle e he
    rw [hidle] at he
    cases he
  cases hphase : σ.phase with
  | idle =>
      rw [hphase] at hnone htrue
      refine iff_of_true ?_ (htrue rfl)
      simp only [next, hphase]
      exact h
  | syncing todo =>
      rw [hphase] at hnone htrue
      refine iff_of_true ?_ (htrue rfl)
      cases todo with
      | nil =>
          simp only [next, hphase]
          exact hnone rfl rfl rfl rfl
      | cons event todo =>
          simp only [next, hphase]
          split
          · exact hnone rfl rfl rfl rfl
          · exact hnone rfl rfl rfl rfl
          · rename_i happend
            exact append_noFillLost h hphase happend
  | received event todo =>
      simp only [next, AppliesFills, hphase]
      rw [apply_noFillLost_iff h hin hphase]
      constructor
      · intro hcond e he
        cases he
        exact hcond
      · intro hcond
        exact hcond event rfl
  | cancelling intentId todo =>
      rw [hphase] at hnone htrue
      refine iff_of_true ?_ (htrue rfl)
      simp only [next, hphase]
      split
      · rename_i htr
        exact hnone rfl rfl rfl (SQLitePaperOms.fills_transition htr)
      · exact hnone rfl rfl rfl rfl

theorem step_noFillLost_iff (h : σ.NoFillLost brokerName) (hin : σ.ApplyingConsumed)
    (a : SyncAction) : (σ.step c brokerName a).NoFillLost brokerName ↔ AppliesFills c σ a := by
  cases a with
  | call events =>
      refine iff_of_true ?_ trivial
      unfold step
      cases hphase : σ.phase with
      | idle =>
          refine h.of_frame rfl rfl (fun _ h => h) ?_
          intro e he
          rw [hphase] at he
          cases he
      | _ => exact h
  | next => exact next_noFillLost_iff h hin
  | crash => exact leave_iff h hin rfl rfl rfl rfl
  | oms a =>
      refine iff_of_true ?_ trivial
      exact h.of_frame rfl rfl (fun _ hf => SQLitePaperOms.fills_step_mono hf)
        fun e he _ => .inl he

theorem step_applyingConsumed (hin : σ.ApplyingConsumed) (a : SyncAction) :
    (σ.step c brokerName a).ApplyingConsumed := by
  have hnone : ∀ {ν : SyncState}, ν.phase.applying = none → ν.ApplyingConsumed := by
    intro ν hidle e he
    rw [hidle] at he
    cases he
  cases a with
  | call events =>
      simp only [step]
      split
      · exact hnone rfl
      · exact hin
  | next =>
      show (σ.next c brokerName).ApplyingConsumed
      unfold next
      split
      · exact hin
      · exact hnone rfl
      · split
        · exact hnone rfl
        · exact hnone rfl
        · intro e he
          cases he
          exact List.mem_append_right _ List.mem_cons_self
      · exact hnone (applying_apply ..)
      · split
        · exact hnone rfl
        · exact hnone rfl
  | crash => exact hnone rfl
  | oms a => exact hin

/-- The claim, with the condition under which the two commits are not torn apart: over
every run, every event that has a receipt has its fill recorded, or is being applied,
precisely when no step leaves a received `FILL` behind. -/
theorem noFillLost_iff (actions : List SyncAction) :
    Run.Always (step c brokerName) (NoFillLost brokerName) empty actions ↔
      Run.Each (step c brokerName) (AppliesFills c) empty actions := by
  have hempty : NoFillLost brokerName empty := ⟨rfl, fun _ he => absurd he List.not_mem_nil⟩
  have hrule : Run.Always (step c brokerName) (NoFillLost brokerName) empty actions ↔
      NoFillLost brokerName empty ∧ Run.Each (step c brokerName) (AppliesFills c) empty actions :=
    Run.always_iff_each (J := ApplyingConsumed)
      (fun _ a hin _ _ => step_applyingConsumed hin a)
      (fun _ a hin h => step_noFillLost_iff h hin a) (fun _ he => nomatch he)
  rw [hrule]
  exact and_iff_right hempty

def fillEvent : BrokerOrderEvent where
  sequence := 2
  eventId := 2
  clientIntentId := 1
  status := partiallyFilled
  eventType := "FILL"
  occurredAt := .aware 0
  externalEventId := "sandbox:2"
  details := {
    externalFillId := some "f1"
    quantity := some (some ⟨4, 0⟩)
    price := some (some ⟨99, 0⟩)
    fee := some (some ⟨0, 0⟩) }

/-- An acknowledged order of 10; its fill event gets its receipt, and the process dies
before the OMS has it. -/
def crashedSync : List SyncAction :=
  ((.create (.limit 1 .buy 10 100) :: OmsCall.progressToAcknowledged 1).map SyncAction.oms) ++
    [.call [fillEvent], .next, .crash, .call [fillEvent], .next]

/-- The call after the crash skips the event. -/
theorem crash_loses_fill :
    ¬ Run.Always (step .default "sandbox") (NoFillLost "sandbox") empty crashedSync := by
  intro h
  have hrows : (Run.exec (step .default "sandbox") empty crashedSync).oms.fills.rows = [] := by
    decide +kernel
  rcases h.exec.applied fillEvent (by decide +kernel) rfl with hp | ⟨_, _, _, _, fill, hf, _⟩
  · exact absurd hp (by decide +kernel)
  · rw [hrows] at hf
    cases hf

end SyncState

end TradePlatform
