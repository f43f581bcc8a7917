/-
# `TradePlatform.FillRedelivery` — a fill that is delivered again

Delivery is at least once, so a store that has a fill must take it again and do nothing.
The SQLite store compares the texts of quantity and price, one numeral with another; the
PostgreSQL store compares the numbers with its row, which a `NUMERIC(30,12)` column may
have rounded.  Each invariant below says what a recorded fill still has in every state
reached, which is what its next delivery is compared with.
-/
import TradePlatform.BrokerDeliveries

namespace TradePlatform

open OrderStatus

/-! ## SQLite -/

namespace SQLitePaperOms

variable {c : Decimal.Context} {s : SQLitePaperOms}

def Redelivers (c : Decimal.Context) (s : SQLitePaperOms) (externalFillId : String)
    (intentId : UUID) (quantity price : Decimal.Numeral) (occurredAt : DateTime) : Prop :=
  ∃ order, s.get intentId = .ok order ∧
    s.ingestFill c externalFillId intentId quantity price occurredAt = .ok (order, s)

def FillsSound (s : SQLitePaperOms) : Prop :=
  ∀ f ∈ s.fills.rows, 0 < f.quantity.value ∧ 0 < f.price.value ∧
    ∃ o, s.orders.find? f.intentId = some o

theorem exists_find?_put {t : Table PaperOrder.intentId} {id : UUID} (o' : PaperOrder)
    (h : ∃ o, t.find? id = some o) : ∃ o, (t.put o').find? id = some o := by
  by_cases hid : o'.intentId = id
  · exact ⟨o', hid ▸ Table.find?_put_self t o'⟩
  · rw [Table.find?_put_of_ne hid]
    exact h

theorem FillsSound.put (h : s.FillsSound) (o : PaperOrder) (events : List (UUID × OmsEvent)) :
    FillsSound ⟨s.orders.put o, events, s.fills⟩ := by
  intro f hf
  obtain ⟨hq, hp, ho⟩ := h f hf
  exact ⟨hq, hp, exists_find?_put o ho⟩

theorem FillsSound.step (h : s.FillsSound) (a : OmsCall) : (s.step c a).FillsSound := by
  have hs := step_spec c s a
  revert hs
  generalize s.step c a = s'
  intro hs
  cases hs with
  | none => exact h
  | create => exact h.put _ _
  | transition => exact h.put _ _
  | @fill extId id q p at_ o o' events fresh row ok =>
      intro f hf
      rcases Table.mem_put.mp hf with rfl | ⟨hf, _⟩
      · obtain ⟨⟨_, hq, hp, _⟩, _⟩ := PaperOrder.fill_eq_ok.mp ok
        exact ⟨hq, hp, exists_find?_put o' ⟨o, row⟩⟩
      · exact h.put o' s.events f hf
  | @cancel id actor o o₁ o₂ events row pending done =>
      exact (h.put o₁ events).put o₂ events
  | amend => exact h.put _ _

theorem FillsSound.redelivers_iff (h : s.FillsSound) {f : PaperFill} (hf : f ∈ s.fills.rows)
    {q p : Decimal.Numeral} (hq : q.value = f.quantity.value) (hp : p.value = f.price.value)
    (at_ : DateTime) :
    s.Redelivers c f.externalFillId f.intentId q p at_ ↔
      blank f.externalFillId = false ∧ at_.isAware = true ∧ q = f.quantity ∧ p = f.price := by
  obtain ⟨hqpos, hppos, o, row⟩ := h f hf
  have hfind : s.fills.find? f.externalFillId = some f := Table.find?_key hf
  constructor
  · rintro ⟨o', _, hin⟩
    obtain ⟨⟨hb, _, _, ha⟩, ⟨g, hg, he, _⟩ | ⟨hnone, _⟩⟩ := ingestFill_eq_ok.mp hin
    · cases hfind.symm.trans hg
      simp only [Prod.mk.injEq, true_and] at he
      exact ⟨hb, ha, he.1.symm, he.2.symm⟩
    · rw [hfind] at hnone
      cases hnone
  · rintro ⟨hb, ha, rfl, rfl⟩
    exact ⟨o, get_eq_ok.mpr row,
      ingestFill_eq_ok.mpr ⟨⟨hb, hqpos, hppos, ha⟩, .inl ⟨f, hfind, rfl, row, rfl⟩⟩⟩

end SQLitePaperOms

/-! ## PostgreSQL -/

namespace PostgresPaperOms

variable {c : Decimal.Context} {env : PgEnv} {s s' : PostgresPaperOms} {log : IntentLog}
  {o : PaperOrder} {f : PgFill} {q p : Decimal}

def Redelivers (c : Decimal.Context) (env : PgEnv) (s : PostgresPaperOms)
    (externalFillId : String) (intentId : UUID) (quantity price : Decimal)
    (occurredAt : DateTime) : Prop :=
  ∃ order, s.get c intentId = .ok order ∧
    s.ingestFill c env externalFillId intentId quantity price occurredAt = .ok (order, s)

def Delivered (s : PostgresPaperOms) (f : PgFill) (quantity price : Decimal) : Prop :=
  ∃ log status, s.intents.find? f.intentId = some log ∧
    .fillIngested f.externalFillId quantity price status ∈ log.events

def HasRow (env : PgEnv) (s : PostgresPaperOms) (intentId : UUID) (externalFillId : String)
    (quantity price : Decimal) : Prop :=
  env.storesText externalFillId = true ∧ 0 < quantity ∧ 0 < price ∧
    ∃ f, s.fills.find? externalFillId = some f ∧ f.intentId = intentId ∧
      Decimal.numeric 30 12 quantity = some f.quantity ∧
      Decimal.numeric 30 12 price = some f.price

structure FillsSound (c : Decimal.Context) (env : PgEnv) (s : PostgresPaperOms) : Prop where
  readable : ∀ log ∈ s.intents.rows, ∃ o, log.order c = .ok o
  rows : ∀ log ∈ s.intents.rows, ∀ extId q p st, .fillIngested extId q p st ∈ log.events →
    s.HasRow env log.intentId extId q p
  delivered : ∀ f ∈ s.fills.rows, ∃ q p, s.Delivered f q p

theorem fillsSound_empty : FillsSound c env .empty where
  readable _ h := absurd h List.not_mem_nil
  rows _ h := absurd h List.not_mem_nil
  delivered _ h := absurd h List.not_mem_nil

theorem Delivered.put (h : s.Delivered f q p) (log : IntentLog)
    (fills : Table PgFill.externalFillId)
    (kept : ∀ old, s.intents.find? log.intentId = some old → old.events ⊆ log.events) :
    Delivered ⟨s.intents.put log, fills⟩ f q p := by
  obtain ⟨old, st, row, hev⟩ := h
  by_cases hid : log.intentId = f.intentId
  · exact ⟨log, st, hid ▸ Table.find?_put_self s.intents log, kept old (hid ▸ row) hev⟩
  · exact ⟨old, st, (Table.find?_put_of_ne hid).trans row, hev⟩

/-- A write of one log, with the fills as they are: the log replays, and its fill events
have their rows. -/
theorem FillsSound.put (h : s.FillsSound c env) (order : log.order c = .ok o)
    (kept : ∀ old, s.intents.find? log.intentId = some old → old.events ⊆ log.events)
    (hrows : ∀ extId q p st, .fillIngested extId q p st ∈ log.events →
      s.HasRow env log.intentId extId q p) :
    FillsSound c env ⟨s.intents.put log, s.fills⟩ where
  readable r hr := by
    rcases Table.mem_put.mp hr with rfl | ⟨hr, _⟩
    · exact ⟨o, order⟩
    · exact h.readable r hr
  rows r hr := by
    rcases Table.mem_put.mp hr with rfl | ⟨hr, _⟩
    · exact hrows
    · exact h.rows r hr
  delivered f hf := by
    obtain ⟨q, p, hd⟩ := h.delivered f hf
    exact ⟨q, p, hd.put log s.fills kept⟩

theorem FillsSound.append {id : UUID} {o' : PaperOrder} (event : OmsEvent)
    (h : s.FillsSound c env) (row : s.intents.find? id = some log) (order : log.order c = .ok o)
    (ok : applyEvent c o event = .ok o')
    (quiet : ∀ extId q p st, event ≠ .fillIngested extId q p st) :
    FillsSound c env ⟨s.intents.put (log.append event), s.fills⟩ := by
  refine h.put (order_append event order ok) ?_ ?_
  · intro old hold
    have hlog : s.intents.find? log.intentId = some log := Table.find?_key (Table.mem_of_find? row)
    cases hlog.symm.trans hold
    exact List.subset_append_left _ _
  · intro extId q p st hev
    rcases List.mem_append.mp hev with hev | hev
    · exact h.rows log (Table.mem_of_find? row) extId q p st hev
    · exact absurd (List.mem_singleton.mp hev).symm (quiet extId q p st)

theorem FillsSound.move (h : s.FillsSound c env) (hm : Move c env s s') :
    s'.FillsSound c env := by
  cases hm with
  | @create intent row fresh inserted =>
      have hk : IntentLog.intentId ⟨row, [.orderCreated proposed]⟩ = intent.intentId :=
        insertIntent_intentId inserted
      refine h.put (o := { intent := row }) rfl ?_ ?_
      · intro old hold
        rw [hk, fresh] at hold
        cases hold
      · intro extId q p st hev
        cases List.mem_singleton.mp hev
  | @transition id log o o' st actor row order ok =>
      exact h.append (.orderStatusChanged o.status st actor) row order ok (by simp)
  | @amend id log o q p actor row order may =>
      exact h.append (.orderAmended o.intent.quantity q o.intent.limitPrice p actor) row order rfl
        (by simp)
  | @fill id log o o' extId q p q' p' at_ stores fresh row order ok quantity price =>
      have hlog : s.intents.find? log.intentId = some log :=
        Table.find?_key (Table.mem_of_find? row)
      have hid : log.intentId = id := Table.key_of_find? row
      obtain ⟨⟨_, hq, hp, _⟩, _⟩ := PaperOrder.fill_eq_ok.mp ok
      let g : PgFill := ⟨extId, id, env.timestamptz at_, q', p'⟩
      let log' := log.append (.fillIngested extId q p o'.status)
      have hold : ∀ {k e q p}, s.HasRow env k e q p →
          HasRow env ⟨s.intents.put log', s.fills.put g⟩ k e q p := by
        rintro k e q p ⟨ht, hq, hp, f, hf, hrow⟩
        refine ⟨ht, hq, hp, f, ?_, hrow⟩
        have hne : g.externalFillId ≠ e := by
          rintro rfl
          rw [fresh] at hf
          cases hf
        exact (Table.find?_put_of_ne hne).trans hf
      have hnew : HasRow env ⟨s.intents.put log', s.fills.put g⟩ log'.intentId extId q p :=
        ⟨stores, hq, hp, g, Table.find?_put_self s.fills g, hid.symm, quantity, price⟩
      have hkept : ∀ old, s.intents.find? log'.intentId = some old → old.events ⊆ log'.events := by
        intro old hold
        cases hlog.symm.trans hold
        exact List.subset_append_left _ _
      refine ⟨?_, ?_, ?_⟩
      · intro r hr
        rcases Table.mem_put.mp hr with rfl | ⟨hr, _⟩
        · exact ⟨o', order_append (.fillIngested extId q p o'.status) order ok⟩
        · exact h.readable r hr
      · intro r hr e q₁ p₁ st hev
        rcases Table.mem_put.mp hr with rfl | ⟨hr, _⟩
        · rcases List.mem_append.mp hev with hev | hev
          · exact hold (h.rows log (Table.mem_of_find? row) e q₁ p₁ st hev)
          · cases List.mem_singleton.mp hev
            exact hnew
        · exact hold (h.rows r hr e q₁ p₁ st hev)
      · intro f hf
        rcases Table.mem_put.mp hf with rfl | ⟨hf, _⟩
        · refine ⟨q, p, log', o'.status, ?_, List.mem_append_right _ (List.mem_singleton_self _)⟩
          show (s.intents.put log').find? id = _
          rw [← hid]
          exact Table.find?_put_self s.intents log'
        · obtain ⟨q₁, p₁, hd⟩ := h.delivered f hf
          exact ⟨q₁, p₁, hd.put log' (s.fills.put g) hkept⟩

theorem FillsSound.moves (h : s.FillsSound c env) (hm : Moves c env s s') :
    s'.FillsSound c env := by
  induction hm with
  | refl => exact h
  | tail _ hstep ih => exact ih.move hstep

theorem FillsSound.redelivers_iff (h : s.FillsSound c env) (hf : f ∈ s.fills.rows)
    (hd : s.Delivered f q p) (at_ : DateTime) :
    s.Redelivers c env f.externalFillId f.intentId q p at_ ↔
      blank f.externalFillId = false ∧ at_.isAware = true ∧
        Decimal.Storable 30 12 q ∧ Decimal.Storable 30 12 p := by
  have hfind : s.fills.find? f.externalFillId = some f := Table.find?_key hf
  obtain ⟨log, st, row, hev⟩ := hd
  obtain ⟨o, ho⟩ := h.readable log (Table.mem_of_find? row)
  have horder : s.order c f.intentId = .ok o := order_eq_ok.mpr ⟨log, row, ho⟩
  obtain ⟨ht, hq, hp, g, hg, _, hnq, hnp⟩ :=
    h.rows log (Table.mem_of_find? row) f.externalFillId q p st hev
  cases hfind.symm.trans hg
  have hsq : f.quantity = q ↔ Decimal.Storable 30 12 q := by
    rw [Decimal.Storable, hnq, Option.some.injEq]
  have hsp : f.price = p ↔ Decimal.Storable 30 12 p := by
    rw [Decimal.Storable, hnp, Option.some.injEq]
  rw [← hsq, ← hsp]
  constructor
  · rintro ⟨o', _, hin⟩
    obtain ⟨⟨hb, _, _, ha⟩, hin⟩ := ingestFill_eq_ok.mp hin
    exact ⟨hb, ha, ((ingestFillIn_known_iff hfind).mp hin).2.1.2⟩
  · rintro ⟨hb, ha, heq⟩
    exact ⟨o, get_eq_ok.mpr horder, ingestFill_eq_ok.mpr ⟨⟨hb, hq, hp, ha⟩,
      (ingestFillIn_known_iff hfind).mpr ⟨ht, ⟨rfl, heq⟩, horder, rfl⟩⟩⟩

end PostgresPaperOms

/-! ## Both stores -/

theorem SQLiteSync.run_fillsSound (c : Decimal.Context) (actions : List (FedAction String)) :
    (Run.exec (FedOms.sqlite c).step (FedOms.sqlite c).empty actions).oms.FillsSound := by
  refine Run.exec_inv (J := fun s : SQLiteSync => s.oms.FillsSound) ?_ actions
    fun _ h => absurd h List.not_mem_nil
  intro s a h
  cases a with
  | call a => exact h.step a
  | deliver brokerName event =>
      show (s.syncEvent c brokerName event).2.oms.FillsSound
      rcases s.syncEvent_step c brokerName event with he | ⟨a, he⟩
      · exact he ▸ h
      · exact he ▸ h.step a

theorem PostgresBrokerEvents.run_fillsSound (c : Decimal.Context) (env : PgEnv)
    (actions : List (FedAction PostgresBrokerEvents.Delivery)) :
    (Run.exec (FedOms.postgres c env).step (FedOms.postgres c env).empty actions).oms.FillsSound
      c env := by
  refine Run.exec_inv (J := fun s : PostgresBrokerEvents => s.oms.FillsSound c env) ?_ actions
    PostgresPaperOms.fillsSound_empty
  intro s a h
  cases a with
  | call a => exact h.moves (s.oms.step_moves c env a)
  | deliver d event => exact h.moves (s.delivered_moves c env d event)

/-- In every reachable state of either store, for every recorded fill: a further delivery
with equal numbers returns the current order and changes nothing, precisely when it has an
external id that is not blank, an aware timestamp, and numbers the store compares as equal:
in SQLite the same spelling, in PostgreSQL numbers the columns hold without rounding. -/
theorem recorded_fills_redeliver_iff (c : Decimal.Context) (env : PgEnv)
    (actions : List (FedAction String))
    (pgActions : List (FedAction PostgresBrokerEvents.Delivery)) :
    (let s := (Run.exec (FedOms.sqlite c).step (FedOms.sqlite c).empty actions).oms
      ∀ f ∈ s.fills.rows, ∀ (q p : Decimal.Numeral) (at_ : DateTime),
        q.value = f.quantity.value → p.value = f.price.value →
        (s.Redelivers c f.externalFillId f.intentId q p at_ ↔
          blank f.externalFillId = false ∧ at_.isAware = true ∧
            q = f.quantity ∧ p = f.price)) ∧
    (let s := (Run.exec (FedOms.postgres c env).step (FedOms.postgres c env).empty pgActions).oms
      ∀ f ∈ s.fills.rows, (∃ q p, s.Delivered f q p) ∧
        ∀ (q p : Decimal) (at_ : DateTime), s.Delivered f q p →
          (s.Redelivers c env f.externalFillId f.intentId q p at_ ↔
            blank f.externalFillId = false ∧ at_.isAware = true ∧
              Decimal.Storable 30 12 q ∧ Decimal.Storable 30 12 p)) := by
  constructor
  · intro s f hf q p at_ hq hp
    exact (SQLiteSync.run_fillsSound c actions).redelivers_iff hf hq hp at_
  · intro s f hf
    have h := PostgresBrokerEvents.run_fillsSound c env pgActions
    exact ⟨h.delivered f hf, fun q p at_ hd => h.redelivers_iff hf hd at_⟩

def filledOnce {δ : Type} (quantity price : Decimal.Numeral) : List (FedAction δ) :=
  ([OmsCall.create (.limit 1 .buy 10 100)] ++ OmsCall.progressToAcknowledged 1 ++
    [OmsCall.ingestFill "f1" 1 quantity price (.aware 0)]).map .call

def filledLog (quantity price : Decimal) : IntentLog where
  intent := (PaperOrder.limit 1 .buy 10 100).intent
  events := [.orderCreated proposed, .orderStatusChanged proposed riskPending "system",
    .orderStatusChanged riskPending approved "system",
    .orderStatusChanged approved submissionPending "system",
    .orderStatusChanged submissionPending submitted "system",
    .orderStatusChanged submitted acknowledged "system",
    .fillIngested "f1" quantity price partiallyFilled]

/-- The same fill once more, as it was. -/
theorem redelivers_same_spelling :
    (Run.exec (FedOms.sqlite .default).step (FedOms.sqlite .default).empty
      (filledOnce ⟨4, -1⟩ ⟨99, 0⟩)).oms.Redelivers .default "f1" 1 ⟨4, -1⟩ ⟨99, 0⟩ (.aware 5) ∧
    (Run.exec (FedOms.postgres .default .sample).step (FedOms.postgres .default .sample).empty
      (filledOnce ⟨4, -1⟩ ⟨99, 0⟩)).oms.Redelivers .default .sample "f1" 1 4 99 (.aware 5) := by
  have h := recorded_fills_redeliver_iff .default .sample (filledOnce ⟨4, -1⟩ ⟨99, 0⟩)
    (filledOnce ⟨4, -1⟩ ⟨99, 0⟩)
  constructor
  · exact (h.1 ⟨"f1", 1, .aware 0, ⟨4, -1⟩, ⟨99, 0⟩⟩ (by decide +kernel) ⟨4, -1⟩ ⟨99, 0⟩ (.aware 5)
      rfl rfl).mpr ⟨by decide +kernel, rfl, rfl, rfl⟩
  · exact ((h.2 ⟨"f1", 1, .aware 0, 4, 99⟩ (by decide +kernel)).2 4 99 (.aware 5)
      ⟨filledLog 4 99, partiallyFilled, by decide +kernel, by decide +kernel⟩).mpr
      ⟨by decide +kernel, rfl, by decide +kernel, by decide +kernel⟩

/-- A fill of `1` delivered again as `1.0` is a conflict in SQLite; a fill with thirteen
decimals, delivered again as it was, is one in PostgreSQL. -/
theorem redelivery_conflicts :
    (let s := (Run.exec (FedOms.sqlite .default).step (FedOms.sqlite .default).empty
        (filledOnce ⟨1, 0⟩ ⟨99, 0⟩)).oms
      ∃ f ∈ s.fills.rows, ∃ q p : Decimal.Numeral, q.value = f.quantity.value ∧
        p.value = f.price.value ∧
        ¬ s.Redelivers .default f.externalFillId f.intentId q p (.aware 0)) ∧
    (let s := (Run.exec (FedOms.postgres .default .sample).step
        (FedOms.postgres .default .sample).empty (filledOnce ⟨1 + 1 / 10 ^ 13, -13⟩ ⟨99, 0⟩)).oms
      ∃ f ∈ s.fills.rows, ∃ q p : Decimal, s.Delivered f q p ∧
        ¬ s.Redelivers .default .sample f.externalFillId f.intentId q p (.aware 0)) := by
  constructor
  · intro s
    have hf : (⟨"f1", 1, .aware 0, ⟨1, 0⟩, ⟨99, 0⟩⟩ : PaperFill) ∈ s.fills.rows := by decide +kernel
    refine ⟨_, hf, ⟨1, -1⟩, ⟨99, 0⟩, rfl, rfl, fun h => ?_⟩
    have hsame := ((SQLiteSync.run_fillsSound .default _).redelivers_iff hf (q := ⟨1, -1⟩)
      (p := ⟨99, 0⟩) rfl rfl _).mp h
    exact absurd hsame.2.2.1 (by decide)
  · intro s
    have hf : (⟨"f1", 1, .aware 0, 1, 99⟩ : PgFill) ∈ s.fills.rows := by decide +kernel
    have hd : s.Delivered ⟨"f1", 1, .aware 0, 1, 99⟩ (1 + 1 / 10 ^ 13) 99 :=
      ⟨filledLog (1 + 1 / 10 ^ 13) 99, partiallyFilled, by decide +kernel, by decide +kernel⟩
    refine ⟨_, hf, _, _, hd, fun h => ?_⟩
    have hstored := ((PostgresBrokerEvents.run_fillsSound .default .sample _).redelivers_iff hf hd
      _).mp h
    exact absurd hstored.2.2.1 (by decide +kernel)

end TradePlatform
