/-
# `TradePlatform.PaperOmsRefinement` — the row store and the event store agree

The SQLite store overwrites a row, the PostgreSQL store replays an event log over an
immutable intent.  `Simulates` relates the two states: a row is what the log of its
intent replays to, and the same external fill ids are taken.  A call that PostgreSQL
can store (`Storable`) is accepted by both or by neither and keeps the relation, so
the stores answer alike in every run.
-/
import TradePlatform.PostgresPaperOms

namespace TradePlatform

open OrderStatus

inductive RowMatches (c : Decimal.Context) : Option PaperOrder → Option IntentLog → Prop
  | none : RowMatches c none none
  | some {o : PaperOrder} {log : IntentLog} (replays : log.order c = .ok o) :
      RowMatches c (some o) (some log)

structure Simulates (c : Decimal.Context) (s : SQLitePaperOms) (t : PostgresPaperOms) : Prop where
  rows : ∀ id, RowMatches c (s.orders.find? id) (t.intents.find? id)
  fills : ∀ ext, s.fills.find? ext = none ↔ t.fills.find? ext = none

/-- The intent row reads back as the intent it was given: the numbers are positive and
fit `NUMERIC(30,12)`, the timestamp is aware, the instrument id is the text of its
UUID, and the referenced rows exist. -/
structure StorableIntent (env : PgEnv) (intent : OrderIntent) : Prop where
  quantity : 0 < intent.quantity
  quantity_fits : Decimal.Storable 30 12 intent.quantity
  limitPrice : 0 < intent.limitPrice
  limitPrice_fits : Decimal.Storable 30 12 intent.limitPrice
  aware : intent.createdAt.isAware = true
  instrument : ∃ instrument ∈ env.uuid intent.instrumentId,
    env.uuidText instrument = intent.instrumentId ∧ env.instruments instrument = true
  signal : env.signals intent.signalId = true
  account : env.accounts intent.accountId = true

instance (env : PgEnv) (intent : OrderIntent) : Decidable (StorableIntent env intent) :=
  decidable_of_iff (((0 < intent.quantity ∧ Decimal.Storable 30 12 intent.quantity) ∧
      (0 < intent.limitPrice ∧ Decimal.Storable 30 12 intent.limitPrice)) ∧
    (intent.createdAt.isAware = true ∧ (∃ instrument ∈ env.uuid intent.instrumentId,
      env.uuidText instrument = intent.instrumentId ∧ env.instruments instrument = true) ∧
    env.signals intent.signalId = true ∧ env.accounts intent.accountId = true))
  ⟨fun ⟨⟨hq, hp⟩, ha, hi, hs, hc⟩ => ⟨hq.1, hq.2, hp.1, hp.2, ha, hi, hs, hc⟩,
    fun h => ⟨⟨⟨h.quantity, h.quantity_fits⟩, h.limitPrice, h.limitPrice_fits⟩,
      h.aware, h.instrument, h.signal, h.account⟩⟩

def StorableCall (env : PgEnv) : OmsCall → Prop
  | .create order => order.filledQuantity = 0 ∧ StorableIntent env order.intent
  | .transition _ _ actor => env.storesText actor = true
  | .ingestFill ext _ q p _ => env.storesText ext = true ∧
      Decimal.Storable 30 12 q.value ∧ Decimal.Storable 30 12 p.value
  | .cancel _ actor => env.storesText actor = true
  | .amend _ _ _ actor => env.storesText actor = true

instance (env : PgEnv) : ∀ a, Decidable (StorableCall env a)
  | .create _ => inferInstanceAs (Decidable (_ ∧ _))
  | .transition _ _ _ => inferInstanceAs (Decidable (_ = _))
  | .ingestFill _ _ _ _ _ => inferInstanceAs (Decidable (_ ∧ _ ∧ _))
  | .cancel _ _ => inferInstanceAs (Decidable (_ = _))
  | .amend _ _ _ _ => inferInstanceAs (Decidable (_ = _))

def OmsCall.externalFillId? : OmsCall → Option String
  | .ingestFill ext _ _ _ _ => some ext
  | _ => none

variable {c : Decimal.Context} {env : PgEnv} {s : SQLitePaperOms} {t : PostgresPaperOms}
  {id : UUID} {o : PaperOrder} {log : IntentLog} {ev : List (UUID × OmsEvent)}

theorem insertIntent_storable {intent : OrderIntent} (h : StorableIntent env intent) :
    insertIntent env intent = .ok intent := by
  obtain ⟨instrument, hmem, htext, hinst⟩ := h.instrument
  have huuid : env.uuid intent.instrumentId = some instrument := hmem
  obtain ⟨instant, hat⟩ : ∃ instant, intent.createdAt = .aware instant := by
    have haware := h.aware
    cases hd : intent.createdAt with
    | aware instant => exact ⟨instant, rfl⟩
    | naive wall => simp [hd, DateTime.isAware] at haware
  have hq : Decimal.numeric 30 12 intent.quantity = some intent.quantity := h.quantity_fits
  have hp : Decimal.numeric 30 12 intent.limitPrice = some intent.limitPrice := h.limitPrice_fits
  simp only [insertIntent, huuid, hq, hp, h.quantity, h.limitPrice, h.signal, h.account, hinst,
    and_self, if_true, htext, hat, PgEnv.timestamptz]
  rw [← hat]

/-! ## What the relation gives -/

namespace Simulates

theorem order_eq (h : Simulates c s t) (id : UUID) : t.order c id = s.get id := by
  have hr := h.rows id
  unfold PostgresPaperOms.order SQLitePaperOms.get
  revert hr
  generalize s.orders.find? id = row, t.intents.find? id = log
  intro hr
  cases hr with
  | none => rfl
  | some replays => exact replays

theorem get_eq (h : Simulates c s t) (id : UUID) :
    (t.get c id).toOption = (s.get id).toOption := by
  unfold PostgresPaperOms.get
  rw [h.order_eq id]
  cases s.get id with
  | ok o => rfl
  | error e => cases e <;> rfl

theorem log_of_row (h : Simulates c s t) (row : s.orders.find? id = some o) :
    ∃ log, t.intents.find? id = some log ∧ log.order c = .ok o := by
  have hr := h.rows id
  rw [row] at hr
  revert hr
  generalize t.intents.find? id = log
  intro hr
  cases hr with
  | some replays => exact ⟨_, rfl, replays⟩

theorem row_of_log (h : Simulates c s t) (row : t.intents.find? id = some log)
    (ho : log.order c = .ok o) : s.orders.find? id = some o := by
  have hr := h.rows id
  rw [row] at hr
  revert hr
  generalize s.orders.find? id = r
  intro hr
  cases hr with
  | some replays => rw [Except.ok.inj (replays.symm.trans ho)]

theorem none_iff (h : Simulates c s t) :
    s.orders.find? id = none ↔ t.intents.find? id = none := by
  have hr := h.rows id
  revert hr
  generalize s.orders.find? id = row, t.intents.find? id = log
  intro hr
  cases hr with
  | none => simp
  | some _ => simp

theorem put (h : Simulates c s t) (hid : o.intentId = log.intentId) (ho : log.order c = .ok o) :
    Simulates c ⟨s.orders.put o, ev, s.fills⟩ ⟨t.intents.put log, t.fills⟩ where
  rows := by
    intro k
    show RowMatches c ((s.orders.put o).find? k) ((t.intents.put log).find? k)
    rw [Table.find?_put, Table.find?_put, hid]
    split
    · exact .some ho
    · exact h.rows k
  fills := h.fills

theorem put_fill (h : Simulates c s t) {f : PaperFill} {g : PgFill}
    (hext : f.externalFillId = g.externalFillId) :
    Simulates c { s with fills := s.fills.put f } { t with fills := t.fills.put g } where
  rows := h.rows
  fills := by
    intro ext
    show (s.fills.put f).find? ext = none ↔ (t.fills.put g).find? ext = none
    rw [Table.find?_put, Table.find?_put, hext]
    split
    · simp
    · exact h.fills ext

end Simulates

/-! ## One transaction -/

structure Agree (c : Decimal.Context) (x : Except Exn (PaperOrder × SQLitePaperOms))
    (y : Except Exn (PaperOrder × PostgresPaperOms)) : Prop where
  forth : ∀ o s', x = .ok (o, s') → ∃ t', y = .ok (o, t') ∧ Simulates c s' t'
  back : ∀ o t', y = .ok (o, t') → ∃ s', x = .ok (o, s')

def AnswersAgree (c : Decimal.Context) (x : Answer SQLitePaperOms) (y : Answer PostgresPaperOms) :
    Prop :=
  x.1.toOption = y.1.toOption ∧ Simulates c x.2 y.2

theorem Agree.commit {x : Except Exn (PaperOrder × SQLitePaperOms)}
    {y : Except Exn (PaperOrder × PostgresPaperOms)} (h : Simulates c s t) (ha : Agree c x y) :
    AnswersAgree c (commit s x) (commit t y) := by
  cases x with
  | ok r =>
      obtain ⟨t', rfl, hs⟩ := ha.forth r.1 r.2 rfl
      exact ⟨rfl, hs⟩
  | error e =>
      cases y with
      | error e' => exact ⟨rfl, h⟩
      | ok r =>
          obtain ⟨_, hx⟩ := ha.back r.1 r.2 rfl
          cases hx

namespace Simulates

variable {actor ext : String} {st : OrderStatus}

theorem create (h : Simulates c s t) {order : PaperOrder}
    (ok : StorableCall env (.create order)) : Agree c (s.create order) (t.create c env order) := by
  have hins := insertIntent_storable ok.2
  constructor
  · intro o s' hx
    obtain ⟨hp, ⟨row, hi, rfl⟩ | ⟨fresh, rfl, rfl⟩⟩ := SQLitePaperOms.create_eq_ok.mp hx
    · obtain ⟨log, hrow, ho⟩ := h.log_of_row row
      exact ⟨t, PostgresPaperOms.create_eq_ok.mpr
        ⟨hp, .inl ⟨PostgresPaperOms.order_eq_ok.mpr ⟨log, hrow, ho⟩, hi, rfl⟩⟩, h⟩
    · refine ⟨_, PostgresPaperOms.create_eq_ok.mpr
        ⟨hp, .inr ⟨h.none_iff.mp fresh, rfl, o.intent, hins, rfl⟩⟩, ?_⟩
      refine h.put rfl ?_
      show Except.ok _ = Except.ok _
      rw [hp, ok.1]
  · intro o t' hy
    obtain ⟨hp, ⟨ho, hi, rfl⟩ | ⟨fresh, rfl, _⟩⟩ := PostgresPaperOms.create_eq_ok.mp hy
    · obtain ⟨log, row, hlog⟩ := PostgresPaperOms.order_eq_ok.mp ho
      exact ⟨s, SQLitePaperOms.create_eq_ok.mpr ⟨hp, .inl ⟨h.row_of_log row hlog, hi, rfl⟩⟩⟩
    · exact ⟨_, SQLitePaperOms.create_eq_ok.mpr ⟨hp, .inr ⟨h.none_iff.mpr fresh, rfl, rfl⟩⟩⟩

theorem transition (h : Simulates c s t) (ok : env.storesText actor = true) :
    Agree c (s.transition id st actor) (t.transition c env id st actor) := by
  constructor
  · intro o' s' hx
    obtain ⟨o, row, ht, rfl⟩ := SQLitePaperOms.transition_eq_ok.mp hx
    obtain ⟨log, hrow, ho⟩ := h.log_of_row row
    refine ⟨_, PostgresPaperOms.transition_eq_ok.mpr ⟨log, o, hrow, ho, ht, ok, rfl⟩, ?_⟩
    have hid : o'.intentId = (log.append (.orderStatusChanged o.status st actor)).intentId :=
      ((PaperOrder.intentId_of_transition ht).trans (Table.key_of_find? row)).trans
        (Table.key_of_find? hrow).symm
    exact h.put hid (PostgresPaperOms.order_append _ ho ht)
  · intro o' t' hy
    obtain ⟨log, o, row, ho, ht, _, _⟩ := PostgresPaperOms.transition_eq_ok.mp hy
    exact ⟨_, SQLitePaperOms.transition_eq_ok.mpr ⟨o, h.row_of_log row ho, ht, rfl⟩⟩

theorem amend (h : Simulates c s t) {q p : Decimal} (ok : env.storesText actor = true) :
    Agree c (s.amend id q p actor) (t.amend c env id q p actor) := by
  constructor
  · intro o' s' hx
    obtain ⟨o, row, may, rfl, rfl⟩ := SQLitePaperOms.amend_eq_ok.mp hx
    obtain ⟨log, hrow, ho⟩ := h.log_of_row row
    refine ⟨_, PostgresPaperOms.amend_eq_ok.mpr ⟨log, o, hrow, ho, may, ok, rfl, rfl⟩, ?_⟩
    have hid : (o.withTerms q p).intentId = (log.append (.orderAmended o.intent.quantity q
        o.intent.limitPrice p actor)).intentId :=
      (Table.key_of_find? row).trans (Table.key_of_find? hrow).symm
    exact h.put hid (PostgresPaperOms.order_append _ ho rfl)
  · intro o' t' hy
    obtain ⟨log, o, row, ho, may, _, rfl, _⟩ := PostgresPaperOms.amend_eq_ok.mp hy
    exact ⟨_, SQLitePaperOms.amend_eq_ok.mpr ⟨o, h.row_of_log row ho, may, rfl, rfl⟩⟩

/-- A fill with a fresh external id.  The replayed order is filled with the numbers of
the event, which are the numbers of the call; the `fills` row stores them unrounded. -/
theorem ingestFill (h : Simulates c s t) {q p : Decimal.Numeral} {at_ : DateTime}
    (ok : StorableCall env (.ingestFill ext id q p at_)) (fresh : s.fills.find? ext = none) :
    Agree c (s.ingestFill c ext id q p at_) (t.ingestFill c env ext id q.value p.value at_) := by
  obtain ⟨hx, hq, hp⟩ := ok
  have hfresh := (h.fills ext).mp fresh
  constructor
  · intro o' s' hs
    obtain ⟨hv, ⟨f, hf, _⟩ | ⟨_, o, row, hfill, rfl⟩⟩ := SQLitePaperOms.ingestFill_eq_ok.mp hs
    · exact absurd (fresh.symm.trans hf) (by simp)
    obtain ⟨log, hrow, ho⟩ := h.log_of_row row
    refine ⟨_, PostgresPaperOms.ingestFill_eq_ok.mpr ⟨hv,
      (PostgresPaperOms.ingestFillIn_fresh hfresh).mpr ⟨hx, log, o, q.value, p.value, hrow, ho,
        hfill, hq, hp, hv.2.1, hv.2.2.1, rfl⟩⟩, ?_⟩
    have hid : o'.intentId =
        (log.append (.fillIngested ext q.value p.value o'.status)).intentId :=
      ((PaperOrder.intentId_of_fill hfill).trans (Table.key_of_find? row)).trans
        (Table.key_of_find? hrow).symm
    exact (h.put hid (PostgresPaperOms.order_append _ ho hfill)).put_fill rfl
  · intro o' t' ht
    obtain ⟨hv, hin⟩ := PostgresPaperOms.ingestFill_eq_ok.mp ht
    obtain ⟨_, log, o, _, _, row, ho, hfill, _⟩ :=
      (PostgresPaperOms.ingestFillIn_fresh hfresh).mp hin
    exact ⟨_, SQLitePaperOms.ingestFill_eq_ok.mpr
      ⟨hv, .inr ⟨fresh, o, h.row_of_log row ho, hfill, rfl⟩⟩⟩

theorem cancel (h : Simulates c s t) (ok : env.storesText actor = true) :
    AnswersAgree c (s.cancel id actor) (t.cancel c env id actor) := by
  have h₁ : Agree c (s.transition id cancelPending actor)
      (t.transition c env id cancelPending actor) := h.transition ok
  unfold SQLitePaperOms.cancel PostgresPaperOms.cancel
  cases hx : s.transition id cancelPending actor with
  | error e =>
      cases hy : t.transition c env id cancelPending actor with
      | error e' => exact ⟨rfl, h⟩
      | ok r =>
          obtain ⟨_, hx'⟩ := h₁.back r.1 r.2 hy
          exact absurd (hx.symm.trans hx') (by simp)
  | ok r =>
      obtain ⟨o₁, s₁⟩ := r
      obtain ⟨t₁, hy, hs₁⟩ := h₁.forth o₁ s₁ hx
      obtain ⟨o, row, ht, _⟩ := SQLitePaperOms.transition_eq_ok.mp hx
      have hid : o₁.intentId = id :=
        (PaperOrder.intentId_of_transition ht).trans (Table.key_of_find? row)
      rw [hy]
      simp only [hid]
      exact (hs₁.transition ok).commit hs₁

theorem call (h : Simulates c s t) {a : OmsCall} (ok : StorableCall env a)
    (fresh : ∀ ext, a.externalFillId? = some ext → s.fills.find? ext = none) :
    AnswersAgree c (s.call c a) (t.call c env a) := by
  cases a with
  | create order => exact (h.create ok).commit h
  | transition id st actor => exact (h.transition ok).commit h
  | ingestFill ext id q p at_ => exact (h.ingestFill ok (fresh ext rfl)).commit h
  | cancel id actor => exact h.cancel ok
  | amend id q p actor => exact (h.amend ok).commit h

end Simulates

/-! ## Runs -/

theorem SQLitePaperOms.fills_step {a : OmsCall} {ext : String}
    (free : s.fills.find? ext = none) (hne : a.externalFillId? ≠ some ext) :
    (s.step c a).fills.find? ext = none := by
  have h := s.step_spec c a
  revert h
  generalize s.step c a = s'
  intro h
  cases h with
  | @fill ext' id q p at_ o o' ev fresh row ok =>
      show (s.fills.put _).find? ext = none
      rw [Table.find?_put_of_ne fun e => hne (congrArg some e)]
      exact free
  | _ => exact free

def both (c : Decimal.Context) (env : PgEnv) (p : SQLitePaperOms × PostgresPaperOms)
    (a : OmsCall) : SQLitePaperOms × PostgresPaperOms :=
  (p.1.step c a, p.2.step c env a)

def SameAnswer (c : Decimal.Context) (env : PgEnv) (p : SQLitePaperOms × PostgresPaperOms)
    (a : OmsCall) : Prop :=
  (p.1.call c a).1.toOption = (p.2.call c env a).1.toOption

/-- `get` returns the same order from both stores, or raises in both. -/
def SameOrders (c : Decimal.Context) (p : SQLitePaperOms × PostgresPaperOms) : Prop :=
  ∀ id, (p.1.get id).toOption = (p.2.get c id).toOption

theorem Simulates.run (calls : List OmsCall) : ∀ {s : SQLitePaperOms} {t : PostgresPaperOms},
    Simulates c s t → (∀ a ∈ calls, StorableCall env a) →
    (calls.filterMap OmsCall.externalFillId?).Nodup →
    (∀ ext ∈ calls.filterMap OmsCall.externalFillId?, s.fills.find? ext = none) →
    Run.Each (both c env) (SameAnswer c env) (s, t) calls ∧
      Run.Always (both c env) (SameOrders c) (s, t) calls := by
  induction calls with
  | nil => exact fun h _ _ _ => ⟨trivial, fun id => (h.get_eq id).symm⟩
  | cons a as ih =>
      intro s t h hstore hnodup hfree
      have hmem : ∀ ext, a.externalFillId? = some ext →
          ext ∈ (a :: as).filterMap OmsCall.externalFillId? :=
        fun ext he => List.mem_filterMap.mpr ⟨a, List.mem_cons_self, he⟩
      have hcall := h.call (hstore a List.mem_cons_self) fun ext he => hfree ext (hmem ext he)
      have hsub : (as.filterMap OmsCall.externalFillId?).Sublist
          ((a :: as).filterMap OmsCall.externalFillId?) :=
        (List.sublist_cons_self a as).filterMap _
      have hrest : ∀ ext ∈ as.filterMap OmsCall.externalFillId?,
          (s.step c a).fills.find? ext = none := by
        intro ext hext
        refine SQLitePaperOms.fills_step (hfree ext (hsub.subset hext)) fun he => ?_
        rw [List.filterMap_cons_some he] at hnodup
        exact (List.nodup_cons.mp hnodup).1 hext
      obtain ⟨heach, halways⟩ := ih hcall.2
        (fun b hb => hstore b (List.mem_cons_of_mem _ hb)) (hnodup.sublist hsub) hrest
      exact ⟨⟨hcall.1, heach⟩, fun id => (h.get_eq id).symm, halways⟩

/-- The refinement, from empty stores. -/
theorem stores_agree (c : Decimal.Context) (env : PgEnv) (calls : List OmsCall)
    (storable : ∀ a ∈ calls, StorableCall env a)
    (fresh : (calls.filterMap OmsCall.externalFillId?).Nodup) :
    Run.Each (both c env) (SameAnswer c env) (.empty, .empty) calls ∧
      Run.Always (both c env) (SameOrders c) (.empty, .empty) calls :=
  Simulates.run calls ⟨fun _ => .none, fun _ => ⟨fun _ => rfl, fun _ => rfl⟩⟩ storable fresh
    fun _ _ => rfl

/-- Two fills around an amendment, a cancellation, a rejected fill. -/
theorem stores_agree_amended :
    let calls := [.create (.limit 1 .buy 10 100)] ++ OmsCall.progressToAcknowledged 1 ++
      [.ingestFill "f1" 1 ⟨4, 0⟩ ⟨99, 0⟩ (.aware 0), .amend 1 6 101 "operator",
        .ingestFill "f2" 1 ⟨3, 0⟩ ⟨101, 0⟩ (.aware 0), .cancel 1 "operator"]
    Run.Each (both .default .sample) (SameAnswer .default .sample) (.empty, .empty) calls ∧
      Run.Always (both .default .sample) (SameOrders .default) (.empty, .empty) calls :=
  stores_agree .default .sample _ (by decide +kernel) (by decide +kernel)

/-- `CHECK(quantity > 0)` rejects an order the row store takes; and a filled quantity
passed to `create` stays in the row but is no event. -/
theorem stores_disagree_create :
    ¬ Run.Each (both .default .sample) (SameAnswer .default .sample) (.empty, .empty)
      [.create (.limit 1 .buy 0 100)] ∧
    ¬ Run.Always (both .default .sample) (SameOrders .default) (.empty, .empty)
      [.create { PaperOrder.limit 1 .buy 10 100 with filledQuantity := 3 }] := by
  constructor
  · intro h
    exact absurd h.1 (by unfold SameAnswer; decide +kernel)
  · intro h
    exact absurd (h.exec 1) (by decide +kernel)

end TradePlatform
