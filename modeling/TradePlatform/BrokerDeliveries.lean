/-
# `TradePlatform.BrokerDeliveries` — an OMS in use: its calls, and the broker events it is fed

The state of an OMS is reached by the calls on it and by the broker events applied to
it, in any order.  `FedOms` is what the two stores have in common: each step moves the
book as calls do, and a consumed `ORDER_CANCELLED` does what its branch says.  The
PostgreSQL store is broken down into `Move`s, one appended event each, so that an
invariant of its rows is one step lemma for calls and broker events alike.
-/
import TradePlatform.BrokerService

namespace TradePlatform

open OrderStatus

def Book.Moves (c : Decimal.Context) : Book → Book → Prop :=
  Relation.ReflTransGen fun book book' => ∃ a, Effect c book a book'

/-- An OMS with the broker events applied to it; a delivery answers whether the event
was consumed. -/
structure FedOms (c : Decimal.Context) (τ δ : Type) where
  empty : τ
  book : τ → Book
  call : τ → OmsCall → τ
  deliver : τ → δ → BrokerOrderEvent → Except Exn Bool × τ
  book_empty : ∀ id, book empty id = none
  call_moves : ∀ t a, Book.Moves c (book t) (book (call t a))
  deliver_moves : ∀ t d event, Book.Moves c (book t) (book (deliver t d event).2)
  deliver_cancelled : ∀ {t d event t'}, event.eventType = "ORDER_CANCELLED" →
    deliver t d event = (.ok true, t') → ∃ o, book t event.clientIntentId = some o ∧
      book t' = if o.Working then
        Function.update (book t) event.clientIntentId (some { o with status := cancelled })
      else book t

inductive FedAction (δ : Type) where
  | call (a : OmsCall)
  | deliver (d : δ) (event : BrokerOrderEvent)

def FedOms.step {c : Decimal.Context} {τ δ : Type} (M : FedOms c τ δ) (t : τ) :
    FedAction δ → τ
  | .call a => M.call t a
  | .deliver d event => (M.deliver t d event).2

/-! ## What no move changes -/

namespace Book

variable {c : Decimal.Context} {book book' : Book} {a : OmsCall} {id : UUID} {o : PaperOrder}

/-- The order `o'` of an intent, some moves after it was `o`: the intent up to the two
amendable terms, and the status once no transition leaves it. -/
structure Later (o o' : PaperOrder) : Prop where
  intent : o'.intent = { o.intent with
    quantity := o'.intent.quantity, limitPrice := o'.intent.limitPrice }
  closed : transitions o.status = [] → o'.status = o.status

theorem Later.refl (o : PaperOrder) : Later o o := ⟨rfl, fun _ => rfl⟩

theorem Later.trans {o₁ o₂ o₃ : PaperOrder} (h : Later o₁ o₂) (h' : Later o₂ o₃) :
    Later o₁ o₃ where
  intent := by rw [h'.intent, h.intent]
  closed hs := by
    have h₂ : o₂.status = o₁.status := h.closed hs
    exact (h'.closed (h₂ ▸ hs)).trans h₂

theorem Later.of_transition {o o' : PaperOrder} {st : OrderStatus}
    (h : o.transition st = .ok o') : Later o o' := by
  obtain ⟨hmem, rfl⟩ := PaperOrder.transition_eq_ok.mp h
  refine ⟨rfl, fun hs => ?_⟩
  rw [hs] at hmem
  cases hmem

theorem not_closed_of_working (hw : o.Working) : transitions o.status ≠ [] :=
  List.ne_nil_of_mem (PaperOrder.mem_of_working hw)

theorem Later.of_fill {o o' : PaperOrder} {q p : Decimal} (h : o.fill c q p = .ok o') :
    Later o o' := by
  obtain ⟨⟨hw, _⟩, rfl⟩ := PaperOrder.fill_eq_ok.mp h
  exact ⟨rfl, fun hs => absurd hs (not_closed_of_working hw)⟩

theorem Later.update {id' : UUID} {o₁ o₂ : PaperOrder} (row : book id = some o)
    (row' : book id' = some o₁) (h : Later o₁ o₂) :
    ∃ o', Function.update book id' (some o₂) id = some o' ∧ Later o o' := by
  by_cases hid : id = id'
  · subst hid
    cases row.symm.trans row'
    exact ⟨o₂, Function.update_self .., h⟩
  · exact ⟨o, (Function.update_of_ne hid ..).trans row, .refl o⟩

theorem Later.effect (row : book id = some o) (h : Effect c book a book') :
    ∃ o', book' id = some o' ∧ Later o o' := by
  cases h with
  | none => exact ⟨o, row, .refl o⟩
  | @create order stored fresh =>
      have hid : id ≠ order.intentId := by
        intro e
        rw [← e, row] at fresh
        cases fresh
      exact ⟨o, (Function.update_of_ne hid ..).trans row, .refl o⟩
  | transition row' ok => exact Later.update row row' (.of_transition ok)
  | fill row' ok => exact Later.update row row' (.of_fill ok)
  | cancel row' pending done =>
      exact Later.update row row' ((Later.of_transition pending).trans (.of_transition done))
  | amend row' may => exact Later.update row row' ⟨rfl, fun _ => rfl⟩

theorem Moves.later (row : book id = some o) (h : Moves c book book') :
    ∃ o', book' id = some o' ∧ Later o o' := by
  induction h with
  | refl => exact ⟨o, row, .refl o⟩
  | tail _ hstep ih =>
      obtain ⟨o₁, row₁, h₁⟩ := ih
      obtain ⟨a, he⟩ := hstep
      obtain ⟨o₂, row₂, h₂⟩ := Later.effect row₁ he
      exact ⟨o₂, row₂, h₁.trans h₂⟩

end Book

variable {c : Decimal.Context} {τ δ : Type}

theorem FedOms.step_moves (M : FedOms c τ δ) (t : τ) (a : FedAction δ) :
    Book.Moves c (M.book t) (M.book (M.step t a)) := by
  cases a with
  | call a => exact M.call_moves t a
  | deliver d event => exact M.deliver_moves t d event

theorem FedOms.run_moves (M : FedOms c τ δ) (t : τ) (actions : List (FedAction δ)) :
    Book.Moves c (M.book t) (M.book (Run.exec M.step t actions)) := by
  induction actions generalizing t with
  | nil => exact .refl
  | cons a as ih => exact (M.step_moves t a).trans (ih (M.step t a))

/-! ## SQLite -/

namespace SQLiteSync

variable {s : SQLiteSync} {event : BrokerOrderEvent}

theorem effect_step (c : Decimal.Context) (s : SQLiteSync) (event : BrokerOrderEvent) :
    (s.effect c event).2 = s.oms ∨ ∃ a, (s.effect c event).2 = s.oms.step c a := by
  unfold effect
  split
  · cases h : s.oms.syncFill c event with
    | error e => exact .inl rfl
    | ok r =>
        obtain ⟨o, oms⟩ := r
        obtain ⟨extId, q, p, _, hin⟩ := SQLitePaperOms.syncFill_eq_ok.mp h
        refine .inr ⟨.ingestFill extId event.clientIntentId q p event.occurredAt, ?_⟩
        show oms = (commit s.oms (s.oms.ingestFill ..)).2
        rw [hin]
        rfl
  · split
    · unfold SQLitePaperOms.syncCancel
      cases hget : s.oms.get event.clientIntentId with
      | error e => exact .inl rfl
      | ok order =>
          by_cases hw : order.Working
          · refine .inr ⟨.cancel event.clientIntentId "broker_sync", ?_⟩
            simp only [if_pos hw]
            show _ = (s.oms.cancel event.clientIntentId "broker_sync").2
            rcases s.oms.cancel event.clientIntentId "broker_sync" with ⟨e | o, oms⟩ <;> rfl
          · exact .inl (by simp only [if_neg hw])
    · split
      · cases h : s.oms.syncReplace event with
        | error e => exact .inl rfl
        | ok r =>
            obtain ⟨o, oms⟩ := r
            obtain ⟨q, p, _, ha⟩ := SQLitePaperOms.syncReplace_eq_ok.mp h
            refine .inr ⟨.amend event.clientIntentId q.value p.value "broker_sync", ?_⟩
            show oms = (commit s.oms (s.oms.amend ..)).2
            rw [ha]
            rfl
      · exact .inl rfl

theorem syncEvent_step (c : Decimal.Context) (s : SQLiteSync) (brokerName : String)
    (event : BrokerOrderEvent) :
    (s.syncEvent c brokerName event).2.oms = s.oms ∨
      ∃ a, (s.syncEvent c brokerName event).2.oms = s.oms.step c a := by
  unfold syncEvent
  split
  · exact .inl rfl
  · exact .inl rfl
  · have h := effect_step c s event
    split <;> rename_i he <;> rw [he] at h <;> exact h

theorem syncEvent_cancelled {c : Decimal.Context} {s' : SQLiteSync} {brokerName : String}
    (htype : event.eventType = "ORDER_CANCELLED")
    (h : s.syncEvent c brokerName event = (.ok true, s')) :
    ∃ o, s.oms.book event.clientIntentId = some o ∧
      s'.oms.book = if o.Working then Function.update s.oms.book event.clientIntentId
        (some { o with status := cancelled }) else s.oms.book := by
  have hfill : event.eventType ≠ "FILL" := by rw [htype]; decide
  unfold syncEvent at h
  split at h
  · cases h
  · cases h
  rename_i store _
  have heff : ∃ oms, s.effect c event = (.ok (), oms) ∧ s' = ⟨oms, store⟩ := by
    rcases he : s.effect c event with ⟨e | u, oms⟩ <;> rw [he] at h <;> cases h
    exact ⟨oms, rfl, rfl⟩
  obtain ⟨oms, heff, rfl⟩ := heff
  unfold effect at heff
  rw [if_neg hfill, if_pos htype] at heff
  unfold SQLitePaperOms.syncCancel at heff
  cases hget : s.oms.get event.clientIntentId with
  | error e =>
      rw [hget] at heff
      cases heff
  | ok o =>
      have row := SQLitePaperOms.get_eq_ok.mp hget
      refine ⟨o, row, ?_⟩
      rw [hget] at heff
      by_cases hw : o.Working
      · simp only [if_pos hw] at heff
        have ht : s.oms.transition event.clientIntentId cancelPending "broker_sync" = .ok (_, _) :=
          SQLitePaperOms.transition_eq_ok.mpr ⟨o, row,
            PaperOrder.transition_eq_ok.mpr ⟨PaperOrder.mem_of_working hw, rfl⟩, rfl⟩
        rw [SQLitePaperOms.cancel_eq, ht] at heff
        cases heff
        rw [if_pos hw]
        show (fun id => ((s.oms.orders.put _).put _).find? id) = _
        have hkey : o.intentId = event.clientIntentId := Table.key_of_find? row
        rw [SQLitePaperOms.book_put, SQLitePaperOms.book_put]
        show Function.update (Function.update _ o.intentId _) o.intentId _ = _
        rw [Function.update_idem, hkey]
        rfl
      · simp only [if_neg hw] at heff
        cases heff
        rw [if_neg hw]

end SQLiteSync

/-- The SQLite OMS, fed by `sync_events` of brokers of any name. -/
def FedOms.sqlite (c : Decimal.Context) : FedOms c SQLiteSync String where
  empty := ⟨.empty, .empty⟩
  book s := s.oms.book
  call s a := { s with oms := s.oms.step c a }
  deliver s brokerName event := s.syncEvent c brokerName event
  book_empty _ := rfl
  call_moves s a := .single ⟨a, s.oms.step_effect c a⟩
  deliver_moves s brokerName event := by
    rcases s.syncEvent_step c brokerName event with h | ⟨a, h⟩
    · rw [h]
      exact .refl
    · rw [h]
      exact .single ⟨a, s.oms.step_effect c a⟩
  deliver_cancelled := SQLiteSync.syncEvent_cancelled

/-! ## PostgreSQL -/

namespace PostgresPaperOms

variable {c : Decimal.Context} {env : PgEnv} {s s' : PostgresPaperOms}

/-- One transaction appends one event, or two for a cancellation; a `Move` is one. -/
inductive Move (c : Decimal.Context) (env : PgEnv) (s : PostgresPaperOms) : PostgresPaperOms → Prop
  | create {intent row : OrderIntent} (fresh : s.intents.find? intent.intentId = none)
      (inserted : insertIntent env intent = .ok row) :
      Move c env s ⟨s.intents.put ⟨row, [.orderCreated proposed]⟩, s.fills⟩
  | transition {id : UUID} {log : IntentLog} {o o' : PaperOrder} {st : OrderStatus}
      {actor : String} (row : s.intents.find? id = some log) (order : log.order c = .ok o)
      (ok : o.transition st = .ok o') :
      Move c env s ⟨s.intents.put (log.append (.orderStatusChanged o.status st actor)), s.fills⟩
  | amend {id : UUID} {log : IntentLog} {o : PaperOrder} {q p : Decimal} {actor : String}
      (row : s.intents.find? id = some log) (order : log.order c = .ok o) (may : o.MayAmend q p) :
      Move c env s ⟨s.intents.put (log.append
        (.orderAmended o.intent.quantity q o.intent.limitPrice p actor)), s.fills⟩
  | fill {id : UUID} {log : IntentLog} {o o' : PaperOrder} {extId : String}
      {q p stored storedPrice : Decimal} {at_ : DateTime} (stores : env.storesText extId = true)
      (fresh : s.fills.find? extId = none) (row : s.intents.find? id = some log)
      (order : log.order c = .ok o) (ok : o.fill c q p = .ok o')
      (quantity : Decimal.numeric 30 12 q = some stored)
      (price : Decimal.numeric 30 12 p = some storedPrice) :
      Move c env s ⟨s.intents.put (log.append (.fillIngested extId q p o'.status)),
        s.fills.put ⟨extId, id, env.timestamptz at_, stored, storedPrice⟩⟩

def Moves (c : Decimal.Context) (env : PgEnv) : PostgresPaperOms → PostgresPaperOms → Prop :=
  Relation.ReflTransGen (Move c env)

theorem Move.effect (h : Move c env s s') : ∃ a, Effect c (s.book c) a (s'.book c) := by
  have hbook : ∀ {id log o}, s.intents.find? id = some log → log.order c = .ok o →
      s.book c id = some o :=
    fun row ho => book_eq_some.mpr (order_eq_ok.mpr ⟨_, row, ho⟩)
  cases h with
  | @create intent row fresh inserted =>
      have hk : IntentLog.intentId ⟨row, [.orderCreated proposed]⟩ = intent.intentId :=
        insertIntent_intentId inserted
      refine ⟨.create { intent := intent }, ?_⟩
      rw [book_put _ _ s.fills, hk]
      have hfresh : s.book c intent.intentId = none := by
        simp [book, PostgresPaperOms.order, fresh, Except.toOption]
      exact @Effect.create c _ { intent := intent } { intent := row } hfresh rfl rfl (.inl rfl)
  | @transition id log o o' st actor row order ok =>
      refine ⟨.transition id st actor, ?_⟩
      rw [book_append (.orderStatusChanged o.status st actor) row order ok]
      exact .transition (hbook row order) ok
  | @amend id log o q p actor row order may =>
      have happly : applyEvent c o
          (.orderAmended o.intent.quantity q o.intent.limitPrice p actor) =
          .ok (o.withTerms q p) := rfl
      refine ⟨.amend id q p actor, ?_⟩
      rw [book_append _ row order happly]
      exact .amend (hbook row order) may
  | @fill id log o o' extId q p _ _ at_ _ _ row order ok _ _ =>
      refine ⟨.ingestFill extId id ⟨q, 0⟩ ⟨p, 0⟩ at_, ?_⟩
      rw [book_append (.fillIngested extId q p o'.status) row order ok]
      exact .fill (hbook row order) ok

theorem Moves.book (h : Moves c env s s') : Book.Moves c (s.book c) (s'.book c) := by
  induction h with
  | refl => exact .refl
  | tail _ hstep ih => exact ih.tail hstep.effect

theorem cancel_moves {id : UUID} {log : IntentLog} {o o₁ : PaperOrder} {actor : String}
    (row : s.intents.find? id = some log) (order : log.order c = .ok o)
    (pending : o.transition cancelPending = .ok o₁) :
    Moves c env s
      ⟨(s.intents.put (log.append (.orderStatusChanged o.status cancelPending actor))).put
        ((log.append (.orderStatusChanged o.status cancelPending actor)).append
          (.orderStatusChanged cancelPending cancelled actor)), s.fills⟩ := by
  have hid : log.intentId = id := Table.key_of_find? row
  have hst : o₁.status = cancelPending := by
    obtain ⟨_, rfl⟩ := PaperOrder.transition_eq_ok.mp pending
    rfl
  have h₁ := order_append (.orderStatusChanged o.status cancelPending actor) order pending
  let log₁ := log.append (.orderStatusChanged o.status cancelPending actor)
  have row₁ : (s.intents.put log₁).find? id = some log₁ := hid ▸ Table.find?_put_self s.intents log₁
  have move : Move c env ⟨s.intents.put log₁, s.fills⟩ ⟨(s.intents.put log₁).put
      (log₁.append (.orderStatusChanged o₁.status cancelled actor)), s.fills⟩ :=
    .transition row₁ h₁ (PaperOrder.transition_cancelled pending)
  rw [hst] at move
  exact (Relation.ReflTransGen.single (.transition row order pending)).tail move

theorem ingestFillIn_moves {extId : String} {id : UUID} {q p : Decimal} {at_ : DateTime}
    {o : PaperOrder} (h : s.ingestFillIn c env extId id q p at_ = .ok (o, s')) :
    Moves c env s s' := by
  cases hf : s.fills.find? extId with
  | some f => exact ingestFillIn_known hf h ▸ .refl
  | none =>
      obtain ⟨stores, log, o₁, q', p', row, order, ok, hq, hp, _, _, rfl⟩ :=
        (ingestFillIn_fresh hf).mp h
      exact .single (.fill stores hf row order ok hq hp)

theorem step_moves (c : Decimal.Context) (env : PgEnv) (s : PostgresPaperOms) (a : OmsCall) :
    Moves c env s (s.step c env a) := by
  cases a with
  | create order =>
      show Moves c env s (commit s (s.create c env order)).2
      cases h : s.create c env order with
      | error e => exact .refl
      | ok r =>
          obtain ⟨_, ⟨_, _, hs⟩ | ⟨hn, _, intent, hi, hs⟩⟩ := create_eq_ok.mp h
          · exact hs ▸ .refl
          · exact hs ▸ .single (.create hn hi)
  | transition id st actor =>
      show Moves c env s (commit s (s.transition c env id st actor)).2
      cases h : s.transition c env id st actor with
      | error e => exact .refl
      | ok r =>
          obtain ⟨log, o, row, ho, ok, _, hs⟩ := transition_eq_ok.mp h
          exact hs ▸ .single (.transition row ho ok)
  | ingestFill extId id q p at_ =>
      show Moves c env s (commit s (s.ingestFill c env extId id q.value p.value at_)).2
      cases h : s.ingestFill c env extId id q.value p.value at_ with
      | error e => exact .refl
      | ok r => exact ingestFillIn_moves (ingestFill_eq_ok.mp h).2
  | cancel id actor =>
      show Moves c env s (s.cancel c env id actor).2
      cases h : s.transition c env id cancelPending actor with
      | error e =>
          have hc : s.cancel c env id actor = (.error e, s) := by
            unfold cancel
            rw [h]
          exact hc ▸ .refl
      | ok r =>
          obtain ⟨log, o, o₁, o₂, row, ho, pending, _, _, hc⟩ := cancel_ok h
          exact hc ▸ cancel_moves row ho pending
  | amend id q p actor =>
      show Moves c env s (commit s (s.amend c env id q p actor)).2
      cases h : s.amend c env id q p actor with
      | error e => exact .refl
      | ok r =>
          obtain ⟨log, o, row, ho, may, _, _, hs⟩ := amend_eq_ok.mp h
          exact hs ▸ .single (.amend row ho may)

end PostgresPaperOms

namespace PostgresBrokerEvents

variable {c : Decimal.Context} {env : PgEnv} {s s' : PostgresBrokerEvents}
  {oms oms' : PostgresPaperOms} {event : BrokerOrderEvent} {accountId brokerName : String}

theorem effect_cancelled (htype : event.eventType = "ORDER_CANCELLED")
    (h : effect c env oms event = .ok oms') :
    ∃ log o, oms.intents.find? event.clientIntentId = some log ∧ log.order c = .ok o ∧
      ((o.Working ∧ oms' = ⟨(oms.intents.put (log.append
          (.orderStatusChanged o.status cancelPending "broker_sync"))).put
          ((log.append (.orderStatusChanged o.status cancelPending "broker_sync")).append
            (.orderStatusChanged cancelPending cancelled "broker_sync")), oms.fills⟩) ∨
        (¬ o.Working ∧ oms' = oms)) := by
  have hfill : event.eventType ≠ "FILL" := by rw [htype]; decide
  unfold effect at h
  rw [if_neg hfill, if_pos htype] at h
  obtain ⟨o, horder, h⟩ := Except.bind_eq_ok.mp h
  obtain ⟨log, row, ho⟩ := PostgresPaperOms.order_eq_ok.mp horder
  refine ⟨log, o, row, ho, ?_⟩
  by_cases hw : o.Working
  · have hpend := PaperOrder.transition_eq_ok.mpr ⟨PaperOrder.mem_of_working hw, rfl⟩
    simp only [if_pos hw, hpend, Except.ok_bind] at h
    obtain ⟨w, hw₁, h⟩ := Except.bind_eq_ok.mp h
    obtain ⟨_, rfl⟩ := (PostgresPaperOms.appendEvent_eq_ok row).mp hw₁
    have hkey : log.intentId = event.clientIntentId := Table.key_of_find? row
    let log₁ := log.append (.orderStatusChanged o.status cancelPending "broker_sync")
    have row₁ : (oms.intents.put log₁).find? event.clientIntentId = some log₁ :=
      hkey ▸ Table.find?_put_self oms.intents log₁
    obtain ⟨_, hs⟩ := (PostgresPaperOms.appendEvent_eq_ok row₁).mp h
    exact .inl ⟨hw, hs⟩
  · simp only [if_neg hw] at h
    cases h
    exact .inr ⟨hw, rfl⟩

theorem effect_moves (h : effect c env oms event = .ok oms') :
    PostgresPaperOms.Moves c env oms oms' := by
  by_cases h₁ : event.eventType = "FILL"
  · unfold effect at h
    rw [if_pos h₁] at h
    obtain ⟨⟨extId, q, p⟩, _, h⟩ := Except.bind_eq_ok.mp h
    obtain ⟨⟨o, w⟩, hin, h⟩ := Except.bind_eq_ok.mp h
    cases h
    exact PostgresPaperOms.ingestFillIn_moves hin
  by_cases h₂ : event.eventType = "ORDER_CANCELLED"
  · obtain ⟨log, o, row, ho, ⟨hw, rfl⟩ | ⟨_, rfl⟩⟩ := effect_cancelled h₂ h
    · exact PostgresPaperOms.cancel_moves row ho
        (PaperOrder.transition_eq_ok.mpr ⟨PaperOrder.mem_of_working hw, rfl⟩)
    · exact .refl
  unfold effect at h
  rw [if_neg h₁, if_neg h₂] at h
  by_cases h₃ : event.eventType = "ORDER_REPLACED"
  · rw [if_pos h₃] at h
    obtain ⟨o, horder, h⟩ := Except.bind_eq_ok.mp h
    obtain ⟨log, row, ho⟩ := PostgresPaperOms.order_eq_ok.mp horder
    obtain ⟨⟨q, p⟩, _, h⟩ := Except.bind_eq_ok.mp h
    by_cases hm : o.MayAmend q.value p.value
    · simp only [hm, not_true_eq_false, if_false] at h
      obtain ⟨_, rfl⟩ := (PostgresPaperOms.appendEvent_eq_ok row).mp h
      exact .single (.amend row ho hm)
    · simp [hm] at h
  · rw [if_neg h₃] at h
    cases h
    exact .refl

theorem applyBrokerEvent_eq_ok {stored : Bool}
    (h : s.applyBrokerEvent c env accountId brokerName event = .ok (stored, s')) :
    (stored = false ∧ s' = s) ∨
      (stored = true ∧ effect c env s.oms event = .ok s'.oms) := by
  cases hold : s.events.find? event.externalEventId with
  | none =>
      obtain ⟨hs, oms, heff, rfl⟩ := applyBrokerEvent_new hold h
      exact .inr ⟨hs, heff⟩
  | some row =>
      rw [applyBrokerEvent, eventGuarded_eq_ok] at h
      split at h
      · cases h
      rw [if_pos (by rw [hold]; simp)] at h
      cases h
      exact .inl ⟨rfl, rfl⟩

theorem syncEvent_eq_ok {stored : Bool} :
    s.syncEvent c env brokerName event = .ok (stored, s') ↔
      ∃ o, s.oms.order c event.clientIntentId = .ok o ∧
        s.applyBrokerEvent c env o.intent.accountId brokerName event = .ok (stored, s') := by
  simp only [syncEvent, onSyncError_eq_ok, Except.bind_eq_ok, PostgresPaperOms.get_eq_ok]

/-- How an event reaches the store: through `sync_events`, or by `apply_broker_event`
itself. -/
inductive Delivery where
  | sync (brokerName : String)
  | apply (accountId brokerName : String)

def deliver (c : Decimal.Context) (env : PgEnv) (s : PostgresBrokerEvents) (d : Delivery)
    (event : BrokerOrderEvent) : Except Exn (Bool × PostgresBrokerEvents) :=
  match d with
  | .sync brokerName => s.syncEvent c env brokerName event
  | .apply accountId brokerName => s.applyBrokerEvent c env accountId brokerName event

theorem deliver_eq_ok {d : Delivery} {stored : Bool}
    (h : s.deliver c env d event = .ok (stored, s')) :
    (stored = false ∧ s' = s) ∨ (stored = true ∧ effect c env s.oms event = .ok s'.oms) := by
  cases d with
  | sync brokerName =>
      obtain ⟨o, _, h⟩ := syncEvent_eq_ok.mp h
      exact applyBrokerEvent_eq_ok h
  | apply accountId brokerName => exact applyBrokerEvent_eq_ok h

def delivered (s : PostgresBrokerEvents) :
    Except Exn (Bool × PostgresBrokerEvents) → Except Exn Bool × PostgresBrokerEvents
  | .ok (stored, s') => (.ok stored, s')
  | .error e => (.error e, s)

theorem delivered_moves (c : Decimal.Context) (env : PgEnv) (s : PostgresBrokerEvents)
    (d : Delivery) (event : BrokerOrderEvent) :
    PostgresPaperOms.Moves c env s.oms (s.delivered (s.deliver c env d event)).2.oms := by
  cases h : s.deliver c env d event with
  | error e => exact .refl
  | ok r =>
      obtain ⟨stored, s'⟩ := r
      rcases deliver_eq_ok h with ⟨_, rfl⟩ | ⟨_, heff⟩
      · exact .refl
      · exact effect_moves heff

theorem delivered_cancelled {d : Delivery} (htype : event.eventType = "ORDER_CANCELLED")
    (h : s.delivered (s.deliver c env d event) = (.ok true, s')) :
    ∃ o, s.oms.book c event.clientIntentId = some o ∧
      s'.oms.book c = if o.Working then Function.update (s.oms.book c) event.clientIntentId
        (some { o with status := cancelled }) else s.oms.book c := by
  have heff : effect c env s.oms event = .ok s'.oms := by
    cases hd : s.deliver c env d event with
    | error e =>
        rw [hd] at h
        cases h
    | ok r =>
        obtain ⟨stored, s''⟩ := r
        rw [hd] at h
        cases h
        rcases deliver_eq_ok hd with ⟨hs, _⟩ | ⟨_, heff⟩
        · cases hs
        · exact heff
  obtain ⟨log, o, row, ho, hcase⟩ := effect_cancelled htype heff
  have horder := PostgresPaperOms.order_eq_ok.mpr ⟨log, row, ho⟩
  refine ⟨o, PostgresPaperOms.book_eq_some.mpr horder, ?_⟩
  rcases hcase with ⟨hw, hs⟩ | ⟨hw, hs⟩
  · have hpend : o.transition cancelPending = .ok { o with status := cancelPending } :=
      PaperOrder.transition_eq_ok.mpr ⟨PaperOrder.mem_of_working hw, rfl⟩
    have hkey : log.intentId = event.clientIntentId := Table.key_of_find? row
    have h₁ := PostgresPaperOms.order_append
      (.orderStatusChanged o.status cancelPending "broker_sync") ho hpend
    have h₂ := PostgresPaperOms.order_append
      (.orderStatusChanged cancelPending cancelled "broker_sync") h₁
      (PaperOrder.transition_cancelled hpend)
    rw [if_pos hw, hs, PostgresPaperOms.book_put _ _ s.oms.fills, h₂,
      PostgresPaperOms.book_append (.orderStatusChanged o.status cancelPending "broker_sync") row
        ho hpend]
    show Function.update (Function.update _ event.clientIntentId _) log.intentId _ = _
    rw [hkey, Function.update_idem]
    rfl
  · rw [if_neg hw, hs]

end PostgresBrokerEvents

/-- The PostgreSQL OMS, fed by `sync_events` or by `apply_broker_event` itself. -/
def FedOms.postgres (c : Decimal.Context) (env : PgEnv) :
    FedOms c PostgresBrokerEvents PostgresBrokerEvents.Delivery where
  empty := .empty
  book s := s.oms.book c
  call s a := { s with oms := s.oms.step c env a }
  deliver s d event := s.delivered (s.deliver c env d event)
  book_empty _ := rfl
  call_moves s a := (s.oms.step_moves c env a).book
  deliver_moves s d event := (s.delivered_moves c env d event).book
  deliver_cancelled := PostgresBrokerEvents.delivered_cancelled

end TradePlatform
