/-
# `TradePlatform.BrokerSyncAgreement` — what two synchronised brokers agree on

`SyncLaws` says what the stores of a service do, with the events consumed so far as a
list: both stores are proved to obey them in `BrokerSyncStores`.  While one of the two
brokers has no event, the stores follow the other's log: each of its orders is the one
in the OMS, moved by the events still to come.  Once both have an event the external
event id `sandbox:1` stands for two, and only one of them has a receipt.
-/
import TradePlatform.BrokerService
import TradePlatform.BrokerEventLog

namespace TradePlatform

open OrderStatus

namespace SyncStores

variable {τ : Type}

/-- `event` is the next of the log after `done`, and its order, as the OMS has it, takes
the event. -/
structure Next (c : Decimal.Context) (T : SyncStores τ) (t : τ) (done : List BrokerOrderEvent)
    (event : BrokerOrderEvent) (o o' : PaperOrder) : Prop where
  sequence : event.sequence = ((done.length + 1 : ℕ) : ℤ)
  externalEventId : blank event.externalEventId = false
  newExternal : ∀ e ∈ done, e.externalEventId ≠ event.externalEventId
  newId : ∀ e ∈ done, e.eventId ≠ event.eventId
  newSequence : ∀ e ∈ done, e.sequence ≠ event.sequence
  newFill : ∀ ext ∈ event.fillId, blank ext = false ∧ ∀ e ∈ done, ext ∉ e.fillId
  aware : event.occurredAt.isAware = true
  get : T.get t event.clientIntentId = .ok o
  applyTo : event.applyTo c o = .ok o'

/-- What the service relies on.  `Consumed t configuration done`: the receipts, cursors
and fills of `t` are those of the events `done` of one broker. -/
structure Laws (c : Decimal.Context) (T : SyncStores τ) where
  Consumed : τ → BrokerConfiguration → List BrokerOrderEvent → Prop
  consumed_empty : ∀ cfg, Consumed T.empty cfg []
  lastSequence_le : ∀ {t cfg done last}, Consumed t cfg done → T.lastSequence t cfg = .ok last →
    last ≤ (done.length : ℤ)
  receipt_of_mem : ∀ {t cfg done} {event : BrokerOrderEvent}, Consumed t cfg done → event ∈ done →
    T.receipt t event.externalEventId = some event.eventId
  mem_of_receipt : ∀ {t cfg done ext}, Consumed t cfg done → T.receipt t ext ≠ none →
    ∃ event ∈ done, event.externalEventId = ext
  intentId_of_get : ∀ {t id o}, T.get t id = .ok o → o.intentId = id
  create_ok : ∀ {t t' o o'}, T.create t o = .ok (o', t') →
    (t' = t ∧ T.get t o.intentId = .ok o') ∨
    ((∀ r, T.get t o.intentId ≠ .ok r) ∧
      (∃ stored, T.get t' o.intentId = .ok stored ∧ stored.status = proposed) ∧
      (∀ cfg done, Consumed t cfg done → Consumed t' cfg done) ∧
      ∀ k r, k ≠ o.intentId → T.get t k = .ok r → T.get t' k = .ok r)
  transition_ok : ∀ {t t' id st actor o'}, T.transition t id st actor = .ok (o', t') →
    (∃ o, T.get t id = .ok o ∧ o.transition st = .ok o') ∧ T.get t' id = .ok o' ∧
      (∀ cfg done, Consumed t cfg done → Consumed t' cfg done) ∧
      ∀ k r, k ≠ id → T.get t k = .ok r → T.get t' k = .ok r
  transition_total : ∀ {t id st o o'}, T.get t id = .ok o → o.transition st = .ok o' →
    ∃ t', T.transition t id st "broker_sync" = .ok (o', t')
  sync_seen : ∀ {t} cfg {event : BrokerOrderEvent}, T.receipt t event.externalEventId ≠ none →
    (T.syncEvent t cfg event).2 = t
  sync_next : ∀ {t cfg done event o o'}, Consumed t cfg done → Next c T t done event o o' →
    (∃ e, T.syncEvent t cfg event = (.error e, t)) ∨
    ∃ t', T.syncEvent t cfg event = (.ok true, t') ∧ Consumed t' cfg (done ++ [event]) ∧
      T.get t' event.clientIntentId = .ok o' ∧
      ∀ k r, k ≠ event.clientIntentId → T.get t k = .ok r → T.get t' k = .ok r

variable {c : Decimal.Context} {T : SyncStores τ} (L : Laws c T) {t t' t'' : τ} {id : UUID}

namespace Laws

/-- A step on the order `id` of the OMS: nothing consumed, no other order touched. -/
structure Frame (t t' : τ) (id : UUID) : Prop where
  consumed : ∀ cfg done, L.Consumed t cfg done → L.Consumed t' cfg done
  others : ∀ k r, k ≠ id → T.get t k = .ok r → T.get t' k = .ok r

variable {L}

theorem Frame.refl : L.Frame t t id := ⟨fun _ _ h => h, fun _ _ _ h => h⟩

theorem Frame.trans (h : L.Frame t t' id) (h' : L.Frame t' t'' id) : L.Frame t t'' id :=
  ⟨fun cfg done hc => h'.consumed cfg done (h.consumed cfg done hc),
    fun k r hk hr => h'.others k r hk (h.others k r hk hr)⟩

theorem transition_frame {st : OrderStatus} {actor : String} {o' : PaperOrder}
    (h : T.transition t id st actor = .ok (o', t')) :
    L.Frame t t' id ∧ T.get t' id = .ok o' ∧
      ∃ o, T.get t id = .ok o ∧ o.transition st = .ok o' := by
  obtain ⟨ho, hget, hc, hk⟩ := L.transition_ok h
  exact ⟨⟨hc, hk⟩, hget, ho⟩

theorem progress_frame (L : Laws c T) (id : UUID) (actor : String) (t : τ)
    (sts : List OrderStatus) :
    L.Frame t (T.progress id actor t sts).2 id := by
  induction sts generalizing t with
  | nil => exact .refl
  | cons st rest ih =>
      unfold progress
      split
      · exact .refl
      · rename_i h
        exact (transition_frame h).1.trans (ih _)

theorem progress_acknowledged (L : Laws c T) {o : PaperOrder} (hget : T.get t id = .ok o)
    (hs : o.status = approved) :
    ∃ t', T.progress id "broker_sync" t [submissionPending, submitted, acknowledged] =
        (.ok (), t') ∧ T.get t' id = .ok { o with status := acknowledged } := by
  have h₁ : o.transition submissionPending = .ok { o with status := submissionPending } :=
    PaperOrder.transition_eq_ok.mpr ⟨by simp [hs, transitions], rfl⟩
  have h₂ : PaperOrder.transition { o with status := submissionPending } submitted =
      .ok { o with status := submitted } :=
    PaperOrder.transition_eq_ok.mpr ⟨by simp [transitions], rfl⟩
  have h₃ : PaperOrder.transition { o with status := submitted } acknowledged =
      .ok { o with status := acknowledged } :=
    PaperOrder.transition_eq_ok.mpr ⟨by simp [transitions], rfl⟩
  obtain ⟨t₁, e₁⟩ := L.transition_total hget h₁
  obtain ⟨t₂, e₂⟩ := L.transition_total (L.transition_ok e₁).2.1 h₂
  obtain ⟨t₃, e₃⟩ := L.transition_total (L.transition_ok e₂).2.1 h₃
  refine ⟨t₃, ?_, (L.transition_ok e₃).2.1⟩
  simp only [progress, e₁, e₂, e₃]

/-- The spec of a submission: it touches the order of the intent only, and only if that
is absent or `PROPOSED`; if the adapter takes the order, the OMS acknowledges the same. -/
theorem submit_spec (L : Laws c T) (t : τ) (adapter : SandboxPaperBrokerAdapter)
    (intent : OrderIntent) (riskApproved : Bool) (stamp : EventStamp) :
    let r := (T.submitCheckedAssessment t adapter intent riskApproved stamp).2
    (r = (t, adapter)) ∨
    ((∀ o, T.get t intent.intentId = .ok o → o.status = proposed) ∧
      L.Frame t r.1 intent.intentId ∧
      (r.2 = adapter ∨ ∃ o o', adapter.submit o stamp = .ok (o', r.2) ∧
        o'.intentId = intent.intentId ∧ T.get r.1 intent.intentId = .ok o')) := by
  intro r
  unfold r submitCheckedAssessment
  cases hcreate : T.create t { intent := intent } with
  | error e => exact .inl rfl
  | ok p =>
  obtain ⟨order, t₁⟩ := p
  simp only
  by_cases hp : order.status = proposed
  swap
  · -- an order of this intent exists: it is not new, so nothing was written
    rw [if_pos hp]
    rcases L.create_ok hcreate with ⟨ht, _⟩ | ⟨hnone, ⟨stored, hst, hprop⟩, hc, hk⟩
    · exact .inl (by rw [ht])
    · refine .inr ⟨fun o ho => absurd ho (hnone o), ⟨hc, hk⟩, .inl rfl⟩
  rw [if_neg (not_not.mpr hp)]
  have hframe : L.Frame t t₁ intent.intentId ∧
      ∀ o, T.get t intent.intentId = .ok o → o.status = proposed := by
    rcases L.create_ok hcreate with ⟨ht, hget⟩ | ⟨hnone, _, hc, hk⟩
    · refine ⟨ht ▸ .refl, fun o ho => ?_⟩
      cases hget.symm.trans ho
      exact hp
    · exact ⟨⟨hc, hk⟩, fun o ho => absurd ho (hnone o)⟩
  obtain ⟨hf₁, hprop⟩ := hframe
  refine .inr ⟨hprop, ?_⟩
  cases hpend : T.transition t₁ intent.intentId riskPending "risk" with
  | error e => exact ⟨hf₁, .inl rfl⟩
  | ok p =>
  obtain ⟨pending, t₂⟩ := p
  obtain ⟨hf₂, hget₂, _⟩ := transition_frame hpend
  have hf₂ := hf₁.trans hf₂
  have hid : pending.intentId = intent.intentId := L.intentId_of_get hget₂
  simp only [hid]
  by_cases happ : riskApproved = false
  · rw [if_pos happ]
    cases hrej : T.transition t₂ intent.intentId riskRejected "pre_trade" with
    | error e => exact ⟨hf₂, .inl rfl⟩
    | ok p => exact ⟨hf₂.trans (transition_frame hrej).1, .inl rfl⟩
  rw [if_neg happ]
  cases happr : T.transition t₂ intent.intentId approved "risk" with
  | error e => exact ⟨hf₂, .inl rfl⟩
  | ok p =>
  obtain ⟨o, t₃⟩ := p
  obtain ⟨hf₃, hget₃, _, _, htr⟩ := transition_frame happr
  have hf₃ := hf₂.trans hf₃
  have hoid : o.intentId = intent.intentId := L.intentId_of_get hget₃
  have hos : o.status = approved := by
    obtain ⟨_, rfl⟩ := PaperOrder.transition_eq_ok.mp htr
    rfl
  simp only
  cases hsub : adapter.submit o stamp with
  | error e => exact ⟨hf₃.trans (progress_frame L ..), .inl rfl⟩
  | ok p =>
  obtain ⟨o', adapter'⟩ := p
  obtain ⟨_, _, ho', _⟩ := SandboxPaperBrokerAdapter.submit_eq_ok.mp hsub
  obtain ⟨t₄, hprog, hget₄⟩ := progress_acknowledged L hget₃ hos
  have hf₄ : L.Frame t t₄ intent.intentId := by
    have h := progress_frame L intent.intentId "broker_sync" t₃
      [submissionPending, submitted, acknowledged]
    rw [hprog] at h
    exact hf₃.trans h
  simp only [hprog, ho', ne_eq, not_true_eq_false, if_false]
  refine ⟨hf₄, .inr ⟨o, { o with status := acknowledged }, ?_, hoid, hget₄⟩⟩
  rw [hsub, ho']

/-! ## One broker, followed by the stores -/

def pending (events : List BrokerOrderEvent) (n : ℕ) (id : UUID) : List BrokerOrderEvent :=
  (events.drop n).filter fun event => decide (event.clientIntentId = id)

/-- The stores have consumed the first events of the adapter, the running call is not
ahead of them, and each order of the adapter is the one in the OMS moved by the events
still to come. -/
structure Follows (L : Laws c T) (t : τ) (s : SandboxPaperBrokerAdapter)
    (todo : List BrokerOrderEvent) (n : ℕ) : Prop where
  le : n ≤ s.events.length
  consumed : L.Consumed t s.configuration (s.events.take n)
  todo : ∃ j ≤ n, todo <+: s.events.drop j
  orders : ∀ id o, s.orders.find? id = some o → ∃ o₀, T.get t id = .ok o₀ ∧
    o₀.status ≠ proposed ∧
    Replay.replay (fun o e => BrokerOrderEvent.applyTo c e o) o₀ (pending s.events n id) = .ok o

namespace Follows

variable {s s' : SandboxPaperBrokerAdapter} {todo : List BrokerOrderEvent} {n issued : ℕ}
  {event : BrokerOrderEvent} {o o' : PaperOrder} {stamp : EventStamp}

theorem frame (h : Follows L t s todo n) (hf : L.Frame t t' id)
    (hid : ∀ o, T.get t id = .ok o → o.status = proposed) : Follows L t' s todo n := by
  refine ⟨h.le, hf.consumed _ _ h.consumed, h.todo, ?_⟩
  intro k r hr
  obtain ⟨o₀, hget, hp, hrep⟩ := h.orders k r hr
  refine ⟨o₀, hf.others k o₀ ?_ hget, hp, hrep⟩
  rintro rfl
  exact hp (hid o₀ hget)

theorem pending_snoc {events : List BrokerOrderEvent} (hn : n ≤ events.length) :
    pending (events ++ [event]) n id =
      pending events n id ++ if event.clientIntentId = id then [event] else [] := by
  unfold pending
  rw [List.drop_append_of_le_length hn, List.filter_append]
  by_cases h : event.clientIntentId = id <;> simp [h]

theorem emit (h : Follows L t s todo n) (he : s.Emits c stamp o' event s')
    (hnew : ∃ o₀ o, T.get t o'.intentId = .ok o₀ ∧ o₀.status ≠ proposed ∧
      Replay.replay (fun o e => BrokerOrderEvent.applyTo c e o) o₀
        (pending s.events n o'.intentId) = .ok o ∧ event.applyTo c o = .ok o') :
    Follows L t s' todo n := by
  refine ⟨?_, ?_, ?_, ?_⟩
  · rw [he.events, List.length_append]
    exact Nat.le_add_right_of_le h.le
  · rw [he.events, he.configuration, List.take_append_of_le_length h.le]
    exact h.consumed
  · obtain ⟨j, hj, hpre⟩ := h.todo
    refine ⟨j, hj, ?_⟩
    rw [he.events, List.drop_append_of_le_length (hj.trans h.le)]
    exact hpre.trans (List.prefix_append _ _)
  · intro k r hr
    rw [he.events, pending_snoc h.le, he.intentId]
    rw [he.orders] at hr
    by_cases hk : o'.intentId = k
    · subst hk
      rw [Table.find?_put_self] at hr
      cases hr
      obtain ⟨o₀, o, hget, hp, hrep, happ⟩ := hnew
      rw [if_pos rfl]
      exact ⟨o₀, hget, hp, Replay.replay_snoc_ok hrep happ⟩
    · rw [Table.find?_put_of_ne hk] at hr
      rw [if_neg hk, List.append_nil]
      exact h.orders k r hr

theorem call (h : Follows L t s todo n) {a : BrokerCall} (hs : ∀ o st, a ≠ .submit o st)
    (hc : s.call c a = .ok (o', s')) : Follows L t s' todo n := by
  obtain ⟨event, he⟩ := SandboxPaperBrokerAdapter.call_emits hc
  refine h.emit he ?_
  rcases he.order with ⟨hnone, _⟩ | ⟨o, row, happ⟩
  · -- only a submission writes an order that was not there
    exfalso
    cases a with
    | submit o st => exact hs o st rfl
    | cancel id st =>
        obtain ⟨o, row, _, rfl, _⟩ := SandboxPaperBrokerAdapter.cancel_eq_ok.mp hc
        rw [show PaperOrder.intentId { o with status := cancelled } = id from
          (Table.key_of_find? row :), row] at hnone
        cases hnone
    | replace id q p st =>
        obtain ⟨o, row, _, rfl, _⟩ := SandboxPaperBrokerAdapter.replace_eq_ok.mp hc
        rw [PaperOrder.withTerms_intentId, Table.key_of_find? row, row] at hnone
        cases hnone
    | simulateFill ext id q p fee st =>
        obtain ⟨_, o, row, hf, _⟩ := SandboxPaperBrokerAdapter.simulateFill_eq_ok.mp hc
        rw [PaperOrder.intentId_of_fill hf, Table.key_of_find? row, row] at hnone
        cases hnone
  · obtain ⟨o₀, hget, hp, hrep⟩ := h.orders _ o row
    exact ⟨o₀, o, hget, hp, hrep, happ⟩

theorem submit (h : Follows L t s todo n) (hlog : s.LogSound issued)
    (hsub : s.submit o stamp = .ok (o', s')) (hget : T.get t o'.intentId = .ok o') :
    Follows L t s' todo n := by
  obtain ⟨ho, hnone, event, htype, he⟩ := SandboxPaperBrokerAdapter.submit_emits (c := c) hsub
  have hpend : pending s.events n o'.intentId = [] := by
    refine List.filter_eq_nil_iff.mpr ?_
    intro e hmem hid
    refine absurd hnone ((hlog.orders o'.intentId).mpr ⟨e, List.mem_of_mem_drop hmem, ?_⟩)
    simpa using hid
  have happ : event.applyTo c o' = .ok o' := by
    refine (BrokerOrderEvent.applyTo_other ?_ ?_ ?_).mpr rfl <;> rw [htype] <;> decide
  refine h.emit he ⟨o', o', hget, ?_, ?_, happ⟩
  · rw [ho]
    simp
  · rw [hpend]
    rfl

theorem fetch (h : Follows L t s todo n) (hlog : s.LogSound issued) {last : ℤ}
    {events : List BrokerOrderEvent} (hlast : T.lastSequence t s.configuration = .ok last)
    (hev : s.orderEvents last = .ok events) : Follows L t s events n := by
  obtain ⟨rfl, hpos⟩ := hlog.orderEvents_eq hev
  refine ⟨h.le, h.consumed, ⟨last.toNat, ?_, List.prefix_refl _⟩, h.orders⟩
  have hle := L.lastSequence_le h.consumed hlast
  rw [List.length_take, min_eq_left h.le] at hle
  omega

theorem abort (h : Follows L t s todo n) : Follows L t s [] n :=
  ⟨h.le, h.consumed, ⟨0, Nat.zero_le _, List.nil_prefix⟩, h.orders⟩

theorem next_of_getElem? (h : Follows L t s todo n) (hlog : s.LogSound issued)
    (he : s.events[n]? = some event) :
    ∃ o₀ o₁, T.Next c t (s.events.take n) event o₀ o₁ ∧ o₁.status ≠ proposed ∧
      ∀ o, s.orders.find? event.clientIntentId = some o →
        Replay.replay (fun o e => BrokerOrderEvent.applyTo c e o) o₁
          (pending s.events (n + 1) event.clientIntentId) = .ok o := by
  have hmem : event ∈ s.events := List.mem_of_getElem? he
  have hbefore : ∀ e ∈ s.events.take n, ∃ i < n, s.events[i]? = some e := by
    intro e hin
    obtain ⟨i, hi⟩ := List.mem_iff_getElem?.mp hin
    rw [List.getElem?_take] at hi
    split at hi
    · exact ⟨i, ‹i < n›, hi⟩
    · cases hi
  obtain ⟨o, row⟩ := Option.ne_none_iff_exists'.mp
    ((hlog.orders event.clientIntentId).mpr ⟨event, hmem, rfl⟩)
  obtain ⟨o₀, hget, hp, hrep⟩ := h.orders _ o row
  have hdrop : s.events.drop n = event :: s.events.drop (n + 1) := by
    obtain ⟨hlt, heq⟩ := List.getElem?_eq_some_iff.mp he
    rw [List.drop_eq_getElem_cons hlt, heq]
  have hsplit : s.events = s.events.take n ++ event :: s.events.drop (n + 1) := by
    rw [← hdrop, List.take_append_drop]
  have hpend : pending s.events n event.clientIntentId =
      event :: pending s.events (n + 1) event.clientIntentId := by
    unfold pending
    rw [hdrop, List.filter_cons_of_pos (by simp)]
  rw [hpend] at hrep
  obtain ⟨o₁, happ, hrep⟩ := Except.bind_eq_ok.mp hrep
  refine ⟨o₀, o₁, ?_, (BrokerOrderEvent.intentId_of_applyTo happ).2 hp, ?_⟩
  swap
  · intro o' row'
    cases row.symm.trans row'
    exact hrep
  refine ⟨?_, ?_, ?_, ?_, ?_, ?_, hlog.aware event hmem, hget, happ⟩
  · rw [List.length_take, min_eq_left h.le]
    exact (hlog.numbered n event he).1
  · rw [(hlog.numbered n event he).2]
    simp [blank, String.toList_append, isSpace]
  · intro e hin heq
    obtain ⟨i, hi, hei⟩ := hbefore e hin
    exact hi.ne (hlog.externalEventId_inj hei he heq)
  · intro e hin heq
    have hnodup := hlog.nodup
    rw [hsplit, List.map_append] at hnodup
    exact (List.nodup_append.mp hnodup).2.2 e.eventId (List.mem_map.mpr ⟨e, hin, rfl⟩)
      event.eventId (by simp) heq
  · intro e hin heq
    obtain ⟨i, hi, hei⟩ := hbefore e hin
    rw [(hlog.numbered i e hei).1, (hlog.numbered n event he).1] at heq
    omega
  · intro ext hext
    have hfills : s.fillIds = (s.events.take n).filterMap BrokerOrderEvent.fillId ++
        (event :: s.events.drop (n + 1)).filterMap BrokerOrderEvent.fillId := by
      rw [← hlog.fillIds, ← List.filterMap_append, ← hsplit]
    have hright : ext ∈ (event :: s.events.drop (n + 1)).filterMap BrokerOrderEvent.fillId :=
      List.mem_filterMap.mpr ⟨event, List.mem_cons_self, hext⟩
    refine ⟨hlog.notBlank ext (hfills ▸ List.mem_append_right _ hright), ?_⟩
    intro e hin hext'
    have hnodup := hlog.fresh
    rw [hfills] at hnodup
    exact (List.nodup_append.mp hnodup).2.2 ext (List.mem_filterMap.mpr ⟨e, hin, hext'⟩) ext hright
      rfl

/-- The running call looks at its next event: it is skipped, refused, or the stores
follow the adapter one event further. -/
theorem sync (h : Follows L t s (event :: todo) n) (hlog : s.LogSound issued) :
    (∃ stored, (T.syncEvent t s.configuration event).1 = .ok stored ∧
      ∃ n', Follows L (T.syncEvent t s.configuration event).2 s todo n') ∨
    (∃ e, (T.syncEvent t s.configuration event).1 = .error e ∧
      Follows L (T.syncEvent t s.configuration event).2 s [] n) := by
  obtain ⟨j, hj, hpre⟩ := h.todo
  have hdrop : ∃ rest, s.events.drop j = event :: rest ∧ todo <+: rest := by
    obtain ⟨more, hmore⟩ := hpre
    exact ⟨todo ++ more, hmore.symm, List.prefix_append _ _⟩
  obtain ⟨rest, hrest, htodo⟩ := hdrop
  have hnext : s.events[j]? = some event := by
    rw [← List.head?_drop, hrest]
    rfl
  have htail : rest = s.events.drop (j + 1) := by
    rw [← List.tail_drop, hrest]
    rfl
  rw [htail] at htodo
  rcases hj.lt_or_eq with hlt | rfl
  · -- already consumed, by an earlier call
    have hin : event ∈ s.events.take n := by
      refine List.mem_iff_getElem?.mpr ⟨j, ?_⟩
      rw [List.getElem?_take, if_pos hlt]
      exact hnext
    have hrec := L.receipt_of_mem h.consumed hin
    have hst : (T.syncEvent t s.configuration event).2 = t :=
      L.sync_seen s.configuration (by rw [hrec]; simp)
    rw [hst]
    cases hr : (T.syncEvent t s.configuration event).1 with
    | ok stored => exact .inl ⟨stored, rfl, n, h.le, h.consumed, ⟨j + 1, hlt, htodo⟩, h.orders⟩
    | error e => exact .inr ⟨e, rfl, h.abort⟩
  · obtain ⟨o₀, o₁, hN, hp, hrep⟩ := h.next_of_getElem? hlog hnext
    rcases L.sync_next h.consumed hN with ⟨e, hs⟩ | ⟨t', hs, hc, hget, hk⟩
    · rw [hs]
      exact .inr ⟨e, rfl, h.abort⟩
    rw [hs]
    refine .inl ⟨true, rfl, j + 1, ?_, ?_, ⟨j + 1, le_rfl, htodo⟩, ?_⟩
    · exact (List.getElem?_eq_some_iff.mp hnext).1
    · rw [List.take_add_one, hnext]
      exact hc
    · intro k o row
      by_cases hid : k = event.clientIntentId
      · subst hid
        exact ⟨o₁, hget, hp, hrep o row⟩
      · obtain ⟨r₀, hget₀, hp₀, hrep₀⟩ := h.orders k o row
        have hpend : pending s.events j k = pending s.events (j + 1) k := by
          unfold pending
          rw [hrest, htail, List.filter_cons_of_neg (by simpa using Ne.symm hid)]
        exact ⟨r₀, hk k r₀ hid hget₀, hp₀, hpend ▸ hrep₀⟩

end Follows

end Laws

end SyncStores

/-! ## The pair -/

namespace BrokerPair

open SyncStores SandboxPaperBrokerAdapter

variable {τ : Type} {c : Decimal.Context} {T : SyncStores τ} {L : Laws c T} {σ : BrokerPair τ}

/-- In every reachable state: sound logs, no event id twice, and while one broker has no
event the stores follow the other. -/
structure Inv (L : Laws c T) (σ : BrokerPair τ) : Prop where
  logs : ∀ b, (σ.brokers b).LogSound σ.issued
  disjoint : ∀ b, ∀ e ∈ (σ.brokers b).events, ∀ e' ∈ (σ.brokers !b).events, e.eventId ≠ e'.eventId
  follows : ∀ b, (σ.brokers !b).events = [] →
    σ.todo (!b) = [] ∧ ∃ n, L.Follows σ.stores (σ.brokers b) (σ.todo b) n

/-- What a step makes of the adapter of one broker: nothing, or one event with the next
event id. -/
def Emitted (c : Decimal.Context) (s : SandboxPaperBrokerAdapter) (issued : ℕ)
    (s' : SandboxPaperBrokerAdapter) : Prop :=
  s' = s ∨ ∃ stamp o' event, s.Emits c stamp o' event s' ∧ stamp.eventId = issued ∧
    stamp.occurredAt.isAware = true

variable {b : Bool} {s' : SandboxPaperBrokerAdapter}

theorem Emitted.eq_of_nil {s : SandboxPaperBrokerAdapter} {issued : ℕ}
    (h : Emitted c s issued s') (hnil : s'.events = []) : s' = s := by
  rcases h with h | ⟨_, _, _, he, _, _⟩
  · exact h
  · rw [he.events] at hnil
    simp at hnil

theorem update_not : Function.update σ.brokers b s' (!b) = σ.brokers (!b) := by
  rw [Function.update_of_ne]
  cases b <;> decide

theorem Inv.emitted (h : Inv L σ) (he : Emitted c (σ.brokers b) σ.issued s') :
    (∀ b', (Function.update σ.brokers b s' b').LogSound (σ.issued + 1)) ∧
    ∀ b', ∀ e ∈ (Function.update σ.brokers b s' b').events,
      ∀ e' ∈ (Function.update σ.brokers b s' !b').events, e.eventId ≠ e'.eventId := by
  have hlog : s'.LogSound (σ.issued + 1) := by
    rcases he with rfl | ⟨_, _, _, he, hid, haware⟩
    · exact (h.logs b).mono
    · exact (h.logs b).emit he hid haware
  have hdis : ∀ e ∈ s'.events, ∀ e' ∈ (σ.brokers !b).events, e.eventId ≠ e'.eventId := by
    intro e hmem e' hmem'
    rcases he with rfl | ⟨_, _, _, he, hid, _⟩
    · exact h.disjoint b e hmem e' hmem'
    rw [he.events] at hmem
    rcases List.mem_append.mp hmem with hmem | hmem
    · exact h.disjoint b e hmem e' hmem'
    · rw [List.mem_singleton.mp hmem, he.stamp.1, hid]
      exact ((h.logs !b).issued e' hmem').ne'
  constructor
  · intro b'
    rcases Bool.eq_or_eq_not b' b with rfl | rfl
    · rw [Function.update_self]
      exact hlog
    · rw [update_not]
      exact (h.logs _).mono
  · intro b'
    rcases Bool.eq_or_eq_not b' b with rfl | rfl
    · rw [Function.update_self, update_not]
      exact hdis
    · rw [Bool.not_not, Function.update_self, update_not]
      exact fun e hmem e' hmem' => (hdis e' hmem' e hmem).symm

theorem Inv.opened (L : Laws c T) (configuration : Bool → BrokerConfiguration)
    (cash : Bool → CashBalance) : Inv L (BrokerPair.opened T configuration cash) := by
  refine ⟨fun _ => .opened _ _, fun _ _ he => absurd he List.not_mem_nil, ?_⟩
  intro b _
  refine ⟨rfl, 0, Nat.zero_le _, L.consumed_empty _, ⟨0, le_rfl, List.nil_prefix⟩, ?_⟩
  intro id o ho
  simp [BrokerPair.opened, SandboxPaperBrokerAdapter.opened] at ho

theorem Inv.emit_step (h : Inv L σ) (he : Emitted c (σ.brokers b) σ.issued s') {t' : τ}
    (hown : ∀ todo n, L.Follows σ.stores (σ.brokers b) todo n → L.Follows t' s' todo n)
    (hother : ∀ todo n, L.Follows σ.stores (σ.brokers !b) todo n →
      L.Follows t' (σ.brokers !b) todo n) :
    Inv L ⟨t', Function.update σ.brokers b s', σ.todo, σ.issued + 1⟩ := by
  obtain ⟨hlogs, hdis⟩ := h.emitted he
  refine ⟨hlogs, hdis, ?_⟩
  intro b₀ hnil
  simp only at hnil ⊢
  rcases Bool.eq_or_eq_not b₀ b with rfl | rfl
  · rw [update_not] at hnil
    obtain ⟨hidle, n, hf⟩ := h.follows b₀ hnil
    rw [Function.update_self]
    exact ⟨hidle, n, hown _ n hf⟩
  · rw [Bool.not_not, Function.update_self] at hnil
    rw [he.eq_of_nil hnil] at hnil
    obtain ⟨hidle, n, hf⟩ := h.follows (!b) (by rw [Bool.not_not]; exact hnil)
    rw [update_not]
    exact ⟨hidle, n, hother _ n hf⟩

theorem Inv.sync_step (h : Inv L σ) {t' : τ} {todo' : List BrokerOrderEvent}
    (hown : ∀ n, L.Follows σ.stores (σ.brokers b) (σ.todo b) n →
      ∃ n', L.Follows t' (σ.brokers b) todo' n')
    (hidle : (σ.brokers b).events = [] → σ.todo b = [] → t' = σ.stores ∧ todo' = []) :
    Inv L { σ with stores := t', todo := Function.update σ.todo b todo' } := by
  refine ⟨h.logs, h.disjoint, ?_⟩
  intro b₀ hnil
  simp only at hnil ⊢
  rcases Bool.eq_or_eq_not b₀ b with rfl | rfl
  · obtain ⟨hnone, n, hf⟩ := h.follows b₀ hnil
    rw [Function.update_self, Function.update_of_ne (by cases b₀ <;> decide)]
    exact ⟨hnone, hown n hf⟩
  · rw [Bool.not_not] at hnil ⊢
    obtain ⟨hnone, n, hf⟩ := h.follows (!b) (by rw [Bool.not_not]; exact hnil)
    rw [Bool.not_not] at hnone
    obtain ⟨rfl, rfl⟩ := hidle hnil hnone
    rw [Function.update_self, Function.update_of_ne (by cases b <;> decide)]
    exact ⟨rfl, n, hf⟩

theorem Inv.submit (h : Inv L σ) (b : Bool) (intent : OrderIntent) (riskApproved : Bool)
    (now : ℤ) : Inv L (σ.step T c (.submit b intent riskApproved now)) := by
  have hspec := L.submit_spec σ.stores (σ.brokers b) intent riskApproved ⟨σ.issued, .aware now⟩
  simp only [step]
  revert hspec
  generalize (T.submitCheckedAssessment σ.stores (σ.brokers b) intent riskApproved
    ⟨σ.issued, .aware now⟩).2 = r
  obtain ⟨t', s'⟩ := r
  intro hspec
  simp only [Prod.mk.injEq] at hspec
  rcases hspec with ⟨rfl, rfl⟩ | ⟨hprop, hframe, rfl | ⟨o, o', hsub, hid, hget⟩⟩
  · exact h.emit_step (.inl rfl) (fun _ _ hf => hf) (fun _ _ hf => hf)
  · exact h.emit_step (.inl rfl) (fun _ _ hf => hf.frame hframe hprop)
      (fun _ _ hf => hf.frame hframe hprop)
  · obtain ⟨_, _, event, _, he⟩ := submit_emits (c := c) hsub
    exact h.emit_step (.inr ⟨_, o', event, he, rfl, rfl⟩)
      (fun _ _ hf => (hf.frame hframe hprop).submit (h.logs b) hsub (hid ▸ hget))
      (fun _ _ hf => hf.frame hframe hprop)

theorem Inv.broker (h : Inv L σ) (b : Bool) (a : BrokerAction) (now : ℤ) :
    Inv L (σ.step T c (.broker b a now)) := by
  have hcall : ∀ o st, a.call ⟨σ.issued, .aware now⟩ ≠ .submit o st := by
    intro o st
    cases a <;> simp [BrokerAction.call]
  have hstamp : (a.call ⟨σ.issued, .aware now⟩).stamp = ⟨σ.issued, .aware now⟩ := by
    cases a <;> rfl
  simp only [step, SandboxPaperBrokerAdapter.step]
  cases hc : (σ.brokers b).call c (a.call ⟨σ.issued, .aware now⟩) with
  | error e => exact h.emit_step (.inl rfl) (fun _ _ hf => hf) (fun _ _ hf => hf)
  | ok r =>
      obtain ⟨event, he⟩ := call_emits hc
      exact h.emit_step (.inr ⟨_, r.1, event, he, by rw [hstamp], by rw [hstamp]; rfl⟩)
        (fun _ _ hf => hf.call hcall hc) (fun _ _ hf => hf)

theorem Inv.fetch (h : Inv L σ) (b : Bool) : Inv L (σ.step T c (.fetch b)) := by
  simp only [step]
  cases hfetch : σ.fetched T b with
  | error e => exact h.sync_step (fun n hf => ⟨n, hf.abort⟩) (fun _ _ => ⟨rfl, rfl⟩)
  | ok events =>
      obtain ⟨last, hlast, hev⟩ := Except.bind_eq_ok.mp hfetch
      refine h.sync_step (fun n hf => ⟨n, hf.fetch (h.logs b) hlast hev⟩) fun hnil _ => ⟨rfl, ?_⟩
      obtain ⟨rfl, _⟩ := (h.logs b).orderEvents_eq hev
      rw [hnil, List.drop_nil]
      rfl

theorem Inv.next (h : Inv L σ) (b : Bool) : Inv L (σ.step T c (.next b)) := by
  simp only [step]
  cases htodo : σ.todo b with
  | nil => exact h
  | cons event rest =>
  have hsync := fun n (hf : L.Follows σ.stores (σ.brokers b) (σ.todo b) n) =>
    (htodo ▸ hf).sync (h.logs b)
  have hsome : σ.todo b ≠ [] := by simp [htodo]
  simp only
  revert hsync
  generalize T.syncEvent σ.stores (σ.brokers b).configuration event = r
  obtain ⟨ans, t'⟩ := r
  intro hsync
  cases ans with
  | ok stored =>
      refine h.sync_step (fun n hf => ?_) fun _ hnone => absurd hnone hsome
      rcases hsync n hf with ⟨_, _, hok⟩ | ⟨_, herr, _⟩
      · exact hok
      · cases herr
  | error e =>
      refine h.sync_step (fun n hf => ?_) fun _ hnone => absurd hnone hsome
      rcases hsync n hf with ⟨_, hok, _⟩ | ⟨_, _, herr⟩
      · cases hok
      · exact ⟨n, herr⟩

theorem Inv.step (h : Inv L σ) (a : PairAction) : Inv L (σ.step T c a) := by
  cases a with
  | submit b intent riskApproved now => exact h.submit b intent riskApproved now
  | broker b a now => exact h.broker b a now
  | fetch b => exact h.fetch b
  | next b => exact h.next b

theorem Inv.orders_of_nil (h : Inv L σ) (hnil : (σ.brokers b).events = []) (id : UUID) :
    (σ.brokers b).orders.find? id = none := by
  by_contra hne
  obtain ⟨e, he, _⟩ := ((h.logs b).orders id).mp hne
  rw [hnil] at he
  cases he

theorem Inv.synced (h : Inv L σ) (hnil : (σ.brokers !b).events = []) (hsync : σ.FullySynced T) :
    (∀ id o, (σ.brokers b).orders.find? id = some o → T.get σ.stores id = .ok o) ∧
    ∀ event ∈ (σ.brokers b).events,
      T.receipt σ.stores event.externalEventId = some event.eventId := by
  obtain ⟨_, n, hf⟩ := h.follows b hnil
  obtain ⟨events, hfetch, hseen⟩ := hsync b
  obtain ⟨last, hlast, hev⟩ := Except.bind_eq_ok.mp hfetch
  obtain ⟨rfl, hpos⟩ := (h.logs b).orderEvents_eq hev
  have hle := L.lastSequence_le hf.consumed hlast
  rw [List.length_take, min_eq_left hf.le] at hle
  -- the first event that is not consumed would be read, and has no receipt
  have hall : n = (σ.brokers b).events.length := by
    by_contra hne
    have hlt : n < (σ.brokers b).events.length := lt_of_le_of_ne hf.le hne
    have hn := List.getElem?_eq_getElem hlt
    have hmem : (σ.brokers b).events[n] ∈ (σ.brokers b).events.drop last.toNat := by
      refine List.mem_iff_getElem?.mpr ⟨n - last.toNat, ?_⟩
      rw [List.getElem?_drop, show last.toNat + (n - last.toNat) = n by omega]
      exact hn
    obtain ⟨e, he, hext⟩ := L.mem_of_receipt hf.consumed (hseen _ hmem)
    obtain ⟨i, hi⟩ := List.mem_iff_getElem?.mp he
    rw [List.getElem?_take] at hi
    split at hi
    · rename_i hin
      exact hin.ne ((h.logs b).externalEventId_inj hi hn hext)
    · cases hi
  have hconsumed := hf.consumed
  rw [hall, List.take_length] at hconsumed
  refine ⟨?_, fun event he => L.receipt_of_mem hconsumed he⟩
  intro id o row
  obtain ⟨o₀, hget, _, hrep⟩ := hf.orders id o row
  rw [hall, Laws.pending, List.drop_length] at hrep
  cases hrep
  exact hget

theorem Inv.suppressed (h : Inv L σ) (h₀ : (σ.brokers false).events ≠ [])
    (h₁ : (σ.brokers true).events ≠ []) : ¬ σ.NoneSuppressed T := by
  intro hnone
  obtain ⟨e₀, rest₀, he₀⟩ := List.exists_cons_of_ne_nil h₀
  obtain ⟨e₁, rest₁, he₁⟩ := List.exists_cons_of_ne_nil h₁
  have hm₀ : e₀ ∈ (σ.brokers false).events := by simp [he₀]
  have hm₁ : e₁ ∈ (σ.brokers true).events := by simp [he₁]
  have hx₀ := ((h.logs false).numbered 0 e₀ (by simp [he₀])).2
  have hx₁ := ((h.logs true).numbered 0 e₁ (by simp [he₁])).2
  have hr₀ := hnone false e₀ hm₀
  have hr₁ := hnone true e₁ hm₁
  rw [hx₀] at hr₀
  rw [hx₁, hr₀] at hr₁
  exact h.disjoint false e₀ hm₀ e₁ hm₁ (Option.some.inj hr₁)

/-- Over any stores that obey the laws: after every run, once both brokers are fully
synced, their orders agree with the OMS and none of their events is suppressed precisely
when one of them never had an event. -/
theorem agree_iff (L : Laws c T) (configuration : Bool → BrokerConfiguration)
    (cash : Bool → CashBalance) (actions : List PairAction) :
    let σ := run T c configuration cash actions
    σ.FullySynced T → (σ.OrdersAgree T ∧ σ.NoneSuppressed T ↔
      (σ.brokers false).events = [] ∨ (σ.brokers true).events = []) := by
  intro σ hsync
  have hinv : Inv L σ := by
    have hrun : Run.Each (step T c) (fun _ _ => True) (opened T configuration cash) actions :=
      .of_forall fun _ _ _ => trivial
    exact (hrun.always (fun s a h _ => h.step a) (.opened L configuration cash)).exec
  constructor
  · rintro ⟨_, hnone⟩
    by_contra hboth
    rw [not_or] at hboth
    exact hinv.suppressed hboth.1 hboth.2 hnone
  · intro hone
    have hb : ∃ b, (σ.brokers !b).events = [] := by
      rcases hone with h | h
      · exact ⟨true, h⟩
      · exact ⟨false, h⟩
    obtain ⟨b, hnil⟩ := hb
    obtain ⟨horders, hreceipts⟩ := hinv.synced hnil hsync
    constructor
    · intro b' id o row
      rcases Bool.eq_or_eq_not b' b with rfl | rfl
      · exact ⟨o, horders id o row, rfl, rfl, rfl⟩
      · rw [hinv.orders_of_nil hnil id] at row
        cases row
    · intro b' event he
      rcases Bool.eq_or_eq_not b' b with rfl | rfl
      · exact hreceipts event he
      · rw [hnil] at he
        cases he

end BrokerPair

end TradePlatform
