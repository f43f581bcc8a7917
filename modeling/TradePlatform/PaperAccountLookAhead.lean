/-
# `TradePlatform.PaperAccountLookAhead` — a later ledger decides as the earlier one did

The events of a ledger as of one instant are the first events of the ledger as of a later
one, in the same order.  An event adds to the decided orders what it decides, and changes
none that was decided before.  So the orders decided up to an instant are the same in the
ledger as of that instant and in every later one, the outcome of their executions aside.
-/
import TradePlatform.PaperAccountSteps

namespace TradePlatform

/-! ## What an order carries from its decision -/

def AccountOrder.decided (order : AccountOrder) : AccountOrder :=
  { order with reasons := order.reasons.filter fun reason => decide (reason ≠ zeroQuantityReason) }

/-- What a recorded order carries from its decision, the outcome of the execution aside. -/
def LedgerOrder.decided (o : LedgerOrder) : AccountOrder := o.order.decided

def AccountOrder.sortKey (order : AccountOrder) : ℤ ×ₗ String ×ₗ String ×ₗ String :=
  toLex (order.decidedAt, toLex (order.studyId, toLex (order.trialId, order.signalId)))

theorem decided_of_records {order : AccountOrder} {o : LedgerOrder}
    (h : LedgerState.Records order o) : o.decided = order.decided := by
  rcases h with h | h
  · rw [LedgerOrder.decided, h]
  · rw [LedgerOrder.decided, h]
    simp [AccountOrder.decided, AccountOrder.atZeroQuantity]

theorem keyTells_orders {l : List AccountOrder} (h : (l.map AccountOrder.signalId).Nodup) :
    KeyTells AccountOrder.sortKey l := by
  intro x hx y hy hkey
  simp only [AccountOrder.sortKey, EmbeddingLike.apply_eq_iff_eq, Prod.mk.injEq] at hkey
  exact List.inj_on_of_nodup_map h hx hy hkey.2.2.2

def decisionIds (events : List LedgerEvent) : List String :=
  (events.filter fun e => decide (e.kind = .decision)).map fun e => e.fill.signalId

/-! ## One event -/

namespace LedgerState

variable {a : Decimal.Arithmetic} {t : AccountTerms} {signals : Dict String SignalIdentity}
  {s s' : LedgerState} {fill : PaperFillV1} {instant : ℤ} {e : LedgerEvent}

def decidedOrders (s : LedgerState) : List AccountOrder := s.allOrders.map LedgerOrder.decided

theorem decidedOrders_eq (s : LedgerState) : s.decidedOrders =
    s.orders.map LedgerOrder.decided ++ s.pending.values.map fun item => item.order.decided := by
  simp [decidedOrders, allOrders, LedgerOrder.decided]

def Named (s : LedgerState) : Prop :=
  ∀ id item, s.pending.get? id = some item → item.order.signalId = id

theorem Named.mem (hn : Named s) {id : String} {item : PendingOrder}
    (h : s.pending.get? id = some item) : id ∈ s.decidedOrders.map AccountOrder.signalId := by
  rw [decidedOrders_eq, List.map_append]
  refine List.mem_append_right _ (List.mem_map.mpr ⟨item.order.decided, ?_, hn id item h⟩)
  exact List.mem_map_of_mem (Dict.mem_values.mpr ⟨id, h⟩)

def Adds (e : LedgerEvent) (new : List AccountOrder) : Prop :=
  new.map AccountOrder.signalId = decisionIds [e] ∧ ∀ o ∈ new, o.decidedAt = e.instant

theorem decidedOrders_meet (s : LedgerState) :
    (s.meet a t e).decidedOrders = s.decidedOrders := by
  simp [decidedOrders_eq]

theorem decidedOrders_execution (h : s.executionEvent a t fill instant = .ok s') :
    s'.decidedOrders.Perm s.decidedOrders := by
  obtain ⟨executed, hexec, hs'⟩ := executionEvent_cases h
  have hsame : s'.decidedOrders = executed.decidedOrders := by
    rcases hs' with ⟨_, rfl⟩ | ⟨_, _, _, rfl⟩ <;> rfl
  rw [hsame]
  rcases executePending_cases hexec with ⟨_, rfl⟩ | ⟨item, done, hitem, hdone, rfl⟩
  · exact List.Perm.refl _
  · obtain ⟨positions, realized, o, ho, _, rfl⟩ := execute_frame hdone
    have hsettle : ∀ r : LedgerState, (r.settleIntended fill).decidedOrders = r.decidedOrders := by
      intro r
      unfold settleIntended
      split <;> rfl
    rw [hsettle, decidedOrders_eq, decidedOrders_eq]
    simp only [List.map_append, List.map_cons, List.map_nil, decided_of_records ho,
      List.append_assoc]
    refine List.Perm.append_left _ ?_
    exact ((Dict.values_perm_erase hitem).map fun item => item.order.decided).symm

theorem decidedOrders_decision (hfresh : s.pending.get? fill.signalId = none)
    (h : s.decisionEvent a t signals fill instant = .ok s') :
    ∃ reasons, s'.decidedOrders.Perm
      (s.decidedOrders ++ [{ s.newOrder fill instant with reasons := reasons }]) := by
  have recorded : ∀ (order : AccountOrder) (decision : OrderDecision) (r : LedgerState),
      r.orders = s.orders ++ [⟨order, decision⟩] → r.pending = s.pending →
        r.decidedOrders.Perm (s.decidedOrders ++ [order.decided]) := by
    intro order decision r horders hpending
    simp only [decidedOrders_eq, horders, hpending, List.map_append, List.map_cons, List.map_nil,
      LedgerOrder.decided, List.append_assoc]
    exact List.Perm.append_left _ List.perm_append_comm
  rcases decisionEvent_cases h with ⟨_, rfl⟩ | ⟨_, h⟩
  · exact ⟨_, recorded (s.newOrder fill instant) _ _ rfl rfl⟩
  · obtain ⟨_, _, _, _, ⟨_, _, reasons, rfl⟩ | ⟨_, item, hitem, rfl⟩⟩ := decideOrder_cases h
    · exact ⟨_, recorded { s.newOrder fill instant with reasons := reasons } _ _ rfl rfl⟩
    · obtain ⟨reasons, horder⟩ := hitem.order
      refine ⟨reasons.filter fun reason => decide (reason ≠ zeroQuantityReason), ?_⟩
      simp only [decidedOrders_eq, Dict.values_set_of_none hfresh, List.map_append, List.map_cons,
        List.map_nil, horder, List.append_assoc]
      exact List.Perm.refl _

theorem decidedOrders_step (hfresh : e.kind = .decision → s.pending.get? e.fill.signalId = none)
    (h : s.step a t signals e = .ok s') :
    ∃ new, Adds e new ∧ s'.decidedOrders.Perm (s.decidedOrders ++ new) := by
  rcases step_cases h with ⟨hkind, h⟩ | ⟨hkind, h⟩
  · refine ⟨[], ⟨by simp [decisionIds, hkind], by simp⟩, ?_⟩
    have hperm : s'.decidedOrders.Perm (s.meet a t e).decidedOrders := decidedOrders_execution h
    rw [decidedOrders_meet] at hperm
    rwa [List.append_nil]
  · have hfresh' : (s.meet a t e).pending.get? e.fill.signalId = none := by
      rw [pending_meet]
      exact hfresh hkind
    obtain ⟨reasons, hperm⟩ := decidedOrders_decision hfresh' h
    rw [decidedOrders_meet] at hperm
    refine ⟨_, ⟨?_, ?_⟩, hperm⟩
    · simp [decisionIds, hkind, newOrder]
    · intro o ho
      rw [List.mem_singleton.mp ho]
      rfl

theorem named_step (hn : Named s) (h : s.step a t signals e = .ok s') : Named s' := by
  intro id item hitem
  rcases pending_step h hitem with hold | ⟨hid, hnew⟩
  · exact hn id item hold
  · obtain ⟨reasons, horder⟩ := hnew.order
    rw [horder]
    exact hid

/-! ## A run of events -/

theorem decidedOrders_run {events : List LedgerEvent} (hn : Named s)
    (hnodup : (decisionIds events).Nodup)
    (hfresh : ∀ id ∈ decisionIds events, id ∉ s.decidedOrders.map AccountOrder.signalId)
    (hrun : Replay.replay (fun s e => LedgerState.step a t signals s e) s events = .ok s') :
    ∃ new, new.map AccountOrder.signalId = decisionIds events ∧
      (∀ o ∈ new, ∃ e ∈ events, o.decidedAt = e.instant) ∧
      s'.decidedOrders.Perm (s.decidedOrders ++ new) := by
  induction events generalizing s with
  | nil =>
      cases hrun
      exact ⟨[], rfl, by simp, by simp⟩
  | cons e events ih =>
      obtain ⟨s₁, hstep, hrun⟩ := Except.bind_eq_ok.mp hrun
      have hids : decisionIds (e :: events) = decisionIds [e] ++ decisionIds events := by
        simp only [decisionIds, ← List.map_append, ← List.filter_append, List.singleton_append]
      rw [hids] at hnodup hfresh
      obtain ⟨_, hrest, hdisjoint⟩ := List.nodup_append.mp hnodup
      have hunnamed : e.kind = .decision → s.pending.get? e.fill.signalId = none := by
        intro hkind
        by_contra hsome
        obtain ⟨item, hitem⟩ := Option.ne_none_iff_exists'.mp hsome
        exact hfresh e.fill.signalId (by simp [decisionIds, hkind]) (hn.mem hitem)
      obtain ⟨first, ⟨hfirst, hat⟩, hperm⟩ := decidedOrders_step hunnamed hstep
      obtain ⟨rest, hrestIds, hrestAt, hrestPerm⟩ := ih (named_step hn hstep) hrest (by
          intro id hid hmem
          have hmem' := (hperm.map AccountOrder.signalId).mem_iff.mp hmem
          rw [List.map_append, List.mem_append, hfirst] at hmem'
          rcases hmem' with hold | hnew
          · exact hfresh id (List.mem_append_right _ hid) hold
          · exact hdisjoint id hnew id hid rfl) hrun
      refine ⟨first ++ rest, by rw [List.map_append, hfirst, hrestIds, hids], ?_, ?_⟩
      · intro o ho
        rcases List.mem_append.mp ho with ho | ho
        · exact ⟨e, List.mem_cons_self, hat o ho⟩
        · obtain ⟨e', he', hat'⟩ := hrestAt o ho
          exact ⟨e', List.mem_cons_of_mem _ he', hat'⟩
      · rw [← List.append_assoc]
        exact hrestPerm.trans (hperm.append_right rest)

theorem named_initial (t : AccountTerms) : Named (initial t) := by
  intro id item hitem
  cases hitem

end LedgerState

/-! ## The events as of an earlier instant -/

section Events

variable {signalHash : SignalIdentity → String} {signals : Dict String SignalIdentity}
  {fills : List PaperFillV1} {events events₁ events₂ : List LedgerEvent} {cutoff c₁ c₂ : ℤ}

theorem cutoffOf_mono {asOf₁ asOf₂ : ℤ} (h : asOf₁ ≤ asOf₂) : cutoffOf asOf₁ ≤ cutoffOf asOf₂ :=
  Binary64.ofInt_mono h

/-- Of the events of a fill up to a later cutoff, those up to the earlier one are its events
up to that one: no fill is known before it is decided. -/
theorem filter_eventsUpTo {fill : PaperFillV1} (hle : c₁ ≤ c₂)
    (hfill : Acceptable signalHash signals fill) :
    (fill.eventsUpTo c₂).filter (fun e => decide (e.instant ≤ c₁)) = fill.eventsUpTo c₁ := by
  obtain ⟨⟨known, hknown, hlt⟩, _⟩ := hfill
  simp only [PaperFillV1.eventsUpTo, hknown, PaperFillV1.events]
  by_cases hd : fill.decidedAtMicros ≤ c₁
  · have hd₂ : ¬ c₂ < fill.decidedAtMicros := by omega
    by_cases hk : known ≤ c₁
    · have hk₂ : known ≤ c₂ := hk.trans hle
      simp [hd, hd₂, hk, hk₂]
    · by_cases hk₂ : known ≤ c₂ <;> simp [hd, hd₂, hk, hk₂]
  · have hk : ¬ known ≤ c₁ := by omega
    by_cases hd₂ : c₂ < fill.decidedAtMicros
    · simp [hd₂, not_le.mp hd]
    · by_cases hk₂ : known ≤ c₂ <;> simp [hd, hd₂, hk, hk₂, not_le.mp hd]

theorem ledgerEvents_earlier (hle : c₁ ≤ c₂)
    (h₁ : ledgerEvents signalHash signals c₁ fills = .ok events₁)
    (h₂ : ledgerEvents signalHash signals c₂ fills = .ok events₂) :
    ∃ later, events₂ = events₁ ++ later ∧ ∀ e ∈ later, c₁ < e.instant := by
  obtain ⟨hall, hnodup, rfl⟩ := ledgerEvents_eq_ok.mp h₁
  obtain ⟨_, _, rfl⟩ := ledgerEvents_eq_ok.mp h₂
  have hfilter : (fills.flatMap (PaperFillV1.eventsUpTo c₂)).filter
      (fun e => decide (e.instant ≤ c₁)) = fills.flatMap (PaperFillV1.eventsUpTo c₁) := by
    rw [List.filter_flatMap]
    exact List.flatMap_congr fun fill hfill => filter_eventsUpTo hle (hall fill hfill)
  have hlower : ∀ e e' : LedgerEvent, decide (e'.instant ≤ c₁) = true →
      decide (e.instant ≤ c₁) = false → e'.sortKey ≤ e.sortKey := by
    intro e e' he' he
    rw [decide_eq_true_eq] at he'
    rw [decide_eq_false_iff_not, not_le] at he
    exact (Prod.Lex.toLex_lt_toLex.mpr (.inl (he'.trans_lt he))).le
  have hkey : KeyTells LedgerEvent.sortKey (fills.flatMap (PaperFillV1.eventsUpTo c₂)) :=
    keyTells_events hnodup
  have hsplit := sortBy_lower hkey _ hlower
  rw [hfilter] at hsplit
  refine ⟨_, hsplit, fun e he => ?_⟩
  have hmem := (List.mem_filter.mp (mem_sortBy.mp he)).2
  simpa using hmem

theorem decisionIds_append (l l' : List LedgerEvent) :
    decisionIds (l ++ l') = decisionIds l ++ decisionIds l' := by
  simp [decisionIds]

theorem decisionIds_flatMap (cutoff : ℤ) (fills : List PaperFillV1) :
    (decisionIds (fills.flatMap (PaperFillV1.eventsUpTo cutoff))).Sublist
      (fills.map PaperFillV1.signalId) := by
  induction fills with
  | nil => exact List.Sublist.refl _
  | cons fill fills ih =>
      have hone : (decisionIds (fill.eventsUpTo cutoff)).Sublist [fill.signalId] := by
        unfold PaperFillV1.eventsUpTo
        cases fill.knownAt with
        | error _ => simp [decisionIds]
        | ok known =>
            simp only [PaperFillV1.events]
            split_ifs <;> simp [decisionIds]
      rw [List.flatMap_cons, decisionIds_append]
      exact hone.append ih

theorem nodup_decisionIds (h : ledgerEvents signalHash signals cutoff fills = .ok events) :
    (decisionIds events).Nodup := by
  obtain ⟨_, hnodup, rfl⟩ := ledgerEvents_eq_ok.mp h
  have hperm := ((sortBy_perm LedgerEvent.sortKey
    (fills.flatMap (PaperFillV1.eventsUpTo cutoff))).filter
      fun e => decide (e.kind = .decision)).map fun e => e.fill.signalId
  exact hperm.nodup_iff.mpr (hnodup.sublist (decisionIds_flatMap cutoff fills))

end Events

/-! ## Two ledgers -/

section Ledgers

variable {a : Decimal.Arithmetic} {hash : IdentityHash LedgerIdentity} {policy : AccountPolicyV1}
  {fills : List PaperFillV1} {signals : Dict String SignalIdentity} {cost : CostPolicyV1}
  {asOf : ℤ} {ledger : PaperAccountLedger} {t : AccountTerms} {events : List LedgerEvent}
  {final : LedgerState}

theorem Built.decided
    (h : Built a hash policy fills signals cost asOf ledger t events final) :
    ledger.orders.map LedgerOrder.decided = sortBy AccountOrder.sortKey final.decidedOrders := by
  rw [h.orders]
  have hkey : ∀ o : LedgerOrder, o.decided.sortKey = o.sortKey := fun _ => rfl
  exact map_sortBy LedgerOrder.decided hkey final.allOrders

theorem Built.decidedOrders
    (h : Built a hash policy fills signals cost asOf ledger t events final) :
    (final.decidedOrders.map AccountOrder.signalId).Nodup ∧
      ∀ o ∈ final.decidedOrders, ∃ e ∈ events, o.decidedAt = e.instant := by
  obtain ⟨new, hids, hat, hperm⟩ := LedgerState.decidedOrders_run (LedgerState.named_initial t)
    (nodup_decisionIds h.accepted) (fun _ _ hmem => by cases hmem) h.run
  have hperm' : final.decidedOrders.Perm new := hperm
  refine ⟨?_, fun o ho => hat o (hperm'.mem_iff.mp ho)⟩
  rw [(hperm'.map AccountOrder.signalId).nodup_iff, hids]
  exact nodup_decisionIds h.accepted

theorem Built.later_decides {asOf₁ asOf₂ : ℤ} {ledger₁ ledger₂ : PaperAccountLedger}
    {t₁ t₂ : AccountTerms} {events₁ events₂ : List LedgerEvent} {final₁ final₂ : LedgerState}
    (h₁ : Built a hash policy fills signals cost asOf₁ ledger₁ t₁ events₁ final₁)
    (h₂ : Built a hash policy fills signals cost asOf₂ ledger₂ t₂ events₂ final₂)
    (hle : asOf₁ ≤ asOf₂) :
    ∃ new, final₂.decidedOrders.Perm (final₁.decidedOrders ++ new) ∧
      (∀ o ∈ final₁.decidedOrders, o.decidedAt ≤ cutoffOf asOf₁) ∧
      ∀ o ∈ new, cutoffOf asOf₁ < o.decidedAt := by
  have hterms : t₁ = t₂ := Except.ok.inj (h₁.terms.symm.trans h₂.terms)
  subst hterms
  obtain ⟨later, rfl, hlater⟩ := ledgerEvents_earlier (cutoffOf_mono hle) h₁.accepted h₂.accepted
  have hrun := h₂.run
  rw [Replay.replay_append, h₁.run] at hrun
  have hnodup := nodup_decisionIds h₂.accepted
  rw [decisionIds_append] at hnodup
  obtain ⟨_, hrest, hdisjoint⟩ := List.nodup_append.mp hnodup
  obtain ⟨new₁, hids₁, hat₁, hperm₁⟩ := LedgerState.decidedOrders_run
    (LedgerState.named_initial t₁) (nodup_decisionIds h₁.accepted) (fun _ _ hmem => by cases hmem)
    h₁.run
  have hperm₁' : final₁.decidedOrders.Perm new₁ := hperm₁
  have hnamed : LedgerState.Named final₁ :=
    Replay.replay_inv (fun s e s' hn hs => LedgerState.named_step hn hs)
      (LedgerState.named_initial t₁) h₁.run
  obtain ⟨new, _, hat, hperm⟩ := LedgerState.decidedOrders_run hnamed hrest (by
      intro id hid hmem
      rw [(hperm₁'.map AccountOrder.signalId).mem_iff, hids₁] at hmem
      exact hdisjoint id hmem id hid rfl) hrun
  refine ⟨new, hperm, fun o ho => ?_, fun o ho => ?_⟩
  · obtain ⟨e, he, hinstant⟩ := hat₁ o (hperm₁'.mem_iff.mp ho)
    obtain ⟨_, _, hcut, hkind⟩ := mem_ledgerEvents h₁.accepted he
    rw [hinstant]
    cases hk : e.kind with
    | decision =>
        rw [hk] at hkind
        exact hkind ▸ hcut
    | execution =>
        rw [hk] at hkind
        exact hkind.2
  · obtain ⟨e, he, hinstant⟩ := hat o ho
    rw [hinstant]
    exact hlater e he

/-- No look-ahead.  The orders of a later ledger that were decided up to the cutoff of an
earlier one are the orders of the earlier one, in the same order and as they were decided:
units from, target and risk reasons; and an order that both ledgers hold is the same in
both, as it was decided. -/
theorem later_ledger_decides_as_earlier {asOf₁ asOf₂ : ℤ} {ledger₁ ledger₂ : PaperAccountLedger}
    (h₁ : buildPaperAccountLedgerV1 a hash policy fills signals cost asOf₁ = .ok ledger₁)
    (h₂ : buildPaperAccountLedgerV1 a hash policy fills signals cost asOf₂ = .ok ledger₂)
    (hle : asOf₁ ≤ asOf₂) :
    (ledger₂.orders.filter fun o => decide (o.order.decidedAt ≤ cutoffOf asOf₁)).map
        LedgerOrder.decided = ledger₁.orders.map LedgerOrder.decided ∧
      ∀ o₁ ∈ ledger₁.orders, ∀ o₂ ∈ ledger₂.orders, o₁.order.signalId = o₂.order.signalId →
        o₁.decided = o₂.decided := by
  obtain ⟨t₁, events₁, final₁, hb₁⟩ := built_of_build h₁
  obtain ⟨t₂, events₂, final₂, hb₂⟩ := built_of_build h₂
  obtain ⟨new, hperm, hearly, hlate⟩ := hb₁.later_decides hb₂ hle
  constructor
  · have hmap : (ledger₂.orders.filter fun o => decide (o.order.decidedAt ≤ cutoffOf asOf₁)).map
        LedgerOrder.decided = (ledger₂.orders.map LedgerOrder.decided).filter
          fun o => decide (o.decidedAt ≤ cutoffOf asOf₁) := by
      rw [List.filter_map]
      rfl
    have hfilter : (final₂.decidedOrders.filter fun o => decide (o.decidedAt ≤ cutoffOf asOf₁)).Perm
        final₁.decidedOrders := by
      refine (hperm.filter _).trans ?_
      have hold : final₁.decidedOrders.filter (fun o => decide (o.decidedAt ≤ cutoffOf asOf₁)) =
          final₁.decidedOrders := List.filter_eq_self.mpr fun o ho => by simpa using hearly o ho
      have hnew : new.filter (fun o => decide (o.decidedAt ≤ cutoffOf asOf₁)) = [] :=
        List.filter_eq_nil_iff.mpr fun o ho => by simpa using hlate o ho
      rw [List.filter_append, hold, hnew, List.append_nil]
    have hkey := keyTells_orders hb₂.decidedOrders.1
    rw [hmap, hb₂.decided, ← sortBy_filter hkey, hb₁.decided]
    exact sortBy_congr (hkey.filter _) hfilter
  · intro o₁ ho₁ o₂ ho₂ hid
    have hmem₁ : o₁.decided ∈ final₁.decidedOrders := by
      have hmem := List.mem_map_of_mem (f := LedgerOrder.decided) ho₁
      rw [hb₁.decided] at hmem
      exact mem_sortBy.mp hmem
    have hmem₂ : o₂.decided ∈ final₂.decidedOrders := by
      have hmem := List.mem_map_of_mem (f := LedgerOrder.decided) ho₂
      rw [hb₂.decided] at hmem
      exact mem_sortBy.mp hmem
    exact List.inj_on_of_nodup_map hb₂.decidedOrders.1
      (hperm.mem_iff.mpr (List.mem_append_left _ hmem₁)) hmem₂ hid

end Ledgers

/-- As of 50 seconds the opening is pending; as of 1000 it is filled and closed again, and
decided as it was. -/
theorem opening_decided_once :
    ∃ ledger₁ ledger₂,
      buildPaperAccountLedgerV1 .default smallHash smallPolicy roundTrip (smallSignals roundTrip)
        smallCost (50 * 10 ^ 6) = .ok ledger₁ ∧
      buildPaperAccountLedgerV1 .default smallHash smallPolicy roundTrip (smallSignals roundTrip)
        smallCost (1000 * 10 ^ 6) = .ok ledger₂ ∧
      ledger₁.orders.map LedgerOrder.decision = [.pendingExecution] ∧
      (ledger₂.orders.filter fun o => decide (o.order.decidedAt ≤ cutoffOf (50 * 10 ^ 6))).map
        LedgerOrder.decided = ledger₁.orders.map LedgerOrder.decided := by
  have h₁ : (buildPaperAccountLedgerV1 .default smallHash smallPolicy roundTrip
      (smallSignals roundTrip) smallCost (50 * 10 ^ 6)).toOption.map
        (fun ledger => ledger.orders.map LedgerOrder.decision) = some [.pendingExecution] := by
    decide +kernel
  obtain ⟨ledger₁, hb₁, hd₁⟩ := Option.map_eq_some_iff.mp h₁
  obtain ⟨ledger₂, hb₂⟩ := Except.exists_of_isOk (x := buildPaperAccountLedgerV1 .default smallHash
    smallPolicy roundTrip (smallSignals roundTrip) smallCost (1000 * 10 ^ 6)) (by decide +kernel)
  have hb₁' := Except.toOption_eq_some.mp hb₁
  exact ⟨ledger₁, ledger₂, hb₁', hb₂, hd₁,
    (later_ledger_decides_as_earlier hb₁' hb₂ (by decide)).1⟩

end TradePlatform
