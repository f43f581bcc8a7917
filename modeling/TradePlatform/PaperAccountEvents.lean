/-
# `TradePlatform.PaperAccountEvents` — the events of a ledger, and the order of its input

What the loop over the fills accepts, and the events it makes of them: a fill is accepted
on its own, apart from the rule that a signal has one fill, so the events depend on the
fills and not on their order.  Signals are read by their id only.  Hence a ledger, with its
content hash, is the same for every order of its fills and of its signals.
-/
import TradePlatform.PaperAccountLedger

namespace TradePlatform

variable {signalHash : SignalIdentity → String} {signals signals' : Dict String SignalIdentity}
  {cutoff : ℤ} {fills fills' : List PaperFillV1} {events : List LedgerEvent} {seen : List String}

def SignalMatches (signalHash : SignalIdentity → String) (signals : Dict String SignalIdentity)
    (fill : PaperFillV1) : Prop :=
  (signals.get? fill.signalId).any (signalHash · ≠ fill.signalContentHash) = false

def Acceptable (signalHash : SignalIdentity → String) (signals : Dict String SignalIdentity)
    (fill : PaperFillV1) : Prop :=
  (∃ known, fill.knownAt = .ok known ∧ fill.decidedAtMicros < known) ∧
    SignalMatches signalHash signals fill

def PaperFillV1.eventsUpTo (cutoff : ℤ) (fill : PaperFillV1) : List LedgerEvent :=
  match fill.knownAt with
  | .ok known => fill.events known cutoff
  | .error _ => []

/-! ## Acceptance -/

theorem acceptFills_eq_ok :
    acceptFills signalHash signals cutoff seen fills = .ok events ↔
      (∀ fill ∈ fills, Acceptable signalHash signals fill ∧ fill.signalId ∉ seen) ∧
        (fills.map PaperFillV1.signalId).Nodup ∧
          events = fills.flatMap (PaperFillV1.eventsUpTo cutoff) := by
  induction fills generalizing seen events with
  | nil => simp [acceptFills, eq_comm]
  | cons fill fills ih =>
      simp only [acceptFills, List.forall_mem_cons, List.map_cons, List.nodup_cons,
        List.flatMap_cons]
      constructor
      · intro h
        obtain ⟨known, hknown, h⟩ := Except.bind_eq_ok.mp h
        split_ifs at h with hle hseen hmatch
        obtain ⟨rest, hrest, h⟩ := Except.bind_eq_ok.mp h
        obtain ⟨hall, hnodup, rfl⟩ := ih.mp hrest
        cases h
        refine ⟨⟨⟨⟨⟨known, hknown, not_le.mp hle⟩, by simpa [SignalMatches] using hmatch⟩, hseen⟩,
          fun f hf => ⟨(hall f hf).1, fun hs => (hall f hf).2 (List.mem_cons_of_mem _ hs)⟩⟩,
          ⟨fun hmem => ?_, hnodup⟩, ?_⟩
        · obtain ⟨f, hf, hid⟩ := List.mem_map.mp hmem
          exact (hall f hf).2 (hid ▸ List.mem_cons_self)
        · simp only [PaperFillV1.eventsUpTo, hknown]
      · rintro ⟨⟨⟨⟨⟨known, hknown, hlt⟩, hmatch⟩, hseen⟩, hall⟩, ⟨hnew, hnodup⟩, rfl⟩
        have hrest : acceptFills signalHash signals cutoff (fill.signalId :: seen) fills =
            .ok (fills.flatMap (PaperFillV1.eventsUpTo cutoff)) := by
          refine ih.mpr ⟨fun f hf => ⟨(hall f hf).1, fun hs => ?_⟩, hnodup, rfl⟩
          rcases List.mem_cons.mp hs with heq | hs
          · exact hnew (heq ▸ List.mem_map_of_mem hf)
          · exact (hall f hf).2 hs
        have hm : ¬ (signals.get? fill.signalId).any (signalHash · ≠ fill.signalContentHash) := by
          simpa [SignalMatches] using hmatch
        rw [hknown, Except.ok_bind, if_neg (not_le.mpr hlt), if_neg hseen, if_neg hm, hrest]
        simp only [PaperFillV1.eventsUpTo, hknown]
        rfl

theorem ledgerEvents_eq_ok :
    ledgerEvents signalHash signals cutoff fills = .ok events ↔
      (∀ fill ∈ fills, Acceptable signalHash signals fill) ∧
        (fills.map PaperFillV1.signalId).Nodup ∧
          events = sortBy LedgerEvent.sortKey (fills.flatMap (PaperFillV1.eventsUpTo cutoff)) := by
  simp only [ledgerEvents, Except.bind_eq_ok, acceptFills_eq_ok, List.not_mem_nil,
    not_false_eq_true, and_true, Except.ok.injEq]
  constructor
  · rintro ⟨_, ⟨hall, hnodup, rfl⟩, rfl⟩
    exact ⟨hall, hnodup, rfl⟩
  · rintro ⟨hall, hnodup, rfl⟩
    exact ⟨_, ⟨hall, hnodup, rfl⟩, rfl⟩

/-! ## The events -/

def EventOf (cutoff : ℤ) (fill : PaperFillV1) (e : LedgerEvent) : Prop :=
  e.fill = fill ∧ fill.decidedAtMicros ≤ cutoff ∧
    match e.kind with
    | .decision => e.instant = fill.decidedAtMicros
    | .execution => fill.knownAt = .ok e.instant ∧ e.instant ≤ cutoff

theorem mem_eventsUpTo {fill : PaperFillV1} {e : LedgerEvent} (h : e ∈ fill.eventsUpTo cutoff) :
    EventOf cutoff fill e := by
  unfold PaperFillV1.eventsUpTo at h
  cases hknown : fill.knownAt with
  | error _ =>
      rw [hknown] at h
      cases h
  | ok known =>
      rw [hknown] at h
      simp only [PaperFillV1.events] at h
      split_ifs at h with hcut hle
      · cases h
      · rcases List.mem_cons.mp h with rfl | h
        · exact ⟨rfl, not_lt.mp hcut, rfl⟩
        · rw [List.mem_singleton.mp h]
          exact ⟨rfl, not_lt.mp hcut, hknown, hle⟩
      · rw [List.mem_singleton.mp h]
        exact ⟨rfl, not_lt.mp hcut, rfl⟩

theorem mem_ledgerEvents (h : ledgerEvents signalHash signals cutoff fills = .ok events)
    {e : LedgerEvent} (he : e ∈ events) : e.fill ∈ fills ∧ EventOf cutoff e.fill e := by
  obtain ⟨_, _, rfl⟩ := ledgerEvents_eq_ok.mp h
  obtain ⟨fill, hfill, he⟩ := List.mem_flatMap.mp (mem_sortBy.mp he)
  have hof := mem_eventsUpTo he
  obtain rfl : e.fill = fill := hof.1
  exact ⟨hfill, hof⟩

theorem fill_eq_of_signalId (hnodup : (fills.map PaperFillV1.signalId).Nodup)
    {f g : PaperFillV1} (hf : f ∈ fills) (hg : g ∈ fills) (h : f.signalId = g.signalId) : f = g :=
  List.inj_on_of_nodup_map hnodup hf hg h

theorem EventKind.code_injective {k l : EventKind} (h : k.code = l.code) : k = l := by
  cases k <;> cases l <;> first | rfl | cases h

theorem keyTells_events (hnodup : (fills.map PaperFillV1.signalId).Nodup) :
    KeyTells LedgerEvent.sortKey (fills.flatMap (PaperFillV1.eventsUpTo cutoff)) := by
  intro e he e' he' hkey
  obtain ⟨f, hf, he⟩ := List.mem_flatMap.mp he
  obtain ⟨f', hf', he'⟩ := List.mem_flatMap.mp he'
  simp only [LedgerEvent.sortKey, EmbeddingLike.apply_eq_iff_eq, Prod.mk.injEq] at hkey
  obtain ⟨hinstant, hkind, _, _, _, hsignal⟩ := hkey
  have hfill : e.fill = e'.fill := by
    rw [(mem_eventsUpTo he).1, (mem_eventsUpTo he').1] at hsignal ⊢
    exact fill_eq_of_signalId hnodup hf hf' hsignal
  have hkind' := EventKind.code_injective hkind
  cases e
  cases e'
  simp only at hinstant hkind' hfill
  rw [hinstant, hkind', hfill]

/-! ## The order of the fills -/

theorem ledgerEvents_perm (hperm : fills'.Perm fills)
    (h : ledgerEvents signalHash signals cutoff fills = .ok events) :
    ledgerEvents signalHash signals cutoff fills' = .ok events := by
  obtain ⟨hall, hnodup, rfl⟩ := ledgerEvents_eq_ok.mp h
  refine ledgerEvents_eq_ok.mpr ⟨fun f hf => hall f (hperm.mem_iff.mp hf),
    ((hperm.map _).nodup_iff).mpr hnodup, ?_⟩
  exact sortBy_congr (keyTells_events hnodup) (hperm.symm.flatMap_right _)

/-! ## The order of the signals -/

theorem acceptFills_signals (hget : ∀ id, signals'.get? id = signals.get? id) :
    acceptFills signalHash signals' cutoff seen fills =
      acceptFills signalHash signals cutoff seen fills := by
  induction fills generalizing seen with
  | nil => rfl
  | cons fill fills ih => simp only [acceptFills, hget, ih]

theorem step_signals (a : Decimal.Arithmetic) (t : AccountTerms)
    (hget : ∀ id, signals'.get? id = signals.get? id) (s : LedgerState) (e : LedgerEvent) :
    s.step a t signals' e = s.step a t signals e := by
  simp only [LedgerState.step, LedgerState.decisionEvent, LedgerState.decideOrder,
    LedgerState.openingReasons, LedgerState.marketAgeReasons, hget]

/-- The ledger and its content hash do not depend on the order of the fills, nor on that of
the signals. -/
theorem ledger_independent_of_input_order (a : Decimal.Arithmetic)
    (hash : IdentityHash LedgerIdentity) (policy : AccountPolicyV1) (cost : CostPolicyV1) (asOf : ℤ)
    {fills fills' : List PaperFillV1} {signals signals' : Dict String SignalIdentity}
    {ledger : PaperAccountLedger} (hfills : fills'.Perm fills)
    (hsignals : signals'.rows.Perm signals.rows)
    (h : buildPaperAccountLedgerV1 a hash policy fills signals cost asOf = .ok ledger) :
    buildPaperAccountLedgerV1 a hash policy fills' signals' cost asOf = .ok ledger := by
  have hget := Dict.get?_of_perm hsignals
  simp only [buildPaperAccountLedgerV1] at h ⊢
  split_ifs at h ⊢ with hactive hkind
  obtain ⟨t, hterms, h⟩ := Except.bind_eq_ok.mp h
  obtain ⟨events, hevents, h⟩ := Except.bind_eq_ok.mp h
  have hevents' : ledgerEvents hash.ofSignal signals' (cutoffOf asOf) fills' = .ok events := by
    rw [← ledgerEvents_perm hfills hevents]
    simp only [ledgerEvents, acceptFills_signals hget]
  have hrun : (fun s e => LedgerState.step a t signals' s e) =
      fun s e => LedgerState.step a t signals s e :=
    funext fun s => funext fun e => step_signals a t hget s e
  rw [hterms, Except.ok_bind, hevents', Except.ok_bind, hrun]
  exact h

/-! ## A small account -/

/-- A complete policy: `1000` a unit out of `10000`, and no evidence controls. -/
def smallPolicy : AccountPolicyV1 where
  accountId := "paper"
  kind := .personalPaper
  baseCurrency := "USDT"
  values :=
    [("paper_starting_capital", .decimal 10000), ("paper_order_notional", .decimal 1000),
      ("maximum_leverage", .decimal 3), ("daily_loss_limit", .decimal 500),
      ("maximum_drawdown_limit", .decimal 150), ("allowed_symbols", .symbols ["BTCUSDT"]),
      ("maximum_order_notional", .decimal 2000), ("maximum_position_notional", .decimal 2000),
      ("maximum_daily_order_notional", .decimal 100000), ("max_market_age_seconds", .int 60),
      ("minimum_data_quality", .notApplicable), ("maximum_spread_fraction", .notApplicable),
      ("maximum_event_risk", .notApplicable),
      ("maximum_expected_slippage_fraction", .notApplicable),
      ("maximum_per_trade_loss", .notApplicable),
      ("maximum_stop_distance_fraction", .notApplicable),
      ("stop_gap_buffer_fraction", .notApplicable)].foldl
      (fun values item => values.set item.1 item.2) Dict.empty
  approvedBy := some "owner"
  approvedOn := some "2026-10-09"
  policyVersionId := "version"
  contentHash := "policy"

def smallCost : CostPolicyV1 := ⟨some 10, Dict.empty.set "stress" 5, "cost"⟩

def smallHash : IdentityHash LedgerIdentity :=
  ⟨SignalIdentity.canonical, LedgerIdentity.accountId⟩

/-- A fill of the key `("study", "trial")`, decided and known at the given seconds. -/
def smallFill (signalId : String) (targetTo decided known : ℤ) (price : Decimal) : PaperFillV1 where
  signalId := signalId
  studyId := "study"
  trialId := "trial"
  symbol := "BTCUSDT"
  targetTo := targetTo
  decidedAtMicros := decided * 10 ^ 6
  fillBarOpenMicros := (decided + 1) * 10 ^ 6
  status := "FILLED"
  fillPrice := some price
  openMarketKnowledgeMicros := some (known * 10 ^ 6)
  signalContentHash := signalId

def smallSignals (fills : List PaperFillV1) : Dict String SignalIdentity :=
  fills.foldl (fun signals fill => signals.set fill.signalId
    ⟨fill.signalId, some (fill.decidedAtMicros - 10 ^ 6)⟩) Dict.empty

def roundTrip : List PaperFillV1 := [smallFill "open" 1 10 70 100, smallFill "close" 0 130 190 110]

/-- The round trip in either order: one ledger. -/
theorem ledger_of_round_trip_in_either_order :
    ∃ ledger,
      buildPaperAccountLedgerV1 .default smallHash smallPolicy roundTrip (smallSignals roundTrip)
        smallCost (1000 * 10 ^ 6) = .ok ledger ∧
      buildPaperAccountLedgerV1 .default smallHash smallPolicy roundTrip.reverse
        (smallSignals roundTrip.reverse) smallCost (1000 * 10 ^ 6) = .ok ledger := by
  obtain ⟨ledger, h⟩ := Except.exists_of_isOk (x := buildPaperAccountLedgerV1 .default smallHash
    smallPolicy roundTrip (smallSignals roundTrip) smallCost (1000 * 10 ^ 6)) (by decide +kernel)
  exact ⟨ledger, h, ledger_independent_of_input_order _ _ _ _ _ roundTrip.reverse_perm
    (by decide +kernel) h⟩

end TradePlatform
