/-
# `TradePlatform.PaperAccountPeak` — what the drawdown peak is the peak of

The equity changes with the executions of an instant, and is sampled at the first event after
it.  A decision names the symbol of its key anew, though: one that names another symbol than the
key's open position has moves the equity without an execution.  Where no decision does, the peak
of every risk check is the greatest of the starting capital and of the equities after all the
executions of an earlier instant (`peaks_sampled`).
-/
import TradePlatform.PaperAccountEquity
import TradePlatform.PaperAccountIntentions

namespace TradePlatform

namespace LedgerState

variable {a : Decimal.Arithmetic} {t : AccountTerms} {signals : Dict String SignalIdentity}
  {s s' : LedgerState} {fill : PaperFillV1} {e : LedgerEvent} {events before rest : List LedgerEvent}
  {instant : ℤ} {x : Decimal}

/-! ## When the equity stays -/

/-- A decision of a key that holds something names the symbol that the key was last named
with. -/
def KeepsSymbol (s : LedgerState) (e : LedgerEvent) : Prop :=
  e.kind = .decision → (s.position e.fill.key).units ≠ 0 →
    s.symbolOf.get? e.fill.key = some e.fill.symbol

instance (s : LedgerState) (e : LedgerEvent) : Decidable (s.KeepsSymbol e) :=
  inferInstanceAs (Decidable (_ → _ → _))

theorem unrealized_congr {r : LedgerState} {key : StudyTrial} {pos : AccountPosition} {u v : ℤ}
    (hmarks : ∀ symbol, latestMark r.marks symbol u = latestMark s.marks symbol v)
    (hsymbol : pos.units ≠ 0 → r.symbolOf.getD key "" = s.symbolOf.getD key "") (total : Decimal) :
    r.unrealized a key pos u total = s.unrealized a key pos v total := by
  unfold unrealized
  by_cases hunits : pos.units = 0
  · rw [if_pos hunits, if_pos hunits]
  · rw [if_neg hunits, if_neg hunits, hsymbol hunits, hmarks]

theorem equity_congr {r : LedgerState} {u v : ℤ} (name : String)
    (hrealized : r.realized = s.realized) (hpositions : r.positions.rows = s.positions.rows)
    (hmarks : ∀ symbol, latestMark r.marks symbol u = latestMark s.marks symbol v)
    (hsymbol : ∀ item ∈ s.positions.rows, item.2.units ≠ 0 →
      r.symbolOf.getD item.1 "" = s.symbolOf.getD item.1 "") :
    r.equity a t name u = s.equity a t name v := by
  unfold equity
  rw [hrealized, hpositions]
  have hfold : ∀ (items : List (StudyTrial × AccountPosition)) (total : Decimal),
      (∀ item ∈ items, item.2.units ≠ 0 →
        r.symbolOf.getD item.1 "" = s.symbolOf.getD item.1 "") →
      items.foldl (fun total item => r.unrealized a item.1 item.2 u total) total =
        items.foldl (fun total item => s.unrealized a item.1 item.2 v total) total := by
    intro items
    induction items with
    | nil => exact fun total _ => rfl
    | cons item items ih =>
        intro total hitems
        rw [List.foldl_cons, List.foldl_cons,
          unrealized_congr hmarks (hitems item List.mem_cons_self)]
        exact ih _ fun i hi => hitems i (List.mem_cons_of_mem _ hi)
  exact hfold _ _ hsymbol

theorem equity_after {u v : ℤ} (hu : ∀ m ∈ s.marks, m.knownAt < u)
    (hv : ∀ m ∈ s.marks, m.knownAt < v) (name : String) :
    s.equity a t name u = s.equity a t name v :=
  equity_congr name rfl rfl (fun symbol => by rw [latestMark_eq hu, latestMark_eq hv])
    fun _ _ _ => rfl

theorem equity_touch (hkeeps : (s.position fill.key).units ≠ 0 →
      s.symbolOf.get? fill.key = some fill.symbol) (name : String) (until_ : ℤ) :
    (s.touch fill).equity a t name until_ = s.equity a t name until_ := by
  have hsymbol : ∀ item ∈ s.positions.rows, item.2.units ≠ 0 →
      (s.symbolOf.set fill.key fill.symbol).getD item.1 "" = s.symbolOf.getD item.1 "" := by
    intro item hitem hunits
    unfold Dict.getD
    rw [Dict.get?_set]
    split
    · rename_i hkey
      have hposition : s.position fill.key = item.2 := by
        rw [position, Dict.getD, hkey, Dict.mem_rows.mp hitem, Option.getD_some]
      rw [← hkey, hkeeps (hposition ▸ hunits)]
    · rfl
  have hset : { s with symbolOf := s.symbolOf.set fill.key fill.symbol }.equity a t name until_ =
      s.equity a t name until_ :=
    equity_congr name rfl rfl (fun _ => rfl) hsymbol
  rw [← hset]
  unfold touch Dict.setdefault
  split
  · rfl
  · rename_i hnone
    have hnone' : s.positions.get? fill.key = none := by simpa using hnone
    have hrows : (s.positions.set fill.key .flat).rows =
        s.positions.rows ++ [(fill.key, .flat)] :=
      Table.rows_put_of_none (Option.map_eq_none_iff.mp hnone')
    unfold equity
    show (s.positions.set fill.key .flat).rows.foldl _ _ = _
    rw [hrows, List.foldl_append]
    rfl

/-! ## The equities after the executions of an instant -/

/-- The run of the events up to an instant ends with a severe equity of `x` after it. -/
def EquityAfter (a : Decimal.Arithmetic) (t : AccountTerms) (signals : Dict String SignalIdentity)
    (events : List LedgerEvent) (instant : ℤ) (x : Decimal) : Prop :=
  ∃ s, Replay.replay (fun s e => step a t signals s e) (initial t)
      (events.filter fun e => decide (e.instant ≤ instant)) = .ok s ∧
    s.equity a t t.severe (instant + 1) = x

instance : Decidable (EquityAfter a t signals events instant x) :=
  decidable_of_iff (∃ s ∈ (Replay.replay (fun s e => step a t signals s e) (initial t)
      (events.filter fun e => decide (e.instant ≤ instant))).toOption,
      s.equity a t t.severe (instant + 1) = x) (by
    unfold EquityAfter
    simp only [Option.mem_def, Except.toOption_eq_some])

/-- The starting capital, and the severe equities after all the executions of each instant before
`until_`. -/
def EarlierEquities (a : Decimal.Arithmetic) (t : AccountTerms)
    (signals : Dict String SignalIdentity) (events : List LedgerEvent) (until_ : ℤ) :
    Set Decimal :=
  { x | x = t.capital ∨ ∃ e ∈ events, e.kind = .execution ∧ e.instant < until_ ∧
    EquityAfter a t signals events e.instant x }

instance (until_ : ℤ) : Decidable (x ∈ EarlierEquities a t signals events until_) :=
  inferInstanceAs (Decidable (_ ∨ ∃ _ ∈ events, _))

def checkedPeak (a : Decimal.Arithmetic) (t : AccountTerms) (s : LedgerState) (e : LedgerEvent) :
    Decimal :=
  ((s.meet a t e).evaluate (utcDate e.instant)
    ((s.meet a t e).equity a t t.severe e.instant)).peak

def PeakSampled (a : Decimal.Arithmetic) (t : AccountTerms) (signals : Dict String SignalIdentity)
    (events : List LedgerEvent) (s : LedgerState) (e : LedgerEvent) : Prop :=
  e.kind = .decision → e.fill.targetTo ≠ s.intendedUnits e.fill.key →
    IsGreatest (EarlierEquities a t signals events e.instant) (s.checkedPeak a t e)

/-! ## The order of the events -/

def InOrder (events : List LedgerEvent) : Prop :=
  events.Pairwise fun e e' => e.instant < e'.instant ∨
    (e.instant = e'.instant ∧ (e'.kind = .decision → e.kind = .decision))

theorem inOrder_sorted (events : List LedgerEvent) :
    InOrder (sortBy LedgerEvent.sortKey events) := by
  refine (sortBy_pairwise LedgerEvent.sortKey events).imp ?_
  intro e e' hle
  rcases Prod.Lex.toLex_le_toLex.mp hle with hlt | ⟨heq, hle⟩
  · exact .inl hlt
  · refine .inr ⟨heq, fun hkind => ?_⟩
    have hcode : e.kind.code ≤ e'.kind.code := by
      rcases Prod.Lex.toLex_le_toLex.mp hle with hlt | ⟨heq, -⟩
      · exact hlt.le
      · exact heq.le
    rw [hkind] at hcode
    cases hk : e.kind with
    | decision => rfl
    | execution =>
        rw [hk] at hcode
        exact absurd hcode (by decide)

theorem InOrder.le (h : InOrder (before ++ e :: rest)) {e' : LedgerEvent} (he' : e' ∈ before) :
    e'.instant ≤ e.instant := by
  rcases (List.pairwise_append.mp h).2.2 e' he' e List.mem_cons_self with hlt | ⟨heq, -⟩
  · exact hlt.le
  · exact heq.le

theorem InOrder.after (h : InOrder (before ++ e :: rest)) {e' : LedgerEvent}
    (he' : e' ∈ e :: rest) : e.instant ≤ e'.instant := by
  rcases List.mem_cons.mp he' with rfl | he'
  · exact le_rfl
  · rcases (List.pairwise_cons.mp (List.pairwise_append.mp h).2.1).1 e' he' with hlt | ⟨heq, -⟩
    · exact hlt.le
    · exact heq.le

theorem InOrder.lt (h : InOrder (before ++ e :: rest)) (hkind : e.kind = .decision)
    {e' : LedgerEvent} (he' : e' ∈ before) (hexecution : e'.kind = .execution) :
    e'.instant < e.instant := by
  rcases (List.pairwise_append.mp h).2.2 e' he' e List.mem_cons_self with hlt | ⟨-, hfirst⟩
  · exact hlt
  · rw [hfirst hkind] at hexecution
    cases hexecution

/-! ## The invariant -/

/-- The starting capital, and the equities after the executions among `before`, those of one
instant left out. -/
def SampledBut (a : Decimal.Arithmetic) (t : AccountTerms) (signals : Dict String SignalIdentity)
    (events before : List LedgerEvent) (skip : Option ℤ) : Set Decimal :=
  { x | x = t.capital ∨ ∃ e ∈ before, e.kind = .execution ∧ skip ≠ some e.instant ∧
    EquityAfter a t signals events e.instant x }

/-- The state between two events: the peak is sampled, but for the instant whose executions are
being booked; and when there is none, the equity is one of the sampled ones, and stays it. -/
structure Sampling (a : Decimal.Arithmetic) (t : AccountTerms)
    (signals : Dict String SignalIdentity) (events before rest : List LedgerEvent)
    (s : LedgerState) : Prop where
  peak : IsGreatest (SampledBut a t signals events before s.executedAt) s.peak
  marks : ∀ m ∈ s.marks, ∃ e ∈ before, e.kind = .execution ∧ m.knownAt = e.instant
  booking : ∀ instant, s.executedAt = some instant →
    (∃ e ∈ before, e.kind = .execution ∧ e.instant = instant) ∧ ∀ e ∈ before, e.instant ≤ instant
  settled : s.executedAt = none → ∀ e ∈ before, e.kind = .execution →
    ∀ e' ∈ rest, e.instant < e'.instant
  equity : s.executedAt = none → ∀ until_, (∀ m ∈ s.marks, m.knownAt < until_) →
    s.equity a t t.severe until_ ∈ SampledBut a t signals events before none

theorem EquityAfter.eq {y : Decimal} (h : EquityAfter a t signals events instant x)
    (h' : EquityAfter a t signals events instant y) : x = y := by
  obtain ⟨s, hs, rfl⟩ := h
  obtain ⟨s', hs', rfl⟩ := h'
  rw [Except.ok.inj (hs.symm.trans hs')]

theorem Sampling.sample (h : Sampling a t signals events before (e :: rest) s)
    (hevents : events = before ++ e :: rest) (horder : InOrder events)
    (hrun : Replay.replay (fun s e => step a t signals s e) (initial t) before = .ok s)
    (hne : s.executedAt ≠ some e.instant) :
    (s.samplePeak a t e.instant).executedAt = none ∧
      Sampling a t signals events before (e :: rest) (s.samplePeak a t e.instant) := by
  cases hat : s.executedAt with
  | none =>
      have hsame : s.samplePeak a t e.instant = s := by
        unfold samplePeak
        rw [hat]
      rw [hsame]
      exact ⟨hat, h⟩
  | some booked =>
      rw [hat] at hne
      obtain ⟨⟨e₀, he₀, hexecution, rfl⟩, hle⟩ := h.booking booked hat
      rw [hevents] at horder
      have hlt : e₀.instant < e.instant :=
        lt_of_le_of_ne (horder.le he₀) fun heq => hne (congrArg some heq)
      have hsame : s.samplePeak a t e.instant = { s with
          peak := max s.peak (s.equity a t t.severe (e₀.instant + 1))
          executedAt := none } := by
        unfold samplePeak
        rw [hat]
        exact if_neg hlt.ne'
      -- the events up to the instant are those that have been met
      have hfilter : events.filter (fun e' => decide (e'.instant ≤ e₀.instant)) = before := by
        rw [hevents, List.filter_append]
        have hbefore : before.filter (fun e' => decide (e'.instant ≤ e₀.instant)) = before :=
          List.filter_eq_self.mpr fun e' he' => decide_eq_true (hle e' he')
        have hrest : (e :: rest).filter (fun e' => decide (e'.instant ≤ e₀.instant)) = [] := by
          refine List.filter_eq_nil_iff.mpr fun e' he' hd => ?_
          exact absurd ((horder.after he').trans (of_decide_eq_true hd)) hlt.not_ge
        rw [hbefore, hrest, List.append_nil]
      have hafter : EquityAfter a t signals events e₀.instant
          (s.equity a t t.severe (e₀.instant + 1)) := by
        refine ⟨s, ?_, rfl⟩
        rw [hfilter]
        exact hrun
      have hmem : s.equity a t t.severe (e₀.instant + 1) ∈
          SampledBut a t signals events before none :=
        .inr ⟨e₀, he₀, hexecution, nofun, hafter⟩
      obtain ⟨hpeak, hupper⟩ := h.peak
      rw [hat] at hpeak hupper
      have hknown : ∀ m ∈ s.marks, m.knownAt < e₀.instant + 1 := by
        intro m hm
        obtain ⟨e', he', -, hknown⟩ := h.marks m hm
        have := hle e' he'
        omega
      rw [hsame]
      refine ⟨rfl, ⟨⟨?_, ?_⟩, h.marks, nofun, ?_, ?_⟩⟩
      · show max s.peak (s.equity a t t.severe (e₀.instant + 1)) ∈ _
        rcases max_choice s.peak (s.equity a t t.severe (e₀.instant + 1)) with hmax | hmax
        · rw [hmax]
          rcases hpeak with hcapital | ⟨e', he', hkind, -, hequity⟩
          · exact .inl hcapital
          · exact .inr ⟨e', he', hkind, nofun, hequity⟩
        · rw [hmax]
          exact hmem
      · rintro x (rfl | ⟨e', he', hkind, -, hequity⟩)
        · exact (hupper (.inl rfl)).trans (le_max_left _ _)
        · by_cases hbooked : e'.instant = e₀.instant
          · rw [hbooked] at hequity
            rw [hequity.eq hafter]
            exact le_max_right _ _
          · refine (hupper (.inr ⟨e', he', hkind, fun heq => ?_, hequity⟩)).trans (le_max_left _ _)
            exact hbooked (Option.some.inj heq).symm
      · intro _ e' he' _ e'' he''
        exact ((hle e' he').trans_lt hlt).trans_le (horder.after he'')
      · intro _ until_ huntil
        have hequity : s.equity a t t.severe until_ = s.equity a t t.severe (e₀.instant + 1) :=
          equity_after huntil hknown t.severe
        show s.equity a t t.severe until_ ∈ _
        rw [hequity]
        exact hmem

theorem Sampling.decision_ne (h : Sampling a t signals events before (e :: rest) s)
    (hevents : events = before ++ e :: rest) (horder : InOrder events)
    (hkind : e.kind = .decision) : s.executedAt ≠ some e.instant := by
  intro hat
  obtain ⟨⟨e₀, he₀, hexecution, heq⟩, -⟩ := h.booking _ hat
  rw [hevents] at horder
  exact absurd heq (horder.lt hkind he₀ hexecution).ne

/-! ## One event -/

theorem decisionEvent_frame (h : s.decisionEvent a t signals fill instant = .ok s') :
    s'.positions = s.positions ∧ s'.realized = s.realized ∧ s'.marks = s.marks ∧
      s'.symbolOf = s.symbolOf ∧ s'.executedAt = s.executedAt ∧
      (s'.peak = s.peak ∨ s'.peak = max s.peak (s.equity a t t.severe instant)) := by
  rcases decisionEvent_cases h with ⟨-, rfl⟩ | ⟨-, h⟩
  · exact ⟨rfl, rfl, rfl, rfl, rfl, .inl rfl⟩
  · have hpeak : s'.peak = max s.peak (s.equity a t t.severe instant) := by
      unfold decideOrder at h
      obtain ⟨reasons, -, h⟩ := Except.bind_eq_ok.mp h
      dsimp only at h
      split at h
      · cases h
        rfl
      · cases h
        rfl
    obtain ⟨_, _, _, _, ⟨-, -, reasons, rfl⟩ | ⟨_, item, -, rfl⟩⟩ := decideOrder_cases h
    · exact ⟨rfl, rfl, rfl, rfl, rfl, .inr hpeak⟩
    · exact ⟨rfl, rfl, rfl, rfl, rfl, .inr hpeak⟩

theorem executionEvent_frame (h : s.executionEvent a t fill instant = .ok s') :
    s'.peak = s.peak ∧ s'.executedAt = some instant := by
  obtain ⟨executed, hexec, hs'⟩ := executionEvent_cases h
  have hpeak : executed.peak = s.peak := by
    rcases executePending_cases hexec with ⟨-, rfl⟩ | ⟨item, done, -, hdone, rfl⟩
    · rfl
    · obtain ⟨_, _, _, _, _, rfl⟩ := execute_frame hdone
      unfold settleIntended
      split <;> rfl
  rcases hs' with ⟨-, rfl⟩ | ⟨-, price, -, rfl⟩
  · exact ⟨hpeak, rfl⟩
  · exact ⟨hpeak, rfl⟩

theorem marks_known (hmarks : ∀ m ∈ s.marks, ∃ e ∈ before, e.kind = .execution ∧
      m.knownAt = e.instant) (hstep : s.step a t signals e = .ok s') :
    ∀ m ∈ s'.marks, ∃ e' ∈ before ++ [e], e'.kind = .execution ∧ m.knownAt = e'.instant := by
  intro m hm
  rw [marks_step hstep] at hm
  rcases List.mem_append.mp hm with hm | hm
  · obtain ⟨e', he', hkind, hknown⟩ := hmarks m hm
    exact ⟨e', List.mem_append_left _ he', hkind, hknown⟩
  · refine ⟨e, List.mem_append_right _ (List.mem_singleton_self e), ?_⟩
    have hmark := Option.mem_toList.mp hm
    unfold LedgerEvent.mark? at hmark
    cases hkind : e.kind with
    | decision =>
        rw [hkind] at hmark
        cases hmark
    | execution =>
        rw [hkind] at hmark
        dsimp only at hmark
        split at hmark
        · obtain ⟨price, -, rfl⟩ := Option.map_eq_some_iff.mp hmark
          exact ⟨rfl, rfl⟩
        · cases hmark

theorem sampledBut_decision (hkind : e.kind = .decision) (skip : Option ℤ) :
    SampledBut a t signals events (before ++ [e]) skip =
      SampledBut a t signals events before skip := by
  refine Set.ext fun x => or_congr_right ?_
  constructor
  · rintro ⟨e', he', hexecution, hrest⟩
    rcases List.mem_append.mp he' with he' | he'
    · exact ⟨e', he', hexecution, hrest⟩
    · rw [List.mem_singleton.mp he', hkind] at hexecution
      cases hexecution
  · rintro ⟨e', he', hrest⟩
    exact ⟨e', List.mem_append_left _ he', hrest⟩

theorem Sampling.decision (h : Sampling a t signals events before (e :: rest) s)
    (hevents : events = before ++ e :: rest) (horder : InOrder events)
    (hrun : Replay.replay (fun s e => step a t signals s e) (initial t) before = .ok s)
    (hkind : e.kind = .decision) (hkeeps : s.KeepsSymbol e) :
    PeakSampled a t signals events s e ∧
      ∀ s', s.step a t signals e = .ok s' →
        Sampling a t signals events (before ++ [e]) rest s' := by
  obtain ⟨hnone, hsampled⟩ := h.sample hevents horder hrun (h.decision_ne hevents horder hkind)
  have hevents' := hevents
  rw [hevents'] at horder
  have hequity : ∀ until_, (s.meet a t e).equity a t t.severe until_ =
      (s.samplePeak a t e.instant).equity a t t.severe until_ := by
    refine fun until_ => equity_touch (fun hunits => ?_) t.severe until_
    obtain ⟨_, _, hsame⟩ := samplePeak_eq a t s e.instant
    rw [hsame] at hunits ⊢
    exact hkeeps hkind hunits
  have hmarks : ∀ m ∈ (s.samplePeak a t e.instant).marks, m.knownAt < e.instant := by
    intro m hm
    obtain ⟨e', he', hexecution, hknown⟩ := hsampled.marks m hm
    exact hknown.trans_lt (horder.lt hkind he' hexecution)
  have hpeak := hsampled.peak
  rw [hnone] at hpeak
  have hle := hpeak.2 (hsampled.equity hnone e.instant hmarks)
  have hmax : max (s.meet a t e).peak ((s.meet a t e).equity a t t.severe e.instant) =
      (s.samplePeak a t e.instant).peak := by
    rw [hequity]
    exact max_eq_left hle
  constructor
  · intro _ _
    have hset : EarlierEquities a t signals events e.instant =
        SampledBut a t signals events before none := by
      refine Set.ext fun x => or_congr_right ?_
      constructor
      · rintro ⟨e', he', hexecution, hlt, hafter⟩
        rw [hevents] at he'
        rcases List.mem_append.mp he' with he' | he'
        · exact ⟨e', he', hexecution, nofun, hafter⟩
        · exact absurd (horder.after he') hlt.not_ge
      · rintro ⟨e', he', hexecution, -, hafter⟩
        refine ⟨e', ?_, hexecution, horder.lt hkind he' hexecution, hafter⟩
        rw [hevents]
        exact List.mem_append_left _ he'
    have hchecked : s.checkedPeak a t e = (s.samplePeak a t e.instant).peak := hmax
    rw [hset, hchecked]
    exact hpeak
  · intro s' hstep
    have hknown := marks_known h.marks hstep
    rcases step_cases hstep with ⟨hexecution, -⟩ | ⟨-, hdecided⟩
    · rw [hkind] at hexecution
      cases hexecution
    obtain ⟨hpositions, hrealized, hmarks', hsymbol, hexecuted, hpeak'⟩ :=
      decisionEvent_frame hdecided
    have hexecuted' : s'.executedAt = none := hexecuted.trans hnone
    have hpeak'' : s'.peak = (s.samplePeak a t e.instant).peak := by
      rcases hpeak' with hsame | hmaximum
      · exact hsame
      · exact hmaximum.trans hmax
    refine ⟨?_, hknown, fun instant hat => ?_, fun _ e₁ he₁ hexecution e₂ he₂ => ?_,
      fun _ until_ huntil => ?_⟩
    · rw [hexecuted', hpeak'', sampledBut_decision hkind]
      exact hpeak
    · rw [hexecuted'] at hat
      cases hat
    · rcases List.mem_append.mp he₁ with he₁ | he₁
      · exact (horder.lt hkind he₁ hexecution).trans_le
          (horder.after (List.mem_cons_of_mem _ he₂))
      · rw [List.mem_singleton.mp he₁, hkind] at hexecution
        cases hexecution
    · rw [sampledBut_decision hkind]
      have hsame : s'.equity a t t.severe until_ =
          (s.samplePeak a t e.instant).equity a t t.severe until_ := by
        rw [← hequity]
        refine equity_congr t.severe hrealized (congrArg Table.rows hpositions) (fun symbol => ?_)
          fun item _ _ => ?_
        · rw [hmarks']
        · rw [hsymbol]
      rw [hsame]
      refine hsampled.equity hnone until_ fun m hm => huntil m ?_
      rw [hmarks']
      exact hm

theorem Sampling.execution (h : Sampling a t signals events before (e :: rest) s)
    (hevents : events = before ++ e :: rest) (horder : InOrder events)
    (hrun : Replay.replay (fun s e => step a t signals s e) (initial t) before = .ok s)
    (hkind : e.kind = .execution) (hstep : s.step a t signals e = .ok s') :
    Sampling a t signals events (before ++ [e]) rest s' := by
  have hknown := marks_known h.marks hstep
  rcases step_cases hstep with ⟨-, hexecuted⟩ | ⟨hdecision, -⟩
  case inr =>
    rw [hkind] at hdecision
    cases hdecision
  obtain ⟨hpeak, hat⟩ := executionEvent_frame hexecuted
  have horder' := horder
  rw [hevents] at horder'
  -- the executions of the instant are left out, this one and those before it
  have hsampled : IsGreatest (SampledBut a t signals events before (some e.instant))
      (s.samplePeak a t e.instant).peak := by
    by_cases hbooking : s.executedAt = some e.instant
    · have hsame : s.samplePeak a t e.instant = s := by
        unfold samplePeak
        rw [hbooking]
        exact if_pos rfl
      rw [hsame, ← hbooking]
      exact h.peak
    · obtain ⟨hnone, hsampled⟩ := h.sample hevents horder hrun hbooking
      have hset : SampledBut a t signals events before (some e.instant) =
          SampledBut a t signals events before none := by
        refine Set.ext fun x => or_congr_right ?_
        constructor
        · rintro ⟨e', he', hexecution, -, hafter⟩
          exact ⟨e', he', hexecution, nofun, hafter⟩
        · rintro ⟨e', he', hexecution, -, hafter⟩
          have hlt := hsampled.settled hnone e' he' hexecution e List.mem_cons_self
          exact ⟨e', he', hexecution, fun heq => hlt.ne' (Option.some.inj heq), hafter⟩
      rw [hset, ← hnone]
      exact hsampled.peak
  refine ⟨?_, hknown, fun instant hinstant => ?_, fun hnone => ?_, fun hnone => ?_⟩
  · have hset : SampledBut a t signals events (before ++ [e]) (some e.instant) =
        SampledBut a t signals events before (some e.instant) := by
      refine Set.ext fun x => or_congr_right ?_
      constructor
      · rintro ⟨e', he', hexecution, hskip, hafter⟩
        rcases List.mem_append.mp he' with he' | he'
        · exact ⟨e', he', hexecution, hskip, hafter⟩
        · rw [List.mem_singleton.mp he'] at hskip
          exact absurd rfl hskip
      · rintro ⟨e', he', hrest⟩
        exact ⟨e', List.mem_append_left _ he', hrest⟩
    rw [hat, hset, hpeak]
    exact hsampled
  · rw [hat] at hinstant
    obtain rfl := Option.some.inj hinstant
    refine ⟨⟨e, List.mem_append_right _ (List.mem_singleton_self e), hkind, rfl⟩, fun e' he' => ?_⟩
    rcases List.mem_append.mp he' with he' | he'
    · exact horder'.le he'
    · rw [List.mem_singleton.mp he']
  · rw [hat] at hnone
    cases hnone
  · rw [hat] at hnone
    cases hnone

theorem Sampling.along (h : Sampling a t signals events before rest s)
    (hevents : events = before ++ rest) (horder : InOrder events)
    (hrun : Replay.replay (fun s e => step a t signals s e) (initial t) before = .ok s)
    (hkeeps : Replay.Along (fun s e => step a t signals s e) KeepsSymbol s rest) :
    Replay.Along (fun s e => step a t signals s e) (PeakSampled a t signals events) s rest := by
  induction rest generalizing before s with
  | nil => trivial
  | cons e rest ih =>
      obtain ⟨hkeep, hkeeps⟩ := hkeeps
      have hgoes : ∀ s', s.step a t signals e = .ok s' →
          Sampling a t signals events (before ++ [e]) rest s' →
          Replay.Along (fun s e => step a t signals s e) (PeakSampled a t signals events) s'
            rest := by
        intro s' hstep h'
        exact ih h' (hevents.trans (List.append_cons ..)) (Replay.replay_snoc_ok hrun hstep)
          (hkeeps s' hstep)
      cases hkind : e.kind with
      | decision =>
          obtain ⟨hsampled, hstep⟩ := h.decision hevents horder hrun hkind hkeep
          exact ⟨hsampled, fun s' hs' => hgoes s' hs' (hstep s' hs')⟩
      | execution =>
          refine ⟨fun hdecision => ?_, fun s' hs' => hgoes s' hs'
            (h.execution hevents horder hrun hkind hs')⟩
          rw [hkind] at hdecision
          cases hdecision

theorem sampling_initial (hcapital : a.add t.capital 0 = t.capital) (events : List LedgerEvent) :
    Sampling a t signals events [] events (initial t) := by
  have hnothing : ∀ {skip : Option ℤ} {x : Decimal},
      x ∈ SampledBut a t signals events [] skip → x = t.capital := by
    rintro skip x (hcapital | ⟨e, he, -⟩)
    · exact hcapital
    · exact absurd he List.not_mem_nil
  have hrealized : (initial t).realized.getD t.severe 0 = 0 := by
    by_cases hsevere : t.severe ∈ t.scenarios.rows.map Prod.fst
    · obtain ⟨scenario, hscenario, hname⟩ := List.mem_map.mp hsevere
      rw [← hname]
      exact Dict.getD_foldl (fun _ _ => 0) t.scenarios.nodup hscenario
    · exact Dict.getD_foldl_of_not_mem (f := fun _ _ => 0) hsevere
  refine ⟨⟨.inl rfl, fun x hx => (hnothing hx).le⟩, ?_, nofun, ?_, fun _ until_ _ => ?_⟩
  · exact fun m hm => absurd hm List.not_mem_nil
  · exact fun _ e he => absurd he List.not_mem_nil
  · show a.add t.capital ((initial t).realized.getD t.severe 0) ∈ _
    rw [hrealized, hcapital]
    exact .inl rfl

end LedgerState

section Ledger

variable (a : Decimal.Arithmetic) (hash : IdentityHash LedgerIdentity) (policy : AccountPolicyV1)
  (fills : List PaperFillV1) (signals : Dict String SignalIdentity) (cost : CostPolicyV1) (asOf : ℤ)

/-- In building the ledger, every risk-checked decision is so with the greatest of the starting
capital and of the equities after all the executions of an earlier instant. -/
def PeaksSampled : Prop :=
  ∀ t ∈ (accountTerms a policy cost).toOption,
    ∀ events ∈ (ledgerEvents hash.ofSignal signals (cutoffOf asOf) fills).toOption,
      Replay.Along (fun s e => LedgerState.step a t signals s e)
        (LedgerState.PeakSampled a t signals events) (LedgerState.initial t) events

/-- Where every decision keeps the symbol of its key, the peak is the greatest of the starting
capital and of the equities after all the executions of an earlier instant. -/
theorem peaks_sampled
    (hcapital : ∀ t ∈ (accountTerms a policy cost).toOption, a.add t.capital 0 = t.capital)
    (h : EachEvent a hash policy fills signals cost asOf fun _ => LedgerState.KeepsSymbol) :
    PeaksSampled a hash policy fills signals cost asOf := by
  intro t ht events hevents
  obtain ⟨-, -, hsorted⟩ := ledgerEvents_eq_ok.mp (Except.toOption_eq_some.mp hevents)
  have horder : LedgerState.InOrder events := by
    rw [hsorted]
    exact LedgerState.inOrder_sorted _
  exact (LedgerState.sampling_initial (hcapital t ht) events).along rfl horder rfl
    (h t ht events hevents)

end Ledger

/-- The fills of a round trip are all of one symbol. -/
theorem round_trip_peaks_sampled :
    PeaksSampled .default smallHash smallPolicy roundTrip (smallSignals roundTrip) smallCost
      (1000 * 10 ^ 6) :=
  peaks_sampled .default smallHash smallPolicy roundTrip _ smallCost (1000 * 10 ^ 6)
    (by decide +kernel) (by decide +kernel)

def twoSymbolPolicy : AccountPolicyV1 :=
  { smallPolicy with
    values := smallPolicy.values.set "allowed_symbols" (.symbols ["BTCUSDT", "ETHUSDT"]) }

/-- A unit of one symbol is held at 100; the other symbol is filled at 200 for another trial; and
the first trial decides on the other symbol too. -/
def twoSymbols : List PaperFillV1 :=
  [smallFill "first" 1 10 70 100,
    { smallFill "second" 1 80 140 200 with trialId := "other", symbol := "ETHUSDT" },
    { smallFill "third" 2 200 260 200 with symbol := "ETHUSDT" }]

/-- The unit is valued at the price of the other symbol when it is decided on, and the peak is of
an equity that no execution led to. -/
theorem peak_of_the_other_symbol :
    (buildPaperAccountLedgerV1 .default smallHash twoSymbolPolicy twoSymbols
      (smallSignals twoSymbols) smallCost (1000 * 10 ^ 6)).isOk = true ∧
    ¬ PeaksSampled .default smallHash twoSymbolPolicy twoSymbols (smallSignals twoSymbols) smallCost
      (1000 * 10 ^ 6) := by
  refine ⟨by decide +kernel, fun h => ?_⟩
  have hmem : ∀ t ∈ (accountTerms .default twoSymbolPolicy smallCost).toOption,
      ∀ events ∈ (ledgerEvents smallHash.ofSignal (smallSignals twoSymbols)
          (cutoffOf (1000 * 10 ^ 6)) twoSymbols).toOption,
        Replay.Along (fun s e => LedgerState.step .default t (smallSignals twoSymbols) s e)
          (fun s e => e.kind = .decision → e.fill.targetTo ≠ s.intendedUnits e.fill.key →
            s.checkedPeak .default t e ∈
              LedgerState.EarlierEquities .default t (smallSignals twoSymbols) events e.instant)
          (LedgerState.initial t) events :=
    fun t ht events hevents => (h t ht events hevents).of_inv (J := fun _ => True)
      (fun _ _ _ _ _ _ _ => trivial)
      (fun _ _ _ _ hsampled hkind htarget => (hsampled hkind htarget).1) trivial
  revert hmem
  decide +kernel

end TradePlatform
