/-
# `TradePlatform.LiveSignals` — the live runner over a growing segment

`LiveStrategyRunnerV1.on_bars` of `live_signals_v1.py` keeps the live bars of a symbol's
current segment and evaluates its candidates on the window over them.  No target looks
ahead, so what the runner evaluates is what research evaluates over all the bars.
-/
import TradePlatform.StrategySdkLocality
import TradePlatform.T4Normalizer
import TradePlatform.Lib.Dict

namespace TradePlatform

namespace LiveSignals

open StrategySdk

structure LiveBarV1 where
  symbol : String
  segment : ℤ
  bar : T4.T4MinuteBarV1
  completedByArrivalNanos : ℤ
  clockBoundNanos : ℤ

def LiveBarV1.row (bar : LiveBarV1) : Row where
  barOpenAt := bar.bar.barOpenMicros
  barCloseAt := bar.bar.barOpenMicros + 60000000
  openPrice := bar.bar.openPrice
  high := bar.bar.highPrice
  low := bar.bar.lowPrice
  close := bar.bar.closePrice

structure WatchedCandidateV1 where
  studyId : UUID
  trialId : String
  symbol : String
  point : FamilyPoint

structure LiveSignalV1 where
  candidate : WatchedCandidateV1
  bar : LiveBarV1
  previous : ℤ
  current : ℤ
  decidedMicros : ℤ

structure LiveStrategyRunnerV1 where
  candidates : List WatchedCandidateV1
  startedNanos : ℤ
  history : Dict String (List LiveBarV1) := .empty
  lastTarget : Dict (String × UUID × String) ℤ := .empty
  heldBackByHoldout : ℕ := 0
  warmupBars : ℕ := 0

def extendHistory (history : List LiveBarV1) (bar : LiveBarV1) : List LiveBarV1 :=
  (if history.getLast?.any fun last => decide (last.segment ≠ bar.segment) then [] else history) ++
    [bar]

def windowOf (bars : List LiveBarV1) : Except Exn BarsV1 :=
  BarsV1.fromRows (bars.map LiveBarV1.row) (some (bars.map LiveBarV1.segment))

namespace LiveStrategyRunnerV1

/-- A candidate on the window of a bar, at the clock's reading `nowMicros`. -/
def onCandidate (nowMicros : WatchedCandidateV1 → LiveBarV1 → ℤ) (window : BarsV1)
    (bar : LiveBarV1) (s : LiveStrategyRunnerV1 × List LiveSignalV1)
    (candidate : WatchedCandidateV1) : Except Exn (LiveStrategyRunnerV1 × List LiveSignalV1) := do
  if candidate.symbol ≠ bar.symbol then return s
  let targets ← candidate.point.targetsDecimal window
  let key := (bar.symbol, candidate.studyId, candidate.trialId)
  let previous := s.1.lastTarget.getD key (targets.dropLast.getLast?.getD 0)
  match targets.getLast? with
  | none => .error .indexError
  | some current =>
      let runner := { s.1 with lastTarget := s.1.lastTarget.set key current }
      if current = previous ∨ bar.completedByArrivalNanos < s.1.startedNanos then
        return (runner, s.2)
      else
        let decidedMicros := max bar.bar.completeMarketKnowledgeMicros
          (nowMicros candidate bar + T4.ceilMicrosV1 bar.clockBoundNanos)
        return (runner, s.2 ++ [⟨candidate, bar, previous, current, decidedMicros⟩])

def onBar (admits : ℤ → Bool) (nowMicros : WatchedCandidateV1 → LiveBarV1 → ℤ)
    (s : LiveStrategyRunnerV1 × List LiveSignalV1) (bar : LiveBarV1) :
    Except Exn (LiveStrategyRunnerV1 × List LiveSignalV1) :=
  let history := extendHistory (s.1.history.getD bar.symbol []) bar
  let runner := { s.1 with history := s.1.history.set bar.symbol history }
  if admits bar.bar.barOpenMicros = false then
    .ok ({ runner with heldBackByHoldout := runner.heldBackByHoldout + 1 }, s.2)
  else do
    let warmup := decide (bar.completedByArrivalNanos < runner.startedNanos)
    let window ← windowOf history
    runner.candidates.foldlM (onCandidate nowMicros window bar)
      ({ runner with warmupBars := runner.warmupBars + warmup.toNat }, s.2)

def onBars (admits : ℤ → Bool) (nowMicros : WatchedCandidateV1 → LiveBarV1 → ℤ)
    (runner : LiveStrategyRunnerV1) (bars : List LiveBarV1) :
    Except Exn (LiveStrategyRunnerV1 × List LiveSignalV1) :=
  Replay.replay (onBar admits nowMicros) (runner, []) bars

end LiveStrategyRunnerV1

/-! ## The history of a symbol -/

/-- `history` is the stretch of `bars` that no change of segment has cut off. -/
structure LiveStretch (bars history : List LiveBarV1) : Prop where
  nonempty : bars ≠ [] → history ≠ []
  cut : ∃ earlier, bars = earlier ++ history ∧
    (earlier = [] ∨ ∃ before first, earlier.getLast? = some before ∧ history.head? = some first ∧
      before.segment ≠ first.segment)

theorem LiveStretch.nil : LiveStretch [] [] := ⟨fun h => absurd rfl h, [], rfl, .inl rfl⟩

theorem LiveStretch.extendHistory {bars history : List LiveBarV1} (h : LiveStretch bars history)
    (bar : LiveBarV1) : LiveStretch (bars ++ [bar]) (extendHistory history bar) := by
  obtain ⟨hne, earlier, rfl, hcut⟩ := h
  refine ⟨fun _ => List.append_ne_nil_of_right_ne_nil _ (List.cons_ne_nil _ _), ?_⟩
  unfold LiveSignals.extendHistory
  split
  · rename_i hchange
    obtain ⟨last, hlast, hne⟩ := (Option.any_eq_true ..).mp hchange
    refine ⟨earlier ++ history, rfl, .inr ⟨last, bar, ?_, rfl, of_decide_eq_true hne⟩⟩
    rw [List.getLast?_append, hlast]
    rfl
  · refine ⟨earlier, by rw [List.append_assoc], ?_⟩
    rcases hcut with rfl | ⟨before, first, hbefore, hfirst, hseg⟩
    · exact .inl rfl
    · refine .inr ⟨before, first, hbefore, ?_, hseg⟩
      rw [List.head?_append, hfirst]
      rfl

namespace LiveStrategyRunnerV1

variable {admits : ℤ → Bool} {nowMicros : WatchedCandidateV1 → LiveBarV1 → ℤ}

theorem onCandidates_history {window : BarsV1} {bar : LiveBarV1}
    {candidates : List WatchedCandidateV1} {s t : LiveStrategyRunnerV1 × List LiveSignalV1}
    (h : candidates.foldlM (onCandidate nowMicros window bar) s = .ok t) :
    t.1.history = s.1.history := by
  induction candidates generalizing s with
  | nil =>
      cases h
      rfl
  | cons candidate candidates ih =>
      obtain ⟨s', hs', h⟩ := Except.bind_eq_ok.mp h
      refine (ih h).trans ?_
      unfold onCandidate at hs'
      split at hs'
      · cases Except.pure_eq_ok.mp hs'
        rfl
      · obtain ⟨targets, _, hs'⟩ := Except.bind_eq_ok.mp hs'
        dsimp only at hs'
        split at hs'
        · cases hs'
        · split at hs'
          · cases Except.pure_eq_ok.mp hs'
            rfl
          · cases Except.pure_eq_ok.mp hs'
            rfl

theorem onBar_history {bar : LiveBarV1} {s t : LiveStrategyRunnerV1 × List LiveSignalV1}
    (h : onBar admits nowMicros s bar = .ok t) : t.1.history =
      s.1.history.set bar.symbol (extendHistory (s.1.history.getD bar.symbol []) bar) := by
  unfold onBar at h
  dsimp only at h
  split at h
  · cases h
    rfl
  · obtain ⟨window, _, h⟩ := Except.bind_eq_ok.mp h
    exact onCandidates_history h

theorem onBars_liveStretch {candidates : List WatchedCandidateV1} {startedNanos : ℤ}
    {bars : List LiveBarV1} {t : LiveStrategyRunnerV1 × List LiveSignalV1}
    (h : onBars admits nowMicros { candidates, startedNanos } bars = .ok t) (symbol : String) :
    LiveStretch (bars.filter fun bar => bar.symbol = symbol) (t.1.history.getD symbol []) := by
  unfold onBars at h
  induction bars using List.reverseRecOn generalizing t with
  | nil =>
      cases h
      exact .nil
  | append_singleton bars bar ih =>
      rw [Replay.replay_snoc] at h
      obtain ⟨s, hs, h⟩ := Except.bind_eq_ok.mp h
      rw [List.filter_append, onBar_history h]
      rcases eq_or_ne bar.symbol symbol with rfl | hne
      · rw [List.filter_cons_of_pos (by simp), List.filter_nil, Dict.getD, Dict.get?_set_self]
        exact (ih hs).extendHistory bar
      · rw [List.filter_cons_of_neg (by simpa using hne), List.filter_nil, List.append_nil,
          Dict.getD, Dict.get?_set_of_ne hne]
        exact ih hs

end LiveStrategyRunnerV1

/-! ## No look-ahead -/

variable {κ : Type} [DecidableEq κ] {point : FamilyPoint}

theorem targetsDecimal_take (hspace : point.InSpace) (hadm : point.inadmissible = none)
    {rows : List Row} {keys : Option (List κ)} {n : ℕ} {bars bars' : BarsV1}
    (h : BarsV1.fromRows rows keys = .ok bars)
    (h' : BarsV1.fromRows (rows.take n) (keys.map fun ks => ks.take n) = .ok bars') {ts : List ℤ}
    (hts : point.targetsDecimal bars = .ok ts) : point.targetsDecimal bars' = .ok (ts.take n) := by
  obtain ⟨ts', hts'⟩ := point.exists_targetsDecimal hspace hadm bars'
  have hsize := (BarsV1.fromRows_ok h).1
  have hsize' := (BarsV1.fromRows_ok h').1
  have hlength := FamilyPoint.length_targetsDecimal hts
  have hlength' := FamilyPoint.length_targetsDecimal hts'
  rw [List.length_take] at hsize'
  rw [hts']
  congr 1
  refine List.ext_getElem? fun i => ?_
  rcases lt_or_ge i bars'.size with hi | hi
  · have hagree : bars.AgreesUpTo bars' i i := by
      have hslice := BarsV1.agreesUpTo_slice (o := 0) (n := n) (i := i) h (by simpa using h')
        (.inl rfl) (by omega)
      rwa [Nat.zero_add] at hslice
    rw [List.getElem?_take_of_lt (by omega)]
    exact (FamilyPoint.getElem?_targetsDecimal hspace hadm hagree (by omega) hi hts hts').symm
  · rw [List.getElem?_eq_none (by omega), List.getElem?_eq_none (by rw [List.length_take]; omega)]

theorem breakAt_cut {openUs : ℕ → ℤ} {earlier history : List LiveBarV1} {before first : LiveBarV1}
    (hbefore : earlier.getLast? = some before) (hfirst : history.head? = some first)
    (hseg : before.segment ≠ first.segment) :
    breakAt openUs (some ((earlier ++ history).map LiveBarV1.segment)) earlier.length = true := by
  obtain ⟨front, rfl⟩ := List.getLast?_eq_some_iff.mp hbefore
  obtain ⟨rest, rfl⟩ := List.head?_eq_some_iff.mp hfirst
  rw [List.length_append, List.length_singleton, breakAt, Bool.or_eq_true]
  right
  simp [hseg.symm]

/-- The target that the runner evaluates for the last bar of a symbol is the one that all the
bars of the symbol give it. -/
theorem targetsDecimal_liveStretch (hspace : point.InSpace) (hadm : point.inadmissible = none)
    {bars history : List LiveBarV1} (hlive : LiveStretch bars history) {whole live : BarsV1}
    (h : windowOf bars = .ok whole) (h' : windowOf history = .ok live) {ts ts' : List ℤ}
    (hts : point.targetsDecimal whole = .ok ts) (hts' : point.targetsDecimal live = .ok ts') :
    ts'.getLast? = ts.getLast? := by
  obtain ⟨hne, earlier, rfl, hcut⟩ := hlive
  have hsize := (BarsV1.fromRows_ok h).1
  have hsize' := (BarsV1.fromRows_ok h').1
  have hlength := FamilyPoint.length_targetsDecimal hts
  have hlength' := FamilyPoint.length_targetsDecimal hts'
  rw [List.length_map] at hsize'
  rw [List.length_map, List.length_append] at hsize
  rcases eq_or_ne history [] with rfl | hhistory
  · have hnil : earlier ++ [] = [] := by
      by_contra hbars
      exact hne hbars rfl
    rw [List.append_nil] at hnil
    cases hnil
    rw [List.length_eq_zero_iff.mp (hlength.trans hsize),
      List.length_eq_zero_iff.mp (hlength'.trans hsize')]
  · have hpos := List.length_pos_iff.mpr hhistory
    rw [List.getLast?_eq_getElem?, List.getLast?_eq_getElem?]
    have hrows : (((earlier ++ history).map LiveBarV1.row).drop earlier.length).take
        history.length = history.map LiveBarV1.row := by simp
    have hkeys : ((some ((earlier ++ history).map LiveBarV1.segment)).map fun ks =>
        (ks.drop earlier.length).take history.length) =
          some (history.map LiveBarV1.segment) := by simp
    have hslice : whole.AgreesUpTo live (earlier.length + (history.length - 1))
        (history.length - 1) := by
      refine BarsV1.agreesUpTo_slice (n := history.length) h (by rw [hrows, hkeys]; exact h') ?_
        (by omega)
      rcases hcut with rfl | ⟨before, first, hbefore, hfirst, hseg⟩
      · exact .inl rfl
      · exact .inr (breakAt_cut hbefore hfirst hseg)
    rw [show ts.length - 1 = earlier.length + (history.length - 1) by omega,
      show ts'.length - 1 = history.length - 1 by omega]
    exact (FamilyPoint.getElem?_targetsDecimal hspace hadm hslice (by omega) (by omega)
      hts hts').symm

/-- No target looks ahead, beyond its segment or into the length of its window. -/
theorem targetsDecimal_noLookAhead (hspace : point.InSpace) (hadm : point.inadmissible = none) :
    (∀ bars : BarsV1, ∃ ts, point.targetsDecimal bars = .ok ts ∧ ts.length = bars.size) ∧
    (∀ (bars bars' : BarsV1) (i i' : ℕ) (ts ts' : List ℤ), bars.AgreesUpTo bars' i i' →
      i < bars.size → i' < bars'.size → point.targetsDecimal bars = .ok ts →
        point.targetsDecimal bars' = .ok ts' → ts[i]? = ts'[i']?) ∧
    (∀ (rows : List Row) (keys : Option (List κ)) (n : ℕ) (bars bars' : BarsV1) (ts : List ℤ),
      BarsV1.fromRows rows keys = .ok bars →
        BarsV1.fromRows (rows.take n) (keys.map fun ks => ks.take n) = .ok bars' →
          point.targetsDecimal bars = .ok ts → point.targetsDecimal bars' = .ok (ts.take n)) ∧
    ∀ (admits : ℤ → Bool) (nowMicros : WatchedCandidateV1 → LiveBarV1 → ℤ)
      (candidates : List WatchedCandidateV1) (startedNanos : ℤ) (bars : List LiveBarV1)
      (t : LiveStrategyRunnerV1 × List LiveSignalV1) (symbol : String) (whole live : BarsV1)
      (ts ts' : List ℤ),
      LiveStrategyRunnerV1.onBars admits nowMicros { candidates, startedNanos } bars = .ok t →
        windowOf (bars.filter fun bar => bar.symbol = symbol) = .ok whole →
          windowOf (t.1.history.getD symbol []) = .ok live →
            point.targetsDecimal whole = .ok ts → point.targetsDecimal live = .ok ts' →
              ts'.getLast? = ts.getLast? := by
  refine ⟨fun bars => ?total, ?agree, ?first, ?live⟩
  case total =>
    obtain ⟨ts, hts⟩ := point.exists_targetsDecimal hspace hadm bars
    exact ⟨ts, hts, FamilyPoint.length_targetsDecimal hts⟩
  case agree =>
    intro bars bars' i i' ts ts' h hi hi' hts hts'
    exact FamilyPoint.getElem?_targetsDecimal hspace hadm h hi hi' hts hts'
  case first =>
    intro rows keys n bars bars' ts h h' hts
    exact targetsDecimal_take hspace hadm h h' hts
  case live =>
    intro admits nowMicros candidates startedNanos bars t symbol whole live ts ts' hrun h h' hts hts'
    exact targetsDecimal_liveStretch hspace hadm
      (LiveStrategyRunnerV1.onBars_liveStretch hrun symbol) h h' hts hts'

def risingRows : List Row := (List.range 61).map fun i =>
  ⟨i * 60000000, (i + 1) * 60000000, 100 + i, 101 + i, 99 + i, 100 + i⟩

theorem targetsDecimal_noLookAhead_rising : ∃ bars bars' ts,
    BarsV1.fromRows (κ := ℤ) risingRows none = .ok bars ∧
      BarsV1.fromRows (κ := ℤ) (risingRows.take 60) none = .ok bars' ∧
        (FamilyPoint.breakoutChannel ⟨60, 15, .longShort⟩).targetsDecimal bars = .ok ts ∧
          (FamilyPoint.breakoutChannel ⟨60, 15, .longShort⟩).targetsDecimal bars' =
            .ok (ts.take 60) := by
  obtain ⟨bars, h⟩ := Except.exists_of_isOk (x := BarsV1.fromRows (κ := ℤ) risingRows none)
    (by decide +kernel)
  obtain ⟨bars', h'⟩ := Except.exists_of_isOk
    (x := BarsV1.fromRows (κ := ℤ) (risingRows.take 60) none) (by decide +kernel)
  obtain ⟨total, _, first, _⟩ := @targetsDecimal_noLookAhead ℤ _
    (.breakoutChannel ⟨60, 15, .longShort⟩) (by decide) rfl
  obtain ⟨ts, hts, _⟩ := total bars
  exact ⟨bars, bars', ts, h, h', hts, first _ _ _ _ _ _ h h' hts⟩

end LiveSignals

end TradePlatform
