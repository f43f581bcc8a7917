/-
# `TradePlatform.LiveSignalChain` — the signals of a candidate form a chain

The runner of `live_signals_v1.py` with the identity of its signals: each names the signal
before it of its candidate.  The targets of a candidate, the clock, the gate and the digest
of an identity are parameters; an exception ends the process, and with it the runner.
-/
import TradePlatform.LiveSignals

namespace TradePlatform

namespace LiveSignals

open StrategySdk

/-- What the runner asks of others: the gate, the clock, the targets of a candidate on a window,
and the id that the digest of an identity gives, over the history and the preceding signal. -/
structure RunnerInputs where
  admits : ℤ → Bool
  nowMicros : WatchedCandidateV1 → LiveBarV1 → ℤ
  targets : WatchedCandidateV1 → BarsV1 → Except Exn (List ℤ)
  signalId : LiveSignalV1 → List LiveBarV1 → Option UUID → UUID

structure ChainedSignalV1 extends LiveSignalV1 where
  previousSignalId : Option UUID
  signalId : UUID

def ChainedSignalV1.key (signal : ChainedSignalV1) : String × UUID × String :=
  (signal.bar.symbol, signal.candidate.studyId, signal.candidate.trialId)

structure ChainedRunner extends LiveStrategyRunnerV1 where
  lastSignal : Dict (String × UUID × String) UUID := .empty

namespace ChainedRunner

variable (inputs : RunnerInputs)

/-- A candidate on the window of a bar, with `_signal` and `_last_signal`. -/
def onCandidate (history : List LiveBarV1) (window : BarsV1) (bar : LiveBarV1)
    (s : ChainedRunner × List ChainedSignalV1) (candidate : WatchedCandidateV1) :
    Except Exn (ChainedRunner × List ChainedSignalV1) := do
  if candidate.symbol ≠ bar.symbol then return s
  let targets ← inputs.targets candidate window
  let key := (bar.symbol, candidate.studyId, candidate.trialId)
  let previous := s.1.lastTarget.getD key (targets.dropLast.getLast?.getD 0)
  match targets.getLast? with
  | none => .error .indexError
  | some current =>
      let runner := { s.1 with lastTarget := s.1.lastTarget.set key current }
      if current = previous ∨ bar.completedByArrivalNanos < s.1.startedNanos then
        return (runner, s.2)
      else
        let decidedMicros := max bar.bar.completeMarketKnowledgeMicros
          (inputs.nowMicros candidate bar + T4.ceilMicrosV1 bar.clockBoundNanos)
        let signal : LiveSignalV1 := ⟨candidate, bar, previous, current, decidedMicros⟩
        let previousSignalId := s.1.lastSignal.get? key
        let signalId := inputs.signalId signal history previousSignalId
        return ({ runner with lastSignal := s.1.lastSignal.set key signalId },
          s.2 ++ [{ signal with previousSignalId, signalId }])

def onBar (s : ChainedRunner × List ChainedSignalV1) (bar : LiveBarV1) :
    Except Exn (ChainedRunner × List ChainedSignalV1) :=
  let history := extendHistory (s.1.history.getD bar.symbol []) bar
  let runner := { s.1 with history := s.1.history.set bar.symbol history }
  if inputs.admits bar.bar.barOpenMicros = false then
    .ok ({ runner with heldBackByHoldout := runner.heldBackByHoldout + 1 }, s.2)
  else do
    let warmup := decide (bar.completedByArrivalNanos < runner.startedNanos)
    let window ← windowOf history
    runner.candidates.foldlM (onCandidate inputs history window bar)
      ({ runner with warmupBars := runner.warmupBars + warmup.toNat }, s.2)

/-- `on_bars`: the runner after the call and the signals of the call. -/
def onBars (runner : ChainedRunner) (bars : List LiveBarV1) :
    Except Exn (ChainedRunner × List ChainedSignalV1) :=
  Replay.replay (onBar inputs) (runner, []) bars

/-- Calls of `on_bars` one after the other, with the signals that each emitted so far. -/
def onCalls (runner : ChainedRunner) (calls : List (List LiveBarV1)) :
    Except Exn (ChainedRunner × List ChainedSignalV1) :=
  calls.foldlM (fun s bars => do
    let (runner, signals) ← onBars inputs s.1 bars
    return (runner, s.2 ++ signals)) (runner, [])

end ChainedRunner

/-! ## The runner without the chain -/

namespace ChainedRunner

section Forget

variable {inputs : RunnerInputs}
  (htargets : ∀ candidate window, inputs.targets candidate window =
    candidate.point.targetsDecimal window)
include htargets

end Forget

end ChainedRunner

/-! ## The chain -/

def chainOf (signals : List ChainedSignalV1) (key : String × UUID × String) :
    List ChainedSignalV1 :=
  signals.filter fun signal => signal.key = key

def Follows (a b : ChainedSignalV1) : Prop :=
  b.previousSignalId = some a.signalId ∧ b.previous = a.current

structure Chained (inputs : RunnerInputs) (startedNanos : ℤ) (runner : ChainedRunner)
    (signals : List ChainedSignalV1) : Prop where
  started : runner.startedNanos = startedNanos
  each : ∀ signal ∈ signals, signal.previous ≠ signal.current ∧
    startedNanos ≤ signal.bar.completedByArrivalNanos ∧
      inputs.admits signal.bar.bar.barOpenMicros = true
  first : ∀ key, ∀ signal ∈ (chainOf signals key).head?, signal.previousSignalId = none
  linked : ∀ key, (chainOf signals key).IsChain Follows
  lastSignal : ∀ key, runner.lastSignal.get? key =
    (chainOf signals key).getLast?.map ChainedSignalV1.signalId
  lastTarget : ∀ key, ∀ signal ∈ (chainOf signals key).getLast?,
    runner.lastTarget.get? key = some signal.current

variable {inputs : RunnerInputs} {startedNanos : ℤ} {runner : ChainedRunner}
  {signals : List ChainedSignalV1}

theorem chainOf_append_singleton (signal : ChainedSignalV1) (key : String × UUID × String) :
    chainOf (signals ++ [signal]) key =
      if signal.key = key then chainOf signals key ++ [signal] else chainOf signals key := by
  rw [chainOf, chainOf, List.filter_append, List.filter_singleton]
  split
  · rename_i hkey
    rw [decide_eq_true hkey]
    rfl
  · rename_i hkey
    rw [decide_eq_false hkey]
    exact List.append_nil _

namespace Chained

theorem nil (hstarted : runner.startedNanos = startedNanos) (h : runner.lastSignal = .empty) :
    Chained inputs startedNanos runner [] where
  started := hstarted
  each := fun _ hsignal => absurd hsignal List.not_mem_nil
  first := fun _ _ hsignal => nomatch Option.mem_def.mp hsignal
  linked := fun _ => .nil
  lastSignal := fun _ => by rw [h]; rfl
  lastTarget := fun _ _ hsignal => nomatch Option.mem_def.mp hsignal

theorem of_lastTarget {runner' : ChainedRunner} {key : String × UUID × String} {current : ℤ}
    (h : Chained inputs startedNanos runner signals)
    (hstarted : runner'.startedNanos = runner.startedNanos)
    (hlastSignal : runner'.lastSignal = runner.lastSignal)
    (hlastTarget : runner'.lastTarget = runner.lastTarget.set key current)
    (hsame : ∀ signal ∈ (chainOf signals key).getLast?, signal.current = current) :
    Chained inputs startedNanos runner' signals where
  started := hstarted.trans h.started
  each := h.each
  first := h.first
  linked := h.linked
  lastSignal := fun key => hlastSignal ▸ h.lastSignal key
  lastTarget := fun key' signal hsignal => by
    rw [hlastTarget]
    rcases eq_or_ne key key' with rfl | hne
    · rw [Dict.get?_set_self, hsame signal hsignal]
    · rw [Dict.get?_set_of_ne hne]
      exact h.lastTarget key' signal hsignal

theorem emit {runner' : ChainedRunner} {signal : ChainedSignalV1}
    (h : Chained inputs startedNanos runner signals)
    (hstarted : runner'.startedNanos = runner.startedNanos)
    (hlastSignal : runner'.lastSignal = runner.lastSignal.set signal.key signal.signalId)
    (hlastTarget : runner'.lastTarget = runner.lastTarget.set signal.key signal.current)
    (heach : signal.previous ≠ signal.current ∧
      startedNanos ≤ signal.bar.completedByArrivalNanos ∧
        inputs.admits signal.bar.bar.barOpenMicros = true)
    (hid : signal.previousSignalId = runner.lastSignal.get? signal.key)
    (hprevious : ∀ last ∈ (chainOf signals signal.key).getLast?,
      signal.previous = last.current) :
    Chained inputs startedNanos runner' (signals ++ [signal]) := by
  have hchain : ∀ key, chainOf (signals ++ [signal]) key = _ := chainOf_append_singleton signal
  constructor
  · exact hstarted.trans h.started
  · intro other hother
    rcases List.mem_append.mp hother with hother | hother
    · exact h.each other hother
    · rw [List.mem_singleton.mp hother]
      exact heach
  · intro key other hother
    rw [hchain] at hother
    split at hother
    · rename_i hkey
      subst hkey
      rw [List.head?_append] at hother
      cases hhead : (chainOf signals signal.key).head? with
      | none =>
          rw [hhead] at hother
          cases hother
          rw [hid, h.lastSignal, List.head?_eq_none_iff.mp hhead]
          rfl
      | some first =>
          rw [hhead] at hother
          exact h.first signal.key other (hhead ▸ hother)
    · exact h.first key other hother
  · intro key
    rw [hchain]
    split
    · rename_i hkey
      subst hkey
      refine List.isChain_append.mpr ⟨h.linked signal.key, .singleton _, ?_⟩
      intro last hlast next hnext
      cases Option.mem_def.mp hnext
      refine ⟨?_, hprevious last hlast⟩
      rw [hid, h.lastSignal, Option.mem_def.mp hlast]
      rfl
    · exact h.linked key
  · intro key
    rw [hlastSignal, hchain, Dict.get?_set]
    split
    · rw [List.getLast?_append]
      rfl
    · exact h.lastSignal key
  · intro key last hlast
    rw [hchain] at hlast
    rw [hlastTarget, Dict.get?_set]
    split at hlast
    · rename_i hkey
      rw [List.getLast?_append] at hlast
      cases Option.mem_def.mp hlast
      rw [if_pos hkey]
      rfl
    · rename_i hkey
      rw [if_neg hkey]
      exact h.lastTarget key last hlast

end Chained

/-! ## Runs -/

namespace ChainedRunner

variable {history : List LiveBarV1} {window : BarsV1} {bar : LiveBarV1}
  {earlier : List ChainedSignalV1} {s t : ChainedRunner × List ChainedSignalV1}

structure Kept (inputs : RunnerInputs) (startedNanos : ℤ) (earlier : List ChainedSignalV1)
    (bar : LiveBarV1) (s t : ChainedRunner × List ChainedSignalV1) : Prop where
  chained : Chained inputs startedNanos t.1 (earlier ++ t.2)
  bars : ∀ signal ∈ t.2, signal ∈ s.2 ∨ signal.bar = bar

theorem onCandidate_kept {candidate : WatchedCandidateV1}
    (h : onCandidate inputs history window bar s candidate = .ok t)
    (hchained : Chained inputs startedNanos s.1 (earlier ++ s.2))
    (hadmits : inputs.admits bar.bar.barOpenMicros = true)
    (hbars : ∀ signal ∈ earlier ++ s.2,
      signal.bar.completedByArrivalNanos ≤ bar.completedByArrivalNanos) :
    Kept inputs startedNanos earlier bar s t := by
  unfold onCandidate at h
  split at h
  · cases Except.pure_eq_ok.mp h
    exact ⟨hchained, fun _ => .inl⟩
  obtain ⟨targets, _, h⟩ := Except.bind_eq_ok.mp h
  dsimp only at h
  split at h
  · cases h
  rename_i current _
  have hsame : ∀ last ∈ (chainOf (earlier ++ s.2)
      (bar.symbol, candidate.studyId, candidate.trialId)).getLast?,
      s.1.lastTarget.getD (bar.symbol, candidate.studyId, candidate.trialId)
        (targets.dropLast.getLast?.getD 0) = last.current := by
    intro last hlast
    rw [Dict.getD, hchained.lastTarget _ last hlast, Option.getD_some]
  split at h
  · rename_i hquiet
    cases Except.pure_eq_ok.mp h
    refine ⟨hchained.of_lastTarget rfl rfl rfl fun last hlast => ?_, fun _ => .inl⟩
    rcases hquiet with hunchanged | hwarmup
    · rw [hunchanged, hsame last hlast]
    · have hmem := List.mem_of_mem_filter (List.mem_of_getLast? hlast)
      have hstarted := (hchained.each last hmem).2.1
      rw [← hchained.started] at hstarted
      exact absurd (hstarted.trans (hbars last hmem)) hwarmup.not_ge
  · rename_i hnot
    obtain ⟨hchanged, hlive⟩ := not_or.mp hnot
    cases Except.pure_eq_ok.mp h
    refine ⟨?_, fun signal hsignal => ?_⟩
    · rw [← List.append_assoc]
      exact hchained.emit rfl rfl rfl
        ⟨fun h => hchanged h.symm, hchained.started ▸ not_lt.mp hlive, hadmits⟩ rfl hsame
    · rcases List.mem_append.mp hsignal with hsignal | hsignal
      · exact .inl hsignal
      · rw [List.mem_singleton.mp hsignal]
        exact .inr rfl

theorem onCandidates_kept {candidates : List WatchedCandidateV1}
    (h : candidates.foldlM (onCandidate inputs history window bar) s = .ok t)
    (hchained : Chained inputs startedNanos s.1 (earlier ++ s.2))
    (hadmits : inputs.admits bar.bar.barOpenMicros = true)
    (hbars : ∀ signal ∈ earlier ++ s.2,
      signal.bar.completedByArrivalNanos ≤ bar.completedByArrivalNanos) :
    Kept inputs startedNanos earlier bar s t := by
  induction candidates generalizing s with
  | nil =>
      cases h
      exact ⟨hchained, fun _ => .inl⟩
  | cons candidate candidates ih =>
      obtain ⟨s', hs', h⟩ := Except.bind_eq_ok.mp h
      have hfirst := onCandidate_kept hs' hchained hadmits hbars
      have hrest := ih h hfirst.chained fun signal hsignal => by
        rcases List.mem_append.mp hsignal with hsignal | hsignal
        · exact hbars signal (List.mem_append_left _ hsignal)
        · rcases hfirst.bars signal hsignal with hsignal | hbar
          · exact hbars signal (List.mem_append_right _ hsignal)
          · rw [hbar]
      refine ⟨hrest.chained, fun signal hsignal => ?_⟩
      exact (hrest.bars signal hsignal).elim (hfirst.bars signal) .inr

theorem onBar_kept (h : onBar inputs s bar = .ok t)
    (hchained : Chained inputs startedNanos s.1 (earlier ++ s.2))
    (hbars : ∀ signal ∈ earlier ++ s.2,
      signal.bar.completedByArrivalNanos ≤ bar.completedByArrivalNanos) :
    Kept inputs startedNanos earlier bar s t := by
  obtain ⟨hstarted, heach, hfirst, hlinked, hlastSignal, hlastTarget⟩ := hchained
  unfold onBar at h
  dsimp only at h
  split at h
  · cases h
    exact ⟨⟨hstarted, heach, hfirst, hlinked, hlastSignal, hlastTarget⟩, fun _ => .inl⟩
  · rename_i hadmits
    obtain ⟨window, _, h⟩ := Except.bind_eq_ok.mp h
    have hkept : Kept inputs startedNanos earlier bar _ t := onCandidates_kept h
      ⟨hstarted, heach, hfirst, hlinked, hlastSignal, hlastTarget⟩ (Bool.of_not_eq_false hadmits) hbars
    exact ⟨hkept.chained, hkept.bars⟩

theorem onBars_kept {bars : List LiveBarV1} (h : Replay.replay (onBar inputs) s bars = .ok t)
    (hchained : Chained inputs startedNanos s.1 (earlier ++ s.2))
    (horder : bars.Pairwise fun a b => a.completedByArrivalNanos ≤ b.completedByArrivalNanos)
    (hbars : ∀ signal ∈ earlier ++ s.2, ∀ bar ∈ bars,
      signal.bar.completedByArrivalNanos ≤ bar.completedByArrivalNanos) :
    Chained inputs startedNanos t.1 (earlier ++ t.2) ∧
      ∀ signal ∈ t.2, signal ∈ s.2 ∨ signal.bar ∈ bars := by
  induction bars generalizing s with
  | nil =>
      cases h
      exact ⟨hchained, fun _ => .inl⟩
  | cons bar bars ih =>
      obtain ⟨s', hs', h⟩ := Except.bind_eq_ok.mp h
      obtain ⟨hbar, horder⟩ := List.pairwise_cons.mp horder
      have hkept := onBar_kept hs' hchained fun signal hsignal =>
        hbars signal hsignal bar List.mem_cons_self
      obtain ⟨hrest, hmem⟩ := ih h hkept.chained horder fun signal hsignal b hb => by
        rcases List.mem_append.mp hsignal with hsignal | hsignal
        · exact hbars signal (List.mem_append_left _ hsignal) b (List.mem_cons_of_mem _ hb)
        · rcases hkept.bars signal hsignal with hsignal | heq
          · exact hbars signal (List.mem_append_right _ hsignal) b (List.mem_cons_of_mem _ hb)
          · rw [heq]
            exact hbar b hb
      refine ⟨hrest, fun signal hsignal => ?_⟩
      rcases hmem signal hsignal with hsignal | hsignal
      · rcases hkept.bars signal hsignal with hsignal | heq
        · exact .inl hsignal
        · exact .inr (heq ▸ List.mem_cons_self)
      · exact .inr (List.mem_cons_of_mem _ hsignal)

theorem onCalls_kept {calls : List (List LiveBarV1)}
    (h : calls.foldlM (fun s bars => do
      let (runner, signals) ← onBars inputs s.1 bars
      return (runner, s.2 ++ signals)) s = .ok t)
    (hchained : Chained inputs startedNanos s.1 s.2)
    (horder : calls.flatten.Pairwise fun a b =>
      a.completedByArrivalNanos ≤ b.completedByArrivalNanos)
    (hbars : ∀ signal ∈ s.2, ∀ bar ∈ calls.flatten,
      signal.bar.completedByArrivalNanos ≤ bar.completedByArrivalNanos) :
    Chained inputs startedNanos t.1 t.2 := by
  induction calls generalizing s with
  | nil =>
      cases h
      exact hchained
  | cons bars calls ih =>
      obtain ⟨s', hs', h⟩ := Except.bind_eq_ok.mp h
      obtain ⟨⟨runner, signals⟩, hcall, hs'⟩ := Except.bind_eq_ok.mp hs'
      cases Except.pure_eq_ok.mp hs'
      rw [List.flatten_cons] at horder hbars
      obtain ⟨hfirst, hrest, hbetween⟩ := List.pairwise_append.mp horder
      have hearlier : Chained inputs startedNanos s.1 (s.2 ++ []) := by rwa [List.append_nil]
      obtain ⟨hkept, hmem⟩ := onBars_kept hcall hearlier hfirst fun signal hsignal bar hbar => by
        rw [List.append_nil] at hsignal
        exact hbars signal hsignal bar (List.mem_append_left _ hbar)
      refine ih h hkept hrest fun signal hsignal bar hbar => ?_
      rcases List.mem_append.mp hsignal with hsignal | hsignal
      · exact hbars signal hsignal bar (List.mem_append_right _ hbar)
      · rcases hmem signal hsignal with hsignal | hsignal
        · cases hsignal
        · exact hbetween _ hsignal bar hbar

end ChainedRunner

/-- The signals of every run: those of a candidate form a chain, none changes nothing, and none
comes of a warm-up bar or of one that the gate holds back. -/
theorem onCalls_chained (inputs : RunnerInputs) {candidates : List WatchedCandidateV1}
    {startedNanos : ℤ} {calls : List (List LiveBarV1)}
    {t : ChainedRunner × List ChainedSignalV1}
    (h : ChainedRunner.onCalls inputs { candidates, startedNanos } calls = .ok t)
    (horder : calls.flatten.Pairwise fun a b =>
      a.completedByArrivalNanos ≤ b.completedByArrivalNanos) :
    (∀ signal ∈ t.2, signal.previous ≠ signal.current ∧
      startedNanos ≤ signal.bar.completedByArrivalNanos ∧
        inputs.admits signal.bar.bar.barOpenMicros = true) ∧
      ∀ key, (∀ signal ∈ (chainOf t.2 key).head?, signal.previousSignalId = none) ∧
        (chainOf t.2 key).IsChain Follows := by
  have hchained := ChainedRunner.onCalls_kept h (Chained.nil rfl rfl) horder
    fun signal hsignal => absurd hsignal List.not_mem_nil
  exact ⟨hchained.each, fun key => ⟨hchained.first key, hchained.linked key⟩⟩

def alternating : RunnerInputs where
  admits := fun _ => true
  nowMicros := fun _ _ => 0
  targets := fun _ window => .ok ((List.range window.size).map fun i => ((i % 2 : ℕ) : ℤ))
  signalId := fun _ _ previous => previous.elim 1 (· + 1)

def minuteBar (i : ℤ) : LiveBarV1 where
  symbol := "BTCUSDT"
  segment := 0
  bar := ⟨i * 60000000, 100, 100, 100, 100, 1, 100, 1, 0, 0, "first", "last", i * 60000000,
    (i + 1) * 60000000, false, false, "closing", "manifest"⟩
  completedByArrivalNanos := (i + 1) * 60000000000
  clockBoundNanos := 0

theorem onCalls_chained_alternating : ∃ t,
    ChainedRunner.onCalls alternating
        { candidates := [⟨7, "trial", "BTCUSDT", .meanReversionZ ⟨30, 2, 1, .longOnly⟩⟩],
          startedNanos := 0 }
        [[minuteBar 0, minuteBar 1], [minuteBar 2]] = .ok t ∧
      t.2.length = 2 ∧ (chainOf t.2 ("BTCUSDT", 7, "trial")).IsChain Follows := by
  obtain ⟨t, h⟩ := Except.exists_of_isOk (x := ChainedRunner.onCalls alternating
    { candidates := [⟨7, "trial", "BTCUSDT", .meanReversionZ ⟨30, 2, 1, .longOnly⟩⟩],
      startedNanos := 0 } [[minuteBar 0, minuteBar 1], [minuteBar 2]]) (by decide +kernel)
  have hlength : (ChainedRunner.onCalls alternating
      { candidates := [⟨7, "trial", "BTCUSDT", .meanReversionZ ⟨30, 2, 1, .longOnly⟩⟩],
        startedNanos := 0 } [[minuteBar 0, minuteBar 1], [minuteBar 2]]).toOption.map
          (fun t => t.2.length) = some 2 := by decide +kernel
  rw [h] at hlength
  exact ⟨t, h, Option.some.inj hlength,
    ((onCalls_chained alternating h (by decide +kernel)).2 _).2⟩

end LiveSignals

end TradePlatform
