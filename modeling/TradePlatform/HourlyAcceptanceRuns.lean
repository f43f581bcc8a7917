/-
# `TradePlatform.HourlyAcceptanceRuns` — runs, verdicts and blocks mean what they say

The chained runs are a partition of the windows into stretches of one session that only
rollovers link, so a run's intervals are apart and what they leave of an hour is what no
interval covers.  From that a verdict is an existence statement over the runs, and the
reported blocks are the maximal ones.
-/
import TradePlatform.HourlyAcceptance

namespace TradePlatform

namespace HourlyAcceptance

open CaptureArchive

/-! ## Runs -/

/-- `b` starts on the UTC day after the rollover that ended `a`. -/
structure Linked (a b : ProvenWindowV1) : Prop where
  rollover : a.interval.endProof = .utcDayRollover
  after : a.interval.endUtcNanos ≤ b.interval.startUtcNanos
  nextDay : b.interval.startUtcNanos / dayNanos = (a.interval.endUtcNanos - 1) / dayNanos + 1

structure RunOf (run : ProvenRunV1) (windows : List ProvenWindowV1) : Prop where
  intervals : run.intervals = windows.map own
  session : ∀ window ∈ windows, window.sessionId = run.sessionId
  endProof : ∀ last ∈ windows.getLast?, last.interval.endProof = run.endProof
  linked : windows.IsChain Linked

def Chains (windows : List ProvenWindowV1) (runs : List ProvenRunV1) : Prop :=
  ∃ pairs : List (ProvenRunV1 × List ProvenWindowV1),
    runs.Perm (pairs.map Prod.fst) ∧ (pairs.flatMap Prod.snd).Perm windows ∧
      ∀ pair ∈ pairs, RunOf pair.1 pair.2

namespace RunOf

variable {run : ProvenRunV1} {windows : List ProvenWindowV1} {window : ProvenWindowV1}

theorem endUtcNanos (h : RunOf run windows) {last : ProvenWindowV1}
    (hlast : last ∈ windows.getLast?) : last.interval.endUtcNanos = run.endUtcNanos := by
  have hmap : run.intervals.getLast? = some (own last) := by
    rw [h.intervals, List.getLast?_map, Option.mem_def.mp hlast]
    rfl
  rw [List.getLast?_eq_some_getLast run.nonempty] at hmap
  exact (congrArg Prod.snd (Option.some.inj hmap)).symm

theorem single (window : ProvenWindowV1) : RunOf (extendRun none window) [window] where
  intervals := rfl
  session := by simp [extendRun]
  endProof := by simp [extendRun]
  linked := .singleton _

theorem extend (h : RunOf run windows) (hsession : run.sessionId = window.sessionId)
    (hcontinues : Continues run window) :
    RunOf (extendRun (some run) window) (windows ++ [window]) := by
  obtain ⟨hrollover, hafter, hnext⟩ := hcontinues
  constructor
  · rw [List.map_append, ← h.intervals]
    rfl
  · intro other hother
    rcases List.mem_append.mp hother with hother | hother
    · exact (h.session other hother).trans hsession
    · rw [List.mem_singleton.mp hother]
      rfl
  · intro last hlast
    rw [List.getLast?_concat] at hlast
    cases Option.mem_def.mp hlast
    rfl
  · refine List.isChain_append.mpr ⟨h.linked, .singleton _, fun last hlast next hnext' => ?_⟩
    cases Option.mem_def.mp hnext'
    rw [← h.endUtcNanos hlast] at hafter hnext
    exact ⟨(h.endProof last hlast).trans hrollover, hafter, hnext⟩

theorem separate (h : RunOf run windows) : Intervals.Separate run.intervals ∧
    ∀ interval ∈ run.intervals, interval.1 < interval.2 := by
  let before (a b : ProvenWindowV1) : Prop := (own a).2 ≤ (own b).1
  have htrans : Trans before before before := by
    refine ⟨fun {a b c} hab hbc => ?_⟩
    have hb : (own b).1 < (own b).2 := Int.lt_add_one_of_le b.interval.ordered
    exact (hab.trans hb.le).trans hbc
  rw [h.intervals]
  constructor
  · refine List.pairwise_map.mpr (List.isChain_iff_pairwise.mp ?_)
    exact h.linked.imp fun a b hab => hab.after
  · intro interval hinterval
    obtain ⟨window, _, rfl⟩ := List.mem_map.mp hinterval
    exact Int.lt_add_one_of_le window.interval.ordered

end RunOf

/-- What the loop keeps: the runs are those of the windows met, and an open run is one of them,
of its session. -/
structure ChainState (windows : List ProvenWindowV1)
    (s : Dict UUID ProvenRunV1 × List ProvenRunV1) : Prop where
  chains : Chains windows s.2
  openRuns : ∀ id run, s.1.get? id = some run → run ∈ s.2 ∧ run.sessionId = id

namespace ChainState

variable {windows : List ProvenWindowV1} {s : Dict UUID ProvenRunV1 × List ProvenRunV1}
  {window : ProvenWindowV1}

theorem start (h : ChainState windows s) (window : ProvenWindowV1) :
    ChainState (windows ++ [window])
      (s.1.set window.sessionId (extendRun none window), s.2 ++ [extendRun none window]) := by
  obtain ⟨pairs, hruns, hwindows, hpairs⟩ := h.chains
  refine ⟨⟨pairs ++ [(extendRun none window, [window])], ?_, ?_, ?_⟩, ?_⟩
  · rw [List.map_append]
    exact hruns.append_right _
  · rw [List.flatMap_append]
    exact hwindows.append_right _
  · intro pair hpair
    rcases List.mem_append.mp hpair with hpair | hpair
    · exact hpairs pair hpair
    · rw [List.mem_singleton.mp hpair]
      exact .single window
  · intro id run hrun
    rw [Dict.get?_set] at hrun
    split at hrun
    · rename_i hid
      cases hrun
      exact ⟨List.mem_append_right _ List.mem_cons_self, hid⟩
    · obtain ⟨hmem, hid⟩ := h.openRuns id run hrun
      exact ⟨List.mem_append_left _ hmem, hid⟩

theorem continues (h : ChainState windows s) {previous : ProvenRunV1}
    (hprevious : s.1.get? window.sessionId = some previous)
    (hcontinues : Continues previous window) : ChainState (windows ++ [window])
      (s.1.set window.sessionId (extendRun (some previous) window),
        s.2.erase previous ++ [extendRun (some previous) window]) := by
  obtain ⟨hmem, hsession⟩ := h.openRuns _ _ hprevious
  obtain ⟨pairs, hruns, hwindows, hpairs⟩ := h.chains
  obtain ⟨pair, hpair, hfst⟩ := List.mem_map.mp (hruns.mem_iff.mp hmem)
  obtain ⟨previousWindows, rfl⟩ : ∃ ws, pair = (previous, ws) := ⟨pair.2, Prod.ext hfst rfl⟩
  have hsplit := List.perm_cons_erase hpair
  refine ⟨⟨pairs.erase (previous, previousWindows) ++
    [(extendRun (some previous) window, previousWindows ++ [window])], ?_, ?_, ?_⟩, ?_⟩
  · rw [List.map_append]
    refine List.Perm.append_right _ ?_
    have herase := (hruns.trans (hsplit.map Prod.fst)).erase previous
    rwa [List.map_cons, List.erase_cons_head] at herase
  · have hflat := (hsplit.flatMap_right Prod.snd).symm.trans hwindows
    rw [List.flatMap_cons] at hflat
    rw [List.flatMap_append, List.flatMap_singleton, ← List.append_assoc]
    exact (List.perm_append_comm.trans hflat).append_right _
  · intro other hother
    rcases List.mem_append.mp hother with hother | hother
    · exact hpairs other (List.mem_of_mem_erase hother)
    · rw [List.mem_singleton.mp hother]
      exact (hpairs _ hpair).extend hsession hcontinues
  · intro id run hrun
    rw [Dict.get?_set] at hrun
    split at hrun
    · rename_i hid
      cases hrun
      exact ⟨List.mem_append_right _ List.mem_cons_self, hid⟩
    · rename_i hid
      obtain ⟨hmem', hid'⟩ := h.openRuns id run hrun
      have hne : run ≠ previous := by
        rintro rfl
        exact hid (hsession.symm.trans hid')
      exact ⟨List.mem_append_left _ ((List.mem_erase_of_ne hne).mpr hmem'), hid'⟩

theorem step (h : ChainState windows s) (window : ProvenWindowV1) :
    ∃ t, chainStep s window = .ok t ∧ ChainState (windows ++ [window]) t := by
  unfold chainStep
  cases hprevious : s.1.get? window.sessionId with
  | none => exact ⟨_, rfl, h.start window⟩
  | some previous =>
      dsimp only
      split
      · rename_i hcontinues
        rw [if_neg (not_not.mpr (h.openRuns _ _ hprevious).1)]
        exact ⟨_, rfl, h.continues hprevious hcontinues⟩
      · exact ⟨_, rfl, h.start window⟩

theorem run (h : ChainState windows s) (more : List ProvenWindowV1) :
    ∃ t, Replay.replay chainStep s more = .ok t ∧ ChainState (windows ++ more) t := by
  induction more generalizing windows s with
  | nil => exact ⟨s, rfl, by rwa [List.append_nil]⟩
  | cons window more ih =>
      obtain ⟨t, ht, hstate⟩ := h.step window
      obtain ⟨u, hu, hend⟩ := ih hstate
      refine ⟨u, ?_, by rwa [List.append_assoc] at hend⟩
      unfold Replay.replay at hu ⊢
      rw [List.foldlM_cons, ht]
      exact hu

end ChainState

theorem chainProvenRunsV1_chains (windows : List ProvenWindowV1) :
    ∃ runs, chainProvenRunsV1 windows = .ok runs ∧ Chains windows runs := by
  have hnil : ChainState [] (.empty, []) := ⟨⟨[], .nil, .nil, nofun⟩, nofun⟩
  obtain ⟨s, hs, hstate⟩ := hnil.run (sortBy windowKey windows)
  obtain ⟨pairs, hruns, hwindows, hpairs⟩ := hstate.chains
  refine ⟨sortBy ProvenRunV1.startKey s.2, ?_, pairs, ?_, ?_, hpairs⟩
  · unfold chainProvenRunsV1
    rw [hs]
    rfl
  · exact (sortBy_perm _ _).trans hruns
  · exact hwindows.trans (sortBy_perm _ _)

/-! ## Hours -/

structure Apart (run : ProvenRunV1) : Prop where
  separate : Intervals.Separate run.intervals
  lt : ∀ interval ∈ run.intervals, interval.1 < interval.2

theorem Chains.apart {windows : List ProvenWindowV1} {runs : List ProvenRunV1}
    (h : Chains windows runs) : ∀ run ∈ runs, Apart run := by
  intro run hrun
  obtain ⟨pairs, hruns, _, hpairs⟩ := h
  obtain ⟨pair, hpair, rfl⟩ := List.mem_map.mp (hruns.mem_iff.mp hrun)
  obtain ⟨hseparate, hlt⟩ := (hpairs pair hpair).separate
  exact ⟨hseparate, hlt⟩

/-- The part of `[lo, hi)` that no interval of a run covers. -/
noncomputable def unprovenPart (run : ProvenRunV1) (lo hi : ℤ) : Finset ℤ :=
  Intervals.uncovered run.intervals lo hi

namespace Apart

variable {run : ProvenRunV1} {lo hi : ℤ}

theorem unprovenNanos_eq (h : Apart run) (hle : lo ≤ hi) :
    run.unprovenNanos lo hi = (unprovenPart run lo hi).card :=
  (Intervals.card_uncovered h.separate hle).symm

theorem start_le (h : Apart run) : ∀ interval ∈ run.intervals, run.startUtcNanos ≤ interval.1 := by
  obtain ⟨id, intervals, endProof, hne⟩ := run
  obtain ⟨hseparate, hlt⟩ := h
  cases intervals with
  | nil => exact absurd rfl hne
  | cons first intervals =>
      intro interval hinterval
      have hfirst := hlt first List.mem_cons_self
      rcases List.mem_cons.mp hinterval with rfl | hinterval
      · exact le_rfl
      · exact hfirst.le.trans ((List.pairwise_cons.mp hseparate).1 interval hinterval)

theorem head_le (h : Apart run) : min run.startUtcNanos hi - lo ≤ (unprovenPart run lo hi).card := by
  have hsub : Finset.Ico lo (min run.startUtcNanos hi) ⊆ unprovenPart run lo hi := by
    intro t ht
    rw [Finset.mem_Ico] at ht
    refine Intervals.mem_uncovered.mpr ⟨by omega, fun interval hinterval hin => ?_⟩
    have hstart := h.start_le interval hinterval
    have hin := hin.1
    omega
  have hcard := Finset.card_le_card hsub
  rw [Int.card_Ico] at hcard
  omega

end Apart

theorem classifyHourV1_complete {runs : List ProvenRunV1} {hourStart maxUnprovenNanos : ℤ}
    {segment : HourlySegmentV1} (hapart : ∀ run ∈ runs, Apart run)
    (hmax : maxUnprovenNanos < hourNanos)
    (h : classifyHourV1 runs hourStart maxUnprovenNanos = .ok segment) :
    segment.hourStartUtcNanos = hourStart ∧ (segment.complete = true ↔ ∃ run ∈ runs,
      hourStart + hourNanos ≤ run.endUtcNanos ∧
        ((unprovenPart run hourStart (hourStart + hourNanos)).card : ℤ) ≤ maxUnprovenNanos) := by
  have hpos : 0 < hourNanos := by decide
  have heq : ∀ run ∈ runs, run.unprovenNanos hourStart (hourStart + hourNanos) =
      (unprovenPart run hourStart (hourStart + hourNanos)).card :=
    fun run hrun => (hapart run hrun).unprovenNanos_eq (by omega)
  unfold classifyHourV1 at h
  dsimp only at h
  split at h
  · cases h
  generalize hspanning : ((runs.filter fun run =>
    run.unprovenNanos hourStart (hourStart + hourNanos) < hourNanos).filter fun run =>
      run.startUtcNanos ≤ hourStart + maxUnprovenNanos ∧
        hourStart + hourNanos ≤ run.endUtcNanos) = spanning at h
  -- a run that proves the hour spans it: its head is part of what it leaves
  have hspans : ∀ run ∈ runs, hourStart + hourNanos ≤ run.endUtcNanos →
      ((unprovenPart run hourStart (hourStart + hourNanos)).card : ℤ) ≤ maxUnprovenNanos →
        run ∈ spanning := by
    intro run hrun hend hcard
    have hhead := @Apart.head_le run hourStart (hourStart + hourNanos) (hapart run hrun)
    rw [← hspanning, List.mem_filter, List.mem_filter]
    refine ⟨⟨hrun, decide_eq_true ?_⟩, decide_eq_true ⟨?_, hend⟩⟩
    · rw [heq run hrun]
      omega
    · omega
  have hnone : minBy (spanKey hourStart) spanning = none → ¬ ∃ run ∈ runs,
      hourStart + hourNanos ≤ run.endUtcNanos ∧
        ((unprovenPart run hourStart (hourStart + hourNanos)).card : ℤ) ≤ maxUnprovenNanos := by
    rintro hmin ⟨run, hrun, hend, hcard⟩
    have hmem := hspans run hrun hend hcard
    rw [minBy_eq_none.mp hmin] at hmem
    cases hmem
  split at h
  · rename_i best hbest
    cases h
    obtain ⟨hmem, hmin⟩ := minBy_eq_some hbest
    rw [← hspanning, List.mem_filter, List.mem_filter] at hmem
    obtain ⟨⟨hbestRun, _⟩, hspan⟩ := hmem
    refine ⟨rfl, ?_⟩
    rcases le_or_gt (best.unprovenNanos hourStart (hourStart + hourNanos)) maxUnprovenNanos with
      hbound | hbound
    · rw [if_pos hbound]
      refine ⟨fun _ => ⟨best, hbestRun, (of_decide_eq_true hspan).2, ?_⟩, fun _ => rfl⟩
      rwa [← heq best hbestRun]
    · rw [if_neg hbound.not_ge]
      refine ⟨nofun, ?_⟩
      rintro ⟨run, hrun, hend, hcard⟩
      have hkey := hmin run (hspans run hrun hend hcard)
      rw [← heq run hrun] at hcard
      have hle : best.unprovenNanos hourStart (hourStart + hourNanos) ≤
          run.unprovenNanos hourStart (hourStart + hourNanos) := by
        rcases Prod.Lex.toLex_le_toLex.mp hkey with hlt | ⟨heq, _⟩
        · exact hlt.le
        · exact heq.le
      omega
  · rename_i hmin _
    cases h
    exact ⟨rfl, ⟨nofun, fun hrun => absurd hrun (hnone hmin)⟩⟩
  · rename_i hmin _ _
    cases h
    exact ⟨rfl, ⟨nofun, fun hrun => absurd hrun (hnone hmin)⟩⟩
  · rename_i hmin _ _
    cases h
    exact ⟨rfl, ⟨nofun, fun hrun => absurd hrun (hnone hmin)⟩⟩

/-! ## Joint hours -/

def hoursOf (firstHour : ℤ) (block : ℕ × ℕ) : ConsecutiveHoursV1 :=
  ⟨firstHour + block.1 * hourNanos, block.2⟩

theorem consecutiveFrom_eq (firstHour : ℤ) (start : Option ℕ) (i : ℕ) (flags : List Bool) :
    consecutiveFrom firstHour start i (flags ++ [false]) =
      (Intervals.blocksFrom start i flags).map (hoursOf firstHour) := by
  induction flags generalizing start i with
  | nil =>
      cases start with
      | none => rfl
      | some start => rfl
  | cons flag flags ih =>
      cases start with
      | none => exact ih _ _
      | some start =>
          rw [List.cons_append, consecutiveFrom, Intervals.blocksFrom]
          split
          · exact ih _ _
          · rw [List.map_cons, ih]
            rfl

structure SymbolAccepted (firstHour maxUnprovenNanos : ℤ) (hours : ℕ)
    (entry : String × List ProvenWindowV1) (symbolHours : SymbolHoursV1) : Prop where
  symbol : symbolHours.symbol = entry.1
  length : symbolHours.segments.length = hours
  complete : ∃ runs, chainProvenRunsV1 entry.2 = .ok runs ∧
    ∀ (i : ℕ) segment, symbolHours.segments[i]? = some segment →
      segment.hourStartUtcNanos = firstHour + i * hourNanos ∧
        (segment.complete = true ↔ ∃ run ∈ runs,
          segment.hourStartUtcNanos + hourNanos ≤ run.endUtcNanos ∧
            ((unprovenPart run segment.hourStartUtcNanos
              (segment.hourStartUtcNanos + hourNanos)).card : ℤ) ≤ maxUnprovenNanos)

theorem forall₂_trans {α β γ : Type} {R : α → β → Prop} {S : β → γ → Prop} {T : α → γ → Prop}
    (hcomp : ∀ a b c, R a b → S b c → T a c) {as : List α} {bs : List β} {cs : List γ}
    (h : List.Forall₂ R as bs) (h' : List.Forall₂ S bs cs) : List.Forall₂ T as cs := by
  induction h generalizing cs with
  | nil =>
      cases h'
      exact .nil
  | cons hab _ ih =>
      cases h' with
      | cons hbc htail => exact .cons (hcomp _ _ _ hab hbc) (ih htail)

theorem symbolAccepted {entry : String × List ProvenWindowV1} {runs : List ProvenRunV1}
    {firstHour maxUnprovenNanos : ℤ} {hours : ℕ} {segments : List HourlySegmentV1}
    (hmax : maxUnprovenNanos < hourNanos) (hruns : chainProvenRunsV1 entry.2 = .ok runs)
    (hsegments : ((List.range hours).mapM fun (index : ℕ) =>
      classifyHourV1 runs (firstHour + index * hourNanos) maxUnprovenNanos) = .ok segments)
    (latest : Option ℤ) :
    SymbolAccepted firstHour maxUnprovenNanos hours entry ⟨entry.1, segments, latest⟩ := by
  obtain ⟨hlength, hall⟩ := Except.mapM_range_ok hsegments
  obtain ⟨runs', hruns', hchains⟩ := chainProvenRunsV1_chains entry.2
  rw [hruns] at hruns'
  cases hruns'
  refine ⟨rfl, hlength, runs, hruns, fun i segment hsegment => ?_⟩
  have hi : i < hours := hlength ▸ (List.getElem?_eq_some_iff.mp hsegment).1
  obtain ⟨segment', hsegment', hclassify⟩ := hall i hi
  rw [hsegment'] at hsegment
  cases hsegment
  obtain ⟨hstart, hcomplete⟩ := classifyHourV1_complete hchains.apart hmax hclassify
  rw [hstart]
  exact ⟨rfl, hcomplete⟩

theorem all_complete {symbols : List SymbolHoursV1} {flags : List Bool} {i : ℕ}
    (h : List.Forall₂ (fun symbol flag => completeAt i symbol = .ok flag) symbols flags) :
    flags.all id = true ↔ ∀ symbol ∈ symbols, ∃ segment, symbol.segments[i]? = some segment ∧
      segment.complete = true := by
  induction h with
  | nil => simp
  | cons hflag _ ih =>
      rw [List.all_cons, Bool.and_eq_true, ih, List.forall_mem_cons]
      refine and_congr_left fun _ => ?_
      unfold completeAt at hflag
      split at hflag
      · cases hflag
      · rename_i segment hsegment
        cases hflag
        rw [hsegment]
        exact ⟨fun h => ⟨segment, rfl, h⟩, fun ⟨_, heq, h⟩ => Option.some.inj heq ▸ h⟩

def rolloverWindows : List ProvenWindowV1 :=
  [⟨7, ⟨0, hourNanos - 1, .operatorBoundedStop, 0, by decide⟩⟩,
    ⟨7, ⟨dayNanos - 2 * hourNanos, dayNanos - 1, .utcDayRollover, 0, by decide⟩⟩,
    ⟨7, ⟨dayNanos + 1, dayNanos + hourNanos - 1, .operatorBoundedStop, 0, by decide⟩⟩]

end HourlyAcceptance

end TradePlatform
