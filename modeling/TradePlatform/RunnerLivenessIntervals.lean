/-
# `TradePlatform.RunnerLivenessIntervals` — the intervals of a window tile it

Whatever the evidence says of the minutes, each minute of the window is classified once and in
order, and the loop over them closes an interval where the status changes and nowhere else:
the intervals tile the window, neighbours differ, and no time is lost between the proven and
the unproven.
-/
import TradePlatform.RunnerLiveness

namespace TradePlatform

namespace RunnerLiveness

open Grid

/-! ## The grouping of minutes -/

section Grouping

variable {intervals : List LivenessIntervalV1} {first entry : Minute} {rest minutes : List Minute}
  {s : List LivenessIntervalV1 × List Minute} {start next : ℤ} {n : ℕ}

def LivenessIntervalV1.ends (interval : LivenessIntervalV1) : ℤ × ℤ :=
  (interval.startMicros, interval.endMicros)

def Key.ofInterval : Key → Status × Option String × Option String × Option String
  | .proven runner capture => (.proven, none, some runner, some capture)
  | .unproven reason => (.unproven, some reason, none, none)

theorem Key.ofInterval_inj {a b : Key} (h : a.ofInterval = b.ofInterval) : a = b := by
  cases a with
  | unproven reason =>
      cases b with
      | unproven reason' => cases h; rfl
      | proven runner capture => cases h
  | proven runner capture =>
      cases b with
      | unproven reason => cases h
      | proven runner' capture' => cases h; rfl

@[simp] theorem intervalOf_start : (intervalOf first rest).startMicros = first.minute := by
  unfold intervalOf
  split <;> rfl

@[simp] theorem intervalOf_end : (intervalOf first rest).endMicros =
    ((first :: rest).getLast (List.cons_ne_nil first rest)).minute + minuteMicros := by
  unfold intervalOf
  split <;> rfl

@[simp] theorem intervalOf_key : (intervalOf first rest).key = first.key.ofInterval := by
  unfold intervalOf LivenessIntervalV1.key
  split
  · next heq => rw [heq]; rfl
  · next heq => rw [heq]; rfl

/-- What the loop has made of the minutes up to `next`: the intervals, with the open group laid
down, tile the window so far, and their neighbours differ. -/
structure Grouped (start next : ℤ) (s : List LivenessIntervalV1 × List Minute) : Prop where
  tiles : Tiles start next ((flush s.1 s.2).map LivenessIntervalV1.ends)
  proper : ∀ interval ∈ flush s.1 s.2, interval.startMicros < interval.endMicros
  distinct : ((flush s.1 s.2).map LivenessIntervalV1.key).IsChain (· ≠ ·)
  begun : s.2 = [] → s.1 = []

theorem Grouped.empty : Grouped start start ([], []) :=
  ⟨rfl, by simp [flush], List.IsChain.nil, fun _ => rfl⟩

theorem Grouped.close (h : Grouped start next (intervals, first :: rest))
    (hminute : entry.minute = next) (hkey : first.key ≠ entry.key) :
    Grouped start (next + minuteMicros) (flush intervals (first :: rest), [entry]) := by
  obtain ⟨htiles, hproper, hdistinct, -⟩ := h
  simp only [flush] at htiles hproper hdistinct ⊢
  refine ⟨?_, ?_, ?_, fun h => nomatch h⟩
  · rw [flush, List.map_append, List.map_singleton, tiles_concat]
    simp only [LivenessIntervalV1.ends, intervalOf_start, intervalOf_end, List.getLast_singleton,
      hminute]
    exact ⟨htiles, trivial⟩
  · intro interval hmem
    rcases List.mem_append.mp hmem with hold | hnew
    · exact hproper interval hold
    · rw [List.mem_singleton.mp hnew, intervalOf_start, intervalOf_end, List.getLast_singleton]
      exact lt_add_of_pos_right _ (by decide)
  · rw [flush, List.map_append, List.map_singleton]
    refine List.isChain_append.mpr ⟨hdistinct, List.isChain_singleton _, ?_⟩
    intro last hlast key hnext
    rw [List.map_append, List.map_singleton, List.getLast?_concat, intervalOf_key] at hlast
    rw [List.head?_singleton, intervalOf_key] at hnext
    rw [← Option.some.inj hlast, ← Option.some.inj hnext]
    exact fun heq => hkey (Key.ofInterval_inj heq)

theorem Grouped.widen (h : Grouped start next (intervals, first :: rest))
    (hminute : entry.minute = next) :
    Grouped start (next + minuteMicros) (intervals, first :: rest ++ [entry]) := by
  obtain ⟨htiles, hproper, hdistinct, -⟩ := h
  simp only [flush] at htiles hproper hdistinct
  rw [List.map_append, List.map_singleton, tiles_concat] at htiles
  have hend : (intervalOf first rest).endMicros = next := htiles.2
  refine ⟨?_, ?_, ?_, fun h => nomatch h⟩
  · rw [List.cons_append, flush, List.map_append, List.map_singleton, tiles_concat]
    refine ⟨?_, ?_⟩
    · simp only [LivenessIntervalV1.ends, intervalOf_start] at htiles ⊢
      exact htiles.1
    · simp [LivenessIntervalV1.ends, hminute]
  · intro interval hmem
    rw [List.cons_append, flush] at hmem
    rcases List.mem_append.mp hmem with hold | hnew
    · exact hproper interval (List.mem_append_left _ hold)
    · have hlt := hproper _ (List.mem_append_right _ (List.mem_singleton.mpr rfl))
      rw [hend, intervalOf_start] at hlt
      rw [List.mem_singleton.mp hnew, intervalOf_start]
      simp only [intervalOf_end, ← List.cons_append, List.getLast_append_singleton, hminute]
      exact hlt.trans (lt_add_of_pos_right _ (by decide))
  · rw [List.cons_append, flush, List.map_append, List.map_singleton, intervalOf_key]
    rwa [List.map_append, List.map_singleton, intervalOf_key] at hdistinct

theorem Grouped.group (h : Grouped start next s) (hminute : entry.minute = next) :
    Grouped start (next + minuteMicros) (group s entry) := by
  obtain ⟨intervals, open_⟩ := s
  cases open_ with
  | nil =>
      obtain rfl := h.begun rfl
      obtain rfl : start = next := h.tiles
      refine ⟨?_, ?_, ?_, fun h => nomatch h⟩
      · simp [RunnerLiveness.group, flush, Tiles, LivenessIntervalV1.ends, hminute]
      · intro interval hmem
        simp only [RunnerLiveness.group, flush, List.nil_append, List.mem_singleton] at hmem
        rw [hmem, intervalOf_start, intervalOf_end, List.getLast_singleton]
        exact lt_add_of_pos_right _ (by decide)
      · simp [RunnerLiveness.group, flush]
  | cons first rest =>
      unfold RunnerLiveness.group
      dsimp only
      split
      · next hkey => exact h.close hminute hkey
      · exact h.widen hminute

theorem Grouped.foldl (h : Grouped start next s)
    (hminutes : minutes.map Minute.minute = ticks minuteMicros n next) :
    Grouped start (next + n * minuteMicros) (minutes.foldl RunnerLiveness.group s) := by
  induction minutes generalizing s next n with
  | nil =>
      cases n with
      | zero => simpa using h
      | succ n => simp [ticks, List.range_succ] at hminutes
  | cons entry minutes ih =>
      cases n with
      | zero => simp [ticks] at hminutes
      | succ n =>
          have hsplit := ticks_add minuteMicros 1 n next
          rw [Nat.add_comm, ← hminutes] at hsplit
          have hone : ticks minuteMicros 1 next = [next] := by simp [ticks]
          rw [hone, List.map_cons, List.singleton_append, List.cons.injEq] at hsplit
          have hstep := ih (h.group hsplit.1) (by simpa using hsplit.2)
          have hend : next + minuteMicros + n * minuteMicros =
              next + (n + 1 : ℕ) * minuteMicros := by
            push_cast
            ring
          rw [← hend]
          exact hstep

end Grouping

/-! ## Proven and unproven time -/

section Sums

variable {intervals : List LivenessIntervalV1} {out : Dict String ℤ}

def Reasoned (intervals : List LivenessIntervalV1) : Prop :=
  ∀ interval ∈ intervals, interval.status = .unproven → interval.reason.isSome

theorem reasoned_intervalOf (first : Minute) (rest : List Minute) :
    (intervalOf first rest).status = .unproven → (intervalOf first rest).reason.isSome := by
  unfold intervalOf
  split
  · intro h
    cases h
  · intro _
    rfl

theorem Reasoned.flush (h : Reasoned intervals) (group : List Minute) :
    Reasoned (flush intervals group) := by
  cases group with
  | nil => exact h
  | cons first rest =>
      intro interval hmem
      rcases List.mem_append.mp hmem with hold | hnew
      · exact h interval hold
      · rw [List.mem_singleton.mp hnew]
        exact reasoned_intervalOf first rest

theorem Reasoned.foldl {s : List LivenessIntervalV1 × List Minute} (h : Reasoned s.1)
    (minutes : List Minute) : Reasoned (minutes.foldl group s).1 := by
  induction minutes generalizing s with
  | nil => exact h
  | cons entry minutes ih =>
      refine ih ?_
      unfold group
      split
      · exact h
      · split
        · exact h.flush _
        · exact h

theorem reasoned_intervalsOf (minutes : List Minute) : Reasoned (intervalsOf minutes) :=
  Reasoned.flush (Reasoned.foldl (s := ([], [])) (by simp [Reasoned]) minutes) _

def unprovenPart (interval : LivenessIntervalV1) : ℤ :=
  if interval.status = .unproven then interval.micros else 0

theorem sum_addUnproven {interval : LivenessIntervalV1}
    (h : interval.status = .unproven → interval.reason.isSome) :
    ((RunnerLivenessV1.addUnproven out interval).rows.map Prod.snd).sum =
      (out.rows.map Prod.snd).sum + unprovenPart interval := by
  unfold RunnerLivenessV1.addUnproven unprovenPart
  split
  · next reason hstatus hreason =>
      rw [Dict.sum_set (fun row : String × ℤ => row.2), if_pos hstatus, Dict.getD]
      cases Dict.get? out reason with
      | none => simp
      | some held =>
          simp only [Option.getD_some, Option.elim_some]
          ring
  · next hother =>
      rw [if_neg, add_zero]
      intro hstatus
      obtain ⟨reason, hreason⟩ := Option.isSome_iff_exists.mp (h hstatus)
      exact hother reason hstatus hreason

theorem sum_foldl_addUnproven (h : Reasoned intervals) :
    ((intervals.foldl RunnerLivenessV1.addUnproven out).rows.map Prod.snd).sum =
      (out.rows.map Prod.snd).sum + (intervals.map unprovenPart).sum := by
  induction intervals generalizing out with
  | nil => simp
  | cons interval intervals ih =>
      have hfirst := h interval List.mem_cons_self
      rw [List.foldl_cons, ih fun other hmem => h other (List.mem_cons_of_mem _ hmem),
        sum_addUnproven hfirst, List.map_cons, List.sum_cons]
      ring

theorem sum_proven_add_unproven :
    (((intervals.filter fun interval => interval.status = .proven).map
      LivenessIntervalV1.ends).map fun span => span.2 - span.1).sum +
        (intervals.map unprovenPart).sum =
      ((intervals.map LivenessIntervalV1.ends).map fun span => span.2 - span.1).sum := by
  induction intervals with
  | nil => simp
  | cons interval intervals ih =>
      rw [List.filter_cons]
      cases hstatus : interval.status with
      | proven =>
          simp only [decide_true, if_true, List.map_cons, List.sum_cons, unprovenPart, hstatus,
            reduceCtorEq, if_false]
          linarith
      | unproven =>
          simp only [reduceCtorEq, decide_false, Bool.false_eq_true, if_false, List.map_cons,
            List.sum_cons, unprovenPart, hstatus, if_true, LivenessIntervalV1.micros,
            LivenessIntervalV1.ends]
          linarith

theorem RunnerLivenessV1.proven_add_unproven {liveness : RunnerLivenessV1}
    (h : Reasoned liveness.intervals) :
    liveness.provenMicros + (liveness.unprovenMicrosByReason.map Prod.snd).sum =
      ((liveness.intervals.map LivenessIntervalV1.ends).map fun span => span.2 - span.1).sum := by
  have hrows : (liveness.unprovenMicrosByReason.map Prod.snd).sum =
      ((liveness.intervals.foldl addUnproven Dict.empty).rows.map Prod.snd).sum :=
    ((sortBy_perm Prod.fst _).map Prod.snd).sum_eq
  have hproven : liveness.provenMicros =
      (((liveness.intervals.filter fun interval => interval.status = .proven).map
        LivenessIntervalV1.ends).map fun span => span.2 - span.1).sum := rfl
  have hempty : ((Dict.empty : Dict String ℤ).rows.map Prod.snd).sum = 0 := rfl
  rw [hrows, sum_foldl_addUnproven h, hempty, zero_add, hproven, sum_proven_add_unproven]

end Sums

/-! ## The reconstruction -/

section Reconstruction

variable {env : Env} {records : List Stored} {studyId trialId symbol : String}
  {windowStart windowEnd : DateTime} {acceptance : HourlyAcceptance.HourlyAcceptanceV1}
  {sealed_ : List SealedBarsEvidenceV1} {bounds : Bounds}
  {watchedAs : Option (List (String × String))} {liveness : RunnerLivenessV1}
  {evidence : Evidence} {minutes : List Minute} {start end_ : ℤ}

theorem classify_minute {minute : ℤ} {entry : Minute}
    (h : classify env evidence minute = .ok entry) : entry.minute = minute := by
  unfold classify at h
  dsimp only at h
  split at h
  · cases h
    rfl
  · split at h
    · cases h
      rfl
    · obtain ⟨checked, -, h⟩ := Except.bind_eq_ok.mp h
      split at h
      · cases h
        rfl
      · split at h
        · cases h
          rfl
        · cases h
          rfl

theorem minutes_eq (h : (range start end_ minuteMicros).mapM (classify env evidence) = .ok minutes) :
    minutes.map Minute.minute = range start end_ minuteMicros := by
  have hall := Except.forall₂_of_mapM h
  clear h
  generalize range start end_ minuteMicros = ticks at hall
  induction hall with
  | nil => rfl
  | cons hone _ ih => rw [List.map_cons, classify_minute hone, ih]

theorem range_whole (hstart : start % minuteMicros = 0) (hend : end_ % minuteMicros = 0)
    (hlt : start < end_) : ∃ n : ℕ, range start end_ minuteMicros = ticks minuteMicros n start ∧
      start + n * minuteMicros = end_ := by
  refine ⟨((end_ - start + minuteMicros - 1) / minuteMicros).toNat, rfl, ?_⟩
  unfold minuteMicros at *
  omega

theorem derive_eq (h : deriveRunnerLivenessV1 env records studyId trialId symbol windowStart
    windowEnd acceptance sealed_ bounds watchedAs = .ok liveness) :
    windowStart = .aware liveness.startMicros ∧ windowEnd = .aware liveness.endMicros ∧
      ∃ (n : ℕ) (minutes : List Minute), liveness.intervals = intervalsOf minutes ∧
        minutes.map Minute.minute = ticks minuteMicros n liveness.startMicros ∧
        liveness.startMicros + n * minuteMicros = liveness.endMicros := by
  obtain ⟨start, hstart, h⟩ := Except.bind_eq_ok.mp h
  obtain ⟨end_, hend, h⟩ := Except.bind_eq_ok.mp h
  split at h
  · cases h
  · next hwindow =>
      split at h
      · cases h
      · obtain ⟨expected, -, h⟩ := Except.bind_eq_ok.mp h
        obtain ⟨sessions, -, h⟩ := Except.bind_eq_ok.mp h
        obtain ⟨proofs, -, h⟩ := Except.bind_eq_ok.mp h
        obtain ⟨verdicts, -, h⟩ := Except.bind_eq_ok.mp h
        obtain ⟨minutes, hminutes, h⟩ := Except.bind_eq_ok.mp h
        cases h
        have hwhole : ∃ n : ℕ, range start end_ minuteMicros = ticks minuteMicros n start ∧
            start + n * minuteMicros = end_ := range_whole (by tauto) (by tauto) (by omega)
        obtain ⟨n, hticks, hlength⟩ := hwhole
        refine ⟨?_, ?_, n, minutes, rfl, (minutes_eq hminutes).trans hticks, hlength⟩
        · cases windowStart with
          | aware instant => cases hstart; rfl
          | naive wall => cases hstart
        · cases windowEnd with
          | aware instant => cases hend; rfl
          | naive wall => cases hend

/-- The intervals of every window that is reconstructed: each is non-empty, they follow each
other from the start of the window to its end, neighbours differ, and the proven time and the
unproven time add up to the length of the window. -/
theorem intervals_tile_window (h : deriveRunnerLivenessV1 env records studyId trialId symbol
    windowStart windowEnd acceptance sealed_ bounds watchedAs = .ok liveness) :
    windowStart = .aware liveness.startMicros ∧ windowEnd = .aware liveness.endMicros ∧
      (∀ interval ∈ liveness.intervals, interval.startMicros < interval.endMicros) ∧
      Tiles liveness.startMicros liveness.endMicros
        (liveness.intervals.map LivenessIntervalV1.ends) ∧
      (liveness.intervals.map LivenessIntervalV1.key).IsChain (· ≠ ·) ∧
      liveness.provenMicros + (liveness.unprovenMicrosByReason.map Prod.snd).sum =
        liveness.endMicros - liveness.startMicros := by
  obtain ⟨hstart, hend, n, minutes, hintervals, hminutes, hlength⟩ := derive_eq h
  have hgrouped := Grouped.empty.foldl hminutes
  rw [hlength] at hgrouped
  have hreasoned : Reasoned liveness.intervals := hintervals ▸ reasoned_intervalsOf minutes
  have htiles : Tiles liveness.startMicros liveness.endMicros
      (liveness.intervals.map LivenessIntervalV1.ends) := hintervals ▸ hgrouped.tiles
  refine ⟨hstart, hend, hintervals ▸ hgrouped.proper, htiles, hintervals ▸ hgrouped.distinct, ?_⟩
  rw [RunnerLivenessV1.proven_add_unproven hreasoned, htiles.sum]

/-! A session that starts with the hour and records two bars of its second and third minute:
those two are proven, the first and the last are not. -/

def sampleEnv : Env where
  identityHash _ := .ok "hash"
  repr _ := ""
  uuidText _ := "capture"

def sampleBinding : Json :=
  .obj [("runner", .str "runner"), ("symbol", .str "BTCUSDT"), ("capture_source_id", .str "source"),
    ("candidates", .arr [.obj [("study_id", .str "study"), ("trial_id", .str "trial")]])]

def sampleRecord (kind : String) (sequence wall : ℤ) (binding previous : Json)
    (bars : List Json) : Stored where
  contentHash := "hash"
  identity := .obj [("schema_version", .str runnerProgressSchemaVersionV1),
    ("runner_session_id", .str "session"), ("kind", .str kind), ("sequence", .int sequence),
    ("host_wall_micros", .int wall), ("host_monotonic_nanos", .int (wall * 1000)),
    ("binding", binding), ("binding_hash", .str "hash"), ("previous_progress_hash", previous),
    ("bars", .arr bars)]

def sampleBar (minute : ℤ) : Json :=
  .obj [("bar_open_micros", .int (minute * minuteMicros)),
    ("completed_by_arrival_nanos", .int ((minute + 1) * minuteMicros * 1000)),
    ("admitted", .bool true), ("feed_segment", .int 0), ("capture_session_id", .str "capture"),
    ("trade_manifest_hash", .str "manifest"), ("closing_record_hash", .str "closing")]

def sampleRecords : List Stored :=
  [sampleRecord kindStarted 0 0 sampleBinding .null [],
    sampleRecord kindBars 1 121000000 .null (.str "hash") [sampleBar 1],
    sampleRecord kindBars 2 181000000 .null (.str "hash") [sampleBar 2]]

def sampleAcceptance : HourlyAcceptance.HourlyAcceptanceV1 where
  requiredConsecutiveHours := 1
  maxUnprovenNanos := 0
  firstHourStartUtcNanos := some 0
  hoursJudged := 1
  symbols := [⟨"BTCUSDT", [{ hourStartUtcNanos := 0, verdict := .complete, sessionId := some 1 }],
    none⟩]
  jointComplete := [true]
  runs := []

def sampleSealed : SealedBarsEvidenceV1 where
  datasetVersionId := "version"
  datasetContentHash := "content"
  sourceId := "source"
  sessionId := "capture"
  exchangeSymbol := "BTCUSDT"
  bars := Dict.set (Dict.set Dict.empty (1 * minuteMicros) ("manifest", "closing"))
    (2 * minuteMicros) ("manifest", "closing")

def sampleLiveness : Except Exn RunnerLivenessV1 :=
  deriveRunnerLivenessV1 sampleEnv sampleRecords "study" "trial" "BTCUSDT" (.aware 0)
    (.aware (4 * minuteMicros)) sampleAcceptance [sampleSealed] ⟨200000000000, 1, 5000000000⟩ none

def sampleResult : RunnerLivenessV1 where
  candidate := ⟨"study", "trial", "BTCUSDT", none⟩
  startMicros := 0
  endMicros := 4 * minuteMicros
  bounds := ⟨200000000000, 1, 5000000000⟩
  captureMaxUnprovenNanos := 0
  runnerSessions := [⟨"session", "runner", "hash", "hash",
    watchedAsKeys.map fun key => (key, "None"), 0, 181000000, 3, []⟩]
  restarts := 0
  refusedSessions := []
  excludedSessions := []
  intervals :=
    [⟨0, minuteMicros, .unproven, some "ALIVE_WITHOUT_DATA_PROOF", none, none, [], []⟩,
      ⟨minuteMicros, 3 * minuteMicros, .proven, none, some "session", some "capture",
        ["version:content"], [0]⟩,
      ⟨3 * minuteMicros, 4 * minuteMicros, .unproven, some "ALIVE_WITHOUT_DATA_PROOF", none, none,
        [], []⟩]

theorem intervals_tile_window_sample :
    sampleResult.provenMicros + (sampleResult.unprovenMicrosByReason.map Prod.snd).sum =
      sampleResult.endMicros - sampleResult.startMicros :=
  (intervals_tile_window
    (show sampleLiveness = .ok sampleResult by decide +kernel)).2.2.2.2.2

end Reconstruction

end RunnerLiveness

end TradePlatform
