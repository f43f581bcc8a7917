/-
# `TradePlatform.ScheduledAcquisitionRuns` — no window is acquired past an older gap

A plan lists the oldest missing windows in order (`Plan.older_done`), so what stands before a
window in it, with the evidence the plan was made of, covers every older window.  An
invocation works through its plan from the front and goes on after a success only; that is
its invariant, and neither the other invocations nor new sealed datasets can break it.
-/
import TradePlatform.ScheduledAcquisition

namespace TradePlatform.ScheduledAcquisition

variable {env : Env} {a : ScheduledHistoricalAcquisitionAuthorizationV1}

/-! ## What a valid authorization fixes -/

theorem requireUtc_eq_ok {value : ClockTime} {name : String} {instant : ℤ}
    (h : requireUtc value name = .ok instant) : value.wall = instant := by
  unfold requireUtc at h
  split at h
  · cases h
  · split at h
    · cases h
    · exact Except.ok.inj h

theorem schedule_of_validate (h : a.validate = .ok ()) :
    a.scheduleAnchor.wall % oneMinute = 0 ∧ 0 < a.windowSize ∧ a.windowSize % oneMinute = 0 := by
  unfold ScheduledHistoricalAcquisitionAuthorizationV1.validate at h
  iterate 6
    obtain ⟨_, -, h⟩ := Except.bind_eq_ok.mp h
  iterate 5
    obtain ⟨-, h⟩ := Except.of_ite_error h
  obtain ⟨anchor, hanchor, h⟩ := Except.bind_eq_ok.mp h
  obtain ⟨_, -, h⟩ := Except.bind_eq_ok.mp h
  obtain ⟨haligned, h⟩ := Except.of_ite_error h
  obtain ⟨-, h⟩ := Except.of_ite_error h
  obtain ⟨hsize, -⟩ := Except.of_ite_error h
  rw [requireUtc_eq_ok hanchor]
  have hminutes := not_or.mp hsize
  exact ⟨not_ne_iff.mp haligned, not_le.mp hminutes.1, not_ne_iff.mp hminutes.2⟩

/-! ## Windows and their versions -/

theorem plus_eq_ok {instant span t : ℤ} (h : plus instant span = .ok t) :
    t = instant + span ∧ ∃ x, IsoText.Stamp.utc? t = some x := by
  unfold plus at h
  split at h
  · rename_i hin
    cases h
    exact ⟨rfl, Option.isSome_iff_exists.mp hin⟩
  · cases h

theorem window_eq_ok {k : ℕ} {w : Window} (h : window a k = .ok w) :
    w.index = k ∧ w.start = a.scheduleAnchor.wall + k * a.windowSize ∧
      w.stop = a.scheduleAnchor.wall + (k + 1) * a.windowSize ∧
      ∃ x, IsoText.Stamp.utc? w.start = some x := by
  obtain ⟨start, hstart, h⟩ := Except.bind_eq_ok.mp h
  obtain ⟨stop, hstop, h⟩ := Except.bind_eq_ok.mp h
  cases Except.pure_eq_ok.mp h
  obtain ⟨rfl, hx⟩ := plus_eq_ok hstart
  obtain ⟨rfl, -⟩ := plus_eq_ok hstop
  exact ⟨rfl, rfl, by ring, hx⟩

theorem colon_notMem_digits {width n : ℕ} (h : n < 10 ^ width) : ':' ∉ IsoText.digits width n := by
  induction width generalizing n with
  | zero => exact List.not_mem_nil
  | succ width ih =>
      have hdigit : ∀ d < 10, ':' ≠ Nat.digitChar d := by decide
      rw [IsoText.digits, List.mem_cons, not_or]
      exact ⟨hdigit _ (IsoText.div_pow_lt_ten h), ih IsoText.mod_pow_lt⟩

theorem colon_notMem_strftime (x : IsoText.Stamp) : ':' ∉ Strptime.strftime x := by
  have hyear := colon_notMem_digits x.year_lt
  have hmonth := colon_notMem_digits x.month_lt
  have hday := colon_notMem_digits x.day_lt
  have hhour := colon_notMem_digits x.hour_lt'
  have hminute := colon_notMem_digits x.minute_lt'
  have hT : ':' ≠ 'T' := by decide
  have hZ : ':' ≠ 'Z' := by decide
  simp only [Strptime.strftime, List.mem_append, List.mem_cons, hyear, hmonth, hday, hhour,
    hminute, hT, hZ, List.not_mem_nil, or_false, not_false_eq_true]

theorem minute_of_instant {x : IsoText.Stamp} (hoffset : x.offset = 0)
    (h : x.instant % oneMinute = 0) : x.second = 0 ∧ x.micro = 0 := by
  have hsecond := x.second_lt
  have hmicro := x.micro_lt
  simp only [IsoText.Stamp.instant, IsoText.Stamp.wallSeconds, hoffset, oneMinute] at h
  omega

theorem strptime_windowStamp {t : ℤ} {x : IsoText.Stamp} (hx : IsoText.Stamp.utc? t = some x)
    (h : t % oneMinute = 0) (rest : Text) :
    Strptime.strptime ((windowStamp t ++ ':' :: rest).takeWhile (· ≠ ':')) = some x := by
  obtain ⟨hoffset, rfl⟩ := IsoText.Stamp.utc?_eq_some hx
  obtain ⟨hsecond, hmicro⟩ := minute_of_instant hoffset h
  have hstamp : windowStamp x.instant = Strptime.strftime x := by
    rw [windowStamp, hx]
    rfl
  have hno : ∀ ch ∈ Strptime.strftime x, decide (ch ≠ ':') = true := by
    intro ch hch
    refine decide_eq_true ?_
    rintro rfl
    exact colon_notMem_strftime x hch
  rw [hstamp, List.takeWhile_append_of_pos hno, List.takeWhile_cons_of_neg (by decide),
    List.append_nil]
  exact Strptime.strptime_strftime hsecond hmicro hoffset

theorem windowIndexForVersion_window (hvalid : a.validate = .ok ()) {k : ℕ} {w : Window}
    (hw : window a k = .ok w) :
    windowIndexForVersion env a (scheduledDatasetVersion env a w) = .ok (some k) := by
  obtain ⟨hanchor, hpos, hsize⟩ := schedule_of_validate hvalid
  obtain ⟨hindex, hstart, -, x, hx⟩ := window_eq_ok hw
  obtain ⟨-, hinstant⟩ := IsoText.Stamp.utc?_eq_some hx
  have haligned : w.start % oneMinute = 0 := by
    rw [hstart, Int.add_emod, Int.mul_emod, hanchor, hsize]
    simp
  have hoffset : x.instant - a.scheduleAnchor.wall = k * a.windowSize := by
    rw [hinstant, hstart]
    ring
  have hquot : (x.instant - a.scheduleAnchor.wall) / a.windowSize = k := by
    rw [hoffset, Int.mul_ediv_cancel _ hpos.ne']
  have hprefix : (scheduledDatasetVersionPrefix env a).isPrefixOf
      (scheduledDatasetVersion env a w) = true :=
    List.isPrefixOf_iff_prefix.mpr (List.prefix_append _ _)
  unfold windowIndexForVersion
  rw [if_pos hprefix]
  simp only [scheduledDatasetVersion, List.drop_left, strptime_windowStamp hx haligned]
  rw [if_neg]
  · rw [hquot, Int.toNat_natCast, hw]
    simp only [Except.ok_bind, ne_eq, not_true_eq_false, if_false, hindex]
    rfl
  · rw [hoffset, Int.mul_emod_left]
    have : (0 : ℤ) ≤ k * a.windowSize := by positivity
    omega

theorem windowIndexForVersion_eq_some {version : Text} {k : ℕ}
    (h : windowIndexForVersion env a version = .ok (some k)) :
    ∃ w, window a k = .ok w ∧ scheduledDatasetVersion env a w = version := by
  unfold windowIndexForVersion at h
  split at h
  · dsimp only at h
    split at h
    · cases h
    · split at h
      · cases h
      · obtain ⟨w, hw, h⟩ := Except.bind_eq_ok.mp h
        have h := Except.pure_eq_ok.mp h
        split at h
        · cases h
        · rename_i hversion
          cases h
          rw [← (window_eq_ok hw).1] at hw
          exact ⟨w, hw, not_ne_iff.mp hversion⟩
  · cases h

/-! ## The plan -/

/-- In a front part of the numbers that meet `p`, in order, those below one of them stand
before it. -/
theorem mem_of_take_filter_range {p : ℕ → Bool} {n bound k : ℕ} {front back : List ℕ}
    (h : ((List.range n).filter p).take bound = front ++ k :: back) :
    k < n ∧ ∀ j < k, p j = true → j ∈ front := by
  have hall : (List.range n).filter p =
      front ++ k :: (back ++ ((List.range n).filter p).drop bound) := by
    conv_lhs => rw [← List.take_append_drop bound ((List.range n).filter p), h]
    simp
  have hk : k ∈ (List.range n).filter p := by
    rw [hall]
    simp
  have hkn : k < n := List.mem_range.mp (List.mem_filter.mp hk).1
  have hsorted : ((List.range n).filter p).Pairwise (· < ·) := List.pairwise_lt_range.filter _
  refine ⟨hkn, fun j hj hpj => ?_⟩
  have hmem : j ∈ (List.range n).filter p :=
    List.mem_filter.mpr ⟨List.mem_range.mpr (hj.trans hkn), hpj⟩
  rw [hall] at hmem hsorted
  rcases List.mem_append.mp hmem with hfront | hback
  · exact hfront
  · rcases List.mem_cons.mp hback with rfl | hback
    · exact absurd hj (lt_irrefl _)
    · have hlt := (List.pairwise_cons.mp (List.pairwise_append.mp hsorted).2.1).1 j hback
      exact absurd hj (not_lt.mpr hlt.le)

def DoneIn (env : Env) (a : ScheduledHistoricalAcquisitionAuthorizationV1)
    (completed : List Text) (k : ℕ) : Prop :=
  ∃ version ∈ completed, windowIndexForVersion env a version = .ok (some k)

theorem doneIn_of_completedIndices {n k : ℕ} {completed : List Text} {done : List ℕ}
    (h : completedIndices env a n completed = .ok done) (hk : k ∈ done) :
    DoneIn env a completed k := by
  obtain ⟨indices, hindices, h⟩ := Except.bind_eq_ok.mp h
  cases Except.pure_eq_ok.mp h
  rw [List.mem_dedup, List.mem_filter, List.mem_filterMap] at hk
  obtain ⟨⟨index, hindex, rfl⟩, -⟩ := hk
  obtain ⟨version, hversion, heq⟩ := Except.mem_of_mapM hindices hindex
  exact ⟨version, hversion, heq⟩

/-- A window of a plan: it is a slot of the schedule and it is final, and each older one is in
the evidence or stands before it. -/
structure Planned (env : Env) (a : ScheduledHistoricalAcquisitionAuthorizationV1) (asOf : ℤ)
    (completed : List Text) (front : List Window) (w : Window) : Prop where
  slot : window a w.index = .ok w
  final : w.stop ≤ asOf - a.finalityLag
  older : ∀ j < w.index, DoneIn env a completed j ∨ ∃ v ∈ front, v.index = j

theorem planned_of_plan {asOf : ℤ} {completed : List Text} {plan : ScheduledWindowPlan}
    (hvalid : a.validate = .ok ()) (h : planScheduledWindows env a asOf completed = .ok plan)
    {front back : List Window} {w : Window} (hpending : plan.pending = front ++ w :: back) :
    Planned env a asOf completed front w := by
  obtain ⟨-, hpos, -⟩ := schedule_of_validate hvalid
  obtain ⟨cutoff, hcutoff, h⟩ := Except.bind_eq_ok.mp h
  obtain ⟨done, hdone, h⟩ := Except.bind_eq_ok.mp h
  obtain ⟨pending, hwindows, h⟩ := Except.bind_eq_ok.mp h
  cases Except.pure_eq_ok.mp h
  obtain ⟨rfl, -⟩ := plus_eq_ok hcutoff
  have hforall := Except.forall₂_of_mapM hwindows
  -- the windows of the plan are those of its indices
  have hindices : ∀ {ks : List ℕ} {ws : List Window},
      List.Forall₂ (fun k v => window a k = .ok v) ks ws → ws.map Window.index = ks := by
    intro ks ws hf
    induction hf with
    | nil => rfl
    | cons hv _ ih => rw [List.map_cons, ih, (window_eq_ok hv).1]
  have hslots : ∀ v ∈ pending, window a v.index = .ok v := by
    intro v hv
    obtain ⟨k, -, hk⟩ := Except.mem_of_mapM hwindows hv
    rw [(window_eq_ok hk).1]
    exact hk
  have hpending : pending = front ++ w :: back := hpending
  have hmap := hindices hforall
  rw [hpending, List.map_append, List.map_cons] at hmap
  obtain ⟨heligible, hbefore⟩ := mem_of_take_filter_range hmap.symm
  have hslot : window a w.index = .ok w := hslots w (by rw [hpending]; simp)
  refine ⟨hslot, ?_, fun j hj => ?_⟩
  · -- the index is below the number of windows that end by the cutoff
    rw [(window_eq_ok hslot).2.2.1]
    split at heligible
    · exact absurd heligible (Nat.not_lt_zero _)
    · rename_i hnonneg
      have hle : (w.index : ℤ) + 1 ≤ (asOf + -a.finalityLag - a.scheduleAnchor.wall) /
          a.windowSize := by omega
      have hmul := (Int.le_ediv_iff_mul_le hpos).mp hle
      omega
  · by_cases hj' : j ∈ done
    · exact .inl (doneIn_of_completedIndices hdone hj')
    · obtain ⟨v, hv, hindex⟩ := List.mem_map.mp (hbefore j hj (decide_eq_true hj'))
      exact .inr ⟨v, hv, hindex⟩

/-! ## The evidence of an invocation -/

section Evidence

variable {rows rows' : List SealedDataset} {w : Window}

theorem SealedExactly.mono (hrows : rows ⊆ rows') (h : SealedExactly env rows a w) :
    SealedExactly env rows' a w := by
  obtain ⟨row, hrow, h⟩ := h
  exact ⟨row, hrows hrow, h⟩

def Evidence (env : Env) (rows : List SealedDataset)
    (a : ScheduledHistoricalAcquisitionAuthorizationV1) (completed : List Text) : Prop :=
  ∀ k w, DoneIn env a completed k → window a k = .ok w → SealedExactly env rows a w

theorem Evidence.mono (hrows : rows ⊆ rows') {completed : List Text}
    (h : Evidence env rows a completed) : Evidence env rows' a completed :=
  fun k w hk hw => (h k w hk hw).mono hrows

theorem Evidence.subset {completed completed' : List Text} (hsub : completed' ⊆ completed)
    (h : Evidence env rows a completed) : Evidence env rows a completed' := by
  intro k w hk hw
  obtain ⟨version, hversion, hindex⟩ := hk
  exact h k w ⟨version, hsub hversion, hindex⟩ hw

theorem evidence_matchDataset {found found' : List (Text × UUID) × ℕ} {row : SealedDataset}
    (hrow : row ∈ sealedDatasets env a rows) (h : Evidence env rows a (found.1.map Prod.fst))
    (hmatch : matchDataset env a found row = .ok found') :
    Evidence env rows a (found'.1.map Prod.fst) := by
  obtain ⟨hmem, hfilter⟩ := List.mem_filter.mp hrow
  have hsource : row.sourceId = a.sourceId := of_decide_eq_true (Bool.and_eq_true_iff.mp hfilter).1
  obtain ⟨index?, hindex, hmatch⟩ := Except.bind_eq_ok.mp hmatch
  cases index? with
  | none =>
      cases Except.pure_eq_ok.mp hmatch
      exact h
  | some index =>
      obtain ⟨v, hv, hmatch⟩ := Except.bind_eq_ok.mp hmatch
      split at hmatch
      · rename_i hexact
        cases Except.pure_eq_ok.mp hmatch
        intro k w hk hw
        obtain ⟨version, hversion, hk⟩ := hk
        simp only [List.map_append, List.map_cons, List.map_nil, List.mem_append,
          List.mem_singleton] at hversion
        rcases hversion with hold | rfl
        · exact h k w ⟨version, hold, hk⟩ hw
        · -- the new version is that of the window
          rw [hindex] at hk
          cases Except.ok.inj hk
          rw [hv] at hw
          cases hw
          obtain ⟨u, hu, hversion⟩ := windowIndexForVersion_eq_some hindex
          rw [hv] at hu
          cases hu
          exact ⟨row, hmem, hsource, hversion.symm, hexact⟩
      · cases Except.pure_eq_ok.mp hmatch
        exact h

theorem evidence_replay {log : List SealedDataset} {found found' : List (Text × UUID) × ℕ}
    (hlog : log ⊆ sealedDatasets env a rows) (h : Evidence env rows a (found.1.map Prod.fst))
    (hreplay : Replay.replay (matchDataset env a) found log = .ok found') :
    Evidence env rows a (found'.1.map Prod.fst) := by
  induction log generalizing found with
  | nil =>
      cases hreplay
      exact h
  | cons row log ih =>
      obtain ⟨next, hnext, hreplay⟩ := Except.bind_eq_ok.mp hreplay
      exact ih (fun r hr => hlog (List.mem_cons_of_mem _ hr))
        (evidence_matchDataset (hlog List.mem_cons_self) h hnext) hreplay

end Evidence

/-! ## The invariant of an invocation -/

/-- A loop, with `current` the window it works at: the plan is that of the evidence, the
outcomes are those of its front and they are successes, and all of this is sealed. -/
structure LoopInv (env : Env) (rows : List SealedDataset)
    (a : ScheduledHistoricalAcquisitionAuthorizationV1) (asOf : ClockTime) (loop : Loop)
    (current : List Window) : Prop where
  planned : planScheduledWindows env a asOf.wall loop.completed = .ok loop.plan
  worked : loop.plan.pending =
    loop.outcomes.map ScheduledWindowOutcome.window ++ (current ++ loop.rest)
  succeeded : ∀ o ∈ loop.outcomes, o.status = .succeeded
  evidence : Evidence env rows a loop.completed
  acquired : ∀ o ∈ loop.outcomes, SealedExactly env rows a o.window

def Reported (env : Env) (rows : List SealedDataset)
    (a : ScheduledHistoricalAcquisitionAuthorizationV1)
    (outcomes : List ScheduledWindowOutcome) : Prop :=
  ∀ o ∈ outcomes, o.status = .succeeded → ∀ j ≤ o.window.index, ∀ w, window a j = .ok w →
    SealedExactly env rows a w

def PhaseInv (env : Env) (rows : List SealedDataset)
    (a : ScheduledHistoricalAcquisitionAuthorizationV1) (asOf : ClockTime) : Phase → Prop
  | .idle | .reading _ | .raised => True
  | .counting _ found _ => Evidence env rows a (found.map Prod.fst)
  | .looping loop => LoopInv env rows a asOf loop []
  | .claimed loop w | .acquiring loop w => LoopInv env rows a asOf loop [w]
  | .releasing loop outcome => LoopInv env rows a asOf loop [outcome.window] ∧
      (outcome.status = .succeeded → SealedExactly env rows a outcome.window)
  | .returned result => Reported env rows a result.windowOutcomes

section Phases

variable {rows rows' : List SealedDataset} {asOf : ClockTime} {loop : Loop}
  {current : List Window}

theorem LoopInv.mono (hrows : rows ⊆ rows') (h : LoopInv env rows a asOf loop current) :
    LoopInv env rows' a asOf loop current where
  planned := h.planned
  worked := h.worked
  succeeded := h.succeeded
  evidence := h.evidence.mono hrows
  acquired := fun o ho => (h.acquired o ho).mono hrows

theorem PhaseInv.mono (hrows : rows ⊆ rows') {phase : Phase} (h : PhaseInv env rows a asOf phase) :
    PhaseInv env rows' a asOf phase := by
  cases phase with
  | idle => trivial
  | reading policyId => trivial
  | counting policyId found conflicting => exact Evidence.mono hrows h
  | looping loop => exact LoopInv.mono hrows h
  | claimed loop w => exact LoopInv.mono hrows h
  | acquiring loop w => exact LoopInv.mono hrows h
  | releasing loop outcome =>
      exact ⟨h.1.mono hrows, fun hsucceeded => (h.2 hsucceeded).mono hrows⟩
  | returned result => exact fun o ho hs j hj w hw => (h o ho hs j hj w hw).mono hrows
  | raised => trivial

theorem LoopInv.no_gap (hvalid : a.validate = .ok ()) (h : LoopInv env rows a asOf loop current)
    {front back : List Window} {w : Window} (hpending : loop.plan.pending = front ++ w :: back)
    (hfront : ∀ v ∈ front, SealedExactly env rows a v) (hw : SealedExactly env rows a w) :
    ∀ j ≤ w.index, ∀ v, window a j = .ok v → SealedExactly env rows a v := by
  intro j hj v hv
  have hplanned := planned_of_plan hvalid h.planned hpending
  rcases hj.lt_or_eq with hlt | rfl
  · rcases hplanned.older j hlt with hdone | ⟨u, hu, rfl⟩
    · exact h.evidence j v hdone hv
    · obtain ⟨f, b, rfl⟩ := List.append_of_mem hu
      have hpending' : loop.plan.pending = f ++ u :: (b ++ w :: back) := by
        rw [hpending, List.append_assoc, List.cons_append]
      have hslot := (planned_of_plan hvalid h.planned hpending').slot
      rw [hslot] at hv
      cases hv
      exact hfront _ hu
  · have hslot := hplanned.slot
    rw [hslot] at hv
    cases hv
    exact hw

theorem LoopInv.reported (hvalid : a.validate = .ok ())
    (h : LoopInv env rows a asOf loop current) : Reported env rows a loop.outcomes := by
  intro o ho _
  obtain ⟨f, b, hsplit⟩ := List.append_of_mem ho
  have hpending : loop.plan.pending = f.map ScheduledWindowOutcome.window ++
      o.window :: (b.map ScheduledWindowOutcome.window ++ (current ++ loop.rest)) := by
    rw [h.worked, hsplit, List.map_append, List.map_cons, List.append_assoc, List.cons_append]
  refine h.no_gap hvalid hpending (fun v hv => ?_) (h.acquired o ho)
  obtain ⟨o', ho', rfl⟩ := List.mem_map.mp hv
  refine h.acquired o' ?_
  rw [hsplit]
  exact List.mem_append_left _ ho'

theorem PhaseInv.plan {runner : ScheduledHistoricalAcquisitionRunnerV1} {policyId : UUID}
    {completed : List Text} (h : Evidence env rows runner.authorization completed)
    (featureIncomplete conflicting : ℕ) :
    PhaseInv env rows runner.authorization asOf
      (phaseOf (runner.plan env policyId asOf.wall completed featureIncomplete conflicting)) := by
  unfold ScheduledHistoricalAcquisitionRunnerV1.plan
  cases hplan : planScheduledWindows env runner.authorization asOf.wall completed with
  | error e => exact trivial
  | ok plan =>
      exact
        { planned := hplan
          worked := rfl
          succeeded := fun _ ho => absurd ho List.not_mem_nil
          evidence := h
          acquired := fun _ ho => absurd ho List.not_mem_nil }

theorem PhaseInv.readSealed (runner : ScheduledHistoricalAcquisitionRunnerV1) (policyId : UUID) :
    PhaseInv env rows runner.authorization asOf
      (phaseOf (runner.readSealed env policyId asOf.wall rows)) := by
  unfold ScheduledHistoricalAcquisitionRunnerV1.readSealed
  dsimp only
  cases hreplay : Replay.replay (matchDataset env runner.authorization) ([], 0)
      (sealedDatasets env runner.authorization rows) with
  | error e => exact trivial
  | ok found =>
      have hnone : Evidence env rows runner.authorization
          ((([], 0) : List (Text × UUID) × ℕ).1.map Prod.fst) := by
        rintro k w ⟨version, hversion, -⟩
        exact absurd hversion List.not_mem_nil
      have hfound : Evidence env rows runner.authorization (found.1.map Prod.fst) :=
        evidence_replay (fun _ h => h) hnone hreplay
      rw [Except.ok_bind]
      split
      · exact PhaseInv.plan hfound 0 found.2
      · exact hfound

theorem PhaseInv.readCounts {runner : ScheduledHistoricalAcquisitionRunnerV1} {policyId : UUID}
    {found : List (Text × UUID)} (conflicting : ℕ) (counts : UUID → UUID → ℕ)
    (basisId openInterestId : UUID)
    (h : Evidence env rows runner.authorization (found.map Prod.fst)) :
    PhaseInv env rows runner.authorization asOf
      (phaseOf (runner.readCounts env policyId asOf.wall found conflicting counts basisId
        openInterestId)) := by
  refine PhaseInv.plan (h.subset ?_) _ conflicting
  exact List.map_subset _ (List.filter_subset_self _)

theorem PhaseInv.resume {runner : ScheduledHistoricalAcquisitionRunnerV1}
    {outcome : ScheduledWindowOutcome}
    (h : LoopInv env rows runner.authorization asOf loop [outcome.window])
    (hsealed : outcome.status = .succeeded →
      SealedExactly env rows runner.authorization outcome.window) :
    PhaseInv env rows runner.authorization asOf (runner.resume loop outcome) := by
  unfold ScheduledHistoricalAcquisitionRunnerV1.resume
  dsimp only
  split
  · rename_i hsucceeded
    refine
      { planned := h.planned
        worked := ?_
        succeeded := fun o ho => ?_
        evidence := h.evidence
        acquired := fun o ho => ?_ }
    · show loop.plan.pending = (loop.outcomes ++ [outcome]).map ScheduledWindowOutcome.window ++
        ([] ++ loop.rest)
      rw [h.worked, List.map_append, List.append_assoc]
      rfl
    · rcases List.mem_append.mp ho with hold | hnew
      · exact h.succeeded o hold
      · rw [List.mem_singleton.mp hnew]
        exact hsucceeded
    · rcases List.mem_append.mp ho with hold | hnew
      · exact h.acquired o hold
      · rw [List.mem_singleton.mp hnew]
        exact hsealed hsucceeded
  · rename_i hfailed
    intro o ho hs
    rcases List.mem_append.mp ho with hold | hnew
    · exact h.reported runner.authorized o hold hs
    · rw [List.mem_singleton.mp hnew] at hs
      exact absurd hs hfailed

end Phases

/-! ## Runs of many invocations -/

namespace Database

variable {σ : Database} {i : ℕ} {invocation : Invocation} {phase : Phase}

def InvocationInv (env : Env) (rows : List SealedDataset) (invocation : Invocation) : Prop :=
  PhaseInv env rows invocation.runner.authorization invocation.asOf invocation.phase

def Inv (env : Env) (σ : Database) : Prop :=
  ∀ i invocation, σ.invocations i = some invocation →
    InvocationInv env σ.sealedRows.rows invocation

theorem Inv.empty : Inv env empty := by
  intro i invocation h
  cases (h : (none : Option Invocation) = some invocation)

theorem Inv.set (h : Inv env σ) (locks : SessionLocks String ℕ)
    (hphase : InvocationInv env σ.sealedRows.rows { invocation with phase }) :
    Inv env ({ σ with locks }.set i invocation phase) := by
  intro j other hj
  have hj : Function.update σ.invocations i (some { invocation with phase }) j = some other := hj
  by_cases hij : j = i
  · subst hij
    rw [Function.update_self] at hj
    cases hj
    exact hphase
  · rw [Function.update_of_ne hij] at hj
    exact h j other hj

theorem Inv.onInvocation (h : Inv env σ) {f : Invocation → Database}
    (hf : ∀ invocation, σ.invocations i = some invocation →
      InvocationInv env σ.sealedRows.rows invocation → Inv env (f invocation)) :
    Inv env (σ.onInvocation i f) := by
  unfold Database.onInvocation
  split
  · rename_i invocation hi
    exact hf invocation hi (h i invocation hi)
  · exact h

section Steps

variable (h : Inv env σ) (hi : InvocationInv env σ.sealedRows.rows invocation)

include h hi

omit hi in
theorem Inv.readSealed : Inv env (σ.readSealed env i invocation) := by
  unfold Database.readSealed
  split
  · exact h.set σ.locks (PhaseInv.readSealed _ _)
  · exact h

theorem Inv.readCounts (basisId openInterestId : UUID) :
    Inv env (σ.readCounts env i invocation basisId openInterestId) := by
  unfold Database.readCounts
  split
  · rename_i hphase
    rw [InvocationInv, hphase] at hi
    exact h.set σ.locks (PhaseInv.readCounts _ _ _ _ hi)
  · exact h

theorem Inv.claim : Inv env (σ.claim env i invocation) := by
  unfold Database.claim
  split
  · rename_i loop hphase
    rw [InvocationInv, hphase] at hi
    have hloop : LoopInv env σ.sealedRows.rows invocation.runner.authorization invocation.asOf
      loop [] := hi
    have hreported := hloop.reported invocation.runner.authorized
    split
    · exact h.set σ.locks hreported
    · rename_i w rest hrest
      split
      · rename_i locks _
        refine h.set locks ?_
        exact
          { planned := hloop.planned
            worked := by
              rw [hloop.worked, hrest]
              rfl
            succeeded := hloop.succeeded
            evidence := hloop.evidence
            acquired := hloop.acquired }
      · exact h.set σ.locks hreported
  · exact h

theorem Inv.acquire : Inv env (σ.acquire i invocation) := by
  unfold Database.acquire
  split
  · rename_i hphase
    rw [InvocationInv, hphase] at hi
    exact h.set σ.locks hi
  · exact h

omit h hi in
theorem succeeded_of_acquireWindow {w : Window}
    {returned : Except String HistoricalAcquisitionResult}
    (hs : (acquireWindow env a w returned).status = .succeeded) :
    ∃ result, returned = .ok result ∧ result.status = .succeeded := by
  cases returned with
  | error name => cases hs
  | ok result =>
      refine ⟨result, rfl, ?_⟩
      simp only [acquireWindow] at hs
      split at hs
      · cases hs
      · exact hs

theorem Inv.acquired {returned : Except String HistoricalAcquisitionResult}
    (hsome : σ.invocations i = some invocation)
    (hhonest : σ.AcquireHonest env (.acquired i returned)) :
    Inv env (σ.acquired env i invocation returned) := by
  unfold Database.acquired
  split
  · rename_i loop w hphase
    rw [InvocationInv, hphase] at hi
    refine h.set σ.locks ⟨?_, fun hs => ?_⟩
    · have hwindow : (acquireWindow env invocation.runner.authorization w returned).window = w := by
        cases returned <;> rfl
      rw [hwindow]
      exact hi
    · obtain ⟨result, rfl, hresult⟩ := succeeded_of_acquireWindow hs
      have hinvocation : invocation = ⟨invocation.runner, invocation.asOf, .acquiring loop w⟩ := by
        rw [← hphase]
      have hacquiring : invocation.acquiring = some w := by rw [hinvocation]; rfl
      exact hhonest invocation hsome w hacquiring hresult
  · exact h

theorem Inv.release (released : Bool) : Inv env (σ.release env i invocation released) := by
  unfold Database.release
  split
  · rename_i hphase
    rw [InvocationInv, hphase] at hi
    split
    · exact h.set _ (PhaseInv.resume hi.1 hi.2)
    · exact h.set σ.locks trivial
  · exact h

end Steps

theorem Inv.seal (h : Inv env σ) {row : SealedDataset}
    (hnew : σ.sealedRows.find? row.key = none) :
    Inv env { σ with sealedRows := σ.sealedRows.put row } := by
  intro j other hj
  refine PhaseInv.mono (fun r hr => ?_) (h j other hj)
  show r ∈ (σ.sealedRows.put row).rows
  rw [Table.rows_put_of_none hnew]
  exact List.mem_append_left _ hr

theorem Inv.run (h : Inv env σ) {runner : ScheduledHistoricalAcquisitionRunnerV1}
    {asOf : ClockTime} {policy : Option OperationalJobPolicy} :
    Inv env (σ.set i ⟨runner, asOf, .idle⟩ (phaseOf (runner.gate asOf policy))) := by
  refine h.set σ.locks ?_
  -- a gate returns without an outcome, or lets the invocation read
  have hgate : ∀ x, runner.gate asOf policy = .ok x →
      PhaseInv env σ.sealedRows.rows runner.authorization asOf x := by
    intro x hx
    obtain ⟨_, -, hx⟩ := Except.bind_eq_ok.mp hx
    obtain ⟨_, -, hx⟩ := Except.bind_eq_ok.mp hx
    have hnone : ∀ policyId asOf cutoff code, Reported env σ.sealedRows.rows runner.authorization
        (ScheduledHistoricalAcquisitionRunnerV1.notAuthorized policyId asOf cutoff
          code).windowOutcomes :=
      fun _ _ _ _ _ ho => absurd ho List.not_mem_nil
    split at hx
    · cases hx
      exact hnone _ _ _ _
    · split at hx
      · cases hx
        exact hnone _ _ _ _
      · split at hx
        · cases hx
          exact hnone _ _ _ _
        · cases hx
          exact trivial
  show PhaseInv env σ.sealedRows.rows runner.authorization asOf (phaseOf (runner.gate asOf policy))
  cases hx : runner.gate asOf policy with
  | error e => exact trivial
  | ok x => exact hgate x hx

theorem Inv.step (h : Inv env σ) {action : Action} (hhonest : σ.AcquireHonest env action) :
    Inv env (σ.step env action) := by
  cases action with
  | run i runner asOf policy =>
      unfold Database.step
      dsimp only
      split
      · exact h.run
      · exact h
  | readSealed i => exact h.onInvocation fun _ _ _ => h.readSealed
  | readCounts i basisId openInterestId => exact h.onInvocation fun _ _ hi => h.readCounts hi _ _
  | claim i => exact h.onInvocation fun _ _ hi => h.claim hi
  | acquire i => exact h.onInvocation fun _ _ hi => h.acquire hi
  | acquired i returned =>
      exact h.onInvocation fun _ hsome hi => h.acquired hi hsome hhonest
  | release i released => exact h.onInvocation fun _ _ hi => h.release hi released
  | abort i disconnected => exact h.onInvocation fun _ _ _ => h.set _ trivial
  | «seal» row =>
      unfold Database.step
      dsimp only
      split
      · rename_i hnew
        exact h.seal hnew
      · exact h
  | materialize counts => exact h

/-- What is promised of the invocations: `acquire` is called for a window that is final, when
every older one was complete in the evidence or has been acquired by the invocation, and the
windows that are reported acquired leave no older gap. -/
structure OldestFirst (env : Env) (σ : Database) : Prop where
  called : ∀ i runner asOf loop w, σ.invocations i = some ⟨runner, asOf, .acquiring loop w⟩ →
    ∀ j < w.index, DoneIn env runner.authorization loop.completed j ∨
      ∃ o ∈ loop.outcomes, o.window.index = j ∧ o.status = .succeeded
  final : ∀ i runner asOf loop w, σ.invocations i = some ⟨runner, asOf, .acquiring loop w⟩ →
    window runner.authorization w.index = .ok w ∧
      w.stop ≤ asOf.wall - runner.authorization.finalityLag
  reported : ∀ i runner asOf result, σ.invocations i = some ⟨runner, asOf, .returned result⟩ →
    Reported env σ.sealedRows.rows runner.authorization result.windowOutcomes

theorem Inv.oldestFirst (h : Inv env σ) : OldestFirst env σ := by
  have hplanned : ∀ i runner asOf loop w,
      σ.invocations i = some ⟨runner, asOf, .acquiring loop w⟩ →
      Planned env runner.authorization asOf.wall loop.completed
        (loop.outcomes.map ScheduledWindowOutcome.window) w ∧
      ∀ o ∈ loop.outcomes, o.status = .succeeded := by
    intro i runner asOf loop w hi
    have hloop : LoopInv env σ.sealedRows.rows runner.authorization asOf loop [w] := h i _ hi
    exact ⟨planned_of_plan runner.authorized hloop.planned hloop.worked, hloop.succeeded⟩
  refine ⟨fun i runner asOf loop w hi j hj => ?_, fun i runner asOf loop w hi => ?_,
    fun i runner asOf result hi => h i _ hi⟩
  · obtain ⟨hw, hsucceeded⟩ := hplanned i runner asOf loop w hi
    rcases hw.older j hj with hdone | ⟨v, hv, hindex⟩
    · exact .inl hdone
    · obtain ⟨o, ho, rfl⟩ := List.mem_map.mp hv
      exact .inr ⟨o, ho, hindex, hsucceeded o ho⟩
  · obtain ⟨hw, -⟩ := hplanned i runner asOf loop w hi
    exact ⟨hw.slot, hw.final⟩

/-- In every state of every run of invocations windows are acquired oldest first, and the
version of a window's dataset maps back to the window's index. -/
theorem acquires_oldest_first (env : Env) (actions : List Action)
    (hhonest : Run.Each (step env) (AcquireHonest env) empty actions) :
    Run.Always (step env) (OldestFirst env) empty actions ∧
    ∀ (runner : ScheduledHistoricalAcquisitionRunnerV1) (k : ℕ) (w : Window),
      window runner.authorization k = .ok w →
      windowIndexForVersion env runner.authorization
        (scheduledDatasetVersion env runner.authorization w) = .ok (some k) := by
  refine ⟨?_, fun runner k w hw => windowIndexForVersion_window runner.authorized hw⟩
  exact (Run.Each.always (fun _ _ h hok => h.step hok) Inv.empty hhonest).mono
    fun _ h => h.oldestFirst

end Database

/-! ## An invocation that finds a gap behind a sealed window -/

section Sample

def sampleAuthorization : ScheduledHistoricalAcquisitionAuthorizationV1 where
  authorizationVersion := "v1"
  jobName := "bybit"
  jobPolicyVersion := "1"
  provider := bybitProviderName
  sourceId := 7
  instrumentId := bybitInstrumentId
  providerSymbol := bybitSymbol
  observationKinds := scheduledObservationKinds
  normalizationVersion := "n1"
  materializeFeatures := false
  windowSize := 5 * oneMinute
  scheduleAnchor := ⟨738886 * 86400 * 10 ^ 6, some 0⟩
  finalityLag := oneMinute
  maximumPagesPerKind := 1
  maximumCatchupWindowsPerInvocation := 3
  minimumRequestInterval := 10 ^ 6
  authorizedBy := "operator"
  authorizationReference := "ticket"
  authorizedAt := ⟨738886 * 86400 * 10 ^ 6, some 0⟩

def sampleRunner : ScheduledHistoricalAcquisitionRunnerV1 where
  authorization := sampleAuthorization
  configuration := ⟨bybitProviderName, "https://api.bybit.com", true, none, 10, 10 ^ 6⟩
  retryAttempts := 3
  authorized := by decide +kernel
  configured := by decide +kernel

def Env.sample : Env where
  sha256 := fun text => toString text.length
  identityHash := fun fields => fields.authorizationVersion
  uuidText := toString

def sampleDataset (w : Window) : SealedDataset where
  sourceId := 7
  version := scheduledDatasetVersion Env.sample sampleAuthorization w
  view :=
    let request := buildScheduledRequest Env.sample sampleAuthorization w
    { datasetVersionId := w.index
      normalizationVersion := "n1"
      instrumentIds := {bybitInstrumentId}
      providerIdentifiers := {bybitSymbol}
      providerSymbols := {bybitSymbol}
      eventAtsByKind := expectedEventsByKind request
      memberCountByKind := fun kind =>
        (expectedEventAts kind request.start request.stop).toFinset.card }

def sampleWindow (k : ℕ) : Window :=
  ⟨k, (738886 * 86400 + 300 * k) * 10 ^ 6, (738886 * 86400 + 300 * (k + 1)) * 10 ^ 6⟩

def sampleActions : List Action :=
  [.seal (sampleDataset (sampleWindow 1)),
    .run 0 sampleRunner ⟨(738886 * 86400 + 1000) * 10 ^ 6, some 0⟩
      (some ⟨3, "bybit", "1", 60, 60, "o", "r", "a", 0, true⟩),
    .readSealed 0, .claim 0, .acquire 0, .seal (sampleDataset (sampleWindow 0))]

def sampleResult : HistoricalAcquisitionResult where
  status := .succeeded
  idempotencyKey := (buildScheduledRequest Env.sample sampleAuthorization
    (sampleWindow 0)).idempotencyKey
  datasetVersion := scheduledDatasetVersion Env.sample sampleAuthorization (sampleWindow 0)
  alreadyCompleted := true
  datasetVersionId := some 0
  datasetContentHash := none
  providerHealthStatus := none
  featureCounts := none
  failureCode := none

theorem Database.acquires_oldest_first_gap :
    Run.Always (Database.step Env.sample) (Database.OldestFirst Env.sample) .empty
      (sampleActions ++ [.acquired 0 (.ok sampleResult), .release 0 true]) ∧
    ∀ (runner : ScheduledHistoricalAcquisitionRunnerV1) (k : ℕ) (w : Window),
      window runner.authorization k = .ok w →
      windowIndexForVersion Env.sample runner.authorization
        (scheduledDatasetVersion Env.sample runner.authorization w) = .ok (some k) :=
  Database.acquires_oldest_first Env.sample _ (by decide +kernel)

end Sample

end TradePlatform.ScheduledAcquisition
