/-
# `TradePlatform.WalkForwardSplits` — purged walk-forward splits

`strategy_lab_splits_v1.py`: a plan and its checks, the observations of a study, and
the loop over the test folds.  Instants and durations are microseconds, a fold is
sorted out by the decision times and the label ends of its observations, and what
the splits of an accepted plan contain is stated fold by fold.
-/
import TradePlatform.Domain
import TradePlatform.Lib.Replay

namespace TradePlatform

namespace WalkForward

/-! ## Instants and durations -/

def datetimeMin : ℤ := -62135596800 * 10 ^ 6

def datetimeMax : ℤ := 253402300800 * 10 ^ 6 - 1

def timedeltaMin : ℤ := -999999999 * 86400 * 10 ^ 6

def timedeltaMax : ℤ := 1000000000 * 86400 * 10 ^ 6 - 1

def untouchedHoldoutBoundaryV1 : ℤ := 1787184000 * 10 ^ 6

/-- `instant + timedelta`, an `OverflowError` past the years 1 to 9999. -/
def plus (instant duration : ℤ) : Except Exn ℤ :=
  if datetimeMin ≤ instant + duration ∧ instant + duration ≤ datetimeMax then
    .ok (instant + duration)
  else .error .arithmeticError

/-- `count * timedelta`, an `OverflowError` past the days that a timedelta counts. -/
def times (count : ℕ) (duration : ℤ) : Except Exn ℤ :=
  if timedeltaMin ≤ count * duration ∧ count * duration ≤ timedeltaMax then
    .ok (count * duration)
  else .error .arithmeticError

theorem plus_eq_ok {instant duration t : ℤ} (h : plus instant duration = .ok t) :
    t = instant + duration := by
  unfold plus at h
  split at h
  · cases h
    rfl
  · cases h

theorem times_eq_ok {count : ℕ} {duration d : ℤ} (h : times count duration = .ok d) :
    d = count * duration := by
  unfold times at h
  split at h
  · cases h
    rfl
  · cases h

/-- `_utc`: the instant of an aware timestamp, which has to have a rendering in UTC. -/
def utc (value : Option DateTime) (name : String) : Except Exn ℤ :=
  match value with
  | some (.aware instant) => plus instant 0
  | _ => .error (.strategyLabSplitError (name ++ "_must_be_timezone_aware"))

def positive (value : Option ℤ) (name : String) (allowZero : Bool) :
    Except Exn {duration : ℤ // 0 ≤ duration ∧ (allowZero = false → 0 < duration)} :=
  match value with
  | some duration =>
      if h : 0 ≤ duration ∧ (allowZero = false → 0 < duration) then .ok ⟨duration, h⟩
      else .error (.strategyLabSplitError (name ++ "_must_be_a_" ++
        (if allowZero then "nonnegative" else "positive") ++ "_timedelta"))
  | none => .error (.strategyLabSplitError (name ++ "_must_be_a_" ++
      (if allowZero then "nonnegative" else "positive") ++ "_timedelta"))

/-! ## Observations and plans -/

structure ObservationSpanV1 where
  decisionAt : ℤ
  labelEndAt : ℤ
  ordered : decisionAt ≤ labelEndAt
deriving DecidableEq

def ObservationSpanV1.init (decisionAt labelEndAt : DateTime) : Except Exn ObservationSpanV1 := do
  let decisionAt ← utc (some decisionAt) "decision_at"
  let labelEndAt ← utc (some labelEndAt) "label_end_at"
  if h : decisionAt ≤ labelEndAt then return ⟨decisionAt, labelEndAt, h⟩
  else .error (.strategyLabSplitError "label_end_before_decision")

inductive SplitModeV1 where
  | rolling | anchored
deriving DecidableEq, Repr

def SplitModeV1.Takes (mode : SplitModeV1) (firstTestStart : ℤ) (trainDuration trainAnchor :
    Option ℤ) : Prop :=
  match mode with
  | .rolling => trainAnchor = none ∧ ∃ duration, trainDuration = some duration ∧ 0 < duration
  | .anchored =>
      trainDuration = none ∧ ∃ anchor, trainAnchor = some anchor ∧ anchor < firstTestStart

structure WalkForwardPlanV1 where
  mode : SplitModeV1
  testDuration : ℤ
  step : ℤ
  embargo : ℤ
  firstTestStart : ℤ
  evaluationEndExclusive : ℤ
  trainDuration : Option ℤ
  trainAnchor : Option ℤ
  testDuration_pos : 0 < testDuration
  step_pos : 0 < step
  embargo_nonneg : 0 ≤ embargo
  end_le_holdout : evaluationEndExclusive ≤ untouchedHoldoutBoundaryV1
  takes : mode.Takes firstTestStart trainDuration trainAnchor
  first_fold : firstTestStart + testDuration ≤ evaluationEndExclusive

def WalkForwardPlanV1.complete (mode : SplitModeV1)
    (testDuration step : {duration : ℤ // 0 ≤ duration ∧ (false = false → 0 < duration)})
    (embargo : {duration : ℤ // 0 ≤ duration ∧ (true = false → 0 < duration)})
    (firstTestStart : ℤ) (evaluationEndExclusive : {t : ℤ // t ≤ untouchedHoldoutBoundaryV1})
    (trainDuration trainAnchor : Option ℤ)
    (takes : mode.Takes firstTestStart trainDuration trainAnchor) :
    Except Exn WalkForwardPlanV1 :=
  match h : plus firstTestStart testDuration with
  | .error e => .error e
  | .ok testEnd =>
      if hend : testEnd ≤ evaluationEndExclusive then
        .ok ⟨mode, testDuration, step, embargo, firstTestStart, evaluationEndExclusive,
          trainDuration, trainAnchor, testDuration.2.2 rfl, step.2.2 rfl, embargo.2.1,
          evaluationEndExclusive.2, takes, plus_eq_ok h ▸ hend⟩
      else .error (.strategyLabSplitError "no_complete_test_fold_before_the_evaluation_end")

/-- `WalkForwardPlanV1(...)`, with the checks of `__post_init__` in their order. -/
def WalkForwardPlanV1.init (mode : SplitModeV1) (testDuration step embargo : ℤ)
    (firstTestStart evaluationEndExclusive : DateTime) (trainDuration : Option ℤ)
    (trainAnchor : Option DateTime) : Except Exn WalkForwardPlanV1 := do
  let testDuration ← positive (some testDuration) "test_duration" false
  let step ← positive (some step) "step" false
  let embargo ← positive (some embargo) "embargo" true
  let firstTestStart ← utc (some firstTestStart) "first_test_start"
  let end_ ← utc (some evaluationEndExclusive) "evaluation_end_exclusive"
  if hend : end_ ≤ untouchedHoldoutBoundaryV1 then
    match mode with
    | .rolling =>
        if trainAnchor.isSome then
          .error (.strategyLabSplitError "rolling_mode_takes_no_train_anchor")
        else
          let duration ← positive trainDuration "train_duration" false
          complete .rolling testDuration step embargo firstTestStart ⟨end_, hend⟩ (some duration.1)
            none ⟨rfl, duration.1, rfl, duration.2.2 rfl⟩
    | .anchored =>
        if trainDuration.isSome then
          .error (.strategyLabSplitError "anchored_mode_takes_no_train_duration")
        else
          let anchor ← utc trainAnchor "train_anchor"
          if h : anchor < firstTestStart then
            complete .anchored testDuration step embargo firstTestStart ⟨end_, hend⟩ none
              (some anchor) ⟨rfl, anchor, rfl, h⟩
          else .error (.strategyLabSplitError "train_anchor_must_precede_the_first_test")
  else .error (.strategyLabSplitError "evaluation_end_crosses_the_untouched_holdout")

/-! ## The splits -/

structure PurgedSplitV1 where
  fold : ℕ
  trainStart : ℤ
  testStart : ℤ
  testEndExclusive : ℤ
  trainIndices : List ℕ
  purgedIndices : List ℕ
  testIndices : List ℕ
  censoredIndices : List ℕ
deriving DecidableEq

structure PurgedWalkForwardV1 where
  plan : WalkForwardPlanV1
  observationsHash : String
  splits : List PurgedSplitV1

structure FoldMembers where
  train : List ℕ := []
  purged : List ℕ := []
  test : List ℕ := []
  censored : List ℕ := []
deriving DecidableEq

section Members

variable (trainStart testStart testEnd purgeFrom end_ : ℤ)

/-- The body of `for index, observation in enumerate(observations)`. -/
def FoldMembers.add (members : FoldMembers) (entry : ObservationSpanV1 × ℕ) : FoldMembers :=
  if trainStart ≤ entry.1.decisionAt ∧ entry.1.decisionAt < testStart then
    if purgeFrom ≤ entry.1.labelEndAt then { members with purged := members.purged ++ [entry.2] }
    else { members with train := members.train ++ [entry.2] }
  else if testStart ≤ entry.1.decisionAt ∧ entry.1.decisionAt < testEnd then
    if entry.1.labelEndAt < end_ then { members with test := members.test ++ [entry.2] }
    else { members with censored := members.censored ++ [entry.2] }
  else members

def foldMembers (observations : List ObservationSpanV1) : FoldMembers :=
  observations.zipIdx.foldl (FoldMembers.add trainStart testStart testEnd purgeFrom end_) {}

inductive Place where
  | train | purged | test | censored | outside
deriving DecidableEq

def place (observation : ObservationSpanV1) : Place :=
  if trainStart ≤ observation.decisionAt ∧ observation.decisionAt < testStart then
    if purgeFrom ≤ observation.labelEndAt then .purged else .train
  else if testStart ≤ observation.decisionAt ∧ observation.decisionAt < testEnd then
    if observation.labelEndAt < end_ then .test else .censored
  else .outside

def placed (place : ObservationSpanV1 → Place) (entries : List (ObservationSpanV1 × ℕ))
    (at_ : Place) : List ℕ :=
  (entries.filter fun entry => place entry.1 = at_).map (·.2)

variable {trainStart testStart testEnd purgeFrom end_}

theorem foldl_add (entries : List (ObservationSpanV1 × ℕ)) (members : FoldMembers) :
    entries.foldl (FoldMembers.add trainStart testStart testEnd purgeFrom end_) members =
      let at_ := placed (place trainStart testStart testEnd purgeFrom end_) entries
      ⟨members.train ++ at_ .train, members.purged ++ at_ .purged, members.test ++ at_ .test,
        members.censored ++ at_ .censored⟩ := by
  induction entries generalizing members with
  | nil => simp [placed]
  | cons entry entries ih =>
      rw [List.foldl_cons, ih]
      simp only [FoldMembers.add, placed, place, List.filter_cons]
      split_ifs <;> simp_all

theorem foldMembers_eq (observations : List ObservationSpanV1) :
    foldMembers trainStart testStart testEnd purgeFrom end_ observations =
      let at_ := placed (place trainStart testStart testEnd purgeFrom end_) observations.zipIdx
      ⟨at_ .train, at_ .purged, at_ .test, at_ .censored⟩ :=
  foldl_add ..

theorem mem_placed {place : ObservationSpanV1 → Place} {observations : List ObservationSpanV1}
    {at_ : Place} {index : ℕ} :
    index ∈ placed place observations.zipIdx at_ ↔
      ∃ observation, observations[index]? = some observation ∧ place observation = at_ := by
  simp only [placed, List.mem_map, List.mem_filter, decide_eq_true_eq, Prod.exists,
    List.mk_mem_zipIdx_iff_getElem?]
  constructor
  · rintro ⟨observation, i, ⟨hget, hplace⟩, rfl⟩
    exact ⟨observation, hget, hplace⟩
  · rintro ⟨observation, hget, hplace⟩
    exact ⟨observation, index, ⟨hget, hplace⟩, rfl⟩

theorem place_unique {place : ObservationSpanV1 → Place} {observations : List ObservationSpanV1}
    {at_ at' : Place} {index : ℕ} (h : index ∈ placed place observations.zipIdx at_)
    (h' : index ∈ placed place observations.zipIdx at') : at_ = at' := by
  obtain ⟨observation, hget, rfl⟩ := mem_placed.mp h
  obtain ⟨observation', hget', rfl⟩ := mem_placed.mp h'
  rw [hget] at hget'
  cases hget'
  rfl

theorem mem_placed_iff {place : ObservationSpanV1 → Place} {observations : List ObservationSpanV1}
    {at_ : Place} {index : ℕ} {observation : ObservationSpanV1}
    (hget : observations[index]? = some observation) :
    index ∈ placed place observations.zipIdx at_ ↔ place observation = at_ := by
  simp [mem_placed, hget]

theorem nodup_placed (place : ObservationSpanV1 → Place) (observations : List ObservationSpanV1)
    (at_ : Place) : (placed place observations.zipIdx at_).Nodup := by
  have hsub : (placed place observations.zipIdx at_).Sublist (observations.zipIdx.map (·.2)) :=
    List.filter_sublist.map _
  refine hsub.nodup ?_
  rw [List.zipIdx_map_snd]
  exact List.nodup_range'

theorem nodup_places (place : ObservationSpanV1 → Place) (observations : List ObservationSpanV1) :
    (placed place observations.zipIdx .train ++ placed place observations.zipIdx .purged ++
      placed place observations.zipIdx .test ++
      placed place observations.zipIdx .censored).Nodup := by
  have hdisjoint : ∀ {at_ at' : Place}, at_ ≠ at' → ∀ index ∈ placed place observations.zipIdx at_,
      index ∉ placed place observations.zipIdx at' :=
    fun hne index h h' => hne (place_unique h h')
  simp only [List.nodup_append', nodup_placed, List.disjoint_left, List.mem_append, true_and]
  refine ⟨⟨hdisjoint (by decide), ?_⟩, ?_⟩
  · rintro index (h | h)
    · exact hdisjoint (by decide) index h
    · exact hdisjoint (by decide) index h
  · rintro index ((h | h) | h)
    · exact hdisjoint (by decide) index h
    · exact hdisjoint (by decide) index h
    · exact hdisjoint (by decide) index h

variable {observation : ObservationSpanV1}

theorem place_eq_train : place trainStart testStart testEnd purgeFrom end_ observation = .train ↔
    (trainStart ≤ observation.decisionAt ∧ observation.decisionAt < testStart) ∧
      observation.labelEndAt < purgeFrom := by
  unfold place
  split_ifs <;> simp <;> omega

theorem place_eq_purged : place trainStart testStart testEnd purgeFrom end_ observation = .purged ↔
    (trainStart ≤ observation.decisionAt ∧ observation.decisionAt < testStart) ∧
      purgeFrom ≤ observation.labelEndAt := by
  unfold place
  split_ifs <;> simp <;> omega

theorem place_eq_test : place trainStart testStart testEnd purgeFrom end_ observation = .test ↔
    (testStart ≤ observation.decisionAt ∧ observation.decisionAt < testEnd) ∧
      observation.labelEndAt < end_ := by
  unfold place
  split_ifs <;> simp <;> omega

theorem place_eq_censored :
    place trainStart testStart testEnd purgeFrom end_ observation = .censored ↔
      (testStart ≤ observation.decisionAt ∧ observation.decisionAt < testEnd) ∧
        end_ ≤ observation.labelEndAt := by
  unfold place
  split_ifs <;> simp <;> omega

end Members

namespace WalkForwardPlanV1

variable (plan : WalkForwardPlanV1)

def testWindow (fold : ℕ) : Except Exn (ℤ × ℤ) := do
  let offset ← times fold plan.step
  let testStart ← plus plan.firstTestStart offset
  let testEnd ← plus testStart plan.testDuration
  return (testStart, testEnd)

def trainStart (testStart : ℤ) : Except Exn ℤ :=
  match plan.mode, plan.trainDuration, plan.trainAnchor with
  | .rolling, some duration, _ => plus testStart (-duration)
  | .anchored, _, some anchor => .ok anchor
  | _, _, _ => .error (.strategyLabSplitError "split_plan_incoherent")

def splitAt (observations : List ObservationSpanV1) (fold : ℕ) (window : ℤ × ℤ) :
    Except Exn PurgedSplitV1 := do
  let trainStart ← plan.trainStart window.1
  let purgeFrom ← plus window.1 (-plan.embargo)
  let members := foldMembers trainStart window.1 window.2 purgeFrom plan.evaluationEndExclusive
    observations
  if members.train = [] then
    .error (.strategyLabSplitError s!"split_fold_without_train_members:{fold}")
  else if members.test = [] then
    .error (.strategyLabSplitError s!"split_fold_without_test_members:{fold}")
  else
    return ⟨fold, trainStart, window.1, window.2, members.train, members.purged, members.test,
      members.censored⟩

variable {plan}

theorem testWindow_eq_ok {fold : ℕ} {window : ℤ × ℤ} (h : plan.testWindow fold = .ok window) :
    window.1 = plan.firstTestStart + fold * plan.step ∧
      window.2 = plan.firstTestStart + fold * plan.step + plan.testDuration := by
  unfold testWindow at h
  obtain ⟨offset, hoffset, h⟩ := Except.bind_eq_ok.mp h
  obtain ⟨testStart, hstart, h⟩ := Except.bind_eq_ok.mp h
  obtain ⟨testEnd, hend, h⟩ := Except.bind_eq_ok.mp h
  cases h
  cases times_eq_ok hoffset
  cases plus_eq_ok hstart
  exact ⟨rfl, plus_eq_ok hend⟩

end WalkForwardPlanV1

/-- `while True`, from a fold on.  It ends because the test windows move on by a positive
step and the evaluation ends. -/
def splitsFrom (observations : List ObservationSpanV1) (plan : WalkForwardPlanV1) (fold : ℕ) :
    Except Exn (List PurgedSplitV1) :=
  match hwindow : plan.testWindow fold with
  | .error e => .error e
  | .ok window =>
      if hend : plan.evaluationEndExclusive < window.2 then .ok []
      else do
        let split ← plan.splitAt observations fold window
        let rest ← splitsFrom observations plan (fold + 1)
        return split :: rest
termination_by
  (plan.evaluationEndExclusive - (plan.firstTestStart + fold * plan.step)).toNat
decreasing_by
  have hwindow := (WalkForwardPlanV1.testWindow_eq_ok hwindow).2
  have hstep := plan.step_pos
  have htest := plan.testDuration_pos
  push_cast
  rw [add_mul]
  omega

/-- `purged_walk_forward_v1`, with the hash of the observations that the result carries. -/
def purgedWalkForwardV1 (observationsHashV1 : List ObservationSpanV1 → String)
    (observations : List ObservationSpanV1) (plan : WalkForwardPlanV1) :
    Except Exn PurgedWalkForwardV1 :=
  if observations = [] then .error (.strategyLabSplitError "no_observations")
  else if ¬ (observations.map (·.decisionAt)).IsChain (· ≤ ·) then
    .error (.strategyLabSplitError "decision_times_must_be_non_decreasing")
  else do
    let splits ← splitsFrom observations plan 0
    return ⟨plan, observationsHashV1 observations, splits⟩

/-! ## What a split contains -/

/-- `split` is the split of its fold: the windows follow the plan, every observation of a
window is on one side of it, and what is known too late is in neither training nor test. -/
structure PurgedSplitV1.IsPurged (split : PurgedSplitV1) (observations : List ObservationSpanV1)
    (plan : WalkForwardPlanV1) : Prop where
  testStart_eq : split.testStart = plan.firstTestStart + split.fold * plan.step
  testEnd_eq : split.testEndExclusive = split.testStart + plan.testDuration
  trainStart_eq : match plan.mode with
    | .rolling => plan.trainDuration = some (split.testStart - split.trainStart)
    | .anchored => plan.trainAnchor = some split.trainStart
  train_or_purged : ∀ index observation, observations[index]? = some observation →
    split.trainStart ≤ observation.decisionAt → observation.decisionAt < split.testStart →
      Xor (index ∈ split.trainIndices) (index ∈ split.purgedIndices)
  test_or_censored : ∀ index observation, observations[index]? = some observation →
    split.testStart ≤ observation.decisionAt → observation.decisionAt < split.testEndExclusive →
      Xor (index ∈ split.testIndices) (index ∈ split.censoredIndices)
  in_train_window : ∀ index ∈ split.trainIndices ++ split.purgedIndices, ∃ observation,
    observations[index]? = some observation ∧
      split.trainStart ≤ observation.decisionAt ∧ observation.decisionAt < split.testStart
  in_test_window : ∀ index ∈ split.testIndices ++ split.censoredIndices, ∃ observation,
    observations[index]? = some observation ∧
      split.testStart ≤ observation.decisionAt ∧ observation.decisionAt < split.testEndExclusive
  once : (split.trainIndices ++ split.purgedIndices ++ split.testIndices ++
    split.censoredIndices).Nodup
  train_known : ∀ index ∈ split.trainIndices, ∀ observation,
    observations[index]? = some observation →
      observation.labelEndAt + plan.embargo < split.testStart
  train_before_test : ∀ index ∈ split.trainIndices, ∀ index' ∈ split.testIndices,
    ∀ observation observation', observations[index]? = some observation →
      observations[index']? = some observation' →
      observation.labelEndAt + plan.embargo < observation'.decisionAt
  test_known : ∀ index ∈ split.testIndices, ∀ observation,
    observations[index]? = some observation →
      observation.labelEndAt < plan.evaluationEndExclusive

section Splits

variable {observations : List ObservationSpanV1} {plan : WalkForwardPlanV1} {fold : ℕ}
  {window : ℤ × ℤ} {split : PurgedSplitV1} {splits : List PurgedSplitV1}

theorem WalkForwardPlanV1.trainStart_eq_ok {testStart t : ℤ}
    (h : plan.trainStart testStart = .ok t) :
    match plan.mode with
    | .rolling => plan.trainDuration = some (testStart - t)
    | .anchored => plan.trainAnchor = some t := by
  unfold WalkForwardPlanV1.trainStart at h
  split at h
  · rename_i duration _ hmode hduration
    rw [hmode, hduration, plus_eq_ok h]
    simp
  · rename_i anchor hmode hanchor
    cases h
    rw [hmode]
    exact hanchor
  · cases h

theorem WalkForwardPlanV1.splitAt_eq_ok (h : plan.splitAt observations fold window = .ok split) :
    split.fold = fold ∧ split.testStart = window.1 ∧ split.testEndExclusive = window.2 ∧
      plan.trainStart window.1 = .ok split.trainStart ∧
      let at_ := placed (place split.trainStart window.1 window.2 (window.1 - plan.embargo)
        plan.evaluationEndExclusive) observations.zipIdx
      split.trainIndices = at_ .train ∧ split.purgedIndices = at_ .purged ∧
        split.testIndices = at_ .test ∧ split.censoredIndices = at_ .censored := by
  unfold WalkForwardPlanV1.splitAt at h
  obtain ⟨trainStart, htrain, h⟩ := Except.bind_eq_ok.mp h
  obtain ⟨purgeFrom, hpurge, h⟩ := Except.bind_eq_ok.mp h
  cases plus_eq_ok hpurge
  dsimp only at h
  split at h
  · cases h
  · split at h
    · cases h
    · cases h
      refine ⟨rfl, rfl, rfl, htrain, ?_⟩
      simp only [foldMembers_eq, sub_eq_add_neg, and_self]

theorem WalkForwardPlanV1.isPurged_of_splitAt (hwindow : plan.testWindow fold = .ok window)
    (h : plan.splitAt observations fold window = .ok split) :
    split.IsPurged observations plan := by
  obtain ⟨rfl, hstart, hend, htrainStart, htrain, hpurged, htest, hcensored⟩ := splitAt_eq_ok h
  obtain ⟨hwindow₁, hwindow₂⟩ := testWindow_eq_ok hwindow
  have hmode := trainStart_eq_ok htrainStart
  rw [← hstart] at hwindow₁ htrain hpurged htest hcensored hmode
  rw [← hend] at hwindow₂ htrain hpurged htest hcensored
  refine
    { testStart_eq := hwindow₁
      testEnd_eq := by rw [hwindow₂, hwindow₁]
      trainStart_eq := hmode
      train_or_purged := ?train_or_purged
      test_or_censored := ?test_or_censored
      in_train_window := ?in_train_window
      in_test_window := ?in_test_window
      once := ?once
      train_known := ?train_known
      train_before_test := ?train_before_test
      test_known := ?test_known }
  case train_or_purged =>
    intro index observation hget hlow hhigh
    rw [htrain, hpurged, mem_placed_iff hget, mem_placed_iff hget, place_eq_train, place_eq_purged]
    rcases lt_or_ge (observation.labelEndAt) (split.testStart - plan.embargo) with hlabel | hlabel
    · exact .inl ⟨⟨⟨hlow, hhigh⟩, hlabel⟩, fun hlate => hlabel.not_ge hlate.2⟩
    · exact .inr ⟨⟨⟨hlow, hhigh⟩, hlabel⟩, fun hearly => hlabel.not_gt hearly.2⟩
  case test_or_censored =>
    intro index observation hget hlow hhigh
    rw [htest, hcensored, mem_placed_iff hget, mem_placed_iff hget, place_eq_test,
      place_eq_censored]
    rcases lt_or_ge (observation.labelEndAt) plan.evaluationEndExclusive with hlabel | hlabel
    · exact .inl ⟨⟨⟨hlow, hhigh⟩, hlabel⟩, fun hlate => hlabel.not_ge hlate.2⟩
    · exact .inr ⟨⟨⟨hlow, hhigh⟩, hlabel⟩, fun hearly => hlabel.not_gt hearly.2⟩
  case in_train_window =>
    intro index hindex
    rw [htrain, hpurged] at hindex
    rcases List.mem_append.mp hindex with hindex | hindex
    · obtain ⟨observation, hget, hplace⟩ := mem_placed.mp hindex
      exact ⟨observation, hget, (place_eq_train.mp hplace).1⟩
    · obtain ⟨observation, hget, hplace⟩ := mem_placed.mp hindex
      exact ⟨observation, hget, (place_eq_purged.mp hplace).1⟩
  case in_test_window =>
    intro index hindex
    rw [htest, hcensored] at hindex
    rcases List.mem_append.mp hindex with hindex | hindex
    · obtain ⟨observation, hget, hplace⟩ := mem_placed.mp hindex
      exact ⟨observation, hget, (place_eq_test.mp hplace).1⟩
    · obtain ⟨observation, hget, hplace⟩ := mem_placed.mp hindex
      exact ⟨observation, hget, (place_eq_censored.mp hplace).1⟩
  case once =>
    rw [htrain, hpurged, htest, hcensored]
    exact nodup_places _ observations
  case train_known =>
    intro index hindex observation hget
    rw [htrain, mem_placed_iff hget, place_eq_train] at hindex
    exact lt_sub_iff_add_lt.mp hindex.2
  case train_before_test =>
    intro index hindex index' hindex' observation observation' hget hget'
    rw [htrain, mem_placed_iff hget, place_eq_train] at hindex
    rw [htest, mem_placed_iff hget', place_eq_test] at hindex'
    calc observation.labelEndAt + plan.embargo
        < split.testStart := lt_sub_iff_add_lt.mp hindex.2
      _ ≤ observation'.decisionAt := hindex'.1.1
  case test_known =>
    intro index hindex observation hget
    rw [htest, mem_placed_iff hget, place_eq_test] at hindex
    exact hindex.2

/-- A pass of the loop leaves it at a test window that ends too late, or adds the split of
its fold. -/
theorem splitsFrom_cases (h : splitsFrom observations plan fold = .ok splits) :
    (splits = [] ∧ plan.evaluationEndExclusive <
      plan.firstTestStart + fold * plan.step + plan.testDuration) ∨
    ∃ split rest, splits = split :: rest ∧ split.fold = fold ∧ split.IsPurged observations plan ∧
      plan.firstTestStart + fold * plan.step + plan.testDuration ≤ plan.evaluationEndExclusive ∧
      splitsFrom observations plan (fold + 1) = .ok rest := by
  rw [splitsFrom] at h
  split at h
  · cases h
  · rename_i window hwindow
    have hend := (WalkForwardPlanV1.testWindow_eq_ok hwindow).2
    split at h <;> rename_i hlate
    · cases h
      exact .inl ⟨rfl, hend ▸ hlate⟩
    · obtain ⟨split, hsplit, h⟩ := Except.bind_eq_ok.mp h
      obtain ⟨rest, hrest, h⟩ := Except.bind_eq_ok.mp h
      cases h
      exact .inr ⟨split, rest, rfl, (WalkForwardPlanV1.splitAt_eq_ok hsplit).1,
        WalkForwardPlanV1.isPurged_of_splitAt hwindow hsplit, hend ▸ not_lt.mp hlate, hrest⟩

/-- The loop from a fold on: its splits are numbered from there, each is the split of its
fold, and it leaves at the first test window that ends too late. -/
theorem splitsFrom_eq_ok (h : splitsFrom observations plan fold = .ok splits) :
    splits.map (·.fold) = List.range' fold splits.length ∧
    (∀ k, fold ≤ k → (k < fold + splits.length ↔
      plan.firstTestStart + k * plan.step + plan.testDuration ≤ plan.evaluationEndExclusive)) ∧
    ∀ split ∈ splits, split.IsPurged observations plan := by
  -- a later fold starts no earlier
  have hmono : ∀ {k k' : ℕ}, k ≤ k' → (k : ℤ) * plan.step ≤ k' * plan.step := by
    intro k k' hk
    exact mul_le_mul_of_nonneg_right (by exact_mod_cast hk) plan.step_pos.le
  induction splits generalizing fold with
  | nil =>
      rcases splitsFrom_cases h with ⟨-, hlate⟩ | ⟨split, rest, hne, -⟩
      · refine ⟨rfl, fun k hk => ?_, fun _ hmem => absurd hmem List.not_mem_nil⟩
        have := hmono hk
        simp only [List.length_nil]
        omega
      · cases hne
  | cons split rest ih =>
      rcases splitsFrom_cases h with ⟨hne, -⟩ | ⟨_, _, heq, hfold, hpurged, hend, hrest⟩
      · cases hne
      · cases heq
        obtain ⟨hnumbers, hfolds, hall⟩ := ih hrest
        refine ⟨?_, fun k hk => ?_, ?_⟩
        · rw [List.map_cons, hfold, hnumbers, List.length_cons, List.range'_succ]
        · rcases hk.eq_or_lt with rfl | hk
          · simp [hend]
          · rw [← hfolds k hk, List.length_cons]
            omega
        · intro split' hmem
          rcases List.mem_cons.mp hmem with rfl | hmem
          · exact hpurged
          · exact hall split' hmem

/-- Every accepted walk-forward: the folds are those whose test window ends in time, and
each split keeps what is known too late out of its training and its test. -/
theorem purgedWalkForwardV1_isPurged {observationsHashV1 : List ObservationSpanV1 → String}
    {result : PurgedWalkForwardV1}
    (h : purgedWalkForwardV1 observationsHashV1 observations plan = .ok result) :
    result.splits.map (·.fold) = List.range result.splits.length ∧
    (∀ k : ℕ, k < result.splits.length ↔
      plan.firstTestStart + k * plan.step + plan.testDuration ≤ plan.evaluationEndExclusive) ∧
    ∀ split ∈ result.splits, split.IsPurged observations plan := by
  unfold purgedWalkForwardV1 at h
  split at h
  · cases h
  · split at h
    · cases h
    · obtain ⟨splits, hsplits, h⟩ := Except.bind_eq_ok.mp h
      cases h
      obtain ⟨hnumbers, hfolds, hall⟩ := splitsFrom_eq_ok hsplits
      refine ⟨?_, fun k => ?_, hall⟩
      · rw [hnumbers, List.range_eq_range']
      · rw [← hfolds k (Nat.zero_le k), Nat.zero_add]

end Splits

def overlappingPlan : WalkForwardPlanV1 where
  mode := .rolling
  testDuration := 10
  step := 5
  embargo := 1
  firstTestStart := 20
  evaluationEndExclusive := 40
  trainDuration := some 20
  trainAnchor := none
  testDuration_pos := by decide
  step_pos := by decide
  embargo_nonneg := by decide
  end_le_holdout := by decide
  takes := ⟨rfl, 20, rfl, by decide⟩
  first_fold := by decide

/-- An observation to train on, one whose label is known in the first test fold, three to
test on and one whose label the study never sees. -/
def overlappingObservations : List ObservationSpanV1 :=
  [⟨12, 13, by decide⟩, ⟨15, 25, by decide⟩, ⟨21, 22, by decide⟩, ⟨26, 27, by decide⟩,
    ⟨31, 32, by decide⟩, ⟨32, 50, by decide⟩]

theorem purgedWalkForwardV1_isPurged_overlapping : ∃ result,
    purgedWalkForwardV1 (fun _ => "") overlappingObservations overlappingPlan = .ok result ∧
      result.splits.map (·.fold) = List.range result.splits.length ∧
      (∀ k : ℕ, k < result.splits.length ↔ (20 : ℤ) + k * 5 + 10 ≤ 40) ∧
      ∀ split ∈ result.splits, split.IsPurged overlappingObservations overlappingPlan := by
  obtain ⟨result, h⟩ := Except.exists_of_isOk (x := purgedWalkForwardV1 (fun _ => "")
    overlappingObservations overlappingPlan) (by decide +kernel)
  exact ⟨result, h, purgedWalkForwardV1_isPurged h⟩

end WalkForward

end TradePlatform
