/-
# `TradePlatform.ForwardFundingAsOf` — what a later observation changes in an earlier answer

Two sets of evidence that agree on what was known at an instant give windows that agree in
everything the observations decide: each part of a window is a function of the set of the
available observations, not of the order they come in.  The interval history gives the same
answer too, because it passes on known intervals only.  A caller who passes a published
interval that was known later is told so, and this is the one thing that enters an earlier
answer.
-/
import TradePlatform.ForwardFunding

namespace TradePlatform

namespace ForwardFunding

variable {env : Env} {available available' : List ForwardFundingObservationV1}
  {observations observations' : List ForwardFundingObservationV1} {symbol : String}
  {startMs endMs asOfMicros : ℤ}

def AgreeOn (asOfMicros : ℤ) (observations observations' : List ForwardFundingObservationV1) :
    Prop :=
  (observations.filter fun o => o.isAvailableAt asOfMicros).Perm
    (observations'.filter fun o => o.isAvailableAt asOfMicros)

def knownInterval (asOfMicros : ℤ) (interval : Option PublishedFundingIntervalV1) :
    Option PublishedFundingIntervalV1 :=
  interval.filter fun i => i.knowledgeAtMicros ≤ asOfMicros

def Late (asOfMicros : ℤ) (interval : Option PublishedFundingIntervalV1) : Prop :=
  ∃ i, interval = some i ∧ asOfMicros < i.knowledgeAtMicros

/-! ## The available observations, in any order -/

theorem AgreeOn.available_perm (h : AgreeOn asOfMicros observations observations') :
    (availableAsOf env observations symbol asOfMicros).Perm
      (availableAsOf env observations' symbol asOfMicros) := by
  have hfilter : ∀ os : List ForwardFundingObservationV1,
      os.filter (fun o => decide (o.symbol = symbol ∧ o.isAvailableAt asOfMicros)) =
        (os.filter fun o => o.isAvailableAt asOfMicros).filter
          fun o => decide (o.symbol = symbol) := by
    intro os
    rw [List.filter_filter]
    refine List.filter_congr fun o _ => ?_
    simp
  unfold availableAsOf
  refine (sortBy_perm _ _).trans (List.Perm.trans ?_ (sortBy_perm _ _).symm)
  rw [hfilter, hfilter]
  exact h.filter _

theorem AgreeOn.observationIds (h : AgreeOn asOfMicros observations observations') :
    (availableAsOf env observations symbol asOfMicros).map (fun o => o.observationId env) =
      (availableAsOf env observations' symbol asOfMicros).map fun o => o.observationId env := by
  have hsorted : ∀ os : List ForwardFundingObservationV1,
      (availableAsOf env os symbol asOfMicros).map (fun o => o.observationId env) =
        sortBy id ((availableAsOf env os symbol asOfMicros).map fun o => o.observationId env) := by
    intro os
    refine (sortBy_eq (fun _ _ _ _ heq => heq) (List.Perm.refl _) ?_).symm
    exact List.pairwise_map.mpr (sortBy_pairwise _ _)
  rw [hsorted, hsorted observations']
  exact sortBy_congr (fun _ _ _ _ heq => heq) (h.available_perm.map _)

theorem uncovered_congr {spans spans' : List (ℤ × ℤ)} (h : spans.Perm spans')
    (startMs lastMs : ℤ) : uncovered spans startMs lastMs = uncovered spans' startMs lastMs := by
  unfold uncovered
  rw [sortBy_congr (fun _ _ _ _ heq => toLex.injective heq) (h.filter _)]

theorem instants_congr {events events' : List FundingEventV1} (h : events.Perm events') :
    instants events = instants events' :=
  sortedSet_congr Function.injective_id fun _ => (h.map _).mem_iff

theorem ratesAt_congr {events events' : List FundingEventV1} (h : events.Perm events') (at_ : ℤ) :
    ratesAt events at_ = ratesAt events' at_ :=
  sortedSet_congr Function.injective_id fun _ => ((h.filter _).map _).mem_iff

theorem settledEvents_congr {events events' : List FundingEventV1} (h : events.Perm events') :
    settledEvents events = settledEvents events' := by
  unfold settledEvents
  rw [instants_congr h]
  refine List.filterMap_congr fun at_ _ => ?_
  rw [ratesAt_congr h]

theorem conflicts_congr {events events' : List FundingEventV1} (h : events.Perm events') :
    conflicts events = conflicts events' := by
  unfold conflicts
  rw [instants_congr h]
  congr 1
  refine List.filter_congr fun at_ _ => ?_
  rw [ratesAt_congr h]

theorem recorded_perm (h : available.Perm available') :
    (recorded available startMs endMs).Perm (recorded available' startMs endMs) :=
  (h.flatMap_right _).filter _

theorem coverageIrregularities_congr (h : available.Perm available') :
    coverageIrregularities startMs endMs asOfMicros available =
      coverageIrregularities startMs endMs asOfMicros available' := by
  unfold coverageIrregularities
  rw [uncovered_congr (h.map _), conflicts_congr (recorded_perm h)]

theorem AgreeOn.window (h : AgreeOn asOfMicros observations observations')
    (interval : Option PublishedFundingIntervalV1) :
    forwardFundingWindowAsOfV1 env observations symbol startMs endMs asOfMicros interval =
      forwardFundingWindowAsOfV1 env observations' symbol startMs endMs asOfMicros interval := by
  unfold forwardFundingWindowAsOfV1
  dsimp only
  rw [coverageIrregularities_congr h.available_perm,
    settledEvents_congr (recorded_perm h.available_perm), h.observationIds]

/-! ## The published interval -/

theorem judgeInterval_late {interval : PublishedFundingIntervalV1}
    (h : asOfMicros < interval.knowledgeAtMicros) :
    judgeInterval env symbol startMs asOfMicros (some interval) =
      .ok (.inl .publishedIntervalNotKnownAsOf) :=
  if_pos h

theorem intervalReference_late {interval : PublishedFundingIntervalV1}
    (h : asOfMicros < interval.knowledgeAtMicros) :
    intervalReference asOfMicros (some interval) = none :=
  if_pos h

theorem window_of_late {i i' : PublishedFundingIntervalV1}
    (hi : asOfMicros < i.knowledgeAtMicros) (hi' : asOfMicros < i'.knowledgeAtMicros) :
    forwardFundingWindowAsOfV1 env observations symbol startMs endMs asOfMicros (some i) =
      forwardFundingWindowAsOfV1 env observations symbol startMs endMs asOfMicros (some i') := by
  unfold forwardFundingWindowAsOfV1
  rw [judgeInterval_late hi, judgeInterval_late hi', intervalReference_late hi,
    intervalReference_late hi']

theorem completeness_of_unknown {interval : Option PublishedFundingIntervalV1}
    {window : ForwardFundingWindowV1} {reason : Irregularity} {text : String}
    (hjudge : judgeInterval env symbol startMs asOfMicros interval = .ok (.inl reason))
    (htext : reason.text env = .ok text)
    (h : forwardFundingWindowAsOfV1 env observations symbol startMs endMs asOfMicros interval =
      .ok window) :
    ∃ early rest, (coverageIrregularities startMs endMs asOfMicros
        (availableAsOf env observations symbol asOfMicros)).mapM (Irregularity.text env) =
          .ok early ∧
      window.identity.completeness = .irregularRefused (early ++ text :: rest) := by
  obtain ⟨-, -, h⟩ := Except.bind_eq_ok.mp h
  obtain ⟨-, h⟩ := Except.of_ite_error h
  obtain ⟨early, hearly, h⟩ := Except.bind_eq_ok.mp h
  rw [hjudge, Except.ok_bind] at h
  obtain ⟨late, hlate, h⟩ := Except.bind_eq_ok.mp h
  obtain ⟨events, -, h⟩ := Except.bind_eq_ok.mp h
  obtain rfl := Except.ok.inj h
  unfold intervalIrregularities at hlate
  simp only [Sum.elim_inl, List.append_nil, List.singleton_append] at hlate
  rw [List.mapM_cons, htext, Except.ok_bind] at hlate
  obtain ⟨rest, -, hlate⟩ := Except.bind_eq_ok.mp hlate
  obtain rfl := Except.ok.inj hlate
  refine ⟨early, rest, hearly, ?_⟩
  cases early with
  | nil => rfl
  | cons head early => rfl

theorem window_none_ne_late {late : PublishedFundingIntervalV1} {window : ForwardFundingWindowV1}
    (hlate : asOfMicros < late.knowledgeAtMicros)
    (hnone : forwardFundingWindowAsOfV1 env observations symbol startMs endMs asOfMicros none =
      .ok window)
    (hsome : forwardFundingWindowAsOfV1 env observations symbol startMs endMs asOfMicros
      (some late) = .ok window) : False := by
  obtain ⟨early, rest, hearly, hwindow⟩ := completeness_of_unknown
    (show judgeInterval env symbol startMs asOfMicros none =
      .ok (.inl .publishedIntervalEvidenceMissing) from rfl) rfl hnone
  obtain ⟨early', rest', hearly', hwindow'⟩ :=
    completeness_of_unknown (judgeInterval_late hlate) rfl hsome
  rw [hearly] at hearly'
  obtain rfl := Except.ok.inj hearly'
  rw [hwindow] at hwindow'
  have hlists := Completeness.irregularRefused.inj hwindow'
  rw [List.append_cancel_left_eq] at hlists
  exact absurd (List.cons.inj hlists).1 (by simp)

/-- Which of two late or absent intervals was passed shows exactly where one was passed and the
other was not. -/
theorem window_interval_iff {interval interval' : Option PublishedFundingIntervalV1}
    {window : ForwardFundingWindowV1}
    (hagree : knownInterval asOfMicros interval = knownInterval asOfMicros interval')
    (h : forwardFundingWindowAsOfV1 env observations symbol startMs endMs asOfMicros interval =
      .ok window) :
    forwardFundingWindowAsOfV1 env observations symbol startMs endMs asOfMicros interval' =
        .ok window ↔
      (Late asOfMicros interval ↔ Late asOfMicros interval') := by
  cases interval with
  | none =>
      cases interval' with
      | none => exact ⟨fun _ => Iff.rfl, fun _ => h⟩
      | some i' =>
          have hlate : asOfMicros < i'.knowledgeAtMicros := by
            by_contra hknown
            simp [knownInterval, Option.filter, not_lt.mp hknown] at hagree
          refine ⟨fun h' => (window_none_ne_late hlate h h').elim, fun hiff => ?_⟩
          obtain ⟨_, heq, -⟩ := hiff.mpr ⟨i', rfl, hlate⟩
          cases heq
  | some i =>
      by_cases hlate : asOfMicros < i.knowledgeAtMicros
      · have hunknown : knownInterval asOfMicros (some i) = none := by
          simp [knownInterval, Option.filter, hlate]
        cases interval' with
        | none =>
            refine ⟨fun h' => (window_none_ne_late hlate h' h).elim, fun hiff => ?_⟩
            obtain ⟨_, heq, -⟩ := hiff.mp ⟨i, rfl, hlate⟩
            cases heq
        | some i' =>
            have hlate' : asOfMicros < i'.knowledgeAtMicros := by
              by_contra hknown
              rw [hunknown] at hagree
              simp [knownInterval, Option.filter, not_lt.mp hknown] at hagree
            refine ⟨fun _ => ⟨fun _ => ⟨i', rfl, hlate'⟩, fun _ => ⟨i, rfl, hlate⟩⟩, fun _ => ?_⟩
            rw [← window_of_late hlate hlate']
            exact h
      · have hknown : knownInterval asOfMicros (some i) = some i := by
          simp [knownInterval, Option.filter, not_lt.mp hlate]
        rw [hknown] at hagree
        obtain ⟨rfl, -⟩ := Option.filter_eq_some_iff.mp hagree.symm
        exact ⟨fun _ => Iff.rfl, fun _ => h⟩

/-! ## The interval history -/

/-- What `load` returns: the items by the name of their file, one item a name. -/
structure IntervalHistory (env : Env) where
  items : List PublishedFundingIntervalObservationV1
  sorted : items.Pairwise fun a b => a.observationId env < b.observationId env

def IntervalHistory.AgreeOn (asOfMicros : ℤ) (history history' : IntervalHistory env) : Prop :=
  (knownItems history.items asOfMicros).Perm (knownItems history'.items asOfMicros)

theorem IntervalHistory.AgreeOn.knownItems {history history' : IntervalHistory env}
    (h : history.AgreeOn asOfMicros history') :
    knownItems history.items asOfMicros = ForwardFunding.knownItems history'.items asOfMicros := by
  have hsorted : ∀ other : IntervalHistory env,
      (ForwardFunding.knownItems other.items asOfMicros).Pairwise
        fun a b => a.observationId env < b.observationId env :=
    fun other => other.sorted.filter _
  refine List.Perm.eq_of_pairwise ?_ (hsorted history) (hsorted history') h
  intro a b _ _ hab hba
  exact absurd hab (not_lt.mpr hba.le)

theorem windowAsOf_eq {history history' : IntervalHistory env}
    (hhistory : history.AgreeOn asOfMicros history')
    (h : AgreeOn asOfMicros observations observations') :
    windowAsOf env history.items observations symbol startMs endMs asOfMicros =
      windowAsOf env history'.items observations' symbol startMs endMs asOfMicros := by
  unfold windowAsOf
  rw [hhistory.knownItems]
  simp only [h.window]

/-- Two runs on evidence that agrees on everything known at the instant.  By the interval
history they give one answer.  Given a published interval they give one answer exactly where a
later-known interval is passed to both or to neither. -/
theorem forwardFundingWindowAsOfV1_agree_iff
    {interval interval' : Option PublishedFundingIntervalV1} {history history' : IntervalHistory env}
    {window : ForwardFundingWindowV1} (hobservations : AgreeOn asOfMicros observations observations')
    (hinterval : knownInterval asOfMicros interval = knownInterval asOfMicros interval')
    (hhistory : history.AgreeOn asOfMicros history')
    (hwindow : forwardFundingWindowAsOfV1 env observations symbol startMs endMs asOfMicros
      interval = .ok window) :
    (forwardFundingWindowAsOfV1 env observations' symbol startMs endMs asOfMicros interval' =
        .ok window ↔ (Late asOfMicros interval ↔ Late asOfMicros interval')) ∧
      windowAsOf env history.items observations symbol startMs endMs asOfMicros =
        windowAsOf env history'.items observations' symbol startMs endMs asOfMicros := by
  rw [← hobservations.window]
  exact ⟨window_interval_iff hinterval hwindow, windowAsOf_eq hhistory hobservations⟩

/-! ## Evidence that is known at instant one, judged at instant zero -/

namespace Sample

def codec : Env where
  loads := fun _ => none
  sha256 := fun _ => ""
  observationHash := fun _ => ""
  observationProvenanceHash := fun _ => ""
  intervalHash := fun _ => ""
  intervalProvenanceHash := fun _ => ""
  keyHash := fun _ _ => ""
  windowHash := fun _ => ""
  observationUuid := fun _ => 0
  intervalUuid := fun _ => 0
  uuidText := toString
  isoMs := fun ms => some (toString ms)

def interval (hours : ℕ) (h : 0 < hours) : PublishedFundingIntervalV1 := ⟨hours, "t4", 1, none, h⟩

def observation : ForwardFundingObservationV1 where
  identity := ⟨"BTCUSDT", 0, 1, []⟩
  contentHash := ""
  provenance := ⟨"", "", "", 1, 1, 1, some ⟨0, "clock"⟩, some 1, "AVAILABLE_FROM_KNOWLEDGE_TIME"⟩
  provenanceHash := ""
  idempotencyKey := ""

def history : IntervalHistory codec := ⟨[], .nil⟩

theorem window_exists (interval : Option PublishedFundingIntervalV1)
    (h : interval.all fun i => i.evidence.isNone) :
    ∃ window, forwardFundingWindowAsOfV1 codec [] "BTCUSDT" 0 1 0 interval = .ok window := by
  cases interval with
  | none => exact ⟨_, rfl⟩
  | some i =>
      by_cases hlate : 0 < i.knowledgeAtMicros
      · unfold forwardFundingWindowAsOfV1
        rw [judgeInterval_late hlate]
        exact ⟨_, rfl⟩
      · have hjudge : judgeInterval codec "BTCUSDT" 0 0 (some i) =
            .ok (.inl .publishedIntervalSourceEvidenceUnverified) := by
          have hevidence : i.evidence = none := by simpa using h
          simp only [judgeInterval, if_neg hlate, hevidence]
        unfold forwardFundingWindowAsOfV1
        rw [hjudge]
        exact ⟨_, rfl⟩

end Sample

/-- Two runs with different late intervals, of which one also has a late observation. -/
theorem forwardFundingWindowAsOfV1_agree_iff_sample :
    ∃ window,
      (forwardFundingWindowAsOfV1 Sample.codec [Sample.observation] "BTCUSDT" 0 1 0
          (some (Sample.interval 4 (by decide))) = .ok window ↔
        (Late 0 (some (Sample.interval 8 (by decide))) ↔
          Late 0 (some (Sample.interval 4 (by decide))))) ∧
      windowAsOf Sample.codec Sample.history.items [] "BTCUSDT" 0 1 0 =
        windowAsOf Sample.codec Sample.history.items [Sample.observation] "BTCUSDT" 0 1 0 := by
  obtain ⟨window, hwindow⟩ := Sample.window_exists (some (Sample.interval 8 (by decide))) rfl
  exact ⟨window, forwardFundingWindowAsOfV1_agree_iff
    (by unfold AgreeOn; exact List.Perm.refl _) rfl (List.Perm.refl _) hwindow⟩

/-- An interval that became known after the instant is told apart from none at all. -/
theorem lateInterval_leaks :
    ¬ ∀ (env : Env) (symbol : String) (startMs endMs asOfMicros : ℤ)
      (observations observations' : List ForwardFundingObservationV1)
      (interval interval' : Option PublishedFundingIntervalV1),
      AgreeOn asOfMicros observations observations' →
      knownInterval asOfMicros interval = knownInterval asOfMicros interval' →
      forwardFundingWindowAsOfV1 env observations symbol startMs endMs asOfMicros interval =
        forwardFundingWindowAsOfV1 env observations' symbol startMs endMs asOfMicros interval' := by
  intro hclaim
  obtain ⟨window, hwindow⟩ := Sample.window_exists none rfl
  have hlate := hclaim Sample.codec "BTCUSDT" 0 1 0 [] [] none (some (Sample.interval 8 (by decide)))
    (List.Perm.refl _) rfl
  rw [hwindow] at hlate
  exact window_none_ne_late (by decide) hwindow hlate.symm

end ForwardFunding

end TradePlatform
