/-
# `TradePlatform.LiquidityLookAhead` — what an order may be told, and by which bars

Two series with the same bars closed before `T` give the orders up to `T` the same days, one
day aside: a bar that opened off the grid on the day before may still be open at `T`, and
takes that day away.  `events_agree_iff` is the condition, for every run and policy.
-/
import TradePlatform.LiquidityCapacity

namespace TradePlatform.LiquidityCapacity

open Decimal (Context)

section Bars

variable {ambient : Context} {bars more : List AuthoritativeTradableBarV2}
  {bar : AuthoritativeTradableBarV2} {byDay next : Dict ℤ Minutes} {day : ℤ} {minutes : Minutes}

/-! ## Two series -/

def ClosedBefore (T : ℤ) (bar : AuthoritativeTradableBarV2) : Prop :=
  bar.barCloseAt.before T = some true

instance (T : ℤ) : DecidablePred (ClosedBefore T) := fun _ => inferInstanceAs (Decidable (_ = _))

/-- The bar opened on the UTC day before that of `T`, and had not closed before `T`. -/
def HeldOver (T : ℤ) (bar : AuthoritativeTradableBarV2) : Prop :=
  (∃ t, bar.barOpenAt = .aware t ∧ utcDate t = utcDate T - 1) ∧ ¬ ClosedBefore T bar

/-- The series contain the same bars closing strictly before `T`. -/
def SameBefore (T : ℤ) (bars bars' : List AuthoritativeTradableBarV2) : Prop :=
  ∀ bar, ClosedBefore T bar → (bar ∈ bars ↔ bar ∈ bars')

/-- What closed before `T` is, of the UTC day before, the minute grid. -/
def WholeBefore (T : ℤ) (bars : List AuthoritativeTradableBarV2) : Prop :=
  Whole (bars.filter fun bar => decide (ClosedBefore T bar)) (utcDate T - 1)

variable {T : ℤ} {bars' : List AuthoritativeTradableBarV2}

theorem closedBefore_minuteBar {t : ℤ} {v : Decimal} :
    ClosedBefore T (minuteBar t v) ↔ t + oneMinute < T := by
  simp [ClosedBefore, minuteBar, DateTime.before]

theorem heldOver_minuteBar {t : ℤ} {v : Decimal} :
    HeldOver T (minuteBar t v) ↔ utcDate t = utcDate T - 1 ∧ T ≤ t + oneMinute := by
  rw [HeldOver, closedBefore_minuteBar, not_lt]
  simp [minuteBar]

theorem SameBefore.symm (h : SameBefore T bars bars') : SameBefore T bars' bars :=
  fun bar hbar => (h bar hbar).symm

theorem SameBefore.minuteBar (h : SameBefore T bars bars') {t : ℤ} (ht : t + oneMinute < T)
    (v : Decimal) : minuteBar t v ∈ bars ↔ LiquidityCapacity.minuteBar t v ∈ bars' :=
  h _ (closedBefore_minuteBar.mpr ht)

theorem wholeBefore_iff :
    WholeBefore T bars ↔ ∀ t, t ∈ expectedMinuteGrid (utcDate T - 1) ↔
      utcDate t = utcDate T - 1 ∧ t + oneMinute < T ∧ ∃ v, minuteBar t v ∈ bars := by
  refine forall_congr' fun t => iff_congr Iff.rfl (and_congr_right fun _ => ?_)
  simp only [List.mem_filter, decide_eq_true_eq, closedBefore_minuteBar]
  constructor
  · rintro ⟨v, hbar, hclosed⟩
    exact ⟨hclosed, v, hbar⟩
  · rintro ⟨hclosed, v, hbar⟩
    exact ⟨v, hbar, hclosed⟩

theorem SameBefore.wholeBefore (h : SameBefore T bars bars') (hwhole : WholeBefore T bars) :
    WholeBefore T bars' := by
  refine wholeBefore_iff.mpr fun t => (wholeBefore_iff.mp hwhole t).trans ?_
  refine and_congr_right fun _ => and_congr_right fun hclosed => exists_congr fun v => ?_
  exact h.minuteBar hclosed v

theorem WholeBefore.whole_iff (hwhole : WholeBefore T bars)
    (hcanonical : ∀ bar ∈ bars, ∃ t v, bar = minuteBar t v) :
    Whole bars (utcDate T - 1) ↔ ¬ ∃ bar ∈ bars, HeldOver T bar := by
  have hgrid := wholeBefore_iff.mp hwhole
  constructor
  · rintro hday ⟨bar, hbar, hheld⟩
    obtain ⟨t, v, rfl⟩ := hcanonical bar hbar
    obtain ⟨hdate, hlate⟩ := heldOver_minuteBar.mp hheld
    have hclosed := ((hgrid t).mp ((hday t).mpr ⟨hdate, v, hbar⟩)).2.1
    omega
  · intro hnone t
    refine (hgrid t).trans (and_congr_right fun hdate => ?_)
    constructor
    · rintro ⟨-, hbar⟩
      exact hbar
    · rintro ⟨v, hbar⟩
      refine ⟨?_, v, hbar⟩
      by_contra hlate
      exact hnone ⟨_, hbar, heldOver_minuteBar.mpr ⟨hdate, not_lt.mp hlate⟩⟩

theorem Whole.wholeBefore (hwhole : Whole bars (utcDate T - 1))
    (hknown : utcDate T * oneDay < T) : WholeBefore T bars := by
  refine wholeBefore_iff.mpr fun t => ?_
  constructor
  · intro ht
    have hclose := close_le_of_mem_grid ht
    obtain ⟨hdate, hbar⟩ := (hwhole t).mp ht
    rw [sub_add_cancel] at hclose
    exact ⟨hdate, by omega, hbar⟩
  · rintro ⟨hdate, -, hbar⟩
    exact (hwhole t).mpr ⟨hdate, hbar⟩

/-- Where the day before `T` closed on the grid, a bar of it was held over in both series or
in neither. -/
def SameHeldOver (T : ℤ) (bars bars' : List AuthoritativeTradableBarV2) : Prop :=
  WholeBefore T bars → ((∃ bar ∈ bars, HeldOver T bar) ↔ ∃ bar ∈ bars', HeldOver T bar)

theorem SameBefore.sameHeldOver_symm (h : SameBefore T bars bars')
    (hheld : SameHeldOver T bars bars') : SameHeldOver T bars' bars :=
  fun hwhole => (hheld (h.symm.wholeBefore hwhole)).symm

theorem utcDate_eq_iff {t : ℤ} : utcDate t = day ↔ day * oneDay ≤ t ∧ t < (day + 1) * oneDay := by
  simp only [utcDate, oneDay]
  omega

namespace Figures

variable {days days' : List CompleteLiquidityDayV1} {c : CompleteLiquidityDayV1} {orderAt : ℤ}

theorem canonical (h : Figures ambient bars days) : ∀ bar ∈ bars, ∃ t v, bar = minuteBar t v := by
  obtain ⟨_, hgroups, -⟩ := h.figure
  exact hgroups.canonical

theorem mem_of_earlier (h : Figures ambient bars days) (h' : Figures ambient bars' days')
    (hsame : SameBefore T bars bars') (hday : c.day < utcDate T - 1) (hc : c ∈ days) :
    c ∈ days' := by
  refine h.mem_of_same h' (fun t v hdate => hsame.minuteBar ?_ v) hc
  have ht := utcDate_eq_iff.mp hdate
  have hT := (utcDate_eq_iff (t := T)).mp rfl
  simp only [oneDay, oneMinute] at *
  omega

theorem mem_of_eligible (h : Figures ambient bars days) (h' : Figures ambient bars' days')
    (hsame : SameBefore T bars bars') (hheld : SameHeldOver T bars bars') (horder : orderAt ≤ T)
    (hc : c ∈ eligibleDays orderAt days) : c ∈ eligibleDays orderAt days' := by
  simp only [eligibleDays, List.mem_filter, decide_eq_true_eq] at hc ⊢
  obtain ⟨hmem, hdate, hclose⟩ := hc
  refine ⟨?_, hdate, hclose⟩
  obtain ⟨hwhole, hlast⟩ := h.whole hmem
  have hday : c.day ≤ utcDate T - 1 := by
    have hT : utcDate orderAt ≤ utcDate T := Int.ediv_le_ediv (by norm_num) horder
    omega
  rcases hday.lt_or_eq with hday | hday
  · exact h.mem_of_earlier h' hsame hday hmem
  · -- the day before `T`: nothing of it was held over, in either series
    rw [hday, sub_add_cancel] at hlast
    rw [hday] at hwhole
    have hbefore := hwhole.wholeBefore (by omega)
    have hnone := (hbefore.whole_iff h.canonical).mp hwhole
    have hnone' := fun hex => hnone ((hheld hbefore).mpr hex)
    refine h.mem_of_same h' (fun t v hdate => ?_) hmem
    rw [hday] at hdate
    by_cases hclosed : t + oneMinute < T
    · exact hsame.minuteBar hclosed v
    · have hover := heldOver_minuteBar (v := v) |>.mpr ⟨hdate, not_lt.mp hclosed⟩
      exact ⟨fun hbar => absurd ⟨_, hbar, hover⟩ hnone, fun hbar => absurd ⟨_, hbar, hover⟩ hnone'⟩

theorem eligibleDays_perm (h : Figures ambient bars days) (h' : Figures ambient bars' days')
    (hsame : SameBefore T bars bars') (hheld : SameHeldOver T bars bars') (horder : orderAt ≤ T) :
    (eligibleDays orderAt days).Perm (eligibleDays orderAt days') := by
  refine (List.perm_ext_iff_of_nodup (h.nodup.filter _) (h'.nodup.filter _)).mpr fun c => ?_
  exact ⟨h.mem_of_eligible h' hsame hheld horder,
    h'.mem_of_eligible h hsame.symm (hsame.sameHeldOver_symm hheld) horder⟩

theorem trailing_eq (h : Figures ambient bars days) (h' : Figures ambient bars' days')
    (hsame : SameBefore T bars bars') (hheld : SameHeldOver T bars bars') (horder : orderAt ≤ T)
    (policy : LiquidityCapacityPolicyV1) :
    trailingLiquidityReference ambient orderAt days policy =
      trailingLiquidityReference ambient orderAt days' policy := by
  have hperm := h.eligibleDays_perm h' hsame hheld horder
  have hsorted : sortBy CompleteLiquidityDayV1.day (eligibleDays orderAt days) =
      sortBy CompleteLiquidityDayV1.day (eligibleDays orderAt days') :=
    sortBy_congr (h.keyTells.filter _) hperm
  simp only [trailingLiquidityReference, hperm.length_eq, hsorted]

theorem length_eligibleDays_lt (h : Figures ambient bars days) (h' : Figures ambient bars' days')
    (hsame : SameBefore T bars bars') (hwhole : WholeBefore T bars)
    (hheld : ∃ bar ∈ bars, HeldOver T bar) (hnone : ¬ ∃ bar ∈ bars', HeldOver T bar) :
    (eligibleDays T days).length < (eligibleDays T days').length := by
  have hwhole' := ((hsame.wholeBefore hwhole).whole_iff h'.canonical).mpr hnone
  obtain ⟨c, hc, hday⟩ := h'.exists_of_whole hwhole'
  have hlost : ∀ c' ∈ days, c'.day ≠ utcDate T - 1 := by
    intro c' hc' hday'
    have hw := (h.whole hc').1
    rw [hday'] at hw
    exact (hwhole.whole_iff h.canonical).mp hw hheld
  have hknown : (utcDate T - 1 + 1) * oneDay < T := by
    have hlast := ((wholeBefore_iff.mp hwhole _).mp (last_mem_grid _)).2.1
    rwa [sub_add_cancel] at hlast
  have hsub : c :: eligibleDays T days ⊆ eligibleDays T days' := by
    intro c' hc'
    simp only [eligibleDays, List.mem_cons, List.mem_filter, decide_eq_true_eq] at hc' ⊢
    rcases hc' with rfl | ⟨hmem, hdate, hclose⟩
    · refine ⟨hc, by omega, ?_⟩
      rw [(h'.whole hc).2, hday]
      exact hknown
    · have hne := hlost c' hmem
      exact ⟨h.mem_of_earlier h' hsame (by omega) hmem, hdate, hclose⟩
  have hnodup : (c :: eligibleDays T days).Nodup := by
    refine List.nodup_cons.mpr ⟨fun hmem => ?_, h.nodup.filter _⟩
    exact hlost c (List.mem_of_mem_filter hmem) hday
  exact (hnodup.subperm hsub).length_le

end Figures

/-! ## Order events -/

/-- The order events up to `T` are the same, whatever the run and the policy. -/
def EventsAgree (ambient : Context) (T : ℤ) (days days' : List CompleteLiquidityDayV1) : Prop :=
  ∀ executedTrades policy events events',
    orderEvents ambient executedTrades days policy = .ok events →
    orderEvents ambient executedTrades days' policy = .ok events' →
    events.filter (fun event => event.orderAt ≤ T) =
      events'.filter (fun event => event.orderAt ≤ T)

section Events

variable {days days' : List CompleteLiquidityDayV1} {policy : LiquidityCapacityPolicyV1}
  {delta : ExposureDelta} {event : LiquidityOrderEventV1}

theorem EventsAgree.symm (h : EventsAgree ambient T days days') :
    EventsAgree ambient T days' days :=
  fun trades policy events events' hevents hevents' =>
    (h trades policy events' events hevents' hevents).symm

theorem orderAt_of_orderEvent (h : orderEvent ambient days policy delta = .ok event) :
    event.orderAt = delta.orderAt := by
  obtain ⟨reference, -, h⟩ := Except.bind_eq_ok.mp h
  rw [← Except.pure_eq_ok.mp h]

theorem filter_events_eq {deltas : List ExposureDelta} {events events' : List LiquidityOrderEventV1}
    (h : deltas.mapM (orderEvent ambient days policy) = .ok events)
    (h' : deltas.mapM (orderEvent ambient days' policy) = .ok events')
    (heq : ∀ delta : ExposureDelta, delta.orderAt ≤ T →
      orderEvent ambient days policy delta = orderEvent ambient days' policy delta) :
    events.filter (fun event => event.orderAt ≤ T) =
      events'.filter (fun event => event.orderAt ≤ T) := by
  induction deltas generalizing events events' with
  | nil =>
      cases h
      cases h'
      rfl
  | cons delta deltas ih =>
      rw [List.mapM_cons] at h h'
      obtain ⟨event, hevent, h⟩ := Except.bind_eq_ok.mp h
      obtain ⟨rest, hrest, h⟩ := Except.bind_eq_ok.mp h
      obtain ⟨event', hevent', h'⟩ := Except.bind_eq_ok.mp h'
      obtain ⟨rest', hrest', h'⟩ := Except.bind_eq_ok.mp h'
      cases Except.pure_eq_ok.mp h
      cases Except.pure_eq_ok.mp h'
      rw [List.filter_cons, List.filter_cons, ih hrest hrest', orderAt_of_orderEvent hevent,
        orderAt_of_orderEvent hevent']
      by_cases hle : delta.orderAt ≤ T
      · have hsame := heq delta hle
        rw [hevent, hevent', Except.ok.injEq] at hsame
        rw [hsame]
      · simp [hle]

theorem Figures.eventsAgree (h : Figures ambient bars days) (h' : Figures ambient bars' days')
    (hsame : SameBefore T bars bars') (hheld : SameHeldOver T bars bars') :
    EventsAgree ambient T days days' := by
  intro executedTrades policy events events' hevents hevents'
  obtain ⟨deltas, hdeltas, hevents⟩ := Except.bind_eq_ok.mp hevents
  obtain ⟨deltas', hdeltas', hevents'⟩ := Except.bind_eq_ok.mp hevents'
  cases hdeltas.symm.trans hdeltas'
  refine filter_events_eq hevents hevents' fun delta hle => ?_
  simp only [orderEvent, h.trailing_eq h' hsame hheld hle policy]

/-! What an order is told depends on the number of days it may use. -/

theorem trailing_insufficient {orderAt : ℤ}
    (h : ((eligibleDays orderAt days).length : ℤ) < policy.minimumCompleteDays) :
    trailingLiquidityReference ambient orderAt days policy =
      .ok (.inr "INSUFFICIENT_PRIOR_COMPLETE_DAYS") := by
  simp only [trailingLiquidityReference, if_pos h]

theorem sliceLast_ne_nil {α : Type} {count : ℤ} {l : List α} (hcount : 1 ≤ count) (hl : l ≠ []) :
    sliceLast count l ≠ [] := by
  have hlength := List.length_pos_iff.mpr hl
  rw [sliceLast, if_pos (by omega), ← List.length_pos_iff, List.length_drop]
  omega

theorem trailing_sufficient (ambient : Context) {orderAt : ℤ}
    (hminimum : 1 ≤ policy.minimumCompleteDays)
    (hlookback : 1 ≤ policy.lookbackCompleteDays)
    (h : policy.minimumCompleteDays ≤ (eligibleDays orderAt days).length) :
    ∃ reference, trailingLiquidityReference ambient orderAt days policy = .ok reference ∧
      reference ≠ .inr "INSUFFICIENT_PRIOR_COMPLETE_DAYS" := by
  have hne : sliceLast policy.lookbackCompleteDays
      (sortBy CompleteLiquidityDayV1.day (eligibleDays orderAt days)) ≠ [] := by
    refine sliceLast_ne_nil hlookback (List.length_pos_iff.mp ?_)
    rw [(sortBy_perm _ _).length_eq]
    omega
  simp only [trailingLiquidityReference, if_neg (not_lt.mpr h)]
  split
  · rename_i hnone
    exact absurd (List.map_eq_nil_iff.mp (minBy_eq_none.mp hnone)) hne
  · split
    · exact ⟨_, rfl, by simp⟩
    · exact ⟨_, rfl, by simp⟩

theorem exists_orderEvents (ambient : Context) (days : List CompleteLiquidityDayV1)
    (deltas : List ExposureDelta) (hminimum : 1 ≤ policy.minimumCompleteDays)
    (hlookback : 1 ≤ policy.lookbackCompleteDays) :
    ∃ events, deltas.mapM (orderEvent ambient days policy) = .ok events := by
  have hevent : ∀ delta, ∃ event, orderEvent ambient days policy delta = .ok event := by
    intro delta
    have hreference : ∃ reference,
        trailingLiquidityReference ambient delta.orderAt days policy = .ok reference := by
      by_cases h : ((eligibleDays delta.orderAt days).length : ℤ) < policy.minimumCompleteDays
      · exact ⟨_, trailing_insufficient h⟩
      · obtain ⟨reference, hok, -⟩ := trailing_sufficient ambient hminimum hlookback
          (not_lt.mp h)
        exact ⟨reference, hok⟩
    obtain ⟨reference, hreference⟩ := hreference
    exact ⟨_, by rw [orderEvent, hreference]; rfl⟩
  choose event hevent using hevent
  exact ⟨deltas.map event, Except.mapM_eq_ok fun delta _ => hevent delta⟩

def tradeAt (T : ℤ) : ExecutedTradeV1 := ⟨.aware T, .aware (T + 1), 1⟩

def policyOf (count : ℕ) : LiquidityCapacityPolicyV1 := ⟨"trailing", count, count, 1, [1]⟩

theorem exposureDeltas_tradeAt (ambient : Context) (T : ℤ) :
    ∃ first second, exposureDeltas ambient [tradeAt T] = .ok [first, second] ∧
      first.orderAt = T ∧ second.orderAt = T + 1 := by
  have hsorted : sortBy Prod.fst [(T, (1 : Decimal)), (T + 1, 0)] = [(T, 1), (T + 1, 0)] := by
    simp [sortBy]
  have hpath : exposureTransitions [tradeAt T] = .ok [(T, 1), (T + 1, 0)] := by
    show (do
      requireDistinctTimes (sortBy Prod.fst [(T, (1 : Decimal)), (T + 1, 0)])
      return sortBy Prod.fst [(T, (1 : Decimal)), (T + 1, 0)] :
        Except Exn (List (ℤ × Decimal))) = _
    rw [hsorted, requireDistinctTimes, if_neg (by simp)]
    rfl
  refine ⟨⟨T, 0, 1, ambient.abs (ambient.sub 1 0)⟩,
    ⟨T + 1, 1, 0, ambient.abs (ambient.sub 0 1)⟩, ?_, rfl, rfl⟩
  rw [exposureDeltas, hpath]
  rfl

theorem not_eventsAgree_of_length_lt
    (h : (eligibleDays T days).length < (eligibleDays T days').length) :
    ¬ EventsAgree ambient T days days' := by
  intro hagree
  obtain ⟨first, second, hdeltas, hfirst, hsecond⟩ := exposureDeltas_tradeAt ambient T
  set policy := policyOf (eligibleDays T days').length
  have hcount : (1 : ℤ) ≤ (eligibleDays T days').length := by omega
  obtain ⟨events, hevents⟩ := exists_orderEvents ambient days [first, second]
    (show 1 ≤ policy.minimumCompleteDays from hcount) hcount
  obtain ⟨events', hevents'⟩ := exists_orderEvents ambient days' [first, second]
    (show 1 ≤ policy.minimumCompleteDays from hcount) hcount
  have heq := hagree [tradeAt T] policy events events'
    (by rw [orderEvents, hdeltas]; exact hevents) (by rw [orderEvents, hdeltas]; exact hevents')
  have hlow : ((eligibleDays first.orderAt days).length : ℤ) < policy.minimumCompleteDays := by
    rw [hfirst]
    exact Int.ofNat_lt.mpr h
  have hhigh : policy.minimumCompleteDays ≤ (eligibleDays first.orderAt days').length := by
    rw [hfirst]
    exact le_rfl
  obtain ⟨reference, hreference, hne⟩ :=
    trailing_sufficient ambient hcount hcount hhigh
  rw [List.mapM_cons, orderEvent, trailing_insufficient hlow] at hevents
  rw [List.mapM_cons, orderEvent, hreference] at hevents'
  obtain ⟨event, hevent, hevents⟩ := Except.bind_eq_ok.mp hevents
  obtain ⟨rest, -, hevents⟩ := Except.bind_eq_ok.mp hevents
  obtain ⟨event', hevent', hevents'⟩ := Except.bind_eq_ok.mp hevents'
  obtain ⟨rest', -, hevents'⟩ := Except.bind_eq_ok.mp hevents'
  cases Except.pure_eq_ok.mp hevents
  cases Except.pure_eq_ok.mp hevents'
  cases hevent
  cases hevent'
  rw [List.filter_cons, List.filter_cons, if_pos (by simp [hfirst]),
    if_pos (by simp [hfirst])] at heq
  have hreason := congrArg LiquidityOrderEventV1.unavailableReason (List.cons.inj heq).1
  cases reference with
  | inl reference => cases hreason
  | inr reason => exact hne (congrArg Sum.inr (Option.some.inj hreason).symm)

/-- What an order up to `T` is told is settled by the bars closed before `T`, except where the
day before closed on the grid and one of the series has a bar of it that was held over. -/
theorem events_agree_iff {excluded excluded' : List ExcludedLiquidityDayV1}
    (h : completeLiquidityDays ambient bars = .ok (days, excluded))
    (h' : completeLiquidityDays ambient bars' = .ok (days', excluded'))
    (hsame : SameBefore T bars bars') :
    EventsAgree ambient T days days' ↔ SameHeldOver T bars bars' := by
  have hfigures := figures_of_completeLiquidityDays h
  have hfigures' := figures_of_completeLiquidityDays h'
  constructor
  · intro hagree hwhole
    constructor
    · intro hheld
      by_contra hnone
      exact not_eventsAgree_of_length_lt
        (hfigures.length_eligibleDays_lt hfigures' hsame hwhole hheld hnone) hagree
    · intro hheld
      by_contra hnone
      exact not_eventsAgree_of_length_lt (hfigures'.length_eligibleDays_lt hfigures hsame.symm
        (hsame.wholeBefore hwhole) hheld hnone) hagree.symm
  · intro hheld
    exact hfigures.eventsAgree hfigures' hsame hheld

/-! ## A bar that is open at midnight -/

def gridBars : List AuthoritativeTradableBarV2 :=
  (expectedMinuteGrid 0).map fun t => minuteBar t 1

def afterMidnight : ℤ := oneDay + 10 * 10 ^ 6

theorem exists_days_gridBars_append {t : ℤ} (ht : t ∉ expectedMinuteGrid 0) :
    ∃ days excluded,
      completeLiquidityDays arithmeticContext (gridBars ++ [minuteBar t 1]) =
        .ok (days, excluded) := by
  refine exists_completeLiquidityDays arithmeticContext ?_ ?_
  · intro bar hbar
    rcases List.mem_append.mp hbar with hbar | hbar
    · obtain ⟨s, -, rfl⟩ := List.mem_map.mp hbar
      exact ⟨s, 1, rfl⟩
    · exact ⟨t, 1, List.mem_singleton.mp hbar⟩
  · have hopens : (gridBars ++ [minuteBar t 1]).map AuthoritativeTradableBarV2.barOpenAt =
        (expectedMinuteGrid 0 ++ [t]).map DateTime.aware := by
      simp [gridBars, minuteBar, Function.comp_def]
    rw [hopens]
    refine List.Nodup.map (fun a b hab => DateTime.aware.inj hab) ?_
    refine List.nodup_append.mpr ⟨nodup_expectedMinuteGrid, List.nodup_singleton _, ?_⟩
    rintro a ha b hb rfl
    exact ht (List.mem_singleton.mp hb ▸ ha)

theorem exists_days_gridBars :
    ∃ days excluded, completeLiquidityDays arithmeticContext gridBars = .ok (days, excluded) := by
  refine exists_completeLiquidityDays arithmeticContext ?_ ?_
  · intro bar hbar
    obtain ⟨s, -, rfl⟩ := List.mem_map.mp hbar
    exact ⟨s, 1, rfl⟩
  · have hopens : gridBars.map AuthoritativeTradableBarV2.barOpenAt =
        (expectedMinuteGrid 0).map DateTime.aware := by
      simp [gridBars, minuteBar, Function.comp_def]
    rw [hopens]
    exact nodup_expectedMinuteGrid.map fun a b hab => DateTime.aware.inj hab

theorem mem_gridBars {t : ℤ} {v : Decimal} :
    minuteBar t v ∈ gridBars ↔ t ∈ expectedMinuteGrid 0 ∧ v = 1 := by
  simp only [gridBars, List.mem_map, minuteBar_injective]
  constructor
  · rintro ⟨s, hs, rfl, rfl⟩
    exact ⟨hs, rfl⟩
  · rintro ⟨ht, rfl⟩
    exact ⟨t, ht, rfl, rfl⟩

theorem sameBefore_gridBars {t : ℤ} (ht : afterMidnight ≤ t + oneMinute) :
    SameBefore afterMidnight gridBars (gridBars ++ [minuteBar t 1]) := by
  intro bar hclosed
  rw [List.mem_append, List.mem_singleton]
  constructor
  · exact .inl
  · rintro (hbar | rfl)
    · exact hbar
    · exact absurd (closedBefore_minuteBar.mp hclosed) (not_lt.mpr ht)

theorem not_heldOver_gridBars : ¬ ∃ bar ∈ gridBars, HeldOver afterMidnight bar := by
  rintro ⟨bar, hbar, hheld⟩
  obtain ⟨t, ht, rfl⟩ := List.mem_map.mp hbar
  have hclose := close_le_of_mem_grid ht
  have hlate := (heldOver_minuteBar.mp hheld).2
  simp only [afterMidnight, oneDay] at hclose hlate
  omega

theorem wholeBefore_gridBars : WholeBefore afterMidnight gridBars := by
  refine wholeBefore_iff.mpr fun t => ?_
  have hdate : utcDate afterMidnight - 1 = 0 := by decide
  rw [hdate]
  constructor
  · intro ht
    have hclose := close_le_of_mem_grid ht
    refine ⟨utcDate_of_mem_grid ht, ?_, 1, mem_gridBars.mpr ⟨ht, rfl⟩⟩
    simp only [afterMidnight, oneDay] at hclose ⊢
    omega
  · rintro ⟨-, -, v, hbar⟩
    exact (mem_gridBars.mp hbar).1

/-- A whole day, and a bar of the next one: the order at ten seconds past may use the day in
both series. -/
theorem events_agree_iff_next_day :
    ∃ days days' excluded excluded',
      completeLiquidityDays arithmeticContext gridBars = .ok (days, excluded) ∧
      completeLiquidityDays arithmeticContext (gridBars ++ [minuteBar oneDay 1]) =
        .ok (days', excluded') ∧
      EventsAgree arithmeticContext afterMidnight days days' := by
  obtain ⟨days, excluded, h⟩ := exists_days_gridBars
  obtain ⟨days', excluded', h'⟩ := exists_days_gridBars_append (t := oneDay) (by
    intro hmem
    exact absurd (utcDate_of_mem_grid hmem) (by decide))
  refine ⟨days, days', excluded, excluded', h, h',
    (events_agree_iff h h' (sameBefore_gridBars (by decide))).mpr fun _ => ?_⟩
  refine iff_of_false not_heldOver_gridBars ?_
  rintro ⟨bar, hbar, hheld⟩
  rcases List.mem_append.mp hbar with hbar | hbar
  · exact not_heldOver_gridBars ⟨bar, hbar, hheld⟩
  · rw [List.mem_singleton.mp hbar, heldOver_minuteBar] at hheld
    exact absurd hheld.1 (by decide)

/-- A bar that opens half a minute before midnight is open at ten seconds past, and takes the
day away from the order of that instant. -/
theorem open_bar_changes_earlier_order :
    ∃ days days' excluded excluded',
      completeLiquidityDays arithmeticContext gridBars = .ok (days, excluded) ∧
      completeLiquidityDays arithmeticContext (gridBars ++ [minuteBar (oneDay - 30 * 10 ^ 6) 1]) =
        .ok (days', excluded') ∧
      SameBefore afterMidnight gridBars (gridBars ++ [minuteBar (oneDay - 30 * 10 ^ 6) 1]) ∧
      ¬ EventsAgree arithmeticContext afterMidnight days days' := by
  obtain ⟨days, excluded, h⟩ := exists_days_gridBars
  obtain ⟨days', excluded', h'⟩ := exists_days_gridBars_append (t := oneDay - 30 * 10 ^ 6) (by
    intro hmem
    obtain ⟨i, -, hi⟩ := mem_expectedMinuteGrid.mp hmem
    simp only [oneDay, oneMinute] at hi
    omega)
  have hsame : SameBefore afterMidnight gridBars
      (gridBars ++ [minuteBar (oneDay - 30 * 10 ^ 6) 1]) := sameBefore_gridBars (by decide)
  refine ⟨days, days', excluded, excluded', h, h', hsame, fun hagree => ?_⟩
  have hheld : HeldOver afterMidnight (minuteBar (oneDay - 30 * 10 ^ 6) 1) :=
    heldOver_minuteBar.mpr (by decide)
  have hlt := (figures_of_completeLiquidityDays h').length_eligibleDays_lt
    (figures_of_completeLiquidityDays h) hsame.symm (hsame.wholeBefore wholeBefore_gridBars)
    ⟨_, List.mem_append_right _ List.mem_cons_self, hheld⟩ not_heldOver_gridBars
  exact not_eventsAgree_of_length_lt hlt hagree.symm

end Events

end Bars

end TradePlatform.LiquidityCapacity
