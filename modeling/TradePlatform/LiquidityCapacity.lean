/-
# `TradePlatform.LiquidityCapacity` — the liquidity an order could have known

`crypto_liquidity_capacity_v1.py`: one-minute bars are grouped into UTC days, a day that
holds its whole minute grid and nothing else has a quote turnover, and an order is measured
against the days that were complete before it.  The exposure transitions of a run are its
orders.

A day is complete when the bars that opened on it are its minute grid (`Whole`), and its
figure is known at its midnight; `Figures` says so of the days of an accepted series.
-/
import TradePlatform.Domain
import TradePlatform.Lib.Dict
import TradePlatform.Lib.IsoText
import TradePlatform.Lib.Replay
import TradePlatform.Lib.SortBy

namespace TradePlatform.LiquidityCapacity

open IsoText.Stamp (utcText)
open Decimal (Context)

def refuse {α : Type} (message : String) : Except Exn α :=
  .error (.cryptoLiquidityCapacityError message)

def oneMinute : ℤ := 60 * 10 ^ 6

def oneDay : ℤ := 86400 * 10 ^ 6

def completeUtcDayBarCount : ℕ := 1440

def arithmeticContext : Context := ⟨Decimal.roundSig 34⟩

/-- `_require_aware`, with the instant of `astimezone(UTC)`. -/
def requireAware (value : DateTime) (fieldName : String) : Except Exn ℤ :=
  match value with
  | .aware instant => .ok instant
  | .naive _ => refuse (fieldName ++ "_must_be_timezone_aware")

/-! ## Liquidity days -/

structure AuthoritativeTradableBarV2 where
  barOpenAt : DateTime
  barCloseAt : DateTime
  turnover : Option Decimal
deriving DecidableEq

structure CompleteLiquidityDayV1 where
  day : ℤ
  barCount : ℕ
  quoteTurnover : Decimal
  lastBarCloseAt : ℤ
deriving DecidableEq

structure ExcludedLiquidityDayV1 where
  day : ℤ
  observedBarCount : ℕ
  reason : String
deriving DecidableEq

abbrev Minutes := Dict ℤ (Decimal × ℤ)

def expectedMinuteGrid (day : ℤ) : List ℤ :=
  (List.range completeUtcDayBarCount).map fun (i : ℕ) => day * oneDay + i * oneMinute

def placeBar (byDay : Dict ℤ Minutes) (bar : AuthoritativeTradableBarV2) :
    Except Exn (Dict ℤ Minutes) := do
  let openedAt ← requireAware bar.barOpenAt "bar_open_at"
  let closedAt ← requireAware bar.barCloseAt "bar_close_at"
  if closedAt ≠ openedAt + oneMinute then
    refuse ("non_canonical_1m_bar_close:" ++ utcText openedAt ++ ":" ++ utcText closedAt)
  else
    match bar.turnover with
    | none => refuse "liquidity_day_requires_canonical_turnover"
    | some turnover =>
        let minutes := byDay.getD (utcDate openedAt) .empty
        if (minutes.get? openedAt).isSome then
          refuse ("duplicate_bar_open_for_liquidity_day:" ++ utcText openedAt)
        else
          return byDay.set (utcDate openedAt) (minutes.set openedAt (turnover, closedAt))

def totalTurnover (ambient : Context) (turnovers : List Decimal) : Decimal :=
  turnovers.foldl ambient.add 0

def lastClose (closes : List ℤ) : Option ℤ :=
  closes.foldl (fun last closedAt => some (last.elim closedAt (max · closedAt))) none

def judgeDay (ambient : Context) (day : ℤ) (minutes : Minutes) :
    Except Exn (CompleteLiquidityDayV1 ⊕ ExcludedLiquidityDayV1) :=
  if minutes.rows.length ≠ completeUtcDayBarCount ∨
      (minutes.rows.map Prod.fst).toFinset ≠ (expectedMinuteGrid day).toFinset then
    .ok (.inr ⟨day, minutes.rows.length, "INCOMPLETE_UTC_MINUTE_GRID"⟩)
  else
    let rows := sortBy Prod.fst minutes.rows
    match lastClose (rows.map fun row => row.2.2) with
    | none => refuse "complete_liquidity_day_without_bars"
    | some lastCloseAt =>
        .ok (.inl ⟨day, minutes.rows.length, totalTurnover ambient (rows.map fun row => row.2.1),
          lastCloseAt⟩)

def completeLiquidityDays (ambient : Context) (bars : List AuthoritativeTradableBarV2) :
    Except Exn (List CompleteLiquidityDayV1 × List ExcludedLiquidityDayV1) := do
  let byDay ← Replay.replay placeBar .empty bars
  let judged ← (sortBy Prod.fst byDay.rows).mapM fun row => judgeDay ambient row.1 row.2
  return (judged.filterMap Sum.getLeft?, judged.filterMap Sum.getRight?)

/-! ## The trailing reference -/

structure LiquidityCapacityPolicyV1 where
  policyVersion : String
  lookbackCompleteDays : ℤ
  minimumCompleteDays : ℤ
  maximumParticipation : Decimal
  reducedLiquidityMultipliers : List Decimal
deriving DecidableEq

def validateMultipliers : Option Decimal → List Decimal → Except Exn Unit
  | _, [] => .ok ()
  | previous, multiplier :: multipliers =>
      if ¬ (0 < multiplier ∧ multiplier ≤ 1) then
        refuse "reduced_liquidity_multiplier_out_of_bounds"
      else if previous.any fun previous => decide (multiplier ≤ previous) then
        refuse "reduced_liquidity_multipliers_must_ascend_uniquely"
      else validateMultipliers (some multiplier) multipliers

def LiquidityCapacityPolicyV1.validate (policy : LiquidityCapacityPolicyV1) : Except Exn Unit :=
  if blank policy.policyVersion then refuse "capacity_policy_version_required"
  else if policy.lookbackCompleteDays < 1 then refuse "lookback_complete_days_must_be_positive"
  else if policy.minimumCompleteDays < 1 then refuse "minimum_complete_days_must_be_positive"
  else if policy.lookbackCompleteDays < policy.minimumCompleteDays then
    refuse "minimum_complete_days_exceeds_lookback"
  else if ¬ (0 < policy.maximumParticipation ∧ policy.maximumParticipation ≤ 1) then
    refuse "maximum_participation_out_of_bounds"
  else if policy.reducedLiquidityMultipliers = [] then
    refuse "reduced_liquidity_multipliers_required"
  else validateMultipliers none policy.reducedLiquidityMultipliers

structure TrailingLiquidityReferenceV1 where
  orderAt : ℤ
  daysUsed : List ℤ
  dailyQuoteTurnovers : List Decimal
  averageDailyQuoteTurnover : Decimal
  minimumDailyQuoteTurnover : Decimal
  lookbackCompleteDays : ℤ
deriving DecidableEq

def sliceLast {α : Type} (count : ℤ) (l : List α) : List α :=
  if 0 < count then l.drop (l.length - count.toNat) else l.drop (-count).toNat

def eligibleDays (orderAt : ℤ) (days : List CompleteLiquidityDayV1) :
    List CompleteLiquidityDayV1 :=
  days.filter fun day => decide (day.day < utcDate orderAt ∧ day.lastBarCloseAt < orderAt)

/-- `trailing_liquidity_reference`, of an order time that is in UTC already. -/
def trailingLiquidityReference (ambient : Context) (orderAt : ℤ)
    (days : List CompleteLiquidityDayV1) (policy : LiquidityCapacityPolicyV1) :
    Except Exn (TrailingLiquidityReferenceV1 ⊕ String) :=
  let eligible := eligibleDays orderAt days
  if (eligible.length : ℤ) < policy.minimumCompleteDays then
    .ok (.inr "INSUFFICIENT_PRIOR_COMPLETE_DAYS")
  else
    let window := sliceLast policy.lookbackCompleteDays
      (sortBy CompleteLiquidityDayV1.day eligible)
    let turnovers := window.map CompleteLiquidityDayV1.quoteTurnover
    match minBy id turnovers with
    | none => .error .arithmeticError
    | some least =>
        let average := arithmeticContext.div (totalTurnover ambient turnovers) turnovers.length
        if average ≤ 0 then .ok (.inr "NON_POSITIVE_TRAILING_LIQUIDITY")
        else
          .ok (.inl ⟨orderAt, window.map CompleteLiquidityDayV1.day, turnovers, average, least,
            policy.lookbackCompleteDays⟩)

/-! ## Order events -/

structure ExecutedTradeV1 where
  entryTime : DateTime
  exitTime : DateTime
  exposure : Decimal
deriving DecidableEq

structure ExposureDelta where
  orderAt : ℤ
  previousExposure : Decimal
  targetExposure : Decimal
  delta : Decimal
deriving DecidableEq

structure LiquidityOrderEventV1 where
  orderAt : ℤ
  previousExposure : Decimal
  targetExposure : Decimal
  exposureDelta : Decimal
  trailingLiquidity : Option TrailingLiquidityReferenceV1
  unavailableReason : Option String
deriving DecidableEq

def tradeTransitions (trade : ExecutedTradeV1) : Except Exn (List (ℤ × Decimal)) := do
  let entry ← requireAware trade.entryTime "trade_entry_time"
  let exit ← requireAware trade.exitTime "trade_exit_time"
  return [(entry, trade.exposure), (exit, 0)]

def requireDistinctTimes : List (ℤ × Decimal) → Except Exn Unit
  | previous :: current :: transitions =>
      if previous.1 = current.1 then
        refuse ("ambiguous_exposure_transition_timestamp:" ++ utcText current.1)
      else requireDistinctTimes (current :: transitions)
  | _ => .ok ()

def exposureTransitions (executedTrades : List ExecutedTradeV1) :
    Except Exn (List (ℤ × Decimal)) := do
  let transitions ← executedTrades.mapM tradeTransitions
  let sorted := sortBy Prod.fst transitions.flatten
  requireDistinctTimes sorted
  return sorted

def deltasFrom (ambient : Context) (previousExposure : Decimal) :
    List (ℤ × Decimal) → List ExposureDelta
  | [] => []
  | (orderAt, target) :: transitions =>
      ⟨orderAt, previousExposure, target, ambient.abs (ambient.sub target previousExposure)⟩ ::
        deltasFrom ambient target transitions

def exposureDeltas (ambient : Context) (executedTrades : List ExecutedTradeV1) :
    Except Exn (List ExposureDelta) := do
  return deltasFrom ambient 0 (← exposureTransitions executedTrades)

def orderEvent (ambient : Context) (days : List CompleteLiquidityDayV1)
    (policy : LiquidityCapacityPolicyV1) (delta : ExposureDelta) :
    Except Exn LiquidityOrderEventV1 := do
  let reference ← trailingLiquidityReference ambient delta.orderAt days policy
  return ⟨delta.orderAt, delta.previousExposure, delta.targetExposure, delta.delta,
    reference.getLeft?, reference.getRight?⟩

def orderEvents (ambient : Context) (executedTrades : List ExecutedTradeV1)
    (days : List CompleteLiquidityDayV1) (policy : LiquidityCapacityPolicyV1) :
    Except Exn (List LiquidityOrderEventV1) := do
  (← exposureDeltas ambient executedTrades).mapM (orderEvent ambient days policy)

/-! ## What the loop over the bars leaves -/

def minuteBar (openedAt : ℤ) (turnover : Decimal) : AuthoritativeTradableBarV2 :=
  ⟨.aware openedAt, .aware (openedAt + oneMinute), some turnover⟩

section Bars

variable {ambient : Context} {bars more : List AuthoritativeTradableBarV2}
  {bar : AuthoritativeTradableBarV2} {byDay next : Dict ℤ Minutes} {day : ℤ} {minutes : Minutes}

theorem requireAware_eq_ok {value : DateTime} {fieldName : String} {instant : ℤ} :
    requireAware value fieldName = .ok instant ↔ value = .aware instant := by
  cases value with
  | aware t => simp [requireAware]
  | naive w => simp [requireAware, refuse]

theorem placeBar_eq_ok :
    placeBar byDay bar = .ok next ↔
      ∃ t v, bar = minuteBar t v ∧ (byDay.getD (utcDate t) .empty).get? t = none ∧
        next = byDay.set (utcDate t)
          ((byDay.getD (utcDate t) .empty).set t (v, t + oneMinute)) := by
  obtain ⟨openAt, closeAt, turnover⟩ := bar
  simp only [placeBar, Except.bind_eq_ok, requireAware_eq_ok, minuteBar,
    AuthoritativeTradableBarV2.mk.injEq]
  constructor
  · rintro ⟨t, rfl, c, rfl, h⟩
    split at h
    · cases h
    · rename_i hclose
      have hc : c = t + oneMinute := not_not.mp hclose
      cases turnover with
      | none => cases h
      | some v =>
          dsimp only at h
          split at h
          · cases h
          · rename_i hfresh
            refine ⟨t, v, ⟨rfl, by rw [hc], rfl⟩, by simpa using hfresh, ?_⟩
            rw [← hc]
            exact (Except.pure_eq_ok.mp h).symm
  · rintro ⟨t, v, ⟨rfl, rfl, rfl⟩, hfresh, rfl⟩
    refine ⟨t, rfl, t + oneMinute, rfl, ?_⟩
    rw [if_neg (by simp)]
    dsimp only
    rw [if_neg (by simp [hfresh])]
    rfl

structure Groups (bars : List AuthoritativeTradableBarV2) (byDay : Dict ℤ Minutes) : Prop where
  canonical : ∀ bar ∈ bars, ∃ t v, bar = minuteBar t v
  minute : ∀ day t x, (byDay.getD day .empty).get? t = some x ↔
    utcDate t = day ∧ x.2 = t + oneMinute ∧ minuteBar t x.1 ∈ bars

theorem minuteBar_injective {t t' : ℤ} {v v' : Decimal} :
    minuteBar t v = minuteBar t' v' ↔ t = t' ∧ v = v' := by
  simp only [minuteBar, AuthoritativeTradableBarV2.mk.injEq, DateTime.aware.injEq,
    Option.some.injEq]
  constructor
  · rintro ⟨ht, -, hv⟩
    exact ⟨ht, hv⟩
  · rintro ⟨rfl, rfl⟩
    exact ⟨rfl, rfl, rfl⟩

theorem groups_nil : Groups [] .empty where
  canonical := by
    intro bar hbar
    cases hbar
  minute := by
    intro day t x
    simp [Dict.getD]

theorem Groups.place (hgroups : Groups bars byDay) (h : placeBar byDay bar = .ok next) :
    Groups (bars ++ [bar]) next := by
  obtain ⟨s, v, rfl, hfresh, rfl⟩ := placeBar_eq_ok.mp h
  refine ⟨?_, ?_⟩
  · intro b hb
    rcases List.mem_append.mp hb with hb | hb
    · exact hgroups.canonical b hb
    · exact ⟨s, v, List.mem_singleton.mp hb⟩
  · intro day t x
    rw [List.mem_append, List.mem_singleton, minuteBar_injective]
    by_cases hday : utcDate s = day
    · subst hday
      rw [Dict.getD, Dict.get?_set_self, Option.getD_some, Dict.get?_set]
      by_cases ht : s = t
      · subst ht
        have hnone : ∀ w, minuteBar s w ∉ bars := by
          intro w hw
          have := (hgroups.minute (utcDate s) s (w, s + oneMinute)).mpr ⟨rfl, rfl, hw⟩
          rw [hfresh] at this
          cases this
        rw [if_pos rfl, Option.some_inj]
        constructor
        · rintro rfl
          exact ⟨rfl, rfl, .inr ⟨rfl, rfl⟩⟩
        · rintro ⟨-, hx, hbar | ⟨-, hv⟩⟩
          · exact absurd hbar (hnone _)
          · exact Prod.ext hv.symm hx.symm
      · rw [if_neg ht, hgroups.minute]
        have hne : ¬ (t = s ∧ x.1 = v) := fun h => ht h.1.symm
        simp only [hne, or_false]
    · rw [Dict.getD, Dict.get?_set_of_ne hday, ← Dict.getD, hgroups.minute]
      constructor
      · rintro ⟨hdate, hx, hbar⟩
        exact ⟨hdate, hx, .inl hbar⟩
      · rintro ⟨hdate, hx, hbar | ⟨rfl, -⟩⟩
        · exact ⟨hdate, hx, hbar⟩
        · exact absurd hdate hday

theorem Groups.replay (hgroups : Groups bars byDay)
    (h : Replay.replay placeBar byDay more = .ok next) : Groups (bars ++ more) next := by
  induction more generalizing bars byDay with
  | nil =>
      cases h
      rw [List.append_nil]
      exact hgroups
  | cons bar more ih =>
      obtain ⟨mid, hbar, h⟩ := Except.bind_eq_ok.mp h
      have hall := ih (hgroups.place hbar) h
      rwa [List.append_assoc, List.singleton_append] at hall

/-! ## A day of them -/

/-- The bars that opened on `day` are those of its minute grid. -/
def Whole (bars : List AuthoritativeTradableBarV2) (day : ℤ) : Prop :=
  ∀ t, t ∈ expectedMinuteGrid day ↔ utcDate t = day ∧ ∃ v, minuteBar t v ∈ bars

theorem mem_expectedMinuteGrid {t : ℤ} :
    t ∈ expectedMinuteGrid day ↔
      ∃ i < completeUtcDayBarCount, day * oneDay + i * oneMinute = t := by
  simp only [expectedMinuteGrid, List.mem_map, List.mem_range]

theorem nodup_expectedMinuteGrid : (expectedMinuteGrid day).Nodup := by
  refine List.Nodup.map ?_ List.nodup_range
  intro i j hij
  simp only [oneMinute] at hij
  omega

theorem length_expectedMinuteGrid : (expectedMinuteGrid day).length = completeUtcDayBarCount := by
  rw [expectedMinuteGrid, List.length_map, List.length_range]

theorem close_le_of_mem_grid {t : ℤ} (h : t ∈ expectedMinuteGrid day) :
    t + oneMinute ≤ (day + 1) * oneDay := by
  obtain ⟨i, hi, rfl⟩ := mem_expectedMinuteGrid.mp h
  simp only [completeUtcDayBarCount] at hi
  simp only [oneMinute, oneDay]
  omega

theorem utcDate_of_mem_grid {t : ℤ} (h : t ∈ expectedMinuteGrid day) : utcDate t = day := by
  obtain ⟨i, hi, rfl⟩ := mem_expectedMinuteGrid.mp h
  simp only [completeUtcDayBarCount] at hi
  simp only [utcDate, oneMinute, oneDay]
  omega

theorem last_mem_grid (day : ℤ) : (day + 1) * oneDay - oneMinute ∈ expectedMinuteGrid day := by
  refine mem_expectedMinuteGrid.mpr ⟨1439, by decide, ?_⟩
  simp only [oneMinute, oneDay]
  omega

theorem lastClose_snoc (closes : List ℤ) (closedAt : ℤ) :
    lastClose (closes ++ [closedAt]) =
      some ((lastClose closes).elim closedAt (max · closedAt)) := by
  simp [lastClose]

theorem lastClose_spec {closes : List ℤ} (hne : closes ≠ []) :
    ∃ last ∈ closes, lastClose closes = some last ∧ ∀ closedAt ∈ closes, closedAt ≤ last := by
  induction closes using List.reverseRecOn with
  | nil => exact absurd rfl hne
  | append_singleton closes closedAt ih =>
      rw [lastClose_snoc]
      rcases List.eq_nil_or_concat closes with rfl | ⟨_, _, hcons⟩
      · exact ⟨closedAt, by simp, rfl, by simp⟩
      · obtain ⟨last, hmem, hlast, hle⟩ := ih (by simp [hcons])
        refine ⟨max last closedAt, ?_, by rw [hlast]; rfl, ?_⟩
        · rcases max_choice last closedAt with h | h
          · rw [h]
            exact List.mem_append_left _ hmem
          · rw [h]
            simp
        · intro c hc
          rcases List.mem_append.mp hc with hc | hc
          · exact (hle c hc).trans (le_max_left _ _)
          · rw [List.mem_singleton.mp hc]
            exact le_max_right _ _

theorem mem_opens {t : ℤ} :
    t ∈ (minutes.rows.map Prod.fst).toFinset ↔ (minutes.get? t).isSome := by
  rw [List.mem_toFinset, List.mem_map, Option.isSome_iff_exists]
  constructor
  · rintro ⟨⟨t', x⟩, hrow, rfl⟩
    exact ⟨x, Dict.mem_rows.mp hrow⟩
  · rintro ⟨x, hx⟩
    exact ⟨(t, x), Dict.mem_rows.mpr hx, rfl⟩

theorem opens_eq_iff :
    (minutes.rows.map Prod.fst).toFinset = (expectedMinuteGrid day).toFinset ↔
      ∀ t, t ∈ expectedMinuteGrid day ↔ (minutes.get? t).isSome := by
  rw [Finset.ext_iff]
  refine forall_congr' fun t => ?_
  rw [mem_opens, List.mem_toFinset]
  exact Iff.comm

theorem judgeDay_of_grid (ambient : Context)
    (hgrid : ∀ t, t ∈ expectedMinuteGrid day ↔ (minutes.get? t).isSome)
    (hclose : ∀ t x, minutes.get? t = some x → x.2 = t + oneMinute) :
    ∃ total, judgeDay ambient day minutes =
      .ok (.inl ⟨day, minutes.rows.length, total, (day + 1) * oneDay⟩) := by
  have hopens := opens_eq_iff.mpr hgrid
  have hlength : minutes.rows.length = completeUtcDayBarCount := by
    have hcard := congrArg Finset.card hopens
    rw [List.toFinset_card_of_nodup minutes.nodup,
      List.toFinset_card_of_nodup nodup_expectedMinuteGrid, length_expectedMinuteGrid,
      List.length_map] at hcard
    exact hcard
  have hrows : ∀ row ∈ sortBy Prod.fst minutes.rows,
      row.1 ∈ expectedMinuteGrid day ∧ row.2.2 = row.1 + oneMinute := by
    intro row hrow
    have hget : minutes.get? row.1 = some row.2 := Dict.mem_rows.mp (mem_sortBy.mp hrow)
    exact ⟨(hgrid row.1).mpr (by rw [hget]; rfl), hclose _ _ hget⟩
  obtain ⟨x, hx⟩ := Option.isSome_iff_exists.mp ((hgrid _).mp (last_mem_grid day))
  have hlastRow : ((day + 1) * oneDay - oneMinute, x) ∈ sortBy Prod.fst minutes.rows :=
    mem_sortBy.mpr (Dict.mem_rows.mpr hx)
  have hlastClose : x.2 ∈ (sortBy Prod.fst minutes.rows).map fun row => row.2.2 :=
    List.mem_map.mpr ⟨_, hlastRow, rfl⟩
  obtain ⟨last, hmem, hlast, hle⟩ := lastClose_spec (List.ne_nil_of_mem hlastClose)
  have hupper : last ≤ (day + 1) * oneDay := by
    obtain ⟨row, hrow, rfl⟩ := List.mem_map.mp hmem
    rw [(hrows row hrow).2]
    exact close_le_of_mem_grid (hrows row hrow).1
  have hlower : (day + 1) * oneDay ≤ last := by
    have h := hle _ hlastClose
    have hclosed := (hrows _ hlastRow).2
    dsimp only at hclosed
    omega
  unfold judgeDay
  rw [if_neg (not_or.mpr ⟨not_not.mpr hlength, not_not.mpr hopens⟩)]
  simp only [hlast, le_antisymm hupper hlower]
  exact ⟨_, rfl⟩

theorem judgeDay_of_not_grid (ambient : Context)
    (hgrid : ¬ ∀ t, t ∈ expectedMinuteGrid day ↔ (minutes.get? t).isSome) :
    ∃ excluded, judgeDay ambient day minutes = .ok (.inr excluded) := by
  unfold judgeDay
  rw [if_pos (.inr fun hopens => hgrid (opens_eq_iff.mp hopens))]
  exact ⟨_, rfl⟩

theorem judgeDay_congr {minutes' : Minutes} (ambient : Context) (day : ℤ)
    (h : ∀ t, minutes.get? t = minutes'.get? t) :
    judgeDay ambient day minutes = judgeDay ambient day minutes' := by
  have hrows : minutes.rows.Perm minutes'.rows := by
    refine (List.perm_ext_iff_of_nodup (minutes.nodup.of_map _) (minutes'.nodup.of_map _)).mpr ?_
    rintro ⟨t, x⟩
    rw [Dict.mem_rows, Dict.mem_rows, h]
  have hkey : KeyTells Prod.fst minutes.rows := by
    intro a ha b hb hab
    exact List.inj_on_of_nodup_map minutes.nodup ha hb hab
  have hopens : (minutes.rows.map Prod.fst).toFinset = (minutes'.rows.map Prod.fst).toFinset :=
    List.toFinset_eq_of_perm _ _ (hrows.map _)
  unfold judgeDay
  rw [hrows.length_eq, hopens, sortBy_congr hkey hrows]

def figureOf (ambient : Context) (row : ℤ × Minutes) : Option CompleteLiquidityDayV1 :=
  (judgeDay ambient row.1 row.2).toOption.bind Sum.getLeft?

theorem figureOf_eq_some {row : ℤ × Minutes} {figure : CompleteLiquidityDayV1} :
    figureOf ambient row = some figure ↔ judgeDay ambient row.1 row.2 = .ok (.inl figure) := by
  rw [figureOf, Option.bind_eq_some_iff]
  constructor
  · rintro ⟨judged, hok, hleft⟩
    rw [Except.toOption_eq_some.mp hok, Sum.getLeft?_eq_some_iff.mp hleft]
  · intro h
    exact ⟨.inl figure, Except.toOption_eq_some.mpr h, rfl⟩

theorem filterMap_judged {rows : List (ℤ × Minutes)}
    {judged : List (CompleteLiquidityDayV1 ⊕ ExcludedLiquidityDayV1)}
    (h : List.Forall₂ (fun row result => judgeDay ambient row.1 row.2 = .ok result) rows judged) :
    judged.filterMap Sum.getLeft? = rows.filterMap (figureOf ambient) := by
  induction h with
  | nil => rfl
  | cons hrow _ ih =>
      rw [List.filterMap_cons, List.filterMap_cons, ih, figureOf, hrow]
      rfl

theorem day_of_judgeDay {figure : CompleteLiquidityDayV1}
    (h : judgeDay ambient day minutes = .ok (.inl figure)) : figure.day = day := by
  unfold judgeDay at h
  split at h
  · cases h
  · dsimp only at h
    split at h
    · cases h
    · cases h
      rfl

/-- The days of a series with their bars: a figure is the judgement of its own day, and the
days are told apart. -/
structure Figures (ambient : Context) (bars : List AuthoritativeTradableBarV2)
    (days : List CompleteLiquidityDayV1) : Prop where
  figure : ∃ byDay, Groups bars byDay ∧ ∀ c,
    c ∈ days ↔ judgeDay ambient c.day (byDay.getD c.day .empty) = .ok (.inl c)
  distinct : days.Pairwise fun c c' => c.day ≠ c'.day

theorem figures_of_completeLiquidityDays {days : List CompleteLiquidityDayV1}
    {excluded : List ExcludedLiquidityDayV1}
    (h : completeLiquidityDays ambient bars = .ok (days, excluded)) :
    Figures ambient bars days := by
  obtain ⟨byDay, hplaced, h⟩ := Except.bind_eq_ok.mp h
  obtain ⟨judged, hjudged, h⟩ := Except.bind_eq_ok.mp h
  obtain ⟨rfl, -⟩ := Prod.mk.inj (Except.pure_eq_ok.mp h)
  rw [filterMap_judged (Except.forall₂_of_mapM hjudged)]
  refine ⟨⟨byDay, by simpa using groups_nil.replay hplaced, fun c => ?_⟩, ?_⟩
  · rw [List.mem_filterMap]
    constructor
    · rintro ⟨⟨day, minutes⟩, hrow, hfigure⟩
      have hjudge := figureOf_eq_some.mp hfigure
      have hget : byDay.get? day = some minutes := Dict.mem_rows.mp (mem_sortBy.mp hrow)
      rw [day_of_judgeDay hjudge, Dict.getD, hget]
      exact hjudge
    · intro hjudge
      cases hget : byDay.get? c.day with
      | none =>
          rw [Dict.getD, hget, Option.getD_none] at hjudge
          have hempty : ¬ ∀ t, t ∈ expectedMinuteGrid c.day ↔
              ((Dict.empty : Minutes).get? t).isSome := by
            intro hall
            exact absurd ((hall _).mp (last_mem_grid c.day)) (by simp)
          obtain ⟨excluded, hexcluded⟩ := judgeDay_of_not_grid ambient hempty
          rw [hexcluded] at hjudge
          cases hjudge
      | some minutes =>
          rw [Dict.getD, hget, Option.getD_some] at hjudge
          exact ⟨(c.day, minutes), mem_sortBy.mpr (Dict.mem_rows.mpr hget),
            figureOf_eq_some.mpr hjudge⟩
  · have hrows : (sortBy Prod.fst byDay.rows).Pairwise fun row row' => row.1 ≠ row'.1 :=
      List.pairwise_map.mp (((sortBy_perm Prod.fst byDay.rows).map Prod.fst).nodup_iff.mpr
        byDay.nodup)
    refine hrows.filterMap _ ?_
    intro row row' hne c hc c' hc'
    rw [day_of_judgeDay (figureOf_eq_some.mp hc), day_of_judgeDay (figureOf_eq_some.mp hc')]
    exact hne

namespace Figures

variable {days days' : List CompleteLiquidityDayV1} {bars' : List AuthoritativeTradableBarV2}
  {c : CompleteLiquidityDayV1}

theorem keyTells (h : Figures ambient bars days) : KeyTells CompleteLiquidityDayV1.day days := by
  obtain ⟨byDay, -, hfigure⟩ := h.figure
  intro c hc c' hc' hday
  have hjudge := (hfigure c).mp hc
  rw [hday, (hfigure c').mp hc'] at hjudge
  cases hjudge
  rfl

theorem nodup (h : Figures ambient bars days) : days.Nodup :=
  h.distinct.imp fun hne heq => hne (congrArg CompleteLiquidityDayV1.day heq)

theorem whole (h : Figures ambient bars days) (hc : c ∈ days) :
    Whole bars c.day ∧ c.lastBarCloseAt = (c.day + 1) * oneDay := by
  obtain ⟨byDay, hgroups, hfigure⟩ := h.figure
  have hjudge := (hfigure c).mp hc
  by_cases hgrid : ∀ t, t ∈ expectedMinuteGrid c.day ↔
      ((byDay.getD c.day .empty).get? t).isSome
  · obtain ⟨total, htotal⟩ := judgeDay_of_grid ambient hgrid
      fun t x hx => ((hgroups.minute _ _ _).mp hx).2.1
    rw [htotal] at hjudge
    have hc := congrArg CompleteLiquidityDayV1.lastBarCloseAt (Sum.inl.inj (Except.ok.inj hjudge))
    refine ⟨fun t => (hgrid t).trans ?_, hc.symm⟩
    rw [Option.isSome_iff_exists]
    constructor
    · rintro ⟨x, hx⟩
      obtain ⟨hdate, -, hbar⟩ := (hgroups.minute _ _ _).mp hx
      exact ⟨hdate, x.1, hbar⟩
    · rintro ⟨hdate, v, hbar⟩
      exact ⟨(v, t + oneMinute), (hgroups.minute _ _ _).mpr ⟨hdate, rfl, hbar⟩⟩
  · obtain ⟨excluded, hexcluded⟩ := judgeDay_of_not_grid ambient hgrid
    rw [hexcluded] at hjudge
    cases hjudge

theorem exists_of_whole (h : Figures ambient bars days) {day : ℤ} (hwhole : Whole bars day) :
    ∃ c ∈ days, c.day = day := by
  obtain ⟨byDay, hgroups, hfigure⟩ := h.figure
  have hgrid : ∀ t, t ∈ expectedMinuteGrid day ↔ ((byDay.getD day .empty).get? t).isSome := by
    intro t
    rw [hwhole t, Option.isSome_iff_exists]
    constructor
    · rintro ⟨hdate, v, hbar⟩
      exact ⟨(v, t + oneMinute), (hgroups.minute _ _ _).mpr ⟨hdate, rfl, hbar⟩⟩
    · rintro ⟨x, hx⟩
      obtain ⟨hdate, -, hbar⟩ := (hgroups.minute _ _ _).mp hx
      exact ⟨hdate, x.1, hbar⟩
  obtain ⟨total, htotal⟩ := judgeDay_of_grid ambient hgrid
    fun t x hx => ((hgroups.minute _ _ _).mp hx).2.1
  exact ⟨⟨day, (byDay.getD day .empty).rows.length, total, (day + 1) * oneDay⟩,
    (hfigure _).mpr htotal, rfl⟩

theorem mem_of_same (h : Figures ambient bars days) (h' : Figures ambient bars' days')
    (hsame : ∀ t v, utcDate t = c.day → (minuteBar t v ∈ bars ↔ minuteBar t v ∈ bars'))
    (hc : c ∈ days) : c ∈ days' := by
  obtain ⟨byDay, hgroups, hfigure⟩ := h.figure
  obtain ⟨byDay', hgroups', hfigure'⟩ := h'.figure
  refine (hfigure' c).mpr ?_
  have hminutes : ∀ t, (byDay.getD c.day .empty).get? t = (byDay'.getD c.day .empty).get? t := by
    intro t
    refine Option.ext fun x => ?_
    rw [hgroups.minute, hgroups'.minute]
    exact and_congr_right fun hdate => and_congr_right fun _ => hsame t x.1 hdate
  rw [← judgeDay_congr ambient c.day hminutes]
  exact (hfigure c).mp hc

end Figures

/-! ## Which series are accepted -/

theorem Groups.exists_place (hgroups : Groups bars byDay) {t : ℤ} {v : Decimal}
    (hfresh : ∀ w, minuteBar t w ∉ bars) : ∃ next, placeBar byDay (minuteBar t v) = .ok next := by
  refine ⟨_, placeBar_eq_ok.mpr ⟨t, v, rfl, ?_, rfl⟩⟩
  rw [Option.eq_none_iff_forall_ne_some]
  intro x hx
  exact hfresh x.1 ((hgroups.minute _ _ _).mp hx).2.2

theorem Groups.exists_replay (hgroups : Groups bars byDay)
    (hcanonical : ∀ bar ∈ more, ∃ t v, bar = minuteBar t v)
    (hnodup : ((bars ++ more).map AuthoritativeTradableBarV2.barOpenAt).Nodup) :
    ∃ next, Replay.replay placeBar byDay more = .ok next := by
  induction more generalizing bars byDay with
  | nil => exact ⟨byDay, rfl⟩
  | cons bar more ih =>
      obtain ⟨t, v, rfl⟩ := hcanonical bar List.mem_cons_self
      have hfresh : ∀ w, minuteBar t w ∉ bars := by
        intro w hw
        rw [List.map_append, List.nodup_append] at hnodup
        exact hnodup.2.2 _ (List.mem_map_of_mem hw) _ (List.mem_map_of_mem List.mem_cons_self) rfl
      obtain ⟨mid, hmid⟩ := hgroups.exists_place (v := v) hfresh
      have hrest := ih (hgroups.place hmid) (fun b hb => hcanonical b (List.mem_cons_of_mem _ hb))
        (by rwa [List.append_assoc, List.singleton_append])
      obtain ⟨next, hnext⟩ := hrest
      refine ⟨next, ?_⟩
      show (placeBar byDay (minuteBar t v) >>= fun mid => Replay.replay placeBar mid more) = _
      rw [hmid]
      exact hnext

theorem exists_completeLiquidityDays (ambient : Context)
    (hcanonical : ∀ bar ∈ bars, ∃ t v, bar = minuteBar t v)
    (hnodup : (bars.map AuthoritativeTradableBarV2.barOpenAt).Nodup) :
    ∃ days excluded, completeLiquidityDays ambient bars = .ok (days, excluded) := by
  obtain ⟨byDay, hreplay⟩ := groups_nil.exists_replay hcanonical hnodup
  have hgroups : Groups bars byDay := groups_nil.replay hreplay
  have hjudge : ∀ row ∈ sortBy Prod.fst byDay.rows,
      ∃ result, judgeDay ambient row.1 row.2 = .ok result := by
    rintro ⟨day, minutes⟩ hrow
    have hget : byDay.getD day .empty = minutes := by
      rw [Dict.getD, Dict.mem_rows.mp (mem_sortBy.mp hrow), Option.getD_some]
    by_cases hgrid : ∀ t, t ∈ expectedMinuteGrid day ↔ (minutes.get? t).isSome
    · obtain ⟨total, htotal⟩ := judgeDay_of_grid ambient hgrid
        fun t x hx => ((hgroups.minute day t x).mp (by rw [hget]; exact hx)).2.1
      exact ⟨_, htotal⟩
    · obtain ⟨excluded, hexcluded⟩ := judgeDay_of_not_grid ambient hgrid
      exact ⟨_, hexcluded⟩
  obtain ⟨judged, hjudged⟩ : ∃ judged, (sortBy Prod.fst byDay.rows).mapM
      (fun row => judgeDay ambient row.1 row.2) = .ok judged := by
    cases hall : (sortBy Prod.fst byDay.rows).mapM
        fun row => judgeDay ambient row.1 row.2 with
    | ok judged => exact ⟨judged, rfl⟩
    | error e =>
        obtain ⟨row, hrow, herror⟩ := Except.exists_error_of_mapM hall
        obtain ⟨result, hok⟩ := hjudge row hrow
        rw [hok] at herror
        cases herror
  refine ⟨judged.filterMap Sum.getLeft?, judged.filterMap Sum.getRight?, ?_⟩
  rw [completeLiquidityDays, hreplay, Except.ok_bind, hjudged]
  rfl

end Bars

end TradePlatform.LiquidityCapacity
