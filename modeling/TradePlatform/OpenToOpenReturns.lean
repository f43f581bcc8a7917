/-
# `TradePlatform.OpenToOpenReturns` — daily returns of a window, by the UTC day of the exits

`_daily_returns_over_window` of `open_to_open_validation_v1.py`: the net returns of the exits
inside a window are put in buckets by the UTC date of the exit, and each calendar day of the
window compounds its bucket.  Between two midnights a date is inside the window as a whole or
not at all, so that what a day compounds does not depend on the window it is looked at in.
-/
import TradePlatform.Domain
import TradePlatform.Lib.Dict
import TradePlatform.Lib.Replay
import TradePlatform.Lib.UtcDays

namespace TradePlatform

namespace OpenToOpen

open IsoText (Stamp)

abbrev Date := ℕ

def refuse {α : Type} (message : String) : Except Exn α :=
  .error (.openToOpenValidationError message)

/-! ## The code -/

/-- `value.astimezone(_UTC)`, an `OverflowError` outside the years 1 to 9999. -/
def astimezoneUtc (value : Stamp) : Except Exn Stamp :=
  match Stamp.utc? value.instant with
  | none => .error .arithmeticError
  | some utc => .ok utc

/-- `cursor + timedelta(days=1)`, on the wall clock of the cursor. -/
def nextDay (cursor : Stamp) : Except Exn Stamp :=
  match Stamp.utc? (cursor.instant + cursor.offset + Stamp.dayMicros) with
  | none => .error .arithmeticError
  | some wall => .ok { wall with offset := cursor.offset, offset_lt := cursor.offset_lt }

section Window

variable (c : Decimal.Context) (windowStart windowEnd : Stamp)

def bucketStep (buckets : Dict Date (List Decimal)) (realized : Stamp × Decimal) :
    Except Exn (Dict Date (List Decimal)) := do
  let exitUtc ← astimezoneUtc realized.1
  if windowStart.instant ≤ exitUtc.instant ∧ exitUtc.instant < windowEnd.instant then
    return buckets.set exitUtc.ordinal (buckets.getD exitUtc.ordinal [] ++ [realized.2])
  else return buckets

def compounded (returns : List Decimal) : Decimal :=
  returns.foldl (fun acc netReturn => c.mul acc (c.add 1 netReturn)) 1

theorem nextDay_instant {cursor next : Stamp} (h : nextDay cursor = .ok next) :
    next.instant = cursor.instant + Stamp.dayMicros := by
  unfold nextDay at h
  split at h
  · cases h
  · rename_i wall hwall
    cases h
    obtain ⟨hoffset, hinstant⟩ := Stamp.utc?_eq_some hwall
    have hsame : ({ wall with offset := cursor.offset, offset_lt := cursor.offset_lt } :
        Stamp).instant = wall.instant + wall.offset - cursor.offset := by
      simp [Stamp.instant, Stamp.wallSeconds, Stamp.ordinal]
    rw [hsame, hinstant, hoffset]
    ring

def dayLoop (buckets : Dict Date (List Decimal)) (cursor : Stamp) :
    Except Exn (List (Date × Decimal)) :=
  if hlt : cursor.instant < windowEnd.instant then
    match hnext : nextDay cursor with
    | .error e => .error e
    | .ok next =>
        (dayLoop buckets next).map
          ((cursor.ordinal, c.sub (compounded c (buckets.getD cursor.ordinal [])) 1) :: ·)
  else .ok []
termination_by (windowEnd.instant - cursor.instant).toNat
decreasing_by
  have hstep := nextDay_instant hnext
  have hday := Stamp.dayMicros_pos
  omega

def dailyReturnsOverWindow (realized : List (Stamp × Decimal)) :
    Except Exn (List Date × List Decimal) := do
  let buckets ← Replay.replay (bucketStep windowStart windowEnd) .empty realized
  let days ← dayLoop c windowEnd buckets windowStart
  return (days.map Prod.fst, days.map Prod.snd)

end Window

/-! ## The buckets -/

def exitDay (value : Stamp) : ℤ := value.instant / Stamp.dayMicros

def returnsOn (realized : List (Stamp × Decimal)) (day : ℤ) : List Decimal :=
  (realized.filter fun r => decide (exitDay r.1 = day)).map Prod.snd

def HasDate (value : Stamp) : Prop := (Stamp.utc? value.instant).isSome = true

instance (value : Stamp) : Decidable (HasDate value) := inferInstanceAs (Decidable (_ = true))

variable {c : Decimal.Context} {windowStart windowEnd : Stamp} {realized : List (Stamp × Decimal)}
  {value : Stamp}

theorem HasDate.astimezoneUtc (h : HasDate value) : ∃ utc, astimezoneUtc value = .ok utc ∧
    utc.offset = 0 ∧ utc.instant = value.instant ∧ (utc.ordinal : ℤ) = exitDay value := by
  obtain ⟨utc, hutc⟩ := Option.isSome_iff_exists.mp h
  obtain ⟨hoffset, hinstant⟩ := Stamp.utc?_eq_some hutc
  refine ⟨utc, ?_, hoffset, hinstant, ?_⟩
  · unfold OpenToOpen.astimezoneUtc
    rw [hutc]
  · rw [exitDay, ← hinstant, utc.instant_div_dayMicros hoffset]

theorem buckets_eq (hstart : windowStart.IsMidnight) (hend : windowEnd.IsMidnight)
    (hexits : ∀ r ∈ realized, HasDate r.1) :
    ∃ buckets, Replay.replay (bucketStep windowStart windowEnd) .empty realized = .ok buckets ∧
      ∀ day : Date, windowStart.ordinal ≤ day → day < windowEnd.ordinal →
        buckets.getD day [] = returnsOn realized day := by
  induction realized using List.reverseRecOn with
  | nil => exact ⟨.empty, rfl, fun _ _ _ => rfl⟩
  | append_singleton realized r ih =>
      obtain ⟨buckets, hbuckets, hreturns⟩ :=
        ih fun r' hr' => hexits r' (List.mem_append_left _ hr')
      obtain ⟨utc, hutc, hoffset, hinstant, hday⟩ :=
        (hexits r (List.mem_append_right _ List.mem_cons_self)).astimezoneUtc
      have hsplit : ∀ day, returnsOn (realized ++ [r]) day =
          returnsOn realized day ++ if exitDay r.1 = day then [r.2] else [] := by
        intro day
        unfold returnsOn
        rw [List.filter_append, List.map_append, List.filter_cons, List.filter_nil]
        simp only [decide_eq_true_eq]
        split <;> rfl
      by_cases hinside : windowStart.instant ≤ utc.instant ∧ utc.instant < windowEnd.instant
      · refine ⟨buckets.set utc.ordinal (buckets.getD utc.ordinal [] ++ [r.2]),
          Replay.replay_snoc_ok hbuckets ?_, fun day hge hlt => ?_⟩
        · unfold bucketStep
          rw [hutc, Except.ok_bind, if_pos hinside]
          rfl
        · rw [hsplit, ← hday, Dict.getD, Dict.get?_set]
          by_cases heq : utc.ordinal = day
          · subst heq
            rw [if_pos rfl, if_pos rfl, Option.getD_some, hreturns _ hge hlt]
          · rw [if_neg heq, if_neg (by exact_mod_cast heq), List.append_nil]
            exact hreturns day hge hlt
      · refine ⟨buckets, Replay.replay_snoc_ok hbuckets ?_, fun day hge hlt => ?_⟩
        · unfold bucketStep
          rw [hutc, Except.ok_bind, if_neg hinside]
          rfl
        · -- outside the window, the exit is on no day of it
          have hne : utc.ordinal ≠ day := by
            rintro rfl
            exact hinside ⟨(hstart.le_iff hoffset).mpr hge, (hend.lt_iff hoffset).mpr hlt⟩
          rw [hsplit, ← hday, if_neg (by exact_mod_cast hne), List.append_nil]
          exact hreturns day hge hlt

/-! ## The days -/

def dailyReturn (c : Decimal.Context) (realized : List (Stamp × Decimal)) (day : Date) : Decimal :=
  c.sub (compounded c (returnsOn realized day)) 1

def days (first last : Date) : List Date := List.range' first (last - first)

theorem mem_days {first last day : ℕ} : day ∈ days first last ↔ first ≤ day ∧ day < last := by
  unfold days
  rw [List.mem_range'_1]
  omega

theorem days_append {first mid last : ℕ} (h : first ≤ mid) (h' : mid ≤ last) :
    days first last = days first mid ++ days mid last := by
  have hlength : last - first = (mid - first) + (last - mid) := by omega
  have hstart : mid = first + (mid - first) := by omega
  unfold days
  rw [hlength, List.range'_append_1.symm, ← hstart]

theorem nextDay_midnight {cursor : Stamp} (hcursor : cursor.IsMidnight)
    (hle : cursor.ordinal + 1 ≤ Stamp.maxOrdinal) :
    ∃ next, nextDay cursor = .ok next ∧ next.IsMidnight ∧ next.ordinal = cursor.ordinal + 1 := by
  have hinstant : cursor.instant + cursor.offset + Stamp.dayMicros =
      (cursor.ordinal + 1 : ℕ) * Stamp.dayMicros := by
    rw [hcursor.instant, hcursor.offset]
    push_cast
    ring
  have hquotient : (cursor.instant + cursor.offset + Stamp.dayMicros) / Stamp.dayMicros =
      (cursor.ordinal + 1 : ℕ) := by
    rw [hinstant, Int.mul_ediv_cancel _ Stamp.dayMicros_pos.ne']
  obtain ⟨wall, hwall⟩ := @Stamp.exists_utc? (cursor.instant + cursor.offset + Stamp.dayMicros)
    (by rw [hquotient]; omega) (by rw [hquotient]; exact_mod_cast hle)
  obtain ⟨hoffset, hwallInstant⟩ := Stamp.utc?_eq_some hwall
  have hsame : ({ wall with offset := cursor.offset, offset_lt := cursor.offset_lt } : Stamp) =
      wall := by
    cases wall
    simp only at hoffset
    subst hoffset
    simp only [hcursor.offset]
  obtain ⟨hmidnight, hordinal⟩ :=
    Stamp.isMidnight_of_instant hoffset (hwallInstant.trans hinstant)
  refine ⟨wall, ?_, hmidnight, hordinal⟩
  unfold nextDay
  rw [hwall]
  exact congrArg Except.ok hsame

theorem dayLoop_eq (buckets : Dict Date (List Decimal)) (hend : windowEnd.IsMidnight) (n : ℕ) :
    ∀ {cursor : Stamp}, cursor.IsMidnight → windowEnd.ordinal - cursor.ordinal = n →
      dayLoop c windowEnd buckets cursor =
        .ok ((days cursor.ordinal windowEnd.ordinal).map fun day =>
          (day, c.sub (compounded c (buckets.getD day [])) 1)) := by
  induction n with
  | zero =>
      intro cursor hcursor hn
      have hlt : ¬ cursor.instant < windowEnd.instant := by
        rw [hend.lt_iff hcursor.offset]
        omega
      rw [dayLoop, dif_neg hlt, days, hn]
      rfl
  | succ n ih =>
      intro cursor hcursor hn
      have hlt : cursor.instant < windowEnd.instant := by
        rw [hend.lt_iff hcursor.offset]
        omega
      have hmax := windowEnd.ordinal_le_max
      obtain ⟨next, hnext, hmidnight, hordinal⟩ := nextDay_midnight hcursor (by omega)
      have hdays : days cursor.ordinal windowEnd.ordinal =
          cursor.ordinal :: days next.ordinal windowEnd.ordinal := by
        unfold days
        rw [hn, List.range'_succ, hordinal]
        congr 2
        omega
      rw [dayLoop, dif_pos hlt, hdays, List.map_cons]
      split
      · rename_i e herror
        rw [hnext] at herror
        cases herror
      · rename_i next' hnext'
        rw [hnext] at hnext'
        cases hnext'
        rw [ih hmidnight (by omega)]
        rfl

theorem dailyReturnsOverWindow_eq (c : Decimal.Context) (hstart : windowStart.IsMidnight)
    (hend : windowEnd.IsMidnight) (hexits : ∀ r ∈ realized, HasDate r.1) :
    dailyReturnsOverWindow c windowStart windowEnd realized =
      .ok (days windowStart.ordinal windowEnd.ordinal,
        (days windowStart.ordinal windowEnd.ordinal).map (dailyReturn c realized)) := by
  obtain ⟨buckets, hbuckets, hreturns⟩ := buckets_eq hstart hend hexits
  unfold dailyReturnsOverWindow
  rw [hbuckets, Except.ok_bind, dayLoop_eq buckets hend _ hstart rfl, Except.ok_bind,
    List.map_map, List.map_map]
  refine congrArg Except.ok (Prod.ext ?_ ?_)
  · exact List.map_id _
  · refine List.map_congr_left fun day hday => ?_
    obtain ⟨hge, hlt⟩ := mem_days.mp hday
    show c.sub (compounded c (buckets.getD day [])) 1 = _
    rw [hreturns day hge hlt, dailyReturn]

/-! ## The product of the days -/

theorem compounded_exact (returns : List Decimal) :
    compounded .exact returns = (returns.map (1 + ·)).prod := by
  have hfold : ∀ acc : Decimal, returns.foldl (fun acc netReturn =>
      Decimal.Context.exact.mul acc (Decimal.Context.exact.add 1 netReturn)) acc =
        acc * (returns.map (1 + ·)).prod := by
    induction returns with
    | nil =>
        intro acc
        simp
    | cons r returns ih =>
        intro acc
        rw [List.foldl_cons, ih, List.map_cons, List.prod_cons, ← mul_assoc]
        rfl
  rw [compounded, hfold, one_mul]

theorem prod_filter_or {α : Type} (l : List α) (f : α → Decimal) (p q : α → Prop)
    [DecidablePred p] [DecidablePred q] (hnot : ∀ a, p a → ¬ q a) :
    ((l.filter fun a => decide (p a ∨ q a)).map f).prod =
      ((l.filter fun a => decide (p a)).map f).prod *
        ((l.filter fun a => decide (q a)).map f).prod := by
  induction l with
  | nil => simp
  | cons a l ih =>
      simp only [List.filter_cons, decide_eq_true_eq]
      by_cases hp : p a
      · rw [if_pos (Or.inl hp), if_pos hp, if_neg (hnot a hp), List.map_cons, List.map_cons,
          List.prod_cons, List.prod_cons, ih, mul_assoc]
      · by_cases hq : q a
        · rw [if_pos (Or.inr hq), if_neg hp, if_pos hq, List.map_cons, List.map_cons,
            List.prod_cons, List.prod_cons, ih, mul_left_comm]
        · rw [if_neg (not_or_intro hp hq), if_neg hp, if_neg hq, ih]

theorem prod_days (realized : List (Stamp × Decimal)) (first : Date) (n : ℕ) :
    (((days first (first + n)).map (dailyReturn .exact realized)).map (1 + ·)).prod =
      ((realized.filter fun r =>
        decide ((first : ℤ) ≤ exitDay r.1 ∧ exitDay r.1 < (first + n : ℕ))).map
          (1 + ·.2)).prod := by
  induction n with
  | zero =>
      have hnone : (realized.filter fun r =>
          decide ((first : ℤ) ≤ exitDay r.1 ∧ exitDay r.1 < (first + 0 : ℕ))) = [] := by
        refine List.filter_eq_nil_iff.mpr fun r _ => ?_
        rw [decide_eq_true_eq, not_and, add_zero]
        omega
      rw [hnone, days]
      simp
  | succ n ih =>
      have hdays : days first (first + (n + 1)) = days first (first + n) ++ [first + n] := by
        unfold days
        rw [Nat.add_sub_cancel_left, Nat.add_sub_cancel_left, List.range'_concat, one_mul]
      have hday : 1 + dailyReturn .exact realized (first + n) = ((realized.filter fun r =>
          decide (exitDay r.1 = (first + n : ℕ))).map (1 + ·.2)).prod := by
        rw [dailyReturn, compounded_exact, returnsOn, List.map_map]
        show 1 + (_ - 1) = _
        rw [add_sub_cancel]
        rfl
      have hunion : (realized.filter fun r =>
          decide ((first : ℤ) ≤ exitDay r.1 ∧ exitDay r.1 < (first + (n + 1) : ℕ))) =
          realized.filter fun r => decide (((first : ℤ) ≤ exitDay r.1 ∧
            exitDay r.1 < (first + n : ℕ)) ∨ exitDay r.1 = (first + n : ℕ)) := by
        refine List.filter_congr fun r _ => decide_eq_decide.mpr ?_
        push_cast
        omega
      rw [hdays, List.map_append, List.map_append, List.prod_append, ih, List.map_singleton,
        List.map_singleton, List.prod_singleton, hday, hunion,
        prod_filter_or realized (1 + ·.2) _ _ fun r hr => by push_cast at hr ⊢; omega]

theorem le_exitDay (hstart : windowStart.IsMidnight) :
    (windowStart.ordinal : ℤ) ≤ exitDay value ↔ windowStart.instant ≤ value.instant := by
  rw [hstart.instant, exitDay, Int.le_ediv_iff_mul_le Stamp.dayMicros_pos]

theorem exitDay_lt (hend : windowEnd.IsMidnight) :
    exitDay value < windowEnd.ordinal ↔ value.instant < windowEnd.instant := by
  rw [← not_le, ← not_le, le_exitDay hend]

def returnsInside (windowStart windowEnd : Stamp) (realized : List (Stamp × Decimal)) :
    List Decimal :=
  (realized.filter fun r =>
    decide (windowStart.instant ≤ r.1.instant ∧ r.1.instant < windowEnd.instant)).map Prod.snd

theorem prod_window (hstart : windowStart.IsMidnight) (hend : windowEnd.IsMidnight)
    (realized : List (Stamp × Decimal)) :
    (((days windowStart.ordinal windowEnd.ordinal).map (dailyReturn .exact realized)).map
      (1 + ·)).prod = ((returnsInside windowStart windowEnd realized).map (1 + ·)).prod := by
  have hinside : returnsInside windowStart windowEnd realized = (realized.filter fun r =>
      decide ((windowStart.ordinal : ℤ) ≤ exitDay r.1 ∧ exitDay r.1 < windowEnd.ordinal)).map
        Prod.snd := by
    unfold returnsInside
    refine congrArg (List.map Prod.snd) (List.filter_congr fun r _ => decide_eq_decide.mpr ?_)
    rw [le_exitDay hstart, exitDay_lt hend]
  rw [hinside, @List.map_map _ _ _ (1 + ·) Prod.snd]
  rcases Nat.le_total windowStart.ordinal windowEnd.ordinal with hle | hge
  · obtain ⟨n, hn⟩ := Nat.exists_eq_add_of_le hle
    rw [hn]
    exact prod_days realized windowStart.ordinal n
  · -- a window that ends before it starts has neither days nor exits
    have hnone : (realized.filter fun r => decide ((windowStart.ordinal : ℤ) ≤ exitDay r.1 ∧
        exitDay r.1 < windowEnd.ordinal)) = [] := by
      refine List.filter_eq_nil_iff.mpr fun r _ => ?_
      rw [decide_eq_true_eq]
      omega
    rw [hnone, days, Nat.sub_eq_zero_of_le hge]
    simp

/-! ## The series of a window -/

/-- For exits with a date and a window between two midnights: the series has an entry for each
day of the window, in order; in exact arithmetic its product is that of the exits inside the
window; and it is that of the stretch before any midnight of the window, followed by that of the
stretch after it. -/
theorem dailyReturnsOverWindow_series {windowStart windowEnd : Stamp}
    {realized : List (Stamp × Decimal)} (hstart : windowStart.IsMidnight)
    (hend : windowEnd.IsMidnight) (hexits : ∀ r ∈ realized, HasDate r.1) :
    (∀ c, ∃ returns, returns.length = windowEnd.ordinal - windowStart.ordinal ∧
      dailyReturnsOverWindow c windowStart windowEnd realized =
        .ok (List.range' windowStart.ordinal (windowEnd.ordinal - windowStart.ordinal),
          returns)) ∧
    (∀ dates returns,
      dailyReturnsOverWindow .exact windowStart windowEnd realized = .ok (dates, returns) →
        (returns.map (1 + ·)).prod =
          ((returnsInside windowStart windowEnd realized).map (1 + ·)).prod) ∧
    ∀ c (mid : Stamp), mid.IsMidnight → windowStart.instant ≤ mid.instant →
      mid.instant ≤ windowEnd.instant →
        ∃ before after : List Date × List Decimal,
          dailyReturnsOverWindow c windowStart mid realized = .ok before ∧
          dailyReturnsOverWindow c mid windowEnd realized = .ok after ∧
          dailyReturnsOverWindow c windowStart windowEnd realized =
            .ok (before.1 ++ after.1, before.2 ++ after.2) := by
  refine ⟨fun c => ?_, fun dates returns hok => ?_, fun c mid hmid hle hle' => ?_⟩
  · refine ⟨_, ?_, dailyReturnsOverWindow_eq c hstart hend hexits⟩
    rw [List.length_map, days, List.length_range']
  · rw [dailyReturnsOverWindow_eq _ hstart hend hexits] at hok
    cases hok
    exact prod_window hstart hend realized
  · refine ⟨_, _, dailyReturnsOverWindow_eq c hstart hmid hexits,
      dailyReturnsOverWindow_eq c hmid hend hexits, ?_⟩
    rw [dailyReturnsOverWindow_eq c hstart hend hexits,
      days_append ((hstart.le_iff hmid.offset).mp hle) ((hmid.le_iff hend.offset).mp hle'),
      List.map_append]

/-! ### Two days of January -/

def january1 : Stamp := .ofShown 2025 1 1 0 0 0 0 0

def january2 : Stamp := .ofShown 2025 1 2 0 0 0 0 0

def january3 : Stamp := .ofShown 2025 1 3 0 0 0 0 0

def aheadOfMidnight : Stamp := .ofShown 2025 1 2 0 30 0 0 (3600 * 10 ^ 6)

def twoTrades : List (Stamp × Decimal) := [(aheadOfMidnight, 1 / 10), (january2, -1 / 10)]

theorem midnight_january1 : january1.IsMidnight := ⟨rfl, rfl, rfl, rfl, rfl⟩

theorem midnight_january2 : january2.IsMidnight := ⟨rfl, rfl, rfl, rfl, rfl⟩

theorem midnight_january3 : january3.IsMidnight := ⟨rfl, rfl, rfl, rfl, rfl⟩

theorem dailyReturnsOverWindow_series_twoDays :
    ∃ before after : List Date × List Decimal,
      dailyReturnsOverWindow .exact january1 january2 twoTrades = .ok before ∧
      dailyReturnsOverWindow .exact january2 january3 twoTrades = .ok after ∧
      dailyReturnsOverWindow .exact january1 january3 twoTrades =
        .ok (before.1 ++ after.1, before.2 ++ after.2) :=
  (dailyReturnsOverWindow_series midnight_january1 midnight_january3 (by decide +kernel)).2.2
    .exact january2 midnight_january2 (by decide +kernel) (by decide +kernel)

def lastEvening : Stamp := .ofShown 9999 12 31 23 30 0 0 (-3600 * 10 ^ 6)

/-- An exit whose UTC time is past the year 9999 has no date, and its window no series. -/
theorem an_exit_past_the_calendar : ∃ (windowStart windowEnd : Stamp)
    (realized : List (Stamp × Decimal)), windowStart.IsMidnight ∧ windowEnd.IsMidnight ∧
      windowStart.instant < windowEnd.instant ∧
        dailyReturnsOverWindow .exact windowStart windowEnd realized = .error .arithmeticError := by
  have hutc : Stamp.utc? lastEvening.instant = none := by decide +kernel
  refine ⟨january1, january3, [(lastEvening, 0)], midnight_january1, midnight_january3,
    by decide +kernel, ?_⟩
  have hstep : bucketStep january1 january3 .empty (lastEvening, 0) = .error .arithmeticError := by
    rw [bucketStep, astimezoneUtc, hutc]
    rfl
  rw [dailyReturnsOverWindow, Replay.replay, List.foldlM_cons, hstep]
  rfl

end OpenToOpen

end TradePlatform
