/-
# `TradePlatform.Lib.UtcDays` — UTC days of timestamps

A timestamp of a clock set to UTC is its day and the time of the day, so that the day is the
quotient of the instant, and every instant of the years 1 to 9999 has a rendering.
-/
import TradePlatform.Lib.IsoText

namespace IsoText

namespace Stamp

def dayMicros : ℤ := 86400 * 10 ^ 6

theorem dayMicros_pos : 0 < dayMicros := by decide

variable (x : Stamp)

theorem ordinal_pos : 1 ≤ x.ordinal := by
  have hday := x.day_pos
  unfold ordinal
  omega

theorem instant_div_dayMicros (h : x.offset = 0) : x.instant / dayMicros = x.ordinal := by
  have hhour := x.hour_lt
  have hminute := x.minute_lt
  have hsecond := x.second_lt
  have hmicro := x.micro_lt
  unfold instant wallSeconds dayMicros
  omega

structure IsMidnight : Prop where
  offset : x.offset = 0
  hour : x.hour = 0
  minute : x.minute = 0
  second : x.second = 0
  micro : x.micro = 0

theorem IsMidnight.instant {x : Stamp} (h : x.IsMidnight) :
    x.instant = x.ordinal * dayMicros := by
  unfold Stamp.instant wallSeconds dayMicros
  rw [h.offset, h.hour, h.minute, h.second, h.micro]
  push_cast
  ring

theorem isMidnight_of_instant {x : Stamp} {n : ℕ} (hoffset : x.offset = 0)
    (h : x.instant = n * dayMicros) : x.IsMidnight ∧ x.ordinal = n := by
  have hhour := x.hour_lt
  have hminute := x.minute_lt
  have hsecond := x.second_lt
  have hmicro := x.micro_lt
  unfold Stamp.instant wallSeconds dayMicros at h
  refine ⟨⟨hoffset, ?_, ?_, ?_, ?_⟩, ?_⟩
  all_goals omega

theorem IsMidnight.le_iff {x y : Stamp} (h : x.IsMidnight) (hy : y.offset = 0) :
    x.instant ≤ y.instant ↔ x.ordinal ≤ y.ordinal := by
  rw [h.instant, ← Int.le_ediv_iff_mul_le dayMicros_pos, y.instant_div_dayMicros hy]
  exact Int.ofNat_le

theorem IsMidnight.lt_iff {x y : Stamp} (h : x.IsMidnight) (hy : y.offset = 0) :
    y.instant < x.instant ↔ y.ordinal < x.ordinal := by
  rw [← not_le, ← not_le, h.le_iff hy]

/-! ## Every day has a rendering -/

def maxOrdinal : ℕ := daysBeforeYear 10000

theorem ordinal_le_max : x.ordinal ≤ maxOrdinal := by
  have hmonth : _ ≤ daysBeforeMonth x.year 13 :=
    daysBeforeMonth_lt x.month_pos (Nat.lt_succ_of_le x.month_le)
  have hyear : daysBeforeYear (x.year + 1) ≤ daysBeforeYear 10000 :=
    daysBeforeYear_mono (Nat.le_add_left 1 x.year) (Nat.succ_le_of_lt x.year_lt)
  have hsucc := daysBeforeYear_succ x.year_pos
  have hday := x.day_le
  unfold ordinal maxOrdinal
  omega

theorem exists_yearOf {ordinal : ℕ} (hpos : 1 ≤ ordinal) (hle : ordinal ≤ maxOrdinal) :
    ∃ year, yearOf ordinal = some year ∧ (1 ≤ year ∧ year < 10 ^ 4) ∧
      daysBeforeYear year < ordinal ∧ ordinal ≤ daysBeforeYear (year + 1) := by
  have hsome : (yearOf ordinal).isSome = true := by
    refine List.find?_isSome.mpr ⟨9999, List.mem_range'_1.mpr ⟨by decide, by decide⟩, ?_⟩
    exact decide_eq_true hle
  obtain ⟨year, hyear⟩ := Option.isSome_iff_exists.mp hsome
  obtain ⟨hfound, hmem, hbefore⟩ := List.find?_range'_eq_some.mp hyear
  rw [List.mem_range'_1] at hmem
  refine ⟨year, hyear, ⟨hmem.1, by omega⟩, ?_, of_decide_eq_true hfound⟩
  -- the year before is over
  rcases Nat.lt_or_ge 1 year with hlt | hge
  · have hearlier := hbefore (year - 1) (by omega) (by omega)
    rw [Nat.sub_add_cancel hmem.1] at hearlier
    simpa using hearlier
  · have hone : year = 1 := by omega
    subst hone
    exact hpos

theorem exists_monthOf {ordinal year : ℕ} (hyear : 1 ≤ year) (hlt : daysBeforeYear year < ordinal)
    (hle : ordinal ≤ daysBeforeYear (year + 1)) :
    ∃ month, monthOf ordinal year = some month ∧ (1 ≤ month ∧ month ≤ 12) ∧
      daysBeforeYear year + daysBeforeMonth year month < ordinal ∧
        ordinal ≤ daysBeforeYear year + daysBeforeMonth year (month + 1) := by
  rw [daysBeforeYear_succ hyear] at hle
  have hsome : (monthOf ordinal year).isSome = true := by
    refine List.find?_isSome.mpr ⟨12, List.mem_range'_1.mpr ⟨by decide, by decide⟩, ?_⟩
    exact decide_eq_true hle
  obtain ⟨month, hmonth⟩ := Option.isSome_iff_exists.mp hsome
  obtain ⟨hfound, hmem, hbefore⟩ := List.find?_range'_eq_some.mp hmonth
  rw [List.mem_range'_1] at hmem
  refine ⟨month, hmonth, ⟨hmem.1, by omega⟩, ?_, of_decide_eq_true hfound⟩
  rcases Nat.lt_or_ge 1 month with hmore | hge
  · have hearlier := hbefore (month - 1) (by omega) (by omega)
    rw [Nat.sub_add_cancel hmem.1] at hearlier
    simpa using hearlier
  · have hone : month = 1 := by omega
    subst hone
    exact hlt

theorem exists_utc? {t : ℤ} (hpos : 1 ≤ t / dayMicros) (hle : t / dayMicros ≤ maxOrdinal) :
    ∃ x, utc? t = some x := by
  have hordinal : (t / 10 ^ 6).toNat / 86400 = (t / dayMicros).toNat := by
    unfold dayMicros at hpos ⊢
    omega
  have hnonneg : ¬ t < 0 := by
    unfold dayMicros at hpos
    omega
  obtain ⟨year, hyear, hyears, hafter, hbefore⟩ :=
    @exists_yearOf (t / dayMicros).toNat (by omega) (by omega)
  obtain ⟨month, hmonth, hmonths, hlate, hearly⟩ := exists_monthOf hyears.1 hafter hbefore
  rw [daysBeforeMonth_succ hmonths.1] at hearly
  unfold utc?
  dsimp only
  rw [if_neg hnonneg, hordinal, hyear, Option.bind_some, hmonth, Option.bind_some]
  unfold civil
  rw [dif_pos ⟨hyears, hmonths, by omega, by omega⟩]
  exact ⟨_, rfl⟩

end Stamp

end IsoText
