/-
# `TradePlatform.Lib.IsoText` — timestamps, and the text they are written as

An aware timestamp is a civil date, a time of day and the UTC offset of its clock.  It
denotes an instant, and it is written as ISO 8601 text: wall clock first, the fraction
left out when it is zero, the offset last.  Programs compare such texts in place of the
instants; the order of the texts is that of the instants as long as the offset is the
same, which is what `isoformat_lt_iff` says, and of little else.
-/
import Mathlib

namespace IsoText

/-! ## Numbers of a fixed width -/

/-- `n` in `width` decimal digits, the most significant first. -/
def digits : ℕ → ℕ → List Char
  | 0, _ => []
  | width + 1, n => Nat.digitChar (n / 10 ^ width) :: digits width (n % 10 ^ width)

theorem digitChar_lt_iff {a b : ℕ} (ha : a < 10) (hb : b < 10) :
    Nat.digitChar a < Nat.digitChar b ↔ a < b := by
  interval_cases a <;> interval_cases b <;> decide

theorem digitChar_inj {a b : ℕ} (ha : a < 10) (hb : b < 10) :
    Nat.digitChar a = Nat.digitChar b ↔ a = b := by
  interval_cases a <;> interval_cases b <;> decide

theorem div_pow_lt_ten {width n : ℕ} (h : n < 10 ^ (width + 1)) : n / 10 ^ width < 10 := by
  rw [Nat.div_lt_iff_lt_mul (by positivity), ← pow_succ']
  exact h

theorem mod_pow_lt {width n : ℕ} : n % 10 ^ width < 10 ^ width := Nat.mod_lt _ (by positivity)

/-- Numbers of one width are compared by their digits, and what follows them decides
between equal ones. -/
theorem digits_append_lt {width n m : ℕ} (hn : n < 10 ^ width) (hm : m < 10 ^ width)
    {s t : List Char} :
    digits width n ++ s < digits width m ++ t ↔ n < m ∨ n = m ∧ s < t := by
  induction width generalizing n m with
  | zero =>
      have hn0 : n = 0 := by simpa using hn
      have hm0 : m = 0 := by simpa using hm
      simp [digits, hn0, hm0]
  | succ width ih =>
      have hdn := div_pow_lt_ten hn
      have hdm := div_pow_lt_ten hm
      simp only [digits, List.cons_append, List.cons_lt_cons_iff, digitChar_lt_iff hdn hdm,
        digitChar_inj hdn hdm, ih mod_pow_lt mod_pow_lt]
      have en := Nat.div_add_mod n (10 ^ width)
      have em := Nat.div_add_mod m (10 ^ width)
      have ln : n % 10 ^ width < 10 ^ width := mod_pow_lt
      have lm : m % 10 ^ width < 10 ^ width := mod_pow_lt
      constructor
      · rintro (h | ⟨h, h' | ⟨h', hst⟩⟩)
        · left
          calc n < 10 ^ width * (n / 10 ^ width + 1) := by rw [mul_add]; omega
            _ ≤ 10 ^ width * (m / 10 ^ width) := Nat.mul_le_mul_left _ h
            _ ≤ m := Nat.mul_div_le m _
        · left
          rw [h] at en
          omega
        · right
          rw [h, h'] at en
          exact ⟨by omega, hst⟩
      · rintro (h | ⟨rfl, hst⟩)
        · rcases (Nat.div_le_div_right (c := 10 ^ width) h.le).lt_or_eq with hlt | heq
          · exact .inl hlt
          · rw [heq] at en
            exact .inr ⟨heq, .inl (by omega)⟩
        · exact .inr ⟨rfl, .inr ⟨rfl, hst⟩⟩

theorem digits_append_inj {width n m : ℕ} (hn : n < 10 ^ width) (hm : m < 10 ^ width)
    {s t : List Char} : digits width n ++ s = digits width m ++ t ↔ n = m ∧ s = t := by
  constructor
  · intro h
    have hnm : n = m := by
      rcases lt_trichotomy n m with hlt | heq | hlt
      · exact absurd h ((digits_append_lt hn hm).mpr (.inl hlt)).ne
      · exact heq
      · exact absurd h.symm ((digits_append_lt hm hn).mpr (.inl hlt)).ne
    subst hnm
    exact ⟨rfl, List.append_cancel_left h⟩
  · rintro ⟨rfl, rfl⟩
    rfl

/-! ## The civil calendar -/

def IsLeap (year : ℕ) : Prop := 4 ∣ year ∧ (¬ 100 ∣ year ∨ 400 ∣ year)

instance (year : ℕ) : Decidable (IsLeap year) := inferInstanceAs (Decidable (_ ∧ _))

def daysInMonth (year month : ℕ) : ℕ :=
  if month = 2 then if IsLeap year then 29 else 28
  else if month = 4 ∨ month = 6 ∨ month = 9 ∨ month = 11 then 30
  else 31

def daysBeforeYear (year : ℕ) : ℕ :=
  365 * (year - 1) + (year - 1) / 4 - (year - 1) / 100 + (year - 1) / 400

def daysBeforeMonth (year : ℕ) : ℕ → ℕ
  | 0 => 0
  | 1 => 0
  | month + 2 => daysBeforeMonth year (month + 1) + daysInMonth year (month + 1)

theorem daysBeforeMonth_succ {year month : ℕ} (h : 1 ≤ month) :
    daysBeforeMonth year (month + 1) = daysBeforeMonth year month + daysInMonth year month := by
  obtain ⟨k, rfl⟩ : ∃ k, month = k + 1 := ⟨month - 1, by omega⟩
  rfl

theorem daysBeforeMonth_mono {year a b : ℕ} (ha : 1 ≤ a) (h : a ≤ b) :
    daysBeforeMonth year a ≤ daysBeforeMonth year b := by
  induction b, h using Nat.le_induction with
  | base => exact le_rfl
  | succ b hb ih =>
      rw [daysBeforeMonth_succ (ha.trans hb)]
      omega

theorem daysBeforeMonth_lt {year a b : ℕ} (ha : 1 ≤ a) (h : a < b) :
    daysBeforeMonth year a + daysInMonth year a ≤ daysBeforeMonth year b := by
  rw [← daysBeforeMonth_succ ha]
  exact daysBeforeMonth_mono (by omega) h

theorem daysBeforeMonth_december (year : ℕ) :
    daysBeforeMonth year 13 = if IsLeap year then 366 else 365 := by
  by_cases h : IsLeap year <;> simp [daysBeforeMonth, daysInMonth, h]

theorem daysBeforeYear_succ {year : ℕ} (h : 1 ≤ year) :
    daysBeforeYear (year + 1) = daysBeforeYear year + daysBeforeMonth year 13 := by
  obtain ⟨n, rfl⟩ : ∃ n, year = n + 1 := ⟨year - 1, by omega⟩
  rw [daysBeforeMonth_december]
  simp only [daysBeforeYear, IsLeap, Nat.add_sub_cancel, Nat.succ_div]
  have hle : n / 100 ≤ n / 4 := Nat.div_le_div_left (by norm_num) (by norm_num)
  have h400 : 400 ∣ n + 1 → 100 ∣ n + 1 := (Nat.dvd_trans (by norm_num) ·)
  have h100 : 100 ∣ n + 1 → 4 ∣ n + 1 := (Nat.dvd_trans (by norm_num) ·)
  generalize n / 4 = q at hle ⊢
  generalize n / 100 = c at hle ⊢
  generalize n / 400 = k
  by_cases h4 : 4 ∣ n + 1
  · by_cases hc : 100 ∣ n + 1
    · by_cases hq : 400 ∣ n + 1
      · simp only [h4, hc, hq, if_true, or_true, and_true]
        omega
      · simp only [h4, hc, hq, if_true, if_false, not_true_eq_false, or_false, and_false]
        omega
    · simp only [h4, hc, mt h400 hc, if_true, if_false, not_false_eq_true, true_or, and_true]
      omega
  · simp only [h4, mt h100 h4, mt h400 (mt h100 h4), if_false, false_and]
    omega

theorem daysBeforeYear_mono {a b : ℕ} (ha : 1 ≤ a) (h : a ≤ b) :
    daysBeforeYear a ≤ daysBeforeYear b := by
  induction b, h using Nat.le_induction with
  | base => exact le_rfl
  | succ b hb ih =>
      rw [daysBeforeYear_succ (ha.trans hb)]
      omega

/-! ## Timestamps -/

structure Stamp where
  year : ℕ
  month : ℕ
  day : ℕ
  hour : ℕ
  minute : ℕ
  second : ℕ
  micro : ℕ
  offset : ℤ
  year_pos : 1 ≤ year := by decide
  year_lt : year < 10 ^ 4 := by decide
  month_pos : 1 ≤ month := by decide
  month_le : month ≤ 12 := by decide
  day_pos : 1 ≤ day := by decide
  day_le : day ≤ daysInMonth year month := by decide
  hour_lt : hour < 24 := by decide
  minute_lt : minute < 60 := by decide
  second_lt : second < 60 := by decide
  micro_lt : micro < 10 ^ 6 := by decide
  offset_lt : offset.natAbs < 86400 * 10 ^ 6 := by decide
deriving DecidableEq

namespace Stamp

variable (x : Stamp)

def ordinal : ℕ := daysBeforeYear x.year + daysBeforeMonth x.year x.month + x.day

def wallSeconds : ℕ := ((x.ordinal * 24 + x.hour) * 60 + x.minute) * 60 + x.second

def instant : ℤ := x.wallSeconds * 10 ^ 6 + x.micro - x.offset

/-! ## The text -/

def fractionText (micro : ℕ) : List Char := if micro = 0 then [] else '.' :: digits 6 micro

def offsetSecondsText (second micro : ℕ) : List Char :=
  if second = 0 ∧ micro = 0 then [] else ':' :: (digits 2 second ++ fractionText micro)

def offsetText (offset : ℤ) : List Char :=
  let seconds := offset.natAbs / 10 ^ 6
  (if offset < 0 then '-' else '+') ::
    (digits 2 (seconds / 3600) ++ ':' :: (digits 2 (seconds / 60 % 60) ++
      offsetSecondsText (seconds % 60) (offset.natAbs % 10 ^ 6)))

def isoformat : List Char :=
  digits 4 x.year ++ '-' :: (digits 2 x.month ++ '-' :: (digits 2 x.day ++ 'T' ::
    (digits 2 x.hour ++ ':' :: (digits 2 x.minute ++ ':' :: (digits 2 x.second ++
      (fractionText x.micro ++ offsetText x.offset))))))

theorem month_lt : x.month < 10 ^ 2 := x.month_le.trans_lt (by norm_num)

theorem day_lt : x.day < 10 ^ 2 := by
  have h := x.day_le
  simp only [daysInMonth] at h
  split_ifs at h <;> omega

theorem hour_lt' : x.hour < 10 ^ 2 := x.hour_lt.trans (by norm_num)

theorem minute_lt' : x.minute < 10 ^ 2 := x.minute_lt.trans (by norm_num)

theorem second_lt' : x.second < 10 ^ 2 := x.second_lt.trans (by norm_num)

variable {x} {y : Stamp}

def Shown (year month day hour minute second micro : ℕ) (offset : ℤ) : Prop :=
  (1 ≤ year ∧ year < 10 ^ 4) ∧ (1 ≤ month ∧ month ≤ 12) ∧ (1 ≤ day ∧ day ≤ daysInMonth year month) ∧
    hour < 24 ∧ minute < 60 ∧ second < 60 ∧ micro < 10 ^ 6 ∧ offset.natAbs < 86400 * 10 ^ 6

instance (year month day hour minute second micro : ℕ) (offset : ℤ) :
    Decidable (Shown year month day hour minute second micro offset) :=
  inferInstanceAs (Decidable (_ ∧ _))

def ofShown (year month day hour minute second micro : ℕ) (offset : ℤ)
    (h : Shown year month day hour minute second micro offset := by decide) : Stamp where
  year := year
  month := month
  day := day
  hour := hour
  minute := minute
  second := second
  micro := micro
  offset := offset
  year_pos := h.1.1
  year_lt := h.1.2
  month_pos := h.2.1.1
  month_le := h.2.1.2
  day_pos := h.2.2.1.1
  day_le := h.2.2.1.2
  hour_lt := h.2.2.2.1
  minute_lt := h.2.2.2.2.1
  second_lt := h.2.2.2.2.2.1
  micro_lt := h.2.2.2.2.2.2.1
  offset_lt := h.2.2.2.2.2.2.2

/-! ## The rendering in UTC -/

def yearOf (ordinal : ℕ) : Option ℕ :=
  (List.range' 1 9999).find? fun year => decide (ordinal ≤ daysBeforeYear (year + 1))

def monthOf (ordinal year : ℕ) : Option ℕ :=
  (List.range' 1 12).find? fun month =>
    decide (ordinal ≤ daysBeforeYear year + daysBeforeMonth year (month + 1))

def civil (year month day seconds micro : ℕ) : Option Stamp :=
  if h : (1 ≤ year ∧ year < 10 ^ 4) ∧ (1 ≤ month ∧ month ≤ 12) ∧
      (1 ≤ day ∧ day ≤ daysInMonth year month) ∧ micro < 10 ^ 6 then
    some
      { year, month, day, micro
        hour := seconds / 3600 % 24
        minute := seconds / 60 % 60
        second := seconds % 60
        offset := 0
        year_pos := h.1.1
        year_lt := h.1.2
        month_pos := h.2.1.1
        month_le := h.2.1.2
        day_pos := h.2.2.1.1
        day_le := h.2.2.1.2
        hour_lt := Nat.mod_lt _ (by decide)
        minute_lt := Nat.mod_lt _ (by decide)
        second_lt := Nat.mod_lt _ (by decide)
        micro_lt := h.2.2.2 }
  else none

def utc? (instant : ℤ) : Option Stamp :=
  let seconds := (instant / 10 ^ 6).toNat
  let ordinal := seconds / 86400
  if instant < 0 then none
  else
    (yearOf ordinal).bind fun year =>
      (monthOf ordinal year).bind fun month =>
        civil year month (ordinal - daysBeforeYear year - daysBeforeMonth year month) seconds
          (instant % 10 ^ 6).toNat

def utcText (instant : ℤ) : String :=
  String.ofList (((utc? instant).map isoformat).getD [])

theorem yearOf_ordinal : yearOf x.ordinal = some x.year := by
  have hyear := x.year_lt
  have hmonth : _ ≤ daysBeforeMonth x.year 13 :=
    daysBeforeMonth_lt x.month_pos (Nat.lt_succ_of_le x.month_le)
  have hsucc := daysBeforeYear_succ x.year_pos
  have hday := x.day_le
  refine List.find?_range'_eq_some.mpr ⟨decide_eq_true ?_, ?_, fun j hj hlt => ?_⟩
  · simp only [ordinal]
    omega
  · rw [List.mem_range'_1]
    exact ⟨x.year_pos, by omega⟩
  · -- an earlier year is over by then
    have hle := daysBeforeYear_mono (Nat.le_add_left 1 j) (Nat.succ_le_of_lt hlt)
    have hpos := x.day_pos
    rw [Bool.not_eq_true', decide_eq_false_iff_not]
    simp only [ordinal]
    omega

theorem monthOf_ordinal : monthOf x.ordinal x.year = some x.month := by
  have hsucc : daysBeforeMonth x.year (x.month + 1) = _ := daysBeforeMonth_succ x.month_pos
  have hday := x.day_le
  refine List.find?_range'_eq_some.mpr ⟨decide_eq_true ?_, ?_, fun j hj hlt => ?_⟩
  · simp only [ordinal]
    omega
  · rw [List.mem_range'_1]
    exact ⟨x.month_pos, by have := x.month_le; omega⟩
  · have hle : daysBeforeMonth x.year (j + 1) ≤ _ :=
      daysBeforeMonth_mono (Nat.le_add_left 1 j) (Nat.succ_le_of_lt hlt)
    have hpos := x.day_pos
    rw [Bool.not_eq_true', decide_eq_false_iff_not]
    simp only [ordinal]
    omega

theorem utc?_instant (h : x.offset = 0) : utc? x.instant = some x := by
  have hhour := x.hour_lt
  have hminute := x.minute_lt
  have hsecond := x.second_lt
  have hmicro := x.micro_lt
  have hseconds : (x.instant / 10 ^ 6).toNat = x.wallSeconds := by
    simp only [instant, h]
    omega
  have hordinal : x.wallSeconds / 86400 = x.ordinal := by
    simp only [wallSeconds]
    omega
  have hfraction : (x.instant % 10 ^ 6).toNat = x.micro := by
    simp only [instant, h]
    omega
  have hday : x.ordinal - daysBeforeYear x.year - daysBeforeMonth x.year x.month = x.day := by
    simp only [ordinal]
    omega
  have hnonneg : ¬ x.instant < 0 := by
    simp only [instant, h]
    omega
  unfold utc?
  simp only [hseconds, hordinal, hfraction, if_neg hnonneg, yearOf_ordinal, monthOf_ordinal,
    Option.bind_some, hday]
  unfold civil
  rw [dif_pos ⟨⟨x.year_pos, x.year_lt⟩, ⟨x.month_pos, x.month_le⟩, ⟨x.day_pos, x.day_le⟩, hmicro⟩]
  have h1 : x.wallSeconds / 3600 % 24 = x.hour := by
    simp only [wallSeconds]
    omega
  have h2 : x.wallSeconds / 60 % 60 = x.minute := by
    simp only [wallSeconds]
    omega
  have h3 : x.wallSeconds % 60 = x.second := by
    simp only [wallSeconds]
    omega
  simp only [h1, h2, h3]
  cases x
  simp only at h
  subst h
  rfl

theorem utc?_eq_some {t : ℤ} (h : utc? t = some x) : x.offset = 0 ∧ x.instant = t := by
  unfold utc? at h
  dsimp only at h
  split at h
  · cases h
  · rename_i hnonneg
    obtain ⟨year, hyear, h⟩ := Option.bind_eq_some_iff.mp h
    obtain ⟨month, hmonth, h⟩ := Option.bind_eq_some_iff.mp h
    unfold civil at h
    split at h
    · rename_i hcivil
      cases h
      refine ⟨rfl, ?_⟩
      simp only [instant, wallSeconds, ordinal]
      omega
    · cases h

/-! ## The text determines the timestamp -/

theorem fractionText_injective {m n : ℕ} (hm : m < 10 ^ 6) (hn : n < 10 ^ 6)
    (h : fractionText m = fractionText n) : m = n := by
  have cancel : digits 6 m = digits 6 n → m = n := fun e =>
    ((digits_append_inj hm hn (s := []) (t := [])).mp (by rw [e])).1
  simp only [fractionText] at h
  split_ifs at h with h0 h1 h1
  · exact h0.trans h1.symm
  · exact cancel (List.cons.inj h).2

theorem offsetSecondsText_injective {s t m n : ℕ} (hs : s < 60) (ht : t < 60) (hm : m < 10 ^ 6)
    (hn : n < 10 ^ 6) (h : offsetSecondsText s m = offsetSecondsText t n) : s = t ∧ m = n := by
  simp only [offsetSecondsText] at h
  split_ifs at h with h0 h1 h1
  · omega
  · have hs2 : s < 10 ^ 2 := by omega
    have ht2 : t < 10 ^ 2 := by omega
    obtain ⟨rfl, htail⟩ := (digits_append_inj hs2 ht2).mp (List.cons.inj h).2
    exact ⟨rfl, fractionText_injective hm hn htail⟩

theorem offsetText_injective {o p : ℤ} (ho : o.natAbs < 86400 * 10 ^ 6)
    (hp : p.natAbs < 86400 * 10 ^ 6) (h : offsetText o = offsetText p) : o = p := by
  have hho : o.natAbs / 10 ^ 6 / 3600 < 10 ^ 2 := by omega
  have hhp : p.natAbs / 10 ^ 6 / 3600 < 10 ^ 2 := by omega
  have hmo : o.natAbs / 10 ^ 6 / 60 % 60 < 10 ^ 2 := by omega
  have hmp : p.natAbs / 10 ^ 6 / 60 % 60 < 10 ^ 2 := by omega
  simp only [offsetText, List.cons.injEq, digits_append_inj hho hhp,
    digits_append_inj hmo hmp, true_and] at h
  obtain ⟨hsign, hhour, hminute, hrest⟩ := h
  obtain ⟨hsecond, hmicro⟩ :=
    offsetSecondsText_injective (by omega) (by omega) (by omega) (by omega) hrest
  have hsign' : o < 0 ↔ p < 0 := by
    by_cases h1 : o < 0 <;> by_cases h2 : p < 0 <;> simp [h1, h2] at hsign ⊢
  omega

theorem fractionText_append_injective
    (h : fractionText x.micro ++ offsetText x.offset =
      fractionText y.micro ++ offsetText y.offset) :
    x.micro = y.micro ∧ x.offset = y.offset := by
  have offset : offsetText x.offset = offsetText y.offset → x.offset = y.offset :=
    offsetText_injective x.offset_lt y.offset_lt
  have hsign : ∀ o : ℤ, (if o < 0 then '-' else '+') ≠ '.' := by
    intro o
    split <;> decide
  simp only [fractionText] at h
  split_ifs at h with hx hy hy
  · exact ⟨hx.trans hy.symm, offset h⟩
  · exact absurd (List.cons.inj h).1 (hsign _)
  · exact absurd (List.cons.inj h).1.symm (hsign _)
  · obtain ⟨hmicro, htail⟩ := (digits_append_inj x.micro_lt y.micro_lt).mp (List.cons.inj h).2
    exact ⟨hmicro, offset htail⟩

theorem isoformat_injective (h : x.isoformat = y.isoformat) : x = y := by
  simp only [isoformat, digits_append_inj x.year_lt y.year_lt, List.cons.injEq, true_and,
    digits_append_inj x.month_lt y.month_lt, digits_append_inj x.day_lt y.day_lt,
    digits_append_inj x.hour_lt' y.hour_lt', digits_append_inj x.minute_lt' y.minute_lt',
    digits_append_inj x.second_lt' y.second_lt'] at h
  obtain ⟨hyear, hmonth, hday, hhour, hminute, hsecond, htail⟩ := h
  obtain ⟨hmicro, hoffset⟩ := fractionText_append_injective htail
  cases x
  cases y
  simp only at hyear hmonth hday hhour hminute hsecond hmicro hoffset
  subst hyear hmonth hday hhour hminute hsecond hmicro hoffset
  rfl

end Stamp

end IsoText
