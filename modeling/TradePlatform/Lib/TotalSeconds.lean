/-
# `TradePlatform.Lib.TotalSeconds` — the seconds of a duration as a double, and their whole part

The quotient of a duration in microseconds by a million is the double nearest to it: 53
significant binary digits, ties to the even one.  Its whole part is that of the quotient or the
next whole number away from zero, and it is monotone in the duration.
-/
import TradePlatform.Lib.DecimalOrder

namespace Binary64

open Decimal (roundDown roundHalfEven roundHalfEven_mono roundHalfEven_neg roundHalfEven_intCast)

/-! ## The double nearest to a number -/

def nearest (x : ℚ) : ℚ :=
  if x = 0 then 0
  else
    let e : ℤ := Int.log 2 |x| - 52
    roundHalfEven (x / 2 ^ e) * 2 ^ e

theorem nearest_neg (x : ℚ) : nearest (-x) = -nearest x := by
  unfold nearest
  by_cases hx : x = 0
  · simp [hx]
  · rw [if_neg hx, if_neg (neg_ne_zero.mpr hx), abs_neg]
    dsimp only
    rw [neg_div, roundHalfEven_neg]
    push_cast
    ring

theorem nearest_intCast {n : ℤ} (h : |n| < 2 ^ 53) : nearest n = n := by
  rcases eq_or_ne n 0 with rfl | hne
  · simp [nearest]
  have hpos : (0 : ℚ) < |(n : ℚ)| := abs_pos.mpr (by exact_mod_cast hne)
  have hlt : |(n : ℚ)| < ((2 : ℕ) : ℚ) ^ ((53 : ℕ) : ℤ) := by
    rw [zpow_natCast]
    exact_mod_cast h
  have hlog := (Int.lt_zpow_iff_log_lt (by norm_num) hpos).mp hlt
  obtain ⟨d, hd⟩ := Int.eq_ofNat_of_zero_le (show 0 ≤ -(Int.log 2 |(n : ℚ)| - 52) by omega)
  have he : Int.log 2 |(n : ℚ)| - 52 = -(d : ℤ) := by omega
  unfold nearest
  rw [if_neg (by exact_mod_cast hne), he]
  dsimp only
  have hquot : (n : ℚ) / 2 ^ (-(d : ℤ)) = ((n * 2 ^ d : ℤ) : ℚ) := by
    rw [zpow_neg, zpow_natCast, div_inv_eq_mul]
    push_cast
    rfl
  rw [hquot, roundHalfEven_intCast, ← hquot]
  exact div_mul_cancel₀ _ (zpow_ne_zero _ (by norm_num))

theorem two_zpow {n e : ℤ} {k : ℕ} (h : n = k + e) :
    (2 : ℚ) ^ n = ((2 ^ k : ℤ) : ℚ) * 2 ^ e := by
  push_cast
  rw [← zpow_natCast, ← zpow_add₀ (by norm_num), h]

theorem nearest_bounds {x : ℚ} (hx : 0 < x) :
    (2 : ℚ) ^ Int.log 2 x ≤ nearest x ∧ nearest x ≤ (2 : ℚ) ^ (Int.log 2 x + 1) := by
  have hlo : (2 : ℚ) ^ Int.log 2 x ≤ x := by
    exact_mod_cast Int.zpow_log_le_self (by norm_num : 1 < 2) hx
  have hhi : x < (2 : ℚ) ^ (Int.log 2 x + 1) := by
    exact_mod_cast Int.lt_zpow_succ_log_self (by norm_num : 1 < 2) x
  unfold nearest
  rw [if_neg hx.ne', abs_of_pos hx]
  dsimp only
  generalize Int.log 2 x = n at hlo hhi ⊢
  have hunit : (0 : ℚ) < 2 ^ (n - 52) := zpow_pos (by norm_num) _
  have hsplit := @two_zpow n (n - 52) 52 (by omega)
  have hsplit' := @two_zpow (n + 1) (n - 52) 53 (by omega)
  rw [hsplit] at hlo
  rw [hsplit'] at hhi
  rw [hsplit, hsplit']
  constructor
  · refine mul_le_mul_of_nonneg_right ?_ hunit.le
    have hdiv := roundHalfEven_mono ((le_div_iff₀ hunit).mpr hlo)
    rw [roundHalfEven_intCast] at hdiv
    exact_mod_cast hdiv
  · refine mul_le_mul_of_nonneg_right ?_ hunit.le
    have hdiv := roundHalfEven_mono ((div_le_iff₀ hunit).mpr hhi.le)
    rw [roundHalfEven_intCast] at hdiv
    exact_mod_cast hdiv

theorem nearest_mono_of_pos {x y : ℚ} (hx : 0 < x) (h : x ≤ y) : nearest x ≤ nearest y := by
  have hy := hx.trans_le h
  rcases (Int.log_mono_right hx h : Int.log 2 x ≤ Int.log 2 y).eq_or_lt with hlog | hlog
  · unfold nearest
    rw [if_neg hx.ne', if_neg hy.ne', abs_of_pos hx, abs_of_pos hy, hlog]
    dsimp only
    have hunit : (0 : ℚ) < 2 ^ (Int.log 2 y - 52) := zpow_pos (by norm_num) _
    refine mul_le_mul_of_nonneg_right ?_ hunit.le
    exact_mod_cast roundHalfEven_mono (div_le_div_of_nonneg_right h hunit.le)
  · calc nearest x ≤ (2 : ℚ) ^ (Int.log 2 x + 1) := (nearest_bounds hx).2
      _ ≤ (2 : ℚ) ^ Int.log 2 y := zpow_le_zpow_right₀ (by norm_num) (by omega)
      _ ≤ nearest y := (nearest_bounds hy).1

theorem nearest_nonneg {x : ℚ} (hx : 0 ≤ x) : 0 ≤ nearest x := by
  rcases hx.eq_or_lt with rfl | hx
  · simp [nearest]
  · exact (zpow_pos (by norm_num) _).le.trans (nearest_bounds hx).1

theorem nearest_mono {x y : ℚ} (h : x ≤ y) : nearest x ≤ nearest y := by
  rcases lt_or_ge 0 x with hx | hx
  · exact nearest_mono_of_pos hx h
  · rcases lt_or_ge y 0 with hy | hy
    · have hneg := nearest_mono_of_pos (neg_pos.mpr hy) (neg_le_neg h)
      rw [nearest_neg, nearest_neg] at hneg
      linarith
    · have hxneg := nearest_nonneg (neg_nonneg.mpr hx)
      rw [nearest_neg] at hxneg
      linarith [nearest_nonneg hy]

/-! ## The whole part -/

theorem roundDown_intCast (n : ℤ) : roundDown (n : ℚ) = n := by
  unfold roundDown
  rw [← Int.cast_neg, Int.floor_intCast, Int.floor_intCast, neg_neg, ite_self]

theorem roundDown_mono {x y : ℚ} (h : x ≤ y) : roundDown x ≤ roundDown y := by
  unfold roundDown
  by_cases hx : 0 ≤ x
  · rw [if_pos hx, if_pos (hx.trans h)]
    exact Int.floor_mono h
  · have hceil : -⌊-x⌋ ≤ 0 := by
      have hnonneg : 0 ≤ ⌊-x⌋ := Int.floor_nonneg.mpr (by linarith)
      omega
    rw [if_neg hx]
    by_cases hy : 0 ≤ y
    · rw [if_pos hy]
      exact hceil.trans (Int.floor_nonneg.mpr hy)
    · rw [if_neg hy]
      exact neg_le_neg (Int.floor_mono (neg_le_neg h))

/-- `int(duration.total_seconds())`, of a duration in microseconds. -/
def wholeSeconds (duration : ℤ) : ℤ := roundDown (nearest (duration / 10 ^ 6))

theorem wholeSeconds_mono {d d' : ℤ} (h : d ≤ d') : wholeSeconds d ≤ wholeSeconds d' := by
  refine roundDown_mono (nearest_mono ?_)
  have hcast : (d : ℚ) ≤ d' := by exact_mod_cast h
  gcongr

theorem wholeSeconds_mul {n : ℤ} (h : |n| < 2 ^ 53) : wholeSeconds (n * 10 ^ 6) = n := by
  have hquot : ((n * 10 ^ 6 : ℤ) : ℚ) / 10 ^ 6 = n := by
    rw [Int.cast_mul, Int.cast_pow, Int.cast_ofNat]
    exact mul_div_cancel_right₀ _ (by norm_num)
  unfold wholeSeconds
  rw [hquot, nearest_intCast h, roundDown_intCast]

variable {d n : ℤ}

theorem le_wholeSeconds (hn : |n| < 2 ^ 53) (h : n * 10 ^ 6 ≤ d) : n ≤ wholeSeconds d := by
  have hmono := wholeSeconds_mono h
  rwa [wholeSeconds_mul hn] at hmono

theorem wholeSeconds_le (hn : |n| < 2 ^ 53) (h : d ≤ n * 10 ^ 6) : wholeSeconds d ≤ n := by
  have hmono := wholeSeconds_mono h
  rwa [wholeSeconds_mul hn] at hmono

end Binary64
