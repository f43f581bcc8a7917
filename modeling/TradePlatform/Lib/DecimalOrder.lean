/-
# `TradePlatform.Lib.DecimalOrder` — rounding keeps the order

Rounding to a number of significant digits is odd and monotone, so a number that the
context represents lies on the same side of a rounded bound as of the exact one.
-/
import TradePlatform.Lib.DecimalExact

namespace Decimal

theorem roundHalfEven_neg (x : ℚ) : roundHalfEven (-x) = -roundHalfEven x := by
  rcases eq_or_ne (x - ⌊x⌋) 0 with hint | hne
  · have hx : x = (⌊x⌋ : ℤ) := by linarith
    rw [hx, ← Int.cast_neg, roundHalfEven_intCast, roundHalfEven_intCast]
  · have hlo := Int.floor_le x
    have hhi := Int.lt_floor_add_one x
    have hpos : 0 < x - ⌊x⌋ := lt_of_le_of_ne (by linarith) hne.symm
    have hfloor : ⌊-x⌋ = -⌊x⌋ - 1 := by
      rw [Int.floor_eq_iff]
      push_cast
      constructor <;> linarith
    unfold roundHalfEven
    rw [hfloor]
    push_cast
    rcases lt_trichotomy (x - ⌊x⌋) (1 / 2) with h | h | h
    · rw [if_neg (show ¬ -x - (-(⌊x⌋ : ℚ) - 1) < 1 / 2 by linarith),
        if_pos (show 1 / 2 < -x - (-(⌊x⌋ : ℚ) - 1) by linarith), if_pos h]
      ring
    · rw [if_neg (show ¬ -x - (-(⌊x⌋ : ℚ) - 1) < 1 / 2 by linarith),
        if_neg (show ¬ 1 / 2 < -x - (-(⌊x⌋ : ℚ) - 1) by linarith), if_neg h.not_lt,
        if_neg (show ¬ 1 / 2 < x - ⌊x⌋ by linarith)]
      rcases Int.emod_two_eq_zero_or_one ⌊x⌋ with he | he
      · rw [if_pos he, if_neg (by omega)]
        ring
      · rw [if_neg (show ¬ ⌊x⌋ % 2 = 0 by omega), if_pos (by omega)]
        ring
    · rw [if_pos (show -x - (-(⌊x⌋ : ℚ) - 1) < 1 / 2 by linarith), if_neg h.not_gt, if_pos h]
      ring

theorem roundSig_neg (prec : ℕ) (x : ℚ) : roundSig prec (-x) = -roundSig prec x := by
  unfold roundSig
  by_cases hx : x = 0
  · simp [hx]
  · rw [if_neg hx, if_neg (neg_ne_zero.mpr hx), abs_neg]
    dsimp only
    rw [neg_div, roundHalfEven_neg]
    push_cast
    ring

theorem roundSig_bounds {prec : ℕ} (hprec : 0 < prec) {x : ℚ} (hx : 0 < x) :
    (10 : ℚ) ^ Int.log 10 x ≤ roundSig prec x ∧
      roundSig prec x ≤ (10 : ℚ) ^ (Int.log 10 x + 1) := by
  have hlo : (10 : ℚ) ^ Int.log 10 x ≤ x := by
    exact_mod_cast Int.zpow_log_le_self (by norm_num : 1 < 10) hx
  have hhi : x < (10 : ℚ) ^ (Int.log 10 x + 1) := by
    exact_mod_cast Int.lt_zpow_succ_log_self (by norm_num : 1 < 10) x
  unfold roundSig
  rw [if_neg hx.ne', abs_of_pos hx]
  dsimp only
  generalize Int.log 10 x = n at hlo hhi ⊢
  obtain ⟨p, rfl⟩ := Nat.exists_eq_succ_of_ne_zero hprec.ne'
  have hunit : (0 : ℚ) < 10 ^ (n + 1 - ((p + 1 : ℕ) : ℤ)) := zpow_pos (by norm_num) _
  have hsplit : (10 : ℚ) ^ n = ((10 ^ p : ℤ) : ℚ) * 10 ^ (n + 1 - ((p + 1 : ℕ) : ℤ)) := by
    push_cast
    rw [← zpow_natCast, ← zpow_add₀ (by norm_num)]
    congr 1
    ring
  have hsplit' : (10 : ℚ) ^ (n + 1) =
      ((10 ^ (p + 1) : ℤ) : ℚ) * 10 ^ (n + 1 - ((p + 1 : ℕ) : ℤ)) := by
    push_cast
    rw [← zpow_natCast, ← zpow_add₀ (by norm_num)]
    congr 1
    push_cast
    ring
  rw [hsplit] at hlo
  rw [hsplit'] at hhi
  rw [hsplit, hsplit']
  constructor
  · refine mul_le_mul_of_nonneg_right ?_ hunit.le
    have hdiv := roundHalfEven_mono ((le_div_iff₀ hunit).mpr hlo)
    rw [roundHalfEven_intCast] at hdiv
    exact_mod_cast hdiv
  · refine mul_le_mul_of_nonneg_right ?_ hunit.le
    have hdiv := roundHalfEven_mono ((div_le_iff₀ hunit).mpr hhi.le)
    rw [roundHalfEven_intCast] at hdiv
    exact_mod_cast hdiv

theorem roundSig_mono_of_pos {prec : ℕ} (hprec : 0 < prec) {x y : ℚ} (hx : 0 < x) (h : x ≤ y) :
    roundSig prec x ≤ roundSig prec y := by
  have hy := hx.trans_le h
  have hlog : Int.log 10 x ≤ Int.log 10 y := Int.log_mono_right hx h
  rcases hlog.eq_or_lt with hlog | hlog
  · unfold roundSig
    rw [if_neg hx.ne', if_neg hy.ne', abs_of_pos hx, abs_of_pos hy, hlog]
    dsimp only
    have hunit : (0 : ℚ) < 10 ^ (Int.log 10 y + 1 - (prec : ℤ)) := zpow_pos (by norm_num) _
    refine mul_le_mul_of_nonneg_right ?_ hunit.le
    exact_mod_cast roundHalfEven_mono (div_le_div_of_nonneg_right h hunit.le)
  · calc roundSig prec x ≤ (10 : ℚ) ^ (Int.log 10 x + 1) := (roundSig_bounds hprec hx).2
      _ ≤ (10 : ℚ) ^ Int.log 10 y := zpow_le_zpow_right₀ (by norm_num) (by omega)
      _ ≤ roundSig prec y := (roundSig_bounds hprec hy).1

theorem roundSig_nonneg {prec : ℕ} (hprec : 0 < prec) {x : ℚ} (hx : 0 ≤ x) :
    0 ≤ roundSig prec x := by
  rcases hx.eq_or_lt with rfl | hx
  · simp [roundSig]
  · exact (zpow_pos (by norm_num) _).le.trans (roundSig_bounds hprec hx).1

theorem roundSig_mono {prec : ℕ} (hprec : 0 < prec) {x y : ℚ} (h : x ≤ y) :
    roundSig prec x ≤ roundSig prec y := by
  rcases lt_or_ge 0 x with hx | hx
  · exact roundSig_mono_of_pos hprec hx h
  · rcases lt_or_ge y 0 with hy | hy
    · have hneg := roundSig_mono_of_pos hprec (neg_pos.mpr hy) (neg_le_neg h)
      rw [roundSig_neg, roundSig_neg] at hneg
      linarith
    · have hxneg := roundSig_nonneg hprec (neg_nonneg.mpr hx)
      rw [roundSig_neg] at hxneg
      linarith [roundSig_nonneg hprec hy]

theorem lt_of_lt_roundSig {prec : ℕ} (hprec : 0 < prec) {v x : ℚ} (hv : roundSig prec v = v)
    (h : v < roundSig prec x) : v < x := by
  by_contra hge
  have hmono := roundSig_mono hprec (not_lt.mp hge)
  rw [hv] at hmono
  exact absurd h (not_lt.mpr hmono)

theorem lt_of_roundSig_lt {prec : ℕ} (hprec : 0 < prec) {v x : ℚ} (hv : roundSig prec v = v)
    (h : roundSig prec x < v) : x < v := by
  by_contra hge
  have hmono := roundSig_mono hprec (not_lt.mp hge)
  rw [hv] at hmono
  exact absurd h (not_lt.mpr hmono)

end Decimal
