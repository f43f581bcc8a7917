/-
# `TradePlatform.Lib.RelativeError` — floats as roundings with a relative error

An operation on floats is the exact one with its result rounded, and a rounding is off by a
small part of what it rounds.  `Near n y x` counts the roundings that lead from the exact `x`
to the computed `y`; a comparison of computed values with a margin decides the exact one.
-/
import Mathlib

structure RelativeRounding where
  round : ℚ → ℚ
  round_err : ∀ x, |round x - x| ≤ |x| / 2 ^ 52

namespace RelativeRounding

variable (rnd : RelativeRounding) {n k : ℕ} {x y x' y' : ℚ}

def Near (n : ℕ) (y x : ℚ) : Prop := |y - x| ≤ ((1 + 1 / 2 ^ 52) ^ n - 1) * |x|

theorem Near.refl (x : ℚ) : Near 0 x x := by simp [Near]

theorem Near.abs_le_mul (h : Near n y x) : |y| ≤ (1 + 1 / 2 ^ 52) ^ n * |x| := by
  have htri := abs_sub_abs_le_abs_sub y x
  unfold Near at h
  linarith

theorem Near.round (h : Near n y x) : Near (n + 1) (rnd.round y) x := by
  have herr := rnd.round_err y
  have habs := h.abs_le_mul
  have htri := abs_sub_le (rnd.round y) y x
  unfold Near at h ⊢
  rw [pow_succ]
  have hstep : |y| / 2 ^ 52 ≤ (1 + 1 / 2 ^ 52) ^ n * |x| / 2 ^ 52 :=
    div_le_div_of_nonneg_right habs (by positivity)
  linarith

theorem Near.mul (h : Near n y x) (h' : Near k y' x') : Near (n + k) (y * y') (x * x') := by
  have habs := h.abs_le_mul
  unfold Near at h h' ⊢
  have hsplit : y * y' - x * x' = y * (y' - x') + (y - x) * x' := by ring
  rw [hsplit, pow_add, abs_mul x x']
  refine (abs_add_le _ _).trans ?_
  rw [abs_mul, abs_mul]
  have hfirst : |y| * |y' - x'| ≤
      (1 + 1 / 2 ^ 52) ^ n * |x| * (((1 + 1 / 2 ^ 52) ^ k - 1) * |x'|) :=
    mul_le_mul habs h' (abs_nonneg _) (by positivity)
  have hsecond : |y - x| * |x'| ≤ ((1 + 1 / 2 ^ 52) ^ n - 1) * |x| * |x'| :=
    mul_le_mul_of_nonneg_right h (abs_nonneg _)
  linarith

theorem Near.abs_sub_le (hn : n ≤ 5) (h : Near n y x) : |y - x| ≤ |y| / 10 ^ 14 := by
  have hpow : ((1 : ℚ) + 1 / 2 ^ 52) ^ n ≤ (1 + 1 / 2 ^ 52) ^ 5 :=
    pow_le_pow_right₀ (by norm_num) hn
  have hsmall : ((1 : ℚ) + 1 / 2 ^ 52) ^ 5 - 1 ≤ 1 / (2 * 10 ^ 14) := by norm_num
  have herr : |y - x| ≤ 1 / (2 * 10 ^ 14) * |x| := by
    unfold Near at h
    exact h.trans (mul_le_mul_of_nonneg_right (by linarith) (abs_nonneg _))
  have htri : |x| - |y - x| ≤ |y| := by
    have hsub := abs_sub_abs_le_abs_sub x y
    rw [abs_sub_comm] at hsub
    linarith
  have hpos := abs_nonneg x
  linarith

theorem half_margin_lt {d M : ℚ} (hM : 1 ≤ M)
    (h : rnd.round (rnd.round (1 / 10 ^ 9) * M) < |rnd.round d|) : M / (2 * 10 ^ 9) < |d| := by
  have htol := rnd.round_err (1 / 10 ^ 9)
  rw [abs_of_pos (show (0 : ℚ) < 1 / 10 ^ 9 by norm_num)] at htol
  have htol_le := (abs_le.mp htol).1
  have htol_pos : (3 : ℚ) / (4 * 10 ^ 9) ≤ rnd.round (1 / 10 ^ 9) := by
    norm_num at htol_le ⊢
    linarith
  have hprod : 3 / (4 * 10 ^ 9) * M ≤ rnd.round (1 / 10 ^ 9) * M :=
    mul_le_mul_of_nonneg_right htol_pos (by linarith)
  have hround := rnd.round_err (rnd.round (1 / 10 ^ 9) * M)
  rw [abs_of_nonneg (show 0 ≤ rnd.round (1 / 10 ^ 9) * M by linarith)] at hround
  have hround_le := (abs_le.mp hround).1
  have herr := rnd.round_err d
  have htri := abs_sub_abs_le_abs_sub (rnd.round d) d
  generalize rnd.round (1 / 10 ^ 9) * M = t at *
  linarith

variable {l r left right : ℚ}

theorem lt_or_lt_of_margin (hleft : Near n left l) (hright : Near k right r) (hn : n ≤ 5)
    (hk : k ≤ 5) (hmargin : rnd.round (rnd.round (1 / 10 ^ 9) * max (max |left| |right|) 1) <
      |rnd.round (left - right)|) : left < right ∧ l < r ∨ right < left ∧ r < l := by
  have hgap := rnd.half_margin_lt (le_max_right _ _) hmargin
  have hl := abs_le.mp (hleft.abs_sub_le hn)
  have hr := abs_le.mp (hright.abs_sub_le hk)
  have hleft_le : |left| ≤ max (max |left| |right|) 1 :=
    (le_max_left _ _).trans (le_max_left _ _)
  have hright_le : |right| ≤ max (max |left| |right|) 1 :=
    (le_max_right _ _).trans (le_max_left _ _)
  have hM : 1 ≤ max (max |left| |right|) 1 := le_max_right _ _
  generalize max (max |left| |right|) 1 = M at *
  rcases le_or_gt left right with hle | hlt
  · rw [abs_of_nonpos (by linarith)] at hgap
    exact .inl ⟨by linarith, by linarith⟩
  · rw [abs_of_pos (by linarith)] at hgap
    exact .inr ⟨hlt, by linarith⟩

end RelativeRounding
