/-
# `TradePlatform.Lib.DecimalExact` — decimals that a context of enough digits does not round

`Fits k b x` says that `x` has at most `k` fractional digits and a coefficient of at most
`b`.  Sums and products of such numbers are such numbers, and a context of more digits
than the coefficient has represents them.
-/
import TradePlatform.Lib.Binary64

namespace Decimal

def Fits (k : ℕ) (b : ℤ) (x : ℚ) : Prop := ∃ m : ℤ, x = m / 10 ^ k ∧ |m| ≤ b

namespace Fits

variable {k l : ℕ} {b c : ℤ} {x y : ℚ}

theorem zero (k : ℕ) : Fits k 0 0 := ⟨0, by simp, by simp⟩

theorem intCast (n : ℤ) : Fits 0 |n| n := ⟨n, by simp, le_rfl⟩

theorem natCast (n : ℕ) : Fits 0 n n := ⟨n, by simp, by simp⟩

theorem mono (h : Fits k b x) (hb : b ≤ c) : Fits k c x := by
  obtain ⟨m, hx, hm⟩ := h
  exact ⟨m, hx, hm.trans hb⟩

theorem add (hx : Fits k b x) (hy : Fits k c y) : Fits k (b + c) (x + y) := by
  obtain ⟨m, rfl, hm⟩ := hx
  obtain ⟨n, rfl, hn⟩ := hy
  refine ⟨m + n, ?_, (abs_add_le m n).trans (add_le_add hm hn)⟩
  push_cast
  ring

theorem neg (hx : Fits k b x) : Fits k b (-x) := by
  obtain ⟨m, rfl, hm⟩ := hx
  refine ⟨-m, ?_, (abs_neg m).symm ▸ hm⟩
  push_cast
  ring

theorem sub (hx : Fits k b x) (hy : Fits k c y) : Fits k (b + c) (x - y) :=
  sub_eq_add_neg x y ▸ hx.add hy.neg

theorem mul (hx : Fits k b x) (hy : Fits l c y) : Fits (k + l) (b * c) (x * y) := by
  obtain ⟨m, rfl, hm⟩ := hx
  obtain ⟨n, rfl, hn⟩ := hy
  refine ⟨m * n, ?_, ?_⟩
  · push_cast
    rw [pow_add]
    field_simp
  · rw [abs_mul]
    exact mul_le_mul hm hn (abs_nonneg n) ((abs_nonneg m).trans hm)

theorem scale (hx : Fits k b x) (d : ℕ) : Fits (k + d) (b * 10 ^ d) x := by
  obtain ⟨m, rfl, hm⟩ := hx
  refine ⟨m * 10 ^ d, ?_, ?_⟩
  · push_cast
    rw [pow_add]
    field_simp
  · rw [abs_mul, abs_of_pos (show (0 : ℤ) < 10 ^ d by positivity)]
    exact mul_le_mul_of_nonneg_right hm (by positivity)

theorem sum {values : List ℚ} (h : ∀ x ∈ values, Fits k b x) :
    Fits k (values.length * b) values.sum := by
  induction values with
  | nil => simpa using zero k
  | cons x values ih =>
      have hx := h x List.mem_cons_self
      have hsum := ih fun y hy => h y (List.mem_cons_of_mem _ hy)
      rw [List.sum_cons, List.length_cons]
      refine (hx.add hsum).mono (le_of_eq ?_)
      push_cast
      ring

theorem log_add_one_sub_le {m : ℤ} {prec : ℕ} (hne : m ≠ 0) (hm : |m| < 10 ^ prec) :
    Int.log 10 (|(m : ℚ)| / 10 ^ k) + 1 - prec ≤ -(k : ℤ) := by
  have hpos : 0 < |(m : ℚ)| / 10 ^ k :=
    div_pos (abs_pos.mpr (by exact_mod_cast hne)) (by positivity)
  have hcast : |(m : ℚ)| < 10 ^ prec := by exact_mod_cast hm
  have hlt : |(m : ℚ)| / 10 ^ k < ((10 : ℕ) : ℚ) ^ ((prec : ℤ) - k) := by
    push_cast
    rw [zpow_sub₀ (by norm_num), zpow_natCast, zpow_natCast]
    exact div_lt_div_of_pos_right hcast (by positivity)
  have hlog := (Int.lt_zpow_iff_log_lt (by norm_num) hpos).mp hlt
  omega

theorem roundSig_eq {prec : ℕ} (h : Fits k b x) (hb : b < 10 ^ prec) : roundSig prec x = x := by
  obtain ⟨m, rfl, hm⟩ := h
  rcases eq_or_ne m 0 with rfl | hne
  · simp [roundSig]
  have hunit := log_add_one_sub_le (k := k) hne (hm.trans_lt hb)
  have hx0 : (m : ℚ) / 10 ^ k ≠ 0 := div_ne_zero (by exact_mod_cast hne) (by positivity)
  have habs : |(m : ℚ) / 10 ^ k| = |(m : ℚ)| / 10 ^ k := by
    rw [abs_div, abs_of_pos (show (0 : ℚ) < 10 ^ k by positivity)]
  unfold roundSig
  rw [if_neg hx0, habs]
  dsimp only
  generalize Int.log 10 (|(m : ℚ)| / 10 ^ k) + 1 - prec = e at hunit ⊢
  obtain ⟨d, hd⟩ := Int.eq_ofNat_of_zero_le (show 0 ≤ -(k : ℤ) - e by omega)
  have hpow : (10 : ℚ) ^ d = 10 ^ (-(k : ℤ)) / 10 ^ e := by
    rw [← zpow_sub₀ (by norm_num), hd, zpow_natCast]
  have hquot : (m : ℚ) / 10 ^ k / 10 ^ e = ((m * 10 ^ d : ℤ) : ℚ) := by
    push_cast
    rw [hpow, zpow_neg, zpow_natCast]
    ring
  have he : (10 : ℚ) ^ e ≠ 0 := zpow_ne_zero _ (by norm_num)
  rw [hquot, roundHalfEven_intCast, ← hquot]
  exact div_mul_cancel₀ _ he

end Fits

/-- What a context of `prec` digits represents it represents on the grid of a scale, as long as
that has no more digits before the point. -/
theorem roundSig_mul_pow {prec k : ℕ} {x : ℚ} (hx : roundSig prec x = x)
    (hlt : |x * 10 ^ k| < 10 ^ prec) : roundSig prec (x * 10 ^ k) = x * 10 ^ k := by
  rcases eq_or_ne x 0 with rfl | hne
  · simp [roundSig]
  unfold roundSig at hx
  rw [if_neg hne] at hx
  dsimp only at hx
  have hlog : |x| < (10 : ℚ) ^ (Int.log 10 |x| + 1) := by
    exact_mod_cast Int.lt_zpow_succ_log_self (by norm_num : 1 < 10) |x|
  rw [show Int.log 10 |x| + 1 = (Int.log 10 |x| + 1 - prec) + prec by ring] at hlog
  generalize Int.log 10 |x| + 1 - prec = e at hx hlog
  generalize roundHalfEven (x / 10 ^ e) = coefficient at hx
  have hpow : (0 : ℚ) < 10 ^ e := zpow_pos (by norm_num) e
  have hcoefficient : |(coefficient : ℚ)| < 10 ^ prec := by
    rw [← hx, abs_mul, abs_of_pos hpow, zpow_add₀ (by norm_num), zpow_natCast, mul_comm] at hlog
    exact lt_of_mul_lt_mul_left hlog hpow.le
  have hshift : x * 10 ^ k = coefficient * (10 : ℚ) ^ (e + k) := by
    rw [zpow_add₀ (by norm_num), zpow_natCast, ← mul_assoc, hx]
  rcases le_total 0 (e + k) with hsign | hsign
  · obtain ⟨d, hd⟩ := Int.eq_ofNat_of_zero_le hsign
    have hint : x * 10 ^ k = ((coefficient * 10 ^ d : ℤ) : ℚ) := by
      rw [hshift, hd, zpow_natCast]
      push_cast
      rfl
    rw [hint] at hlt ⊢
    exact (Fits.intCast _).roundSig_eq (by exact_mod_cast hlt)
  · obtain ⟨d, hd⟩ := Int.eq_ofNat_of_zero_le (show 0 ≤ -(e + k) by omega)
    have hfits : Fits d |coefficient| (x * 10 ^ k) := by
      refine ⟨coefficient, ?_, le_rfl⟩
      rw [hshift, show e + k = -(d : ℤ) by omega, zpow_neg, zpow_natCast, div_eq_mul_inv]
    exact hfits.roundSig_eq (by exact_mod_cast hcoefficient)

end Decimal
