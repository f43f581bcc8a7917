/-
# `TradePlatform.Lib.Binary64` — the double nearest to an integer

A quotient of two durations is a double.  Of a whole number of microseconds that is the
number itself up to `2 ^ 53`, and beyond it the nearest multiple of a power of two, ties
to the even one.  Rounding is monotone over the whole range.
-/
import TradePlatform.Lib.Decimal

namespace Decimal

theorem floor_le_roundHalfEven (x : ℚ) : ⌊x⌋ ≤ roundHalfEven x := by
  unfold roundHalfEven
  split_ifs <;> omega

theorem roundHalfEven_le_floor (x : ℚ) : roundHalfEven x ≤ ⌊x⌋ + 1 := by
  unfold roundHalfEven
  split_ifs <;> omega

theorem roundHalfEven_mono {x y : ℚ} (h : x ≤ y) : roundHalfEven x ≤ roundHalfEven y := by
  rcases (Int.floor_mono h).lt_or_eq with hlt | heq
  · have hx := roundHalfEven_le_floor x
    have hy := floor_le_roundHalfEven y
    omega
  · simp only [roundHalfEven, heq]
    split_ifs <;> first | omega | (exfalso; linarith)

@[simp] theorem roundHalfEven_intCast (n : ℤ) : roundHalfEven (n : ℚ) = n := by
  simp [roundHalfEven]

end Decimal

namespace Binary64

open Decimal

def exponent (n : ℤ) : ℕ := Nat.log2 n.natAbs - 52

def roundAt (e : ℕ) (n : ℤ) : ℤ := roundHalfEven ((n : ℚ) / 2 ^ e) * 2 ^ e

def ofInt (n : ℤ) : ℤ := roundAt (exponent n) n

theorem roundAt_mono (e : ℕ) {m n : ℤ} (h : m ≤ n) : roundAt e m ≤ roundAt e n := by
  have hq : (m : ℚ) / 2 ^ e ≤ (n : ℚ) / 2 ^ e := by gcongr
  exact mul_le_mul_of_nonneg_right (roundHalfEven_mono hq) (by positivity)

theorem roundAt_mul (e : ℕ) (n : ℤ) : roundAt e (n * 2 ^ e) = n * 2 ^ e := by
  have hq : ((n * 2 ^ e : ℤ) : ℚ) / 2 ^ e = n := by
    push_cast
    field_simp
  rw [roundAt, hq, roundHalfEven_intCast]

theorem roundAt_pow {e k : ℕ} (h : e ≤ k) : roundAt e (2 ^ k) = 2 ^ k := by
  have hk : (2 : ℤ) ^ k = 2 ^ (k - e) * 2 ^ e := by
    rw [← pow_add, Nat.sub_add_cancel h]
  rw [hk, roundAt_mul]

theorem roundAt_neg_pow {e k : ℕ} (h : e ≤ k) : roundAt e (-2 ^ k) = -2 ^ k := by
  have hk : -(2 : ℤ) ^ k = -2 ^ (k - e) * 2 ^ e := by
    rw [neg_mul, ← pow_add, Nat.sub_add_cancel h]
  rw [hk, roundAt_mul]

@[simp] theorem roundAt_zero (e : ℕ) : roundAt e 0 = 0 := by simpa using roundAt_mul e 0

theorem exponent_lt {m n : ℤ} (h : exponent m < exponent n) :
    |m| < 2 ^ Nat.log2 n.natAbs ∧ 2 ^ Nat.log2 n.natAbs ≤ |n| ∧
      exponent n ≤ Nat.log2 n.natAbs := by
  simp only [exponent] at h
  have hn : n.natAbs ≠ 0 := by
    intro h0
    simp [h0] at h
  have hm : m.natAbs < 2 ^ Nat.log2 n.natAbs := by
    by_cases hm : m.natAbs = 0
    · rw [hm]
      positivity
    · exact (Nat.log2_lt hm).mp (by omega)
  have hn' : 2 ^ Nat.log2 n.natAbs ≤ n.natAbs := Nat.log2_self_le hn
  refine ⟨?_, ?_, Nat.sub_le _ _⟩
  · rw [Int.abs_eq_natAbs]
    exact_mod_cast hm
  · rw [Int.abs_eq_natAbs n]
    exact_mod_cast hn'

theorem exponent_mono {m n : ℤ} (h : m.natAbs ≤ n.natAbs) : exponent m ≤ exponent n := by
  rw [exponent, exponent, Nat.log2_eq_log_two, Nat.log2_eq_log_two]
  exact Nat.sub_le_sub_right (Nat.log_mono_right h) 52

/-- Rounding is monotone: where the last bits differ, a power of two, which neither
rounding moves, lies between the numbers. -/
theorem ofInt_mono {m n : ℤ} (h : m ≤ n) : ofInt m ≤ ofInt n := by
  rcases lt_trichotomy (exponent m) (exponent n) with hlt | heq | hlt
  · obtain ⟨hm, hn, hk⟩ := exponent_lt hlt
    have hpos : 0 ≤ n := by
      by_contra hneg
      have := exponent_mono (m := n) (n := m) (by omega)
      omega
    have hm' : m ≤ 2 ^ Nat.log2 n.natAbs := (abs_lt.mp hm).2.le
    have hn' : 2 ^ Nat.log2 n.natAbs ≤ n := by rwa [abs_of_nonneg hpos] at hn
    calc ofInt m ≤ roundAt (exponent m) (2 ^ Nat.log2 n.natAbs) := roundAt_mono _ hm'
      _ = 2 ^ Nat.log2 n.natAbs := roundAt_pow (hlt.le.trans hk)
      _ = roundAt (exponent n) (2 ^ Nat.log2 n.natAbs) := (roundAt_pow hk).symm
      _ ≤ ofInt n := roundAt_mono _ hn'
  · simpa [ofInt, heq] using roundAt_mono (exponent n) h
  · obtain ⟨hn, hm, hk⟩ := exponent_lt hlt
    have hneg : m < 0 := by
      by_contra hpos
      have := exponent_mono (m := m) (n := n) (by omega)
      omega
    have hm' : m ≤ -2 ^ Nat.log2 m.natAbs := by
      rw [abs_of_neg hneg] at hm
      omega
    have hn' : -2 ^ Nat.log2 m.natAbs ≤ n := (abs_lt.mp hn).1.le
    calc ofInt m ≤ roundAt (exponent m) (-2 ^ Nat.log2 m.natAbs) := roundAt_mono _ hm'
      _ = -2 ^ Nat.log2 m.natAbs := roundAt_neg_pow hk
      _ = roundAt (exponent n) (-2 ^ Nat.log2 m.natAbs) := (roundAt_neg_pow (hlt.le.trans hk)).symm
      _ ≤ ofInt n := roundAt_mono _ hn'

end Binary64
