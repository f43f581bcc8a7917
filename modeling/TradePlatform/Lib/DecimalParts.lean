/-
# `TradePlatform.Lib.DecimalParts` — decimal numbers with their sign, and columns of ticks

A finite decimal has a sign, a coefficient and an exponent, and zero has both signs.  A column of
fixed scale holds an integer of ticks, which has no negative zero: a decimal of that scale comes
back from its ticks as it was precisely when it is not the negative zero
(`ofTicks_eq_iff`).
-/
import TradePlatform.Lib.Decimal

namespace Decimal

structure Parts where
  negative : Bool
  coefficient : ℕ
  exponent : ℤ
deriving DecidableEq, Repr

namespace Parts

/-! ## The value -/

def sign (d : Parts) : ℤ := if d.negative then -1 else 1

def value (d : Parts) : Decimal := d.sign * d.coefficient * 10 ^ d.exponent

def IsNegativeZero (d : Parts) : Prop := d.negative = true ∧ d.coefficient = 0

instance (d : Parts) : Decidable d.IsNegativeZero := inferInstanceAs (Decidable (_ ∧ _))

theorem sign_ne_zero (d : Parts) : d.sign ≠ 0 := by
  unfold sign
  split <;> decide

theorem value_eq_zero_iff (d : Parts) : d.value = 0 ↔ d.coefficient = 0 := by
  have hpow : (10 : ℚ) ^ d.exponent ≠ 0 := zpow_ne_zero _ (by norm_num)
  have hsign : (d.sign : ℚ) ≠ 0 := Int.cast_ne_zero.mpr d.sign_ne_zero
  simp [value, hpow, hsign]

/-! ## Quantizing -/

def quantize (prec scale : ℕ) (d : Parts) : Option Parts :=
  let coefficient := (roundHalfEven (|d.value| * 10 ^ scale)).toNat
  if coefficient < 10 ^ prec then some ⟨d.negative, coefficient, -scale⟩ else none

theorem quantize_parts {prec scale : ℕ} {d q : Parts} (h : d.quantize prec scale = some q) :
    q.negative = d.negative ∧ q.exponent = -scale := by
  unfold quantize at h
  dsimp only at h
  split at h
  · cases h
    exact ⟨rfl, rfl⟩
  · cases h

theorem isNegativeZero_quantize {prec scale : ℕ} {d q : Parts}
    (h : d.quantize prec scale = some q) (hvalue : q.value = d.value) :
    q.IsNegativeZero ↔ d.IsNegativeZero := by
  unfold IsNegativeZero
  rw [(quantize_parts h).1, ← value_eq_zero_iff, ← value_eq_zero_iff, hvalue]

/-! ## Ticks -/

def ofTicks (scale : ℕ) (n : ℤ) : Parts := ⟨decide (n < 0), n.natAbs, -scale⟩

theorem value_mul_pow {scale : ℕ} {d : Parts} (h : d.exponent = -scale) :
    d.value * 10 ^ scale = (d.sign * d.coefficient : ℤ) := by
  have hpow : (10 : ℚ) ^ scale ≠ 0 := pow_ne_zero _ (by norm_num)
  rw [value, h, zpow_neg, zpow_natCast, mul_assoc, inv_mul_cancel₀ hpow, mul_one]
  push_cast
  rfl

theorem ofTicks_eq {scale : ℕ} {d : Parts} {n : ℤ} (h : d.exponent = -scale)
    (hn : d.value * 10 ^ scale = n) :
    ofTicks scale n = ⟨d.negative && decide (d.coefficient ≠ 0), d.coefficient, d.exponent⟩ := by
  rw [value_mul_pow h] at hn
  have hn := (Int.cast_inj.mp hn).symm
  obtain ⟨negative, coefficient, exponent⟩ := d
  cases negative with
  | false => simp_all [ofTicks, sign]
  | true =>
      have hlt : n < 0 ↔ coefficient ≠ 0 := by simp [hn, sign, Nat.pos_iff_ne_zero]
      simp_all [ofTicks, sign]

theorem ofTicks_eq_iff {scale : ℕ} {d : Parts} {n : ℤ} (h : d.exponent = -scale)
    (hn : d.value * 10 ^ scale = n) : ofTicks scale n = d ↔ ¬ d.IsNegativeZero := by
  rw [ofTicks_eq h hn]
  obtain ⟨negative, coefficient, exponent⟩ := d
  cases negative <;> simp [IsNegativeZero]

/-! ## The text -/

def signedText (n : ℤ) : List Char := (if n < 0 then '-' else '+') :: Nat.toDigits 10 n.natAbs

/-- `str(d)`: scientific where the exponent is positive or the number very small. -/
def text (d : Parts) : List Char :=
  let digits := Nat.toDigits 10 d.coefficient
  let leftdigits : ℤ := d.exponent + digits.length
  let dotplace : ℤ := if d.exponent ≤ 0 ∧ -6 < leftdigits then leftdigits else 1
  let intpart := if dotplace ≤ 0 then ['0']
    else digits.take dotplace.toNat ++ List.replicate (dotplace - digits.length).toNat '0'
  let fracpart := if dotplace ≤ 0 then '.' :: (List.replicate (-dotplace).toNat '0' ++ digits)
    else if digits.length ≤ dotplace then [] else '.' :: digits.drop dotplace.toNat
  let exp := if leftdigits = dotplace then [] else 'E' :: signedText (leftdigits - dotplace)
  (if d.negative then ['-'] else []) ++ intpart ++ fracpart ++ exp

theorem text_negative (coefficient : ℕ) (exponent : ℤ) :
    text ⟨true, coefficient, exponent⟩ = '-' :: text ⟨false, coefficient, exponent⟩ := rfl

theorem text_zero (exponent : ℤ) : ∃ rest, text ⟨false, 0, exponent⟩ = '0' :: rest := by
  have hdigits : Nat.toDigits 10 0 = ['0'] := Nat.toDigits_zero 10
  unfold text
  dsimp only
  rw [hdigits]
  by_cases h : (if exponent ≤ 0 ∧ -6 < exponent + ((['0'] : List Char).length : ℤ) then
      exponent + ((['0'] : List Char).length : ℤ) else 1) ≤ 0
  · rw [if_pos h, if_neg Bool.false_ne_true]
    exact ⟨_, rfl⟩
  · obtain ⟨k, hk⟩ : ∃ k, Int.toNat (if exponent ≤ 0 ∧ -6 < exponent +
        ((['0'] : List Char).length : ℤ) then exponent + ((['0'] : List Char).length : ℤ)
        else 1) = k + 1 := Nat.exists_eq_succ_of_ne_zero (by omega)
    rw [if_neg h, if_neg Bool.false_ne_true, hk]
    exact ⟨_, rfl⟩

end Parts

end Decimal
