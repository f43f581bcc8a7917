/-
# `TradePlatform.Lib.DecimalNormal` — normalized decimals in a context

`normalize` first rounds to the digits and the exponents of the context and then drops the zeros
at the end of the coefficient.  A context holds the numbers that have a coefficient of so many
digits and an exponent in its range (`Fits`): these keep their value, and every other number
changes its value or overflows (`normalize_spec`).
-/
import TradePlatform.Lib.DecimalParts
import TradePlatform.Lib.Binary64

namespace Decimal

/-! ## Contexts with exponents -/

structure Limits where
  prec : ℕ
  emin : ℤ
  emax : ℤ
  prec_pos : 0 < prec
  le : emin ≤ emax

namespace Limits

def default : Limits := ⟨28, -999999, 999999, by decide, by decide⟩

variable (l : Limits)

def etiny : ℤ := l.emin - (l.prec - 1)

def etop : ℤ := l.emax - (l.prec - 1)

def Fits (x : ℚ) : Prop :=
  ∃ (c : ℕ) (e : ℤ), |x| = c * 10 ^ e ∧ c < 10 ^ l.prec ∧ l.etiny ≤ e ∧ |x| < 10 ^ (l.emax + 1)

end Limits

namespace Parts

variable (l : Limits)

def fix (d : Parts) : Option Parts :=
  if d.coefficient = 0 then some ⟨d.negative, 0, min (max d.exponent l.etiny) l.emax⟩
  else
    let expMin := (Nat.toDigits 10 d.coefficient).length + d.exponent - l.prec
    if l.etop < expMin then none
    else
      let expMin := max expMin l.etiny
      if d.exponent < expMin then
        let coefficient :=
          (roundHalfEven (d.coefficient / 10 ^ (expMin - d.exponent).toNat)).toNat
        if 10 ^ l.prec ≤ coefficient then
          if l.etop < expMin + 1 then none
          else some ⟨d.negative, coefficient / 10, expMin + 1⟩
        else some ⟨d.negative, coefficient, expMin⟩
      else some d

def dropZeros (emax : ℤ) : ℕ → ℕ → ℤ → ℕ × ℤ
  | 0, c, e => (c, e)
  | fuel + 1, c, e =>
      if c % 10 = 0 ∧ e < emax then dropZeros emax fuel (c / 10) (e + 1) else (c, e)

def normalize (d : Parts) : Option Parts :=
  (fix l d).map fun r =>
    if r.coefficient = 0 then ⟨r.negative, 0, 0⟩
    else
      let (c, e) := dropZeros l.emax (Nat.toDigits 10 r.coefficient).length r.coefficient r.exponent
      ⟨r.negative, c, e⟩

variable {l} {d r r' : Parts}

theorem abs_value (d : Parts) : |d.value| = d.coefficient * 10 ^ d.exponent := by
  have hpow : (0 : ℚ) < 10 ^ d.exponent := zpow_pos (by norm_num) _
  have hsign : |(d.sign : ℚ)| = 1 := by
    unfold sign
    split <;> simp
  rw [value, abs_mul, abs_mul, hsign, one_mul, Nat.abs_cast, abs_of_pos hpow]

theorem value_eq_of_abs (hsign : r.negative = d.negative)
    (habs : (r.coefficient : ℚ) * 10 ^ r.exponent = d.coefficient * 10 ^ d.exponent) :
    r.value = d.value := by
  rw [value, value, sign, sign, hsign, mul_assoc, mul_assoc, habs]

theorem coefficient_between {c : ℕ} (h : c ≠ 0) :
    10 ^ ((Nat.toDigits 10 c).length - 1) ≤ c ∧ c < 10 ^ (Nat.toDigits 10 c).length := by
  have hlength : 0 < (Nat.toDigits 10 c).length := Nat.length_toDigits_pos
  constructor
  · by_contra hlt
    rcases Nat.eq_zero_or_pos ((Nat.toDigits 10 c).length - 1) with hzero | hpos
    · rw [hzero, pow_zero] at hlt
      omega
    · have hle := (Nat.length_toDigits_le_iff (by norm_num : 1 < 10) hpos).mpr (not_le.mp hlt)
      omega
  · exact (Nat.length_toDigits_le_iff (by norm_num : 1 < 10) hlength).mp le_rfl

/-! ## What a context does to a number -/

theorem zpow_ten_lt_iff {m n : ℤ} : (10 : ℚ) ^ m < 10 ^ n ↔ m < n :=
  zpow_lt_zpow_iff_right₀ (by norm_num)

theorem zpow_ten_le_iff {m n : ℤ} : (10 : ℚ) ^ m ≤ 10 ^ n ↔ m ≤ n :=
  zpow_le_zpow_iff_right₀ (by norm_num)

theorem size_between (h : d.coefficient ≠ 0) :
    (10 : ℚ) ^ ((Nat.toDigits 10 d.coefficient).length + d.exponent - 1) ≤ |d.value| ∧
      |d.value| < 10 ^ ((Nat.toDigits 10 d.coefficient).length + d.exponent) := by
  obtain ⟨hlo, hhi⟩ := coefficient_between h
  have hlength : 0 < (Nat.toDigits 10 d.coefficient).length := Nat.length_toDigits_pos
  have hpow : (0 : ℚ) < 10 ^ d.exponent := zpow_pos (by norm_num) _
  have hlo : (10 : ℚ) ^ ((Nat.toDigits 10 d.coefficient).length - 1) ≤ d.coefficient := by
    exact_mod_cast hlo
  have hhi : (d.coefficient : ℚ) < 10 ^ (Nat.toDigits 10 d.coefficient).length := by
    exact_mod_cast hhi
  rw [abs_value]
  constructor
  · rw [show ((Nat.toDigits 10 d.coefficient).length : ℤ) + d.exponent - 1 =
      ((Nat.toDigits 10 d.coefficient).length - 1 : ℕ) + d.exponent by omega,
      zpow_add₀ (by norm_num), zpow_natCast]
    exact mul_le_mul_of_nonneg_right hlo hpow.le
  · rw [zpow_add₀ (by norm_num), zpow_natCast]
    exact mul_lt_mul_of_pos_right hhi hpow

theorem value_rescale {c k : ℕ} {e e' : ℤ} (hle : e ≤ e') (hc : c = k * 10 ^ (e' - e).toNat) :
    (c : ℚ) * 10 ^ e = k * 10 ^ e' := by
  rw [hc, Nat.cast_mul, Nat.cast_pow, mul_assoc, Nat.cast_ofNat, ← zpow_natCast,
    ← zpow_add₀ (by norm_num), show ((e' - e).toNat : ℤ) + e = e' by omega]

theorem exists_rescale (h : d.coefficient ≠ 0) (hfits : l.Fits d.value) {e : ℤ}
    (he : e = max ((Nat.toDigits 10 d.coefficient).length + d.exponent - l.prec) l.etiny)
    (hlt : d.exponent < e) :
    ∃ q : ℕ, d.coefficient = q * 10 ^ (e - d.exponent).toNat ∧ q < 10 ^ l.prec := by
  obtain ⟨c, f, hvalue, hc, hf, -⟩ := hfits
  obtain ⟨hlo, hhi⟩ := size_between h
  have hpow : (0 : ℚ) < 10 ^ f := zpow_pos (by norm_num) _
  have hc : (c : ℚ) < 10 ^ (l.prec : ℤ) := by exact_mod_cast hc
  have hef : e ≤ f := by
    by_contra hfe
    have hlt : (10 : ℚ) ^ ((Nat.toDigits 10 d.coefficient).length + d.exponent - 1) <
        10 ^ (l.prec + f) := by
      refine hlo.trans_lt ?_
      rw [hvalue, zpow_add₀ (by norm_num)]
      exact mul_lt_mul_of_pos_right hc hpow
    have hexp := zpow_ten_lt_iff.mp hlt
    omega
  have hq : ((c * 10 ^ (f - e).toNat : ℕ) : ℚ) * 10 ^ e = d.coefficient * 10 ^ d.exponent := by
    rw [value_rescale hef rfl, ← hvalue, abs_value]
  have hcoefficient : d.coefficient = c * 10 ^ (f - e).toNat * 10 ^ (e - d.exponent).toNat := by
    have hsame := value_rescale hlt.le (rfl : c * 10 ^ (f - e).toNat *
      10 ^ (e - d.exponent).toNat = _)
    rw [hq] at hsame
    exact_mod_cast (mul_right_cancel₀ (zpow_ne_zero _ (by norm_num)) hsame).symm
  refine ⟨_, hcoefficient, ?_⟩
  have hsize : ((c * 10 ^ (f - e).toNat : ℕ) : ℚ) * 10 ^ e < 10 ^ (l.prec : ℤ) * 10 ^ e := by
    rw [hq, ← abs_value, ← zpow_add₀ (by norm_num)]
    exact hhi.trans_le (zpow_ten_le_iff.mpr (by omega))
  exact_mod_cast lt_of_mul_lt_mul_right hsize (zpow_pos (by norm_num) _).le

theorem fits_zero (h : d.coefficient = 0) : l.Fits d.value := by
  have hzero : d.value = 0 := (value_eq_zero_iff d).mpr h
  refine ⟨0, l.etiny, ?_, pow_pos (by norm_num) _, le_rfl, ?_⟩
  · rw [hzero]
    simp
  · rw [hzero, abs_zero]
    exact zpow_pos (by norm_num) _

theorem fix_of_fits (hfits : l.Fits d.value) :
    ∃ r, fix l d = some r ∧ r.negative = d.negative ∧ r.value = d.value := by
  unfold fix
  split
  · rename_i hzero
    refine ⟨_, rfl, rfl, ?_⟩
    rw [(value_eq_zero_iff d).mpr hzero]
    exact (value_eq_zero_iff _).mpr rfl
  · rename_i hne
    have hlo := (size_between hne).1
    dsimp only
    rw [if_neg]
    swap
    · have hexp := zpow_ten_lt_iff.mp (hlo.trans_lt hfits.choose_spec.choose_spec.2.2.2)
      unfold Limits.etop
      omega
    split
    · rename_i hlt
      obtain ⟨q, hq, hprec⟩ := exists_rescale hne hfits rfl hlt
      have hround : (roundHalfEven (d.coefficient / 10 ^ (max
          ((Nat.toDigits 10 d.coefficient).length + d.exponent - l.prec) l.etiny -
            d.exponent).toNat)).toNat = q := by
        have hcast : (d.coefficient : ℚ) = ((q : ℤ) : ℚ) * 10 ^ (max
            ((Nat.toDigits 10 d.coefficient).length + d.exponent - l.prec) l.etiny -
              d.exponent).toNat := by exact_mod_cast hq
        rw [hcast, mul_div_cancel_right₀ _ (pow_ne_zero _ (by norm_num)), roundHalfEven_intCast,
          Int.toNat_natCast]
      rw [hround, if_neg hprec.not_ge]
      exact ⟨_, rfl, rfl, value_eq_of_abs rfl (value_rescale hlt.le hq).symm⟩
    · exact ⟨d, rfl, rfl, rfl⟩

theorem fits_of_parts {c : ℕ} {e : ℤ} {negative : Bool} (hc : c < 10 ^ l.prec) (he : l.etiny ≤ e)
    (hsize : e + l.prec ≤ l.emax + 1) : l.Fits (value ⟨negative, c, e⟩) := by
  refine ⟨c, e, abs_value _, hc, he, ?_⟩
  rw [abs_value]
  have hc : (c : ℚ) < 10 ^ (l.prec : ℤ) := by exact_mod_cast hc
  calc (c : ℚ) * 10 ^ e < 10 ^ (l.prec : ℤ) * 10 ^ e :=
        mul_lt_mul_of_pos_right hc (zpow_pos (by norm_num) _)
    _ = 10 ^ (e + l.prec) := by rw [← zpow_add₀ (by norm_num), add_comm]
    _ ≤ 10 ^ (l.emax + 1) := zpow_ten_le_iff.mpr hsize

theorem rounded_le {c n prec : ℕ} {e e' : ℤ} (hc : c < 10 ^ n) (he : n + e - prec ≤ e') :
    (roundHalfEven (c / 10 ^ (e' - e).toNat)).toNat ≤ 10 ^ prec := by
  have hle : ((c : ℚ) / 10 ^ (e' - e).toNat) ≤ ((10 ^ prec : ℤ) : ℚ) := by
    rw [div_le_iff₀ (by positivity)]
    push_cast
    rw [← pow_add]
    have hc : (c : ℚ) < 10 ^ n := by exact_mod_cast hc
    exact hc.le.trans (pow_le_pow_right₀ (by norm_num) (by omega))
  have hround := roundHalfEven_mono hle
  rw [roundHalfEven_intCast] at hround
  exact Int.toNat_le.mpr (by exact_mod_cast hround)

theorem fix_some (h : fix l d = some r) : r.negative = d.negative ∧ l.Fits r.value := by
  unfold fix at h
  split at h
  · cases h
    exact ⟨rfl, fits_zero rfl⟩
  · rename_i hne
    obtain ⟨_, hhi⟩ := coefficient_between hne
    have hprec := l.prec_pos
    have hlimits := l.le
    dsimp only at h
    split at h
    · cases h
    rename_i htop
    unfold Limits.etop at htop
    split at h
    · rename_i hlt
      split at h
      · rename_i hcarry
        split at h
        · cases h
        · rename_i htop'
          unfold Limits.etop at htop'
          cases h
          have hcoefficient := rounded_le hhi
            (le_max_left ((Nat.toDigits 10 d.coefficient).length + d.exponent - l.prec) l.etiny)
          have hpos : 0 < 10 ^ l.prec := pow_pos (by norm_num) _
          have hetiny := le_max_right
            ((Nat.toDigits 10 d.coefficient).length + d.exponent - l.prec : ℤ) l.etiny
          exact ⟨rfl, fits_of_parts (by omega) (by omega) (by omega)⟩
      · rename_i hsmall
        cases h
        refine ⟨rfl, fits_of_parts (not_le.mp hsmall) (le_max_right _ _) ?_⟩
        unfold Limits.etiny
        omega
    · rename_i hge
      cases h
      refine ⟨rfl, ?_⟩
      have hdigits : d.coefficient < 10 ^ l.prec := by
        refine hhi.trans_le (Nat.pow_le_pow_right (by norm_num) ?_)
        omega
      refine ⟨d.coefficient, d.exponent, abs_value d, hdigits, by omega, ?_⟩
      exact (size_between hne).2.trans_le (zpow_ten_le_iff.mpr (by omega))

/-! ## Zeros at the end -/

theorem dropZeros_spec {emax : ℤ} {fuel c : ℕ} {e : ℤ} (hc : c ≠ 0) (hfuel : c < 10 ^ fuel) :
    ((dropZeros emax fuel c e).1 : ℚ) * 10 ^ (dropZeros emax fuel c e).2 = c * 10 ^ e ∧
      (dropZeros emax fuel c e).1 ≠ 0 ∧
      ((dropZeros emax fuel c e).1 % 10 ≠ 0 ∨ emax ≤ (dropZeros emax fuel c e).2) := by
  induction fuel generalizing c e with
  | zero =>
      rw [pow_zero] at hfuel
      omega
  | succ fuel ih =>
      rw [dropZeros]
      split
      · rename_i hzero
        rw [pow_succ] at hfuel
        obtain ⟨hvalue, hne, hlast⟩ := @ih (c / 10) (e + 1) (by omega) (by omega)
        refine ⟨?_, hne, hlast⟩
        rw [hvalue]
        refine (value_rescale (by omega) ?_).symm
        rw [show (e + 1 - e).toNat = 1 by omega]
        omega
      · rename_i hstop
        refine ⟨rfl, hc, ?_⟩
        rw [not_and_or, not_lt] at hstop
        exact hstop

def Normal (r : Parts) : Prop :=
  (r.coefficient = 0 ∧ r.exponent = 0) ∨ r.coefficient % 10 ≠ 0

theorem coefficient_lt_ten {c : ℕ} {e emax : ℤ} (he : emax ≤ e)
    (hsize : (c : ℚ) * 10 ^ e < 10 ^ (emax + 1)) : c < 10 := by
  have hpow : (0 : ℚ) < 10 ^ emax := zpow_pos (by norm_num) _
  have hlt : (c : ℚ) * 10 ^ emax < 10 * 10 ^ emax := by
    refine lt_of_le_of_lt ?_ (hsize.trans_eq (by rw [zpow_add_one₀ (by norm_num), mul_comm]))
    exact mul_le_mul_of_nonneg_left (zpow_ten_le_iff.mpr he) (Nat.cast_nonneg c)
  exact_mod_cast lt_of_mul_lt_mul_right hlt hpow.le

theorem normalize_some (h : normalize l d = some r) :
    r.negative = d.negative ∧ l.Fits r.value ∧ r.Normal ∧
      (l.Fits d.value → r.value = d.value) := by
  obtain ⟨f, hfix, rfl⟩ := Option.map_eq_some_iff.mp h
  obtain ⟨hsign, hfits⟩ := fix_some hfix
  have hkeeps : l.Fits d.value → f.value = d.value := by
    intro hd
    obtain ⟨f', hfix', _, hvalue⟩ := fix_of_fits hd
    rw [hfix] at hfix'
    exact Option.some.inj hfix' ▸ hvalue
  split
  · rename_i hzero
    have hsame : value ⟨f.negative, 0, 0⟩ = f.value := by
      rw [(value_eq_zero_iff f).mpr hzero]
      exact (value_eq_zero_iff _).mpr rfl
    exact ⟨hsign, fits_zero rfl, .inl ⟨rfl, rfl⟩, fun hd => hsame.trans (hkeeps hd)⟩
  · rename_i hne
    obtain ⟨hvalue, hne', hlast⟩ := @dropZeros_spec l.emax _ _ f.exponent hne
      (coefficient_between hne).2
    generalize dropZeros l.emax (Nat.toDigits 10 f.coefficient).length f.coefficient f.exponent =
      rest at hvalue hne' hlast ⊢
    obtain ⟨c, e⟩ := rest
    dsimp only at hvalue hne' hlast ⊢
    have hsame : value ⟨f.negative, c, e⟩ = f.value := value_eq_of_abs rfl hvalue
    refine ⟨hsign, by rw [hsame]; exact hfits, .inr ?_, fun hd => hsame.trans (hkeeps hd)⟩
    rcases hlast with hlast | hlast
    · exact hlast
    · have hsize := hfits.choose_spec.choose_spec.2.2.2
      rw [abs_value, ← hvalue] at hsize
      have hlt := coefficient_lt_ten hlast hsize
      show c % 10 ≠ 0
      omega

theorem normalize_of_fits (h : l.Fits d.value) : ∃ r, normalize l d = some r := by
  obtain ⟨f, hfix, _⟩ := fix_of_fits h
  exact ⟨_, by rw [normalize, hfix]; rfl⟩

theorem Normal.unique (h : r.Normal) (h' : r'.Normal) (habs : |r.value| = |r'.value|) :
    r.coefficient = r'.coefficient ∧ r.exponent = r'.exponent := by
  have hzero : r.coefficient = 0 ↔ r'.coefficient = 0 := by
    rw [← value_eq_zero_iff, ← value_eq_zero_iff, ← abs_eq_zero, habs, abs_eq_zero]
  have hle : ∀ {a b : Parts}, a.Normal → b.coefficient ≠ 0 → |a.value| = |b.value| →
      b.exponent ≤ a.exponent := by
    intro a b ha hb heq
    by_contra hlt
    have hval := value_rescale (not_le.mp hlt).le
      (rfl : b.coefficient * 10 ^ (b.exponent - a.exponent).toNat = _)
    rw [← abs_value b, ← heq, abs_value a] at hval
    have hpow : (10 : ℚ) ^ a.exponent ≠ 0 := zpow_ne_zero _ (by norm_num)
    have hcoefficient : a.coefficient = b.coefficient * 10 ^ (b.exponent - a.exponent).toNat := by
      exact_mod_cast (mul_right_cancel₀ hpow hval).symm
    obtain ⟨k, hk⟩ : ∃ k, (b.exponent - a.exponent).toNat = k + 1 :=
      Nat.exists_eq_succ_of_ne_zero (by omega)
    rw [hk, pow_succ, ← mul_assoc] at hcoefficient
    rcases ha with ⟨hzero, _⟩ | hlast
    · rw [hzero] at hcoefficient
      have hpos : 0 < b.coefficient * 10 ^ k := Nat.mul_pos (Nat.pos_of_ne_zero hb) (by positivity)
      omega
    · omega
  rcases Nat.eq_zero_or_pos r.coefficient with hr | hr
  · have hr' := hzero.mp hr
    refine ⟨hr.trans hr'.symm, ?_⟩
    rcases h with ⟨_, he⟩ | hlast
    · rcases h' with ⟨_, he'⟩ | hlast'
      · rw [he, he']
      · omega
    · omega
  · have hne : r'.coefficient ≠ 0 := fun h => hr.ne' (hzero.mpr h)
    have he := le_antisymm (hle h' hr.ne' habs.symm) (hle h hne habs)
    refine ⟨?_, he⟩
    rw [abs_value, abs_value, he] at habs
    exact_mod_cast mul_right_cancel₀ (zpow_ne_zero _ (by norm_num)) habs

end Parts

end Decimal
