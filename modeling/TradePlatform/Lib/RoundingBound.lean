/-
# `TradePlatform.Lib.RoundingBound` — which numbers round to at most a bound

Rounding keeps the order, so the numbers whose rounding is below a bound are themselves below a
bound: half a unit above the greatest number of so many digits that the first bound admits.  Half
a unit goes to the even neighbour, so that the second bound is admitted or not by the parity of
that number.
-/
import TradePlatform.Lib.DecimalSum

namespace Decimal

structure Bound where
  value : ℚ
  closed : Bool

namespace Bound

def Admits (b : Bound) (x : ℚ) : Prop := x < b.value ∨ b.closed = true ∧ x = b.value

instance (b : Bound) (x : ℚ) : Decidable (b.Admits x) := inferInstanceAs (Decidable (_ ∨ _))

def atMost (v : ℚ) : Bound := ⟨v, true⟩

def below (v : ℚ) : Bound := ⟨v, false⟩

def scale (b : Bound) (c : ℚ) : Bound := ⟨b.value * c, b.closed⟩

/-- The exponent of the greatest number of `prec` digits that is admitted. -/
def exponent (prec : ℕ) (b : Bound) : ℤ :=
  (if b.closed then Int.log 10 b.value + 1 else Int.clog 10 b.value) - prec

/-- The coefficient of the greatest number of `prec` digits that is admitted. -/
def coefficient (prec : ℕ) (b : Bound) : ℤ :=
  if b.closed then ⌊b.value / 10 ^ b.exponent prec⌋ else ⌈b.value / 10 ^ b.exponent prec⌉ - 1

def unround (prec : ℕ) (b : Bound) : Bound :=
  ⟨(b.coefficient prec + 1 / 2) * 10 ^ b.exponent prec, decide (b.coefficient prec % 2 = 0)⟩

variable {b : Bound} {prec : ℕ} {x y v c : ℚ} {m e : ℤ}

theorem admits_atMost : (atMost v).Admits x ↔ x ≤ v := by
  simp [Admits, atMost, le_iff_lt_or_eq]

theorem admits_below : (below v).Admits x ↔ x < v := by
  simp [Admits, below]

theorem Admits.mono (h : b.Admits y) (hle : x ≤ y) : b.Admits x := by
  rcases h with hlt | ⟨hclosed, rfl⟩
  · exact .inl (hle.trans_lt hlt)
  · exact hle.lt_or_eq.imp_right fun heq => ⟨hclosed, heq⟩

theorem admits_scale (hc : 0 < c) : (b.scale c).Admits x ↔ b.Admits (x / c) := by
  unfold Admits scale
  rw [div_lt_iff₀ hc, div_eq_iff hc.ne']

/-! ## Numbers of so many digits -/

theorem roundSig_between (hlo : 10 ^ prec ≤ 10 * m) (hhi : m < 10 ^ prec)
    (hy : m * (10 : ℚ) ^ e ≤ y) (hy' : y < (m + 1) * (10 : ℚ) ^ e) :
    roundSig prec y = roundHalfEven (y / 10 ^ e) * 10 ^ e := by
  have hunit : (0 : ℚ) < 10 ^ e := zpow_pos (by norm_num) _
  have hm : 0 < m := by
    have hpow : (0 : ℤ) < 10 ^ prec := by positivity
    omega
  have hypos : 0 < y := lt_of_lt_of_le (mul_pos (by exact_mod_cast hm) hunit) hy
  have hlow : ((10 : ℕ) : ℚ) ^ (e + prec - 1) ≤ y := by
    refine le_trans ?_ hy
    have hcast : (10 : ℚ) ^ prec ≤ 10 * m := by exact_mod_cast hlo
    push_cast
    rw [zpow_sub_one₀ (by norm_num), zpow_add₀ (by norm_num), zpow_natCast]
    rw [← div_eq_mul_inv, div_le_iff₀ (by norm_num)]
    calc (10 : ℚ) ^ e * 10 ^ prec ≤ 10 ^ e * (10 * m) := mul_le_mul_of_nonneg_left hcast hunit.le
      _ = m * 10 ^ e * 10 := by ring
  have hhigh : y < ((10 : ℕ) : ℚ) ^ (e + prec) := by
    refine lt_of_lt_of_le hy' ?_
    have hcast : (m : ℚ) + 1 ≤ 10 ^ prec := by exact_mod_cast hhi
    push_cast
    rw [zpow_add₀ (by norm_num), zpow_natCast, mul_comm]
    exact mul_le_mul_of_nonneg_left hcast hunit.le
  have hlog : Int.log 10 y = e + prec - 1 := by
    have h := (Int.zpow_le_iff_le_log (by norm_num) hypos).mp hlow
    have h' := (Int.lt_zpow_iff_log_lt (by norm_num) hypos).mp hhigh
    omega
  unfold roundSig
  rw [if_neg hypos.ne', abs_of_pos hypos, hlog]
  dsimp only
  rw [show e + prec - 1 + 1 - (prec : ℤ) = e by ring]

theorem roundSig_grid (hlo : 10 ^ prec ≤ 10 * m) (hhi : m < 10 ^ prec) :
    roundSig prec (m * (10 : ℚ) ^ e) = m * (10 : ℚ) ^ e := by
  have hunit : (0 : ℚ) < 10 ^ e := zpow_pos (by norm_num) _
  rw [roundSig_between hlo hhi le_rfl (mul_lt_mul_of_pos_right (lt_add_one _) hunit),
    mul_div_cancel_right₀ _ hunit.ne', roundHalfEven_intCast]

theorem roundSig_grid_succ (hlo : 10 ^ prec ≤ 10 * m) (hhi : m < 10 ^ prec) :
    roundSig prec ((m + 1) * (10 : ℚ) ^ e) = (m + 1) * (10 : ℚ) ^ e := by
  rcases (Int.add_one_le_iff.mpr hhi).lt_or_eq with hlt | heq
  · have hgrid := @roundSig_grid prec (m + 1) e (by omega) hlt
    push_cast at hgrid
    exact hgrid
  · obtain ⟨p, rfl⟩ : ∃ p, prec = p + 1 := by
      refine Nat.exists_eq_succ_of_ne_zero fun hzero => ?_
      rw [hzero, pow_zero] at hlo hhi
      omega
    -- the next power of ten, with one digit less
    have hpow : (10 : ℤ) ^ (p + 1) = 10 * 10 ^ p := pow_succ' 10 p
    have hpos : (0 : ℤ) < 10 ^ p := by positivity
    have hgrid := @roundSig_grid (p + 1) (10 ^ p) (e + 1) hpow.le (by omega)
    have hvalue : ((10 ^ p : ℤ) : ℚ) * 10 ^ (e + 1) = (m + 1) * 10 ^ e := by
      have hcast : (m : ℚ) + 1 = 10 ^ (p + 1) := by exact_mod_cast heq
      rw [hcast, zpow_add_one₀ (by norm_num)]
      push_cast
      ring
    rwa [hvalue] at hgrid

/-! ## Half a unit above a coefficient -/

def halfAbove (m e : ℤ) : Bound := ⟨(m + 1 / 2) * (10 : ℚ) ^ e, decide (m % 2 = 0)⟩

theorem floor_of_between (h : (m : ℚ) ≤ x) (h' : x < m + 1) : ⌊x⌋ = m :=
  Int.floor_eq_iff.mpr ⟨h, h'⟩

theorem roundSig_le_grid (hlo : 10 ^ prec ≤ 10 * m) (hhi : m < 10 ^ prec)
    (h : (halfAbove m e).Admits y) : roundSig prec y ≤ m * (10 : ℚ) ^ e := by
  have hprec : 0 < prec := by
    refine Nat.pos_of_ne_zero fun hzero => ?_
    rw [hzero, pow_zero] at hlo hhi
    omega
  have hunit : (0 : ℚ) < 10 ^ e := zpow_pos (by norm_num) _
  rcases lt_or_ge y (m * 10 ^ e) with hlt | hge
  · rw [← roundSig_grid hlo hhi]
    exact roundSig_mono hprec hlt.le
  · have hle : y ≤ (m + 1 / 2) * 10 ^ e := h.elim le_of_lt fun hboth => hboth.2.le
    have hquot : (m : ℚ) ≤ y / 10 ^ e := (le_div_iff₀ hunit).mpr hge
    have hquot' : y / 10 ^ e ≤ m + 1 / 2 := (div_le_iff₀ hunit).mpr hle
    rw [roundSig_between hlo hhi hge (hle.trans_lt (mul_lt_mul_of_pos_right (by linarith) hunit))]
    refine mul_le_mul_of_nonneg_right (Int.cast_le.mpr ?_) hunit.le
    unfold roundHalfEven
    rw [floor_of_between hquot (by linarith)]
    rcases h with hlt | ⟨heven, heq⟩
    · rw [if_pos (by linarith [(div_lt_iff₀ hunit).mpr hlt])]
    · have hhalf : y / 10 ^ e - m = 1 / 2 := by
        rw [heq]
        show (m + 1 / 2) * (10 : ℚ) ^ e / 10 ^ e - m = 1 / 2
        rw [mul_div_cancel_right₀ _ hunit.ne']
        ring
      rw [hhalf, if_neg (lt_irrefl _), if_neg (lt_irrefl _), if_pos (of_decide_eq_true heven)]

theorem grid_le_roundSig (hlo : 10 ^ prec ≤ 10 * m) (hhi : m < 10 ^ prec)
    (h : ¬ (halfAbove m e).Admits y) : (m + 1) * (10 : ℚ) ^ e ≤ roundSig prec y := by
  have hprec : 0 < prec := by
    refine Nat.pos_of_ne_zero fun hzero => ?_
    rw [hzero, pow_zero] at hlo hhi
    omega
  have hunit : (0 : ℚ) < 10 ^ e := zpow_pos (by norm_num) _
  obtain ⟨hnot, hodd⟩ := not_or.mp h
  have hge : (m + 1 / 2) * 10 ^ e ≤ y := not_lt.mp hnot
  rcases lt_or_ge y ((m + 1) * 10 ^ e) with hlt | hge'
  · have hquot : (m : ℚ) + 1 / 2 ≤ y / 10 ^ e := (le_div_iff₀ hunit).mpr hge
    have hquot' : y / 10 ^ e < m + 1 := (div_lt_iff₀ hunit).mpr hlt
    have hlow : (m : ℚ) * 10 ^ e ≤ y :=
      (mul_le_mul_of_nonneg_right (by linarith) hunit.le).trans hge
    rw [roundSig_between hlo hhi hlow hlt]
    refine mul_le_mul_of_nonneg_right ?_ hunit.le
    have hround : roundHalfEven (y / 10 ^ e) = m + 1 := by
      unfold roundHalfEven
      rw [floor_of_between (by linarith) hquot', if_neg (by linarith)]
      rcases hquot.lt_or_eq with hmore | heq
      · rw [if_pos (by linarith)]
      · have heven : ¬ m % 2 = 0 := by
          intro heven
          exact hodd ⟨decide_eq_true heven, ((div_eq_iff hunit.ne').mp heq.symm)⟩
        rw [if_neg (by linarith), if_neg heven]
    rw [hround]
    push_cast
    exact le_rfl
  · rw [← roundSig_grid_succ hlo hhi]
    exact roundSig_mono hprec hge'

/-! ## The bound on what is rounded -/

theorem exponent_closed (h : b.closed = true) :
    b.exponent prec = Int.log 10 b.value + 1 - prec := by
  unfold exponent
  rw [if_pos h]

theorem exponent_open (h : b.closed = false) :
    b.exponent prec = Int.clog 10 b.value - prec := by
  unfold exponent
  rw [if_neg (by rw [h]; decide)]

theorem coefficient_spec (hprec : 0 < prec) (hv : 0 < b.value) :
    10 ^ prec ≤ 10 * b.coefficient prec ∧ b.coefficient prec < 10 ^ prec ∧
      b.Admits (b.coefficient prec * (10 : ℚ) ^ b.exponent prec) ∧
      ¬ b.Admits ((b.coefficient prec + 1) * (10 : ℚ) ^ b.exponent prec) := by
  obtain ⟨v, closed⟩ := b
  obtain ⟨p, rfl⟩ := Nat.exists_eq_succ_of_ne_zero hprec.ne'
  have hten : (10 : ℤ) ^ (p + 1) = 10 * 10 ^ p := pow_succ' 10 p
  cases closed with
  | true =>
      have hexponent := @exponent_closed ⟨v, true⟩ (p + 1) rfl
      have hlow : (10 : ℚ) ^ Int.log 10 v ≤ v := by
        exact_mod_cast Int.zpow_log_le_self (by norm_num : 1 < 10) hv
      have hhigh : v < (10 : ℚ) ^ (Int.log 10 v + 1) := by
        exact_mod_cast Int.lt_zpow_succ_log_self (by norm_num : 1 < 10) v
      have hcoefficient : (Bound.mk v true).coefficient (p + 1) =
          ⌊v / 10 ^ (Bound.mk v true).exponent (p + 1)⌋ := rfl
      rw [hcoefficient]
      generalize (Bound.mk v true).exponent (p + 1) = e at *
      have hunit : (0 : ℚ) < 10 ^ e := zpow_pos (by norm_num) _
      have hlog : Int.log 10 v = e + p := by
        push_cast at hexponent
        omega
      rw [hlog, add_assoc, zpow_add₀ (by norm_num)] at hhigh
      rw [hlog, zpow_add₀ (by norm_num)] at hlow
      have hq : ((10 ^ p : ℤ) : ℚ) ≤ v / 10 ^ e := by
        rw [le_div_iff₀ hunit, mul_comm]
        exact_mod_cast hlow
      have hq' : v / 10 ^ e < ((10 ^ (p + 1) : ℤ) : ℚ) := by
        rw [div_lt_iff₀ hunit, mul_comm]
        exact_mod_cast hhigh
      refine ⟨?_, Int.floor_lt.mpr hq', admits_atMost.mpr ?_, fun h => ?_⟩
      · rw [hten]
        exact mul_le_mul_of_nonneg_left (Int.le_floor.mpr hq) (by norm_num)
      · exact (le_div_iff₀ hunit).mp (Int.floor_le _)
      · exact absurd ((le_div_iff₀ hunit).mpr (admits_atMost.mp h))
          (not_le.mpr (Int.lt_floor_add_one _))
  | false =>
      have hexponent := @exponent_open ⟨v, false⟩ (p + 1) rfl
      have hhigh : v ≤ (10 : ℚ) ^ Int.clog 10 v := by
        exact_mod_cast Int.self_le_zpow_clog (by norm_num : 1 < 10) v
      have hlow : (10 : ℚ) ^ (Int.clog 10 v - 1) < v := by
        exact_mod_cast Int.zpow_pred_clog_lt_self (by norm_num : 1 < 10) hv
      have hcoefficient : (Bound.mk v false).coefficient (p + 1) =
          ⌈v / 10 ^ (Bound.mk v false).exponent (p + 1)⌉ - 1 := rfl
      rw [hcoefficient]
      generalize (Bound.mk v false).exponent (p + 1) = e at *
      have hunit : (0 : ℚ) < 10 ^ e := zpow_pos (by norm_num) _
      have hlog : Int.clog 10 v = e + (p + 1) := by
        push_cast at hexponent
        omega
      rw [hlog, zpow_add₀ (by norm_num)] at hhigh
      rw [hlog, ← add_assoc, add_sub_cancel_right, zpow_add₀ (by norm_num)] at hlow
      have hq : ((10 ^ p : ℤ) : ℚ) < v / 10 ^ e := by
        rw [lt_div_iff₀ hunit, mul_comm]
        exact_mod_cast hlow
      have hq' : v / 10 ^ e ≤ ((10 ^ (p + 1) : ℤ) : ℚ) := by
        rw [div_le_iff₀ hunit, mul_comm]
        exact_mod_cast hhigh
      have hceil := Int.lt_ceil.mpr hq
      have hceil' := Int.ceil_le.mpr hq'
      refine ⟨by omega, by omega, admits_below.mpr ?_, fun h => ?_⟩
      · have hbelow := Int.ceil_lt_add_one (v / 10 ^ e)
        rw [← lt_div_iff₀ hunit]
        push_cast
        linarith
      · have habove := Int.le_ceil (v / 10 ^ e)
        have hlt := (lt_div_iff₀ hunit).mpr (admits_below.mp h)
        push_cast at hlt
        linarith

theorem admits_unround (hprec : 0 < prec) (hv : 0 < b.value) :
    (b.unround prec).Admits y ↔ b.Admits (roundSig prec y) := by
  obtain ⟨hlo, hhi, hin, hout⟩ := @coefficient_spec b prec hprec hv
  constructor
  · intro h
    exact hin.mono (roundSig_le_grid hlo hhi h)
  · intro h
    by_contra hnot
    exact hout (h.mono (grid_le_roundSig hlo hhi hnot))

theorem value_unround_pos (hprec : 0 < prec) (hv : 0 < b.value) : 0 < (b.unround prec).value := by
  obtain ⟨hlo, -, -, -⟩ := @coefficient_spec b prec hprec hv
  have hpow : (0 : ℤ) < 10 ^ prec := by positivity
  have hpos : (0 : ℚ) < b.coefficient prec := by exact_mod_cast (by omega : 0 < b.coefficient prec)
  exact mul_pos (by linarith) (zpow_pos (by norm_num) _)

end Bound

end Decimal
