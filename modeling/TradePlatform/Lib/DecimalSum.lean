/-
# `TradePlatform.Lib.DecimalSum` — sums of decimals in a context

A sum in a context rounds after every addition.  It is exact where no sum of leading values
needs more digits than the context has; on a grid it is exact or too large for the grid; and
of values that are not negative it is off by no more than one rounding a value and one more.
-/
import TradePlatform.Lib.DecimalOrder

namespace Decimal

/-! ## The error of one rounding -/

theorem abs_roundHalfEven_sub_le (x : ℚ) : |(roundHalfEven x : ℚ) - x| ≤ 1 / 2 := by
  have hlo := Int.floor_le x
  have hhi := Int.lt_floor_add_one x
  rw [abs_le]
  unfold roundHalfEven
  split
  · constructor <;> linarith
  split
  · push_cast
    constructor <;> linarith
  split
  · constructor <;> linarith
  · push_cast
    constructor <;> linarith

theorem roundHalfEven_nonneg {x : ℚ} (hx : 0 ≤ x) : 0 ≤ roundHalfEven x := by
  have hzero : roundHalfEven 0 = 0 := by exact_mod_cast roundHalfEven_intCast 0
  rw [← hzero]
  exact roundHalfEven_mono hx

def unitError (prec : ℕ) : ℚ := 1 / (2 * 10 ^ (prec - 1))

theorem unitError_pos (prec : ℕ) : 0 < unitError prec := by
  unfold unitError
  positivity

theorem abs_roundSig_sub_le {prec : ℕ} (hprec : 0 < prec) (x : ℚ) :
    |roundSig prec x - x| ≤ unitError prec * |x| := by
  rcases eq_or_ne x 0 with rfl | hne
  · simp [roundSig]
  have hpos := abs_pos.mpr hne
  have hlow : (10 : ℚ) ^ Int.log 10 |x| ≤ |x| := by
    exact_mod_cast Int.zpow_log_le_self (by norm_num : 1 < 10) hpos
  unfold roundSig
  rw [if_neg hne]
  dsimp only
  have hunit : (0 : ℚ) < 10 ^ (Int.log 10 |x| + 1 - (prec : ℤ)) := zpow_pos (by norm_num) _
  have hexponent : Int.log 10 |x| + 1 - (prec : ℤ) = Int.log 10 |x| - ((prec - 1 : ℕ) : ℤ) := by
    omega
  have hscale : (10 : ℚ) ^ (Int.log 10 |x| + 1 - (prec : ℤ)) =
      10 ^ Int.log 10 |x| / 10 ^ (prec - 1) := by
    rw [hexponent, zpow_sub₀ (by norm_num), zpow_natCast]
  generalize (10 : ℚ) ^ (Int.log 10 |x| + 1 - (prec : ℤ)) = unit at hunit hscale ⊢
  have hdiff : (roundHalfEven (x / unit) : ℚ) * unit - x =
      ((roundHalfEven (x / unit) : ℚ) - x / unit) * unit := by
    rw [sub_mul, div_mul_cancel₀ _ hunit.ne']
  calc |(roundHalfEven (x / unit) : ℚ) * unit - x|
      = |(roundHalfEven (x / unit) : ℚ) - x / unit| * unit := by
        rw [hdiff, abs_mul, abs_of_pos hunit]
    _ ≤ 1 / 2 * unit := mul_le_mul_of_nonneg_right (abs_roundHalfEven_sub_le _) hunit.le
    _ = unitError prec * 10 ^ Int.log 10 |x| := by
        rw [hscale, unitError]
        field_simp
    _ ≤ unitError prec * |x| := mul_le_mul_of_nonneg_left hlow (unitError_pos prec).le

/-! ## The error of a sum -/

/-- `y` is off from `x` by no more than `n` roundings of relative error `u` are. -/
def Off (u : ℚ) (n : ℕ) (y x : ℚ) : Prop := |y - x| ≤ ((1 + u) ^ n - 1) * |x|

namespace Off

variable {u x x' y y' : ℚ} {n k : ℕ} {f : ℚ → ℚ}

theorem refl (x : ℚ) : Off u 0 x x := by simp [Off]

theorem mono (hu : 0 ≤ u) (h : Off u n y x) (hle : n ≤ k) : Off u k y x := by
  unfold Off at h ⊢
  have hpow : (1 + u) ^ n ≤ (1 + u) ^ k := pow_le_pow_right₀ (by linarith) hle
  exact h.trans (mul_le_mul_of_nonneg_right (by linarith) (abs_nonneg x))

theorem add (hx : 0 ≤ x) (hx' : 0 ≤ x') (h : Off u n y x) (h' : Off u n y' x') :
    Off u n (y + y') (x + x') := by
  unfold Off at h h' ⊢
  rw [abs_of_nonneg hx] at h
  rw [abs_of_nonneg hx'] at h'
  rw [abs_of_nonneg (add_nonneg hx hx'), show y + y' - (x + x') = (y - x) + (y' - x') by ring]
  refine (abs_add_le _ _).trans ?_
  linarith

theorem rounded (hu : 0 ≤ u) (hf : ∀ z, |f z - z| ≤ u * |z|) (h : Off u n y x) :
    Off u (n + 1) (f y) x := by
  have herr := hf y
  have htri := abs_sub_le (f y) y x
  have habs := abs_sub_abs_le_abs_sub y x
  unfold Off at h ⊢
  rw [pow_succ]
  have hbound : |y| ≤ (1 + u) ^ n * |x| := by linarith
  have hstep := mul_le_mul_of_nonneg_left hbound hu
  linarith

theorem foldl {c : Context} (hu : 0 ≤ u) (hround : ∀ z, |c.round z - z| ≤ u * |z|)
    {terms : List (ℚ × ℚ)} (hterms : ∀ t ∈ terms, 0 ≤ t.2 ∧ Off u 1 t.1 t.2) (hx : 0 ≤ x)
    (h : Off u (n + 1) y x) : Off u (n + 1 + terms.length)
      ((terms.map Prod.fst).foldl c.add y) (x + (terms.map Prod.snd).sum) := by
  induction terms generalizing n y x with
  | nil => simpa using h
  | cons term terms ih =>
      obtain ⟨hterm, hoff⟩ := hterms term List.mem_cons_self
      have hsum := h.add hx hterm (hoff.mono hu (Nat.le_add_left 1 n))
      have hnext := hsum.rounded hu hround
      have hrest := ih (fun t ht => hterms t (List.mem_cons_of_mem _ ht)) (add_nonneg hx hterm)
        hnext
      rw [List.map_cons, List.map_cons, List.foldl_cons, List.sum_cons, List.length_cons,
        ← add_assoc x, show n + 1 + (terms.length + 1) = n + 1 + 1 + terms.length by omega]
      exact hrest

end Off

/-! ## Sums that are exact -/

theorem foldl_add_eq {c : Context} {values : List ℚ} {s : ℚ}
    (h : ∀ k, c.Represents (s + (values.take k).sum)) :
    values.foldl c.add s = s + values.sum := by
  induction values generalizing s with
  | nil => simp
  | cons x values ih =>
      have hfirst : c.add s x = s + x := Context.add_eq (by simpa using h 1)
      rw [List.foldl_cons, hfirst, ih, List.sum_cons, add_assoc]
      intro k
      have hnext := h (k + 1)
      rwa [List.take_succ_cons, List.sum_cons, ← add_assoc] at hnext

/-! ## Sums on a grid -/

def OnGrid (k : ℕ) (x : ℚ) : Prop := ∃ m : ℤ, x = m / 10 ^ k

variable {prec k : ℕ} {x y s : ℚ} {values : List ℚ}

theorem OnGrid.zero : OnGrid k 0 := ⟨0, by simp⟩

theorem OnGrid.add (hx : OnGrid k x) (hy : OnGrid k y) : OnGrid k (x + y) := by
  obtain ⟨m, rfl⟩ := hx
  obtain ⟨n, rfl⟩ := hy
  refine ⟨m + n, ?_⟩
  push_cast
  ring

theorem OnGrid.roundSig_eq (h : OnGrid k x) (hx : 0 ≤ x) (hlt : x * 10 ^ k < 10 ^ prec) :
    roundSig prec x = x := by
  obtain ⟨m, rfl⟩ := h
  have hpow : (0 : ℚ) < 10 ^ k := by positivity
  rw [div_mul_cancel₀ _ hpow.ne'] at hlt
  have hm : 0 ≤ m := by
    have hcast : (0 : ℚ) ≤ m := by
      rwa [le_div_iff₀ hpow, zero_mul] at hx
    exact_mod_cast hcast
  have hfits : Fits k m (m / 10 ^ k) := ⟨m, rfl, (abs_of_nonneg hm).le⟩
  exact hfits.roundSig_eq (by exact_mod_cast hlt)

theorem le_roundSig (hprec : 0 < prec) (h : 10 ^ prec ≤ x * 10 ^ k) :
    10 ^ prec ≤ roundSig prec x * 10 ^ k := by
  have hpow : (0 : ℚ) < 10 ^ k := by positivity
  have hbound : (10 : ℚ) ^ ((prec : ℤ) - k) ≤ x := by
    rw [zpow_sub₀ (by norm_num), zpow_natCast, zpow_natCast]
    exact (div_le_iff₀ hpow).mpr h
  have hx : 0 < x := (zpow_pos (by norm_num) _).trans_le hbound
  have hlog : (prec : ℤ) - k ≤ Int.log 10 x :=
    (Int.zpow_le_iff_le_log (by norm_num) hx).mp (by exact_mod_cast hbound)
  have hround : (10 : ℚ) ^ ((prec : ℤ) - k) ≤ roundSig prec x :=
    (zpow_le_zpow_right₀ (by norm_num) hlog).trans (roundSig_bounds hprec hx).1
  calc (10 : ℚ) ^ prec = 10 ^ ((prec : ℤ) - k) * 10 ^ k := by
        rw [zpow_sub₀ (by norm_num), zpow_natCast, zpow_natCast, div_mul_cancel₀ _ hpow.ne']
    _ ≤ roundSig prec x * 10 ^ k := mul_le_mul_of_nonneg_right hround hpow.le

def GridTerm (prec k : ℕ) (term : ℚ × ℚ) : Prop :=
  0 ≤ term.2 ∧ OnGrid k term.2 ∧ (term.1 = term.2 ∨ 10 ^ prec ≤ term.1 * 10 ^ k)

theorem foldl_add_onGrid (hprec : 0 < prec) {terms : List (ℚ × ℚ)}
    (hterms : ∀ t ∈ terms, GridTerm prec k t) (hx : GridTerm prec k (s, x)) :
    GridTerm prec k ((terms.map Prod.fst).foldl (Context.add ⟨roundSig prec⟩) s,
      x + (terms.map Prod.snd).sum) := by
  induction terms generalizing s x with
  | nil => simpa using hx
  | cons term terms ih =>
      obtain ⟨hpos, hgrid, hvalue⟩ := hterms term List.mem_cons_self
      obtain ⟨hxpos, hxgrid, hxvalue⟩ := hx
      have hpow : (0 : ℚ) < 10 ^ k := by positivity
      have hnonneg : 0 ≤ x + term.2 := add_nonneg hxpos hpos
      rw [List.map_cons, List.map_cons, List.foldl_cons, List.sum_cons, ← add_assoc]
      refine ih (fun t ht => hterms t (List.mem_cons_of_mem _ ht))
        ⟨hnonneg, hxgrid.add hgrid, ?_⟩
      -- one of the two is past what fits, or both are exact
      have hlarge : 10 ^ prec ≤ (s + term.1) * 10 ^ k →
          10 ^ prec ≤ Context.add ⟨roundSig prec⟩ s term.1 * 10 ^ k := le_roundSig hprec
      have hten : (0 : ℚ) < 10 ^ prec := by positivity
      rcases hxvalue with hs | hs
      · rcases hvalue with ht | ht
        · dsimp only at hs
          rw [hs, ht] at hlarge ⊢
          rcases lt_or_ge ((x + term.2) * 10 ^ k) (10 ^ prec) with hlt | hge
          · exact .inl ((hxgrid.add hgrid).roundSig_eq hnonneg hlt)
          · exact .inr (hlarge hge)
        · dsimp only at hs
          refine .inr (hlarge ?_)
          have := mul_nonneg hxpos hpow.le
          rw [hs, add_mul]
          linarith
      · refine .inr (hlarge ?_)
        have hterm : 0 ≤ term.1 * 10 ^ k := by
          rcases hvalue with ht | ht
          · rw [ht]
            exact mul_nonneg hpos hpow.le
          · exact hten.le.trans ht
        rw [add_mul]
        linarith

/-! ## Sums of a part of the values -/

theorem roundSig_roundSig (hprec : 0 < prec) (hx : 0 ≤ x) :
    roundSig prec (roundSig prec x) = roundSig prec x := by
  rcases hx.eq_or_lt with rfl | hx
  · simp [roundSig]
  obtain ⟨hlow, hhigh⟩ := roundSig_bounds hprec hx
  have hrounded : 0 < roundSig prec x := (zpow_pos (by norm_num) _).trans_le hlow
  have hlog : Int.log 10 x ≤ Int.log 10 (roundSig prec x) :=
    (Int.zpow_le_iff_le_log (by norm_num) hrounded).mp (by exact_mod_cast hlow)
  -- a whole number of units of the last digit, which may only get larger
  have hwhole : ∃ m : ℤ, roundSig prec x /
      10 ^ (Int.log 10 (roundSig prec x) + 1 - (prec : ℤ)) = m := by
    rcases hlog.eq_or_lt with heq | hlt
    · rw [← heq]
      refine ⟨roundHalfEven (x / 10 ^ (Int.log 10 x + 1 - (prec : ℤ))), ?_⟩
      conv_lhs => rw [roundSig, if_neg hx.ne', abs_of_pos hx]
      exact mul_div_cancel_right₀ _ (zpow_pos (by norm_num) _).ne'
    · have hself := Int.zpow_log_le_self (by norm_num : 1 < 10) hrounded
      have hpower : (10 : ℚ) ^ (Int.log 10 x + 1) ≤
          10 ^ Int.log 10 (roundSig prec x) := zpow_le_zpow_right₀ (by norm_num) hlt
      have heq : roundSig prec x = 10 ^ Int.log 10 (roundSig prec x) := by
        refine le_antisymm (hhigh.trans hpower) ?_
        exact_mod_cast hself
      refine ⟨10 ^ (prec - 1), ?_⟩
      have hexponent : Int.log 10 (roundSig prec x) =
          ((prec - 1 : ℕ) : ℤ) + (Int.log 10 (roundSig prec x) + 1 - (prec : ℤ)) := by
        omega
      have hne : (10 : ℚ) ^ (Int.log 10 (roundSig prec x) + 1 - (prec : ℤ)) ≠ 0 :=
        zpow_ne_zero _ (by norm_num)
      rw [div_eq_iff hne]
      conv_lhs => rw [heq, hexponent, zpow_add₀ (by norm_num), zpow_natCast]
      push_cast
      rfl
  obtain ⟨m, hm⟩ := hwhole
  conv_lhs => rw [roundSig, if_neg hrounded.ne', abs_of_pos hrounded]
  dsimp only
  rw [hm, roundHalfEven_intCast, ← hm, div_mul_cancel₀]
  exact zpow_ne_zero _ (by norm_num)

theorem foldl_add_sublist (hprec : 0 < prec) {part : List ℚ} (hsub : part.Sublist values)
    (hpos : ∀ x ∈ values, 0 ≤ x) {s' : ℚ} (hs : 0 ≤ s) (hle : s ≤ s')
    (hs' : roundSig prec s' = s') :
    0 ≤ part.foldl (Context.add ⟨roundSig prec⟩) s ∧
      part.foldl (Context.add ⟨roundSig prec⟩) s ≤
        values.foldl (Context.add ⟨roundSig prec⟩) s' := by
  induction hsub generalizing s s' with
  | slnil => exact ⟨hs, hle⟩
  | cons a _ ih =>
      have ha := hpos a List.mem_cons_self
      have hstep : s' ≤ roundSig prec (s' + a) := by
        rw [← hs']
        exact roundSig_mono hprec (by rw [hs']; linarith)
      exact ih (fun x hx => hpos x (List.mem_cons_of_mem _ hx)) hs (hle.trans hstep)
        (roundSig_roundSig hprec (by linarith))
  | cons_cons a _ ih =>
      have ha := hpos a List.mem_cons_self
      exact ih (fun x hx => hpos x (List.mem_cons_of_mem _ hx))
        (roundSig_nonneg hprec (by linarith)) (roundSig_mono hprec (by linarith))
        (roundSig_roundSig hprec (by linarith))

end Decimal
