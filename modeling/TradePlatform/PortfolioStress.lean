/-
# `TradePlatform.PortfolioStress` — what stressed correlations do to the variance of a target

`CovarianceEstimateV2.stressed` raises every correlation towards one by the same fraction of the
way.  The variance of a vector grows by that fraction of what full correlation would add to it,
which is a sum over pairs: positive for two weights of one sign, and negative for a long and a
short one, that hedge each other the better the more they are correlated.
-/
import TradePlatform.PortfolioLimits

namespace TradePlatform.PortfolioConstruction

open Volatility

variable {K : Type} [Field K] [LinearOrder K] [IsStrictOrderedRing K]

def stressLevel (policy : PortfolioConstructionPolicyV2 K) : K :=
  max policy.covarianceUncertainty policy.correlationStress

variable {policy : PortfolioConstructionPolicyV2 K} {root : ExactSqrt K}
  {covariance : CovarianceEstimateV2 root} {w : Fin covariance.strategyKeys.length → K}

namespace CovarianceEstimateV2

/-- `σᵢ σⱼ`: the covariance of two strategies at correlation one. -/
def fullCovariance (covariance : CovarianceEstimateV2 root) :
    Matrix (Fin covariance.strategyKeys.length) (Fin covariance.strategyKeys.length) K :=
  fun i j => root.sqrt (covariance.matrix i i * covariance.matrix j j)

theorem fullCovariance_self (i : Fin covariance.strategyKeys.length) :
    covariance.fullCovariance i i = covariance.matrix i i :=
  root.sqrt_eq (covariance.diagonal_pos i).le rfl

theorem fullCovariance_pos (i j : Fin covariance.strategyKeys.length) :
    0 < covariance.fullCovariance i j := by
  have hproduct := mul_pos (covariance.diagonal_pos i) (covariance.diagonal_pos j)
  refine lt_of_le_of_ne (root.nonneg _ hproduct.le) fun hzero => ?_
  have hsquare := root.mul_self _ hproduct.le
  rw [show root.sqrt _ = 0 from hzero.symm, mul_zero] at hsquare
  exact hproduct.ne hsquare

omit [IsStrictOrderedRing K] in
theorem matrix_le_fullCovariance (i j : Fin covariance.strategyKeys.length) :
    covariance.matrix i j ≤ covariance.fullCovariance i j :=
  (le_abs_self _).trans (covariance.correlation i j)

theorem stressed_apply (i j : Fin covariance.strategyKeys.length) :
    covariance.stressed policy i j = covariance.matrix i j +
      stressLevel policy * (covariance.fullCovariance i j - covariance.matrix i j) := by
  unfold stressed
  split
  · rename_i heq
    subst heq
    rw [fullCovariance_self, sub_self, mul_zero, add_zero]
  · have hscale := (@fullCovariance_pos K _ _ _ root covariance i j).ne'
    show (covariance.matrix i j / covariance.fullCovariance i j + stressLevel policy *
      (1 - covariance.matrix i j / covariance.fullCovariance i j)) *
        covariance.fullCovariance i j = _
    field_simp

end CovarianceEstimateV2

/-- What full correlation would add to the variance of a vector: `∑ wᵢ wⱼ (σᵢ σⱼ - cᵢⱼ)`. -/
def shortfall (covariance : CovarianceEstimateV2 root)
    (w : Fin covariance.strategyKeys.length → K) : K :=
  form w (covariance.fullCovariance - covariance.matrix)

theorem form_stressed : form w (covariance.stressed policy) =
    form w covariance.matrix + stressLevel policy * shortfall covariance w := by
  simp only [form, shortfall, Finset.mul_sum, ← Finset.sum_add_distrib]
  refine Finset.sum_congr rfl fun i _ => Finset.sum_congr rfl fun j _ => ?_
  rw [CovarianceEstimateV2.stressed_apply, Matrix.sub_apply]
  ring

omit [IsStrictOrderedRing K] in
theorem stressLevel_nonneg : 0 ≤ stressLevel policy :=
  le_max_of_le_left policy.uncertainty_range.1

theorem shortfall_pair (i j : Fin covariance.strategyKeys.length) :
    shortfall covariance (Pi.single i 1 - Pi.single j 1) =
      2 * (covariance.matrix i j - covariance.fullCovariance i j) := by
  have hproduct : ∀ k, product (Pi.single i 1 - Pi.single j 1)
      (covariance.fullCovariance - covariance.matrix) k =
      (covariance.fullCovariance - covariance.matrix) k i -
        (covariance.fullCovariance - covariance.matrix) k j := by
    intro k
    simp [product, Pi.single_apply, mul_sub, Finset.sum_sub_distrib]
  have hcross : covariance.fullCovariance j i = covariance.fullCovariance i j := by
    unfold CovarianceEstimateV2.fullCovariance
    rw [mul_comm]
  rw [shortfall, ← sum_mul_product]
  simp only [hproduct, Pi.sub_apply, sub_mul, Finset.sum_sub_distrib, Pi.single_apply, ite_mul,
    one_mul, zero_mul, Finset.sum_ite_eq', Finset.mem_univ, if_true, Matrix.sub_apply,
    CovarianceEstimateV2.fullCovariance_self, hcross, covariance.symmetric j i]
  ring

/-- The stressed variance of a vector is at least the raw one if and only if there is no stress
or full correlation would not lower the variance; and it is so for every vector if and only if
there is no stress or every correlation is one already. -/
theorem stressed_conservative_iff (policy : PortfolioConstructionPolicyV2 K)
    (covariance : CovarianceEstimateV2 root) :
    (∀ w, form w covariance.matrix ≤ form w (covariance.stressed policy) ↔
      stressLevel policy = 0 ∨ 0 ≤ shortfall covariance w) ∧
    ((∀ w, form w covariance.matrix ≤ form w (covariance.stressed policy)) ↔
      stressLevel policy = 0 ∨ ∀ i j, covariance.matrix i j = covariance.fullCovariance i j) := by
  have hone : ∀ w, form w covariance.matrix ≤ form w (covariance.stressed policy) ↔
      stressLevel policy = 0 ∨ 0 ≤ shortfall covariance w := by
    intro w
    rw [form_stressed, le_add_iff_nonneg_right]
    rcases (@stressLevel_nonneg K _ _ policy).eq_or_lt with hzero | hpos
    · rw [← hzero, zero_mul]
      exact iff_of_true le_rfl (.inl rfl)
    · rw [mul_nonneg_iff_of_pos_left hpos, or_iff_right hpos.ne']
  refine ⟨hone, fun hall => ?_, fun h w => (hone w).mpr ?_⟩
  · by_contra hnot
    obtain ⟨hstress, hsome⟩ := not_or.mp hnot
    obtain ⟨i, hi⟩ := not_forall.mp hsome
    obtain ⟨j, hij⟩ := not_forall.mp hi
    -- the pair that is not fully correlated, one long and one short
    have hpair := ((hone _).mp (hall (Pi.single i 1 - Pi.single j 1))).resolve_left hstress
    rw [shortfall_pair] at hpair
    have hle := @CovarianceEstimateV2.matrix_le_fullCovariance K _ _ root covariance i j
    exact hij (le_antisymm hle (by linarith))
  · refine h.imp_right fun hfull => ?_
    simp [shortfall, form, hfull]

theorem fullStress_range : (0 : ℝ) ≤ 1 ∧ (1 : ℝ) ≤ 1 := ⟨zero_le_one, le_rfl⟩

noncomputable def fullStressPolicy : PortfolioConstructionPolicyV2 ℝ :=
  { samplePolicy with
    correlationStress := 1
    correlationStress_range := fullStress_range }

noncomputable def uncorrelated : CovarianceEstimateV2 ExactSqrt.real where
  strategyKeys := ["carry", "trend"]
  matrix := 1
  asOf := 0
  keys_pos := nofun
  keys_sorted := by decide
  keys_text := by decide
  diagonal_pos := by simp
  symmetric := fun i j => by rw [Matrix.one_apply, Matrix.one_apply]; simp [eq_comm]
  correlation := fun i j => by
    rcases eq_or_ne i j with rfl | hne
    · simp [ExactSqrt.real]
    · simp [ExactSqrt.real, hne]

/-- Long the one and short the other: the variance is two, and none is left of it under
stress. -/
theorem stress_hides_a_spread :
    form (![1, -1] : Fin 2 → ℝ) (uncorrelated.stressed fullStressPolicy) <
      form (![1, -1] : Fin 2 → ℝ) uncorrelated.matrix := by
  simp [form, Fin.sum_univ_two, CovarianceEstimateV2.stressed, uncorrelated, fullStressPolicy,
    samplePolicy, ExactSqrt.real]

theorem stressed_conservative_iff_sample :
    (∀ w, form w uncorrelated.matrix ≤ form w (uncorrelated.stressed fullStressPolicy) ↔
      stressLevel fullStressPolicy = 0 ∨ 0 ≤ shortfall uncorrelated w) ∧
    ((∀ w, form w uncorrelated.matrix ≤ form w (uncorrelated.stressed fullStressPolicy)) ↔
      stressLevel fullStressPolicy = 0 ∨
        ∀ i j, uncorrelated.matrix i j = uncorrelated.fullCovariance i j) :=
  stressed_conservative_iff fullStressPolicy uncorrelated

end TradePlatform.PortfolioConstruction
