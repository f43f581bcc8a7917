/-
# `TradePlatform.Lib.Volatility` — the volatility of a weight vector, over any ordered field

The volatility of weights under a matrix is the root of their quadratic form, where a form that
is negative counts as zero.  It is linear along a ray (`volatility_scale`), and it is the sum of
what its components contribute (`sum_component`), as long as roots are exact.  The field is
arbitrary: a field with exact roots is given as a value, so the definitions compute where the
field does.
-/
import Mathlib

structure ExactSqrt (K : Type*) [Field K] [LinearOrder K] where
  sqrt : K → K
  nonneg : ∀ x, 0 ≤ x → 0 ≤ sqrt x
  mul_self : ∀ x, 0 ≤ x → sqrt x * sqrt x = x

namespace ExactSqrt

variable {K : Type*} [Field K] [LinearOrder K] [IsStrictOrderedRing K] (root : ExactSqrt K)

theorem sqrt_eq {x y : K} (hy : 0 ≤ y) (h : y * y = x) : root.sqrt x = y := by
  have hx : 0 ≤ x := h ▸ mul_self_nonneg y
  have hsquare : root.sqrt x * root.sqrt x = y * y := (root.mul_self x hx).trans h.symm
  exact (mul_self_inj (root.nonneg x hx) hy).mp hsquare

@[simp] theorem sqrt_zero : root.sqrt 0 = 0 := root.sqrt_eq le_rfl (mul_zero 0)

theorem sqrt_scale {s x : K} (hs : 0 ≤ s) (hx : 0 ≤ x) :
    root.sqrt (s * s * x) = s * root.sqrt x := by
  refine root.sqrt_eq (mul_nonneg hs (root.nonneg x hx)) ?_
  calc s * root.sqrt x * (s * root.sqrt x) = s * s * (root.sqrt x * root.sqrt x) := by ring
    _ = s * s * x := by rw [root.mul_self x hx]

noncomputable def real : ExactSqrt ℝ where
  sqrt := Real.sqrt
  nonneg := fun _ _ => Real.sqrt_nonneg _
  mul_self := fun _ hx => Real.mul_self_sqrt hx

end ExactSqrt

namespace Volatility

variable {K : Type*} [Field K] {n : ℕ}

def form (w : Fin n → K) (M : Matrix (Fin n) (Fin n) K) : K := ∑ i, ∑ j, w i * w j * M i j

def product (w : Fin n → K) (M : Matrix (Fin n) (Fin n) K) (i : Fin n) : K := ∑ j, M i j * w j

theorem form_scale (s : K) (w : Fin n → K) (M : Matrix (Fin n) (Fin n) K) :
    form (fun i => w i * s) M = s * s * form w M := by
  simp only [form, Finset.mul_sum]
  refine Finset.sum_congr rfl fun i _ => Finset.sum_congr rfl fun j _ => ?_
  ring

theorem sum_mul_product (w : Fin n → K) (M : Matrix (Fin n) (Fin n) K) :
    ∑ i, w i * product w M i = form w M := by
  simp only [form, product, Finset.mul_sum]
  refine Finset.sum_congr rfl fun i _ => Finset.sum_congr rfl fun j _ => ?_
  ring

variable [LinearOrder K] [IsStrictOrderedRing K] (root : ExactSqrt K)

def volatility (w : Fin n → K) (M : Matrix (Fin n) (Fin n) K) : K := root.sqrt (max (form w M) 0)

omit [IsStrictOrderedRing K] in
theorem volatility_nonneg (w : Fin n → K) (M : Matrix (Fin n) (Fin n) K) :
    0 ≤ volatility root w M :=
  root.nonneg _ (le_max_right _ _)

theorem volatility_scale {s : K} (hs : 0 ≤ s) (w : Fin n → K) (M : Matrix (Fin n) (Fin n) K) :
    volatility root (fun i => w i * s) M = s * volatility root w M := by
  have hmax : max (s * s * form w M) 0 = s * s * max (form w M) 0 := by
    rw [mul_max_of_nonneg _ _ (mul_self_nonneg s), mul_zero]
  rw [volatility, volatility, form_scale, hmax, root.sqrt_scale hs (le_max_right _ _)]

theorem mul_self_volatility {w : Fin n → K} {M : Matrix (Fin n) (Fin n) K}
    (h : 0 < volatility root w M) : volatility root w M * volatility root w M = form w M := by
  have hform : max (form w M) 0 = form w M := by
    refine max_eq_left (le_of_not_gt fun hneg => h.ne' ?_)
    rw [volatility, max_eq_right hneg.le, root.sqrt_zero]
  rw [volatility, root.mul_self _ (le_max_right _ _), hform]

/-- What a component contributes: its weight times the marginal volatility, which is zero
where there is no volatility. -/
def component (w : Fin n → K) (M : Matrix (Fin n) (Fin n) K) (i : Fin n) : K :=
  w i * if 0 < volatility root w M then product w M i / volatility root w M else 0

theorem sum_component (w : Fin n → K) (M : Matrix (Fin n) (Fin n) K) :
    ∑ i, component root w M i = volatility root w M := by
  by_cases h : 0 < volatility root w M
  · calc ∑ i, component root w M i
        = ∑ i, w i * product w M i / volatility root w M := by
          simp only [component, if_pos h, mul_div_assoc]
      _ = form w M / volatility root w M := by rw [← Finset.sum_div, sum_mul_product]
      _ = volatility root w M := by rw [← mul_self_volatility root h, mul_div_cancel_right₀ _ h.ne']
  · have hzero : volatility root w M = 0 :=
      le_antisymm (not_lt.mp h) (volatility_nonneg root w M)
    rw [hzero]
    refine Finset.sum_eq_zero fun i _ => ?_
    rw [component, if_neg h, mul_zero]

theorem volatility_le_of_scale {w : Fin n → K} {M : Matrix (Fin n) (Fin n) K} {target s : K}
    (htarget : 0 < target)
    (hs : s = min 1 (if 0 < volatility root w M then target / volatility root w M else 1)) :
    0 ≤ s ∧ s ≤ 1 ∧ s * volatility root w M ≤ target := by
  by_cases h : 0 < volatility root w M
  · rw [if_pos h] at hs
    have hle : s ≤ target / volatility root w M := hs ▸ min_le_right _ _
    refine ⟨hs ▸ le_min zero_le_one (div_nonneg htarget.le h.le), hs ▸ min_le_left _ _, ?_⟩
    calc s * volatility root w M
        ≤ target / volatility root w M * volatility root w M :=
          mul_le_mul_of_nonneg_right hle h.le
      _ = target := div_mul_cancel₀ _ h.ne'
  · rw [if_neg h, min_self] at hs
    have hzero : volatility root w M = 0 :=
      le_antisymm (not_lt.mp h) (volatility_nonneg root w M)
    rw [hs, hzero]
    exact ⟨zero_le_one, le_rfl, by simpa using htarget.le⟩

end Volatility
