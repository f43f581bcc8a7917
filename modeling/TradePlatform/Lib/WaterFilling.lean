/-
# `TradePlatform.Lib.WaterFilling` — sharing a budget by scores, with a cap on each share

At a water level every score gets its share of the level, and never more than the cap.  The
shares grow with the level, so the allocation of a total is unique whatever the level is
(`fill_eq_of_sum_eq`), and its value does not depend on the order of the scores.  When all scores
that are above the cap at the proportional level are capped at once, the budget is not used up
and the proportional level of the others does not drop (`batch_lt`, `level_le_batch`).
-/
import Mathlib

namespace WaterFilling

variable {K : Type*} [Field K] [LinearOrder K]

def fill (cap level score : K) : K := min cap (level * score)

variable {cap budget level level' score : K} {scores capped others : List K}

theorem fill_eq_cap (h : cap ≤ level * score) : fill cap level score = cap := min_eq_left h

theorem fill_eq_share (h : level * score ≤ cap) : fill cap level score = level * score :=
  min_eq_right h

variable [IsStrictOrderedRing K]

theorem fill_mono (hscore : 0 ≤ score) (h : level ≤ level') :
    fill cap level score ≤ fill cap level' score :=
  min_le_min_left cap (mul_le_mul_of_nonneg_right h hscore)

/-! ## One total, one allocation -/

theorem fill_eq_of_le (hscores : ∀ s ∈ scores, 0 ≤ s) (hle : level ≤ level')
    (hsum : (scores.map (fill cap level)).sum = (scores.map (fill cap level')).sum) :
    ∀ s ∈ scores, fill cap level s = fill cap level' s := by
  induction scores with
  | nil =>
      intro s hs
      cases hs
  | cons a scores ih =>
      have hrest : ∀ s ∈ scores, 0 ≤ s := fun s hs => hscores s (List.mem_cons_of_mem _ hs)
      have hhead : fill cap level a ≤ fill cap level' a :=
        fill_mono (hscores a List.mem_cons_self) hle
      have htail : (scores.map (fill cap level)).sum ≤ (scores.map (fill cap level')).sum :=
        List.sum_le_sum fun s hs => fill_mono (hrest s hs) hle
      rw [List.map_cons, List.map_cons, List.sum_cons, List.sum_cons] at hsum
      have hheadEq : fill cap level a = fill cap level' a := by linarith
      have htailEq : (scores.map (fill cap level)).sum = (scores.map (fill cap level')).sum := by
        linarith
      intro s hs
      rcases List.mem_cons.mp hs with rfl | hs
      · exact hheadEq
      · exact ih hrest htailEq s hs

theorem fill_eq_of_sum_eq (hscores : ∀ s ∈ scores, 0 ≤ s)
    (hsum : (scores.map (fill cap level)).sum = (scores.map (fill cap level')).sum) :
    ∀ s ∈ scores, fill cap level s = fill cap level' s := by
  intro s hs
  rcases le_total level level' with hle | hle
  · exact fill_eq_of_le hscores hle hsum s hs
  · exact (fill_eq_of_le hscores hle hsum.symm s hs).symm

/-! ## A batch of capped scores -/

theorem sum_lt_of_exceeds (hne : capped ≠ []) (h : ∀ s ∈ capped, cap < level * s) :
    capped.length * cap < level * capped.sum := by
  induction capped with
  | nil => exact absurd rfl hne
  | cons a capped ih =>
      have hhead : cap < level * a := h a List.mem_cons_self
      have hrest : ∀ s ∈ capped, cap < level * s := fun s hs => h s (List.mem_cons_of_mem _ hs)
      rw [List.length_cons, List.sum_cons, Nat.cast_succ, mul_add, add_mul, one_mul]
      rcases eq_or_ne capped [] with rfl | hcapped
      · simpa using hhead
      · linarith [ih hcapped hrest]

theorem batch_lt (hbudget : 0 < budget) (hothers : 0 ≤ others.sum) (hsum : 0 < capped.sum)
    (hne : capped ≠ []) (h : ∀ s ∈ capped, cap < budget / (capped.sum + others.sum) * s) :
    capped.length * cap < budget := by
  have htotal : 0 < capped.sum + others.sum := by linarith
  calc capped.length * cap < budget / (capped.sum + others.sum) * capped.sum :=
        sum_lt_of_exceeds hne h
    _ ≤ budget / (capped.sum + others.sum) * (capped.sum + others.sum) :=
        mul_le_mul_of_nonneg_left (by linarith) (div_nonneg hbudget.le htotal.le)
    _ = budget := div_mul_cancel₀ _ htotal.ne'

theorem level_le_batch (hothers : 0 < others.sum) (hsum : 0 < capped.sum) (hne : capped ≠ [])
    (h : ∀ s ∈ capped, cap < budget / (capped.sum + others.sum) * s) :
    budget / (capped.sum + others.sum) ≤ (budget - capped.length * cap) / others.sum := by
  have htotal : 0 < capped.sum + others.sum := by linarith
  have hlt := sum_lt_of_exceeds hne h
  rw [le_div_iff₀ hothers]
  have hsplit : budget / (capped.sum + others.sum) * others.sum =
      budget - budget / (capped.sum + others.sum) * capped.sum := by
    field_simp
    ring
  rw [hsplit]
  linarith

end WaterFilling
