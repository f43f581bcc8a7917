/-
# `TradePlatform.Lib.Midrank` — ranks with ties averaged

The midrank of a value among others: how many are smaller, half of how many are equal, and one
half.  It does not depend on the order the values are listed in, lies strictly between 0 and one
more than their number, and is read off a sorted list run by run (`midrank_run`, `midrank_rest`).
-/
import Mathlib

namespace Midrank

variable {V : Type*} [LinearOrder V] {values values' run rest : List V} {v w : V}

def midrank (values : List V) (v : V) : ℚ :=
  values.countP (fun w => decide (w < v)) + values.countP (fun w => decide (w = v)) / 2 + 1 / 2

theorem midrank_congr (h : values.Perm values') : midrank values v = midrank values' v := by
  rw [midrank, midrank, h.countP_eq, h.countP_eq]

theorem midrank_pos : 0 < midrank values v := by
  rw [midrank]
  positivity

theorem countP_lt_add_eq (values : List V) (v : V) :
    values.countP (fun w => decide (w < v)) + values.countP (fun w => decide (w = v)) ≤
      values.length := by
  induction values with
  | nil => simp
  | cons w values ih =>
      rw [List.countP_cons, List.countP_cons, List.length_cons]
      rcases lt_trichotomy w v with h | rfl | h
      · simp only [h, h.ne, decide_true, decide_false, if_true, Bool.false_eq_true, if_false]
        omega
      · simp only [lt_irrefl, decide_true, decide_false, if_true, Bool.false_eq_true, if_false]
        omega
      · simp only [h.not_gt, h.ne', decide_false, Bool.false_eq_true, if_false]
        omega

theorem midrank_lt (hv : v ∈ values) : midrank values v < values.length + 1 := by
  have hcount := countP_lt_add_eq values v
  have hequal : 0 < values.countP fun w => decide (w = v) :=
    List.countP_pos_iff.mpr ⟨v, hv, decide_eq_true rfl⟩
  have hsum : ((values.countP fun w => decide (w < v) : ℕ) : ℚ) +
      (values.countP fun w => decide (w = v) : ℕ) ≤ values.length := by exact_mod_cast hcount
  have hone : (1 : ℚ) ≤ (values.countP fun w => decide (w = v) : ℕ) := by exact_mod_cast hequal
  rw [midrank]
  linarith

/-! ## A sorted list, run by run -/

theorem midrank_append (values values' : List V) (v : V) :
    midrank (values ++ values') v =
      (values.countP (fun w => decide (w < v)) + values.countP (fun w => decide (w = v)) / 2 : ℚ) +
        midrank values' v := by
  simp only [midrank, List.countP_append, Nat.cast_add]
  ring

theorem midrank_run (hrun : ∀ w ∈ run, w = v) (hrest : ∀ w ∈ rest, v < w) :
    midrank (run ++ rest) v = (run.length + 1) / 2 := by
  have hless : (run ++ rest).countP (fun w => decide (w < v)) = 0 := by
    rw [List.countP_eq_zero]
    intro w hw
    rcases List.mem_append.mp hw with hw | hw
    · simp [hrun w hw]
    · simp [(hrest w hw).le]
  have hequal : (run ++ rest).countP (fun w => decide (w = v)) = run.length := by
    have hall : run.countP (fun w => decide (w = v)) = run.length :=
      List.countP_eq_length.mpr fun w hw => decide_eq_true (hrun w hw)
    have hnone : rest.countP (fun w => decide (w = v)) = 0 :=
      List.countP_eq_zero.mpr fun w hw => by simpa using (hrest w hw).ne'
    rw [List.countP_append, hall, hnone, add_zero]
  rw [midrank, hless, hequal]
  push_cast
  ring

theorem midrank_rest (hrun : ∀ w ∈ run, w = v) (hw : v < w) :
    midrank (run ++ rest) w = run.length + midrank rest w := by
  have hless : run.countP (fun u => decide (u < w)) = run.length :=
    List.countP_eq_length.mpr fun u hu => decide_eq_true (hrun u hu ▸ hw)
  have hequal : run.countP (fun u => decide (u = w)) = 0 :=
    List.countP_eq_zero.mpr fun u hu => by simpa [hrun u hu] using hw.ne
  rw [midrank_append, hless, hequal]
  push_cast
  ring

end Midrank
