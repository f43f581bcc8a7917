/-
# `TradePlatform.Lib.MachineInt` — signed integers of 64 bits, and differences of running sums

A running sum may wrap; the difference of two of its values is the sum of the stretch
between them as soon as that one fits.
-/
import Mathlib

namespace MachineInt

def int64 (x : ℤ) : ℤ := x.bmod (2 ^ 64)

def Fits (x : ℤ) : Prop := -2 ^ 63 ≤ x ∧ x < 2 ^ 63

instance (x : ℤ) : Decidable (Fits x) := inferInstanceAs (Decidable (_ ∧ _))

theorem Fits.int64_eq {x : ℤ} (h : Fits x) : int64 x = x := by
  obtain ⟨hlo, hhi⟩ := h
  exact Int.bmod_eq_of_le_mul_two (by push_cast; omega) (by push_cast; omega)

theorem int64_eq {x : ℤ} (h : |x| < 2 ^ 63) : int64 x = x := by
  obtain ⟨hlo, hhi⟩ := abs_lt.mp h
  exact Fits.int64_eq ⟨hlo.le, hhi⟩

def runningSum (v : ℕ → ℤ) : ℕ → ℤ
  | 0 => 0
  | i + 1 => int64 (runningSum v i + v i)

variable {v : ℕ → ℤ}

theorem runningSum_eq (v : ℕ → ℤ) (i : ℕ) :
    runningSum v i = int64 ((List.range' 0 i).map v).sum := by
  induction i with
  | zero => rfl
  | succ i ih =>
      rw [runningSum, ih, List.range'_concat, List.map_append, List.sum_append]
      simp [int64]

theorem runningSum_sub {lo w : ℕ} (h : |((List.range' lo w).map v).sum| < 2 ^ 63) :
    int64 (runningSum v (lo + w) - runningSum v lo) = ((List.range' lo w).map v).sum := by
  have hsplit : List.range' 0 (lo + w) = List.range' 0 lo ++ List.range' lo w := by
    have happend := (List.range'_append_1 (s := 0) (m := lo) (n := w)).symm
    rwa [Nat.zero_add] at happend
  rw [runningSum_eq, runningSum_eq, hsplit, List.map_append, List.sum_append]
  unfold int64
  rw [Int.bmod_sub_bmod, Int.sub_bmod_bmod, add_sub_cancel_left]
  exact int64_eq h

theorem abs_sum_le {l : List ℕ} {b : ℤ} (h : ∀ j ∈ l, |v j| ≤ b) :
    |(l.map v).sum| ≤ l.length * b := by
  induction l with
  | nil => simp
  | cons j l ih =>
      have hj := h j List.mem_cons_self
      have hl := ih fun k hk => h k (List.mem_cons_of_mem _ hk)
      have hadd := abs_add_le (v j) (l.map v).sum
      rw [List.map_cons, List.sum_cons, List.length_cons]
      push_cast
      linarith

end MachineInt
