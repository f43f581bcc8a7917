/-
# `TradePlatform.Lib.UpTo` — conditions on a scale that hold up to one value and not beyond

A condition on the scales from zero to one that is made of affine inequalities and of absolute
values of affine terms, on the side where it is convex, and that holds at zero, holds on a
closed interval that starts at zero.  The ordered field is arbitrary: the end of the interval
is found by the inequalities themselves and not by completeness.
-/
import Mathlib

variable {K : Type*} [Field K] [LinearOrder K]

/-- Among the scales from zero to one, the condition holds for those up to `m`. -/
structure HoldsUpTo (S : K → Prop) (m : K) : Prop where
  nonneg : 0 ≤ m
  le_one : m ≤ 1
  iff_le : ∀ s, 0 ≤ s → s ≤ 1 → (S s ↔ s ≤ m)

namespace HoldsUpTo

variable {S T : K → Prop} {m n : K}

theorem congr (h : HoldsUpTo S m) (hiff : ∀ s, T s ↔ S s) : HoldsUpTo T m :=
  ⟨h.nonneg, h.le_one, fun s hs hs' => (hiff s).trans (h.iff_le s hs hs')⟩

theorem and (h : HoldsUpTo S m) (h' : HoldsUpTo T n) :
    HoldsUpTo (fun s => S s ∧ T s) (min m n) where
  nonneg := le_min h.nonneg h'.nonneg
  le_one := (min_le_left m n).trans h.le_one
  iff_le s hs hs' := by rw [h.iff_le s hs hs', h'.iff_le s hs hs', le_min_iff]

theorem all [IsStrictOrderedRing K] {α : Type*} {l : List α} {S : α → K → Prop}
    (h : ∀ a ∈ l, ∃ m, HoldsUpTo (S a) m) : ∃ m, HoldsUpTo (fun s => ∀ a ∈ l, S a s) m := by
  induction l with
  | nil => exact ⟨1, zero_le_one, le_rfl, fun s _ hs' => iff_of_true nofun hs'⟩
  | cons a l ih =>
      obtain ⟨m, hm⟩ := h a List.mem_cons_self
      obtain ⟨n, hn⟩ := ih fun b hb => h b (List.mem_cons_of_mem _ hb)
      exact ⟨min m n, (hm.and hn).congr fun s => List.forall_mem_cons⟩

theorem isGreatest (h : HoldsUpTo S m) : IsGreatest {s | 0 ≤ s ∧ s ≤ 1 ∧ S s} m :=
  ⟨⟨h.nonneg, h.le_one, (h.iff_le m h.nonneg h.le_one).mpr le_rfl⟩,
    fun s hs => (h.iff_le s hs.1 hs.2.1).mp hs.2.2⟩

end HoldsUpTo

section Affine

variable [IsStrictOrderedRing K] {a b c : K}

theorem exists_upTo_affine (hzero : b ≤ c) : ∃ m, HoldsUpTo (fun s => a * s + b ≤ c) m := by
  rcases le_or_gt a 0 with ha | ha
  · refine ⟨1, zero_le_one, le_rfl, fun s hs hs' => iff_of_true ?_ hs'⟩
    have hterm : a * s ≤ 0 := mul_nonpos_of_nonpos_of_nonneg ha hs
    linarith
  · refine ⟨min 1 ((c - b) / a), le_min zero_le_one (div_nonneg (by linarith) ha.le),
      min_le_left _ _, fun s _ hs' => ?_⟩
    rw [le_min_iff, and_iff_right hs', le_div_iff₀ ha, mul_comm s a]
    exact le_sub_iff_add_le.symm

theorem exists_upTo_abs (hzero : |b| ≤ c) : ∃ m, HoldsUpTo (fun s => |a * s + b| ≤ c) m := by
  obtain ⟨m, hm⟩ := @exists_upTo_affine K _ _ _ a b c ((le_abs_self b).trans hzero)
  obtain ⟨n, hn⟩ := @exists_upTo_affine K _ _ _ (-a) (-b) c ((neg_le_abs b).trans hzero)
  refine ⟨min m n, (hm.and hn).congr fun s => ?_⟩
  rw [abs_le', neg_add, neg_mul]

/-- A sum of absolute values is at most a bound when it is for every choice of the signs, and so
are absolute values that are added to an affine term. -/
theorem exists_upTo_sum_abs (terms : List (K × K)) :
    ∀ {a b : K}, (terms.map fun x => |x.2|).sum + b ≤ c →
      ∃ m, HoldsUpTo (fun s => (terms.map fun x => |x.1 * s + x.2|).sum + (a * s + b) ≤ c) m := by
  induction terms with
  | nil =>
      intro a b hzero
      obtain ⟨m, hm⟩ := @exists_upTo_affine K _ _ _ a b c (by simpa using hzero)
      exact ⟨m, hm.congr fun s => by simp⟩
  | cons x terms ih =>
      intro a b hzero
      rw [List.map_cons, List.sum_cons] at hzero
      -- the first absolute value is the greater of the term and its negation
      have hplus : (terms.map fun y => |y.2|).sum + (x.2 + b) ≤ c := by
        linarith [le_abs_self x.2]
      have hminus : (terms.map fun y => |y.2|).sum + (-x.2 + b) ≤ c := by
        linarith [neg_le_abs x.2]
      obtain ⟨m, hm⟩ := @ih (x.1 + a) (x.2 + b) hplus
      obtain ⟨n, hn⟩ := @ih (-x.1 + a) (-x.2 + b) hminus
      refine ⟨min m n, (hm.and hn).congr fun s => ?_⟩
      rw [List.map_cons, List.sum_cons]
      constructor
      · intro h
        constructor
        · linarith [le_abs_self (x.1 * s + x.2)]
        · linarith [neg_le_abs (x.1 * s + x.2)]
      · rintro ⟨h, h'⟩
        rcases abs_cases (x.1 * s + x.2) with ⟨heq, -⟩ | ⟨heq, -⟩
        · linarith
        · linarith

end Affine
