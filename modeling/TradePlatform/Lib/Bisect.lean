/-
# `TradePlatform.Lib.Bisect` — bisection of a sorted list

The loop behind `bisect_left` and `bisect_right`: a window of indices that is halved
until it is empty.  On a list that a test splits in two, the loop ends at the split.
-/
import Mathlib

namespace Bisect

variable {α : Type*}

/-- `while lo < hi`: go right of an element that passes the test, else left of it. -/
def loop (before : α → Bool) (l : List α) (lo hi : ℕ) : ℕ :=
  if lo < hi then
    if (l[(lo + hi) / 2]?).any before then loop before l ((lo + hi) / 2 + 1) hi
    else loop before l lo ((lo + hi) / 2)
  else lo
termination_by hi - lo

/-- The elements before `r` pass the test, those from `r` on do not. -/
def SplitsAt (before : α → Bool) (l : List α) (r : ℕ) : Prop :=
  r ≤ l.length ∧ ∀ i (a : α), l[i]? = some a → (before a = true ↔ i < r)

def Splits (before : α → Bool) (l : List α) : Prop :=
  l.Pairwise fun a b => before b = true → before a = true

variable {before : α → Bool} {l : List α}

theorem Splits.of_le (h : Splits before l) {i j : ℕ} {a b : α} (hij : i ≤ j)
    (ha : l[i]? = some a) (hb : l[j]? = some b) (hbefore : before b = true) : before a = true := by
  rcases hij.eq_or_lt with rfl | hij
  · rw [ha] at hb
    cases hb
    exact hbefore
  · obtain ⟨hi, rfl⟩ := List.getElem?_eq_some_iff.mp ha
    obtain ⟨hj, rfl⟩ := List.getElem?_eq_some_iff.mp hb
    exact List.pairwise_iff_getElem.mp h i j hi hj hij hbefore

theorem loop_splitsAt (h : Splits before l) {lo hi : ℕ} (hlohi : lo ≤ hi) (hhi : hi ≤ l.length)
    (hlow : ∀ i a, i < lo → l[i]? = some a → before a = true)
    (hhigh : ∀ i a, hi ≤ i → l[i]? = some a → before a = false) :
    SplitsAt before l (loop before l lo hi) := by
  fun_induction loop before l lo hi with
  | case1 lo hi hlt hmid ih =>
      obtain ⟨b, hb, hbefore⟩ := (Option.any_eq_true before _).mp hmid
      refine ih (by omega) hhi (fun i a hi' ha => ?_) hhigh
      exact h.of_le (by omega) ha hb hbefore
  | case2 lo hi hlt hmid ih =>
      refine ih (by omega) (by omega) hlow fun i a hi' ha => ?_
      -- an element from the middle on that passed would make the middle one pass
      by_contra hbefore
      have hmid' : (lo + hi) / 2 < l.length := by omega
      refine hmid ((Option.any_eq_true before _).mpr
        ⟨l[(lo + hi) / 2], List.getElem?_eq_getElem hmid', ?_⟩)
      exact h.of_le hi' (List.getElem?_eq_getElem hmid') ha ((Bool.not_eq_false _).mp hbefore)
  | case3 lo hi hlt =>
      obtain rfl : hi = lo := by omega
      refine ⟨hhi, fun i a ha => ⟨fun hbefore => ?_, fun hi' => hlow i a hi' ha⟩⟩
      by_contra hle
      rw [hhigh i a (by omega) ha] at hbefore
      cases hbefore

section Sorted

variable [LinearOrder α]

def bisectRight (l : List α) (x : α) : ℕ := loop (fun a => a ≤ x) l 0 l.length

def bisectLeft (l : List α) (x : α) : ℕ := loop (fun a => a < x) l 0 l.length

theorem bisectRight_le_length {x : α} (h : l.Pairwise (· ≤ ·)) : bisectRight l x ≤ l.length := by
  have hsplits : Splits (fun a => decide (a ≤ x)) l :=
    h.imp fun hab hb => decide_eq_true (hab.trans (of_decide_eq_true hb))
  exact (loop_splitsAt hsplits (Nat.zero_le _) le_rfl
    (fun i _ hi _ => absurd hi (Nat.not_lt_zero i))
    (fun i b hi hb => absurd (List.getElem?_eq_some_iff.mp hb).1 hi.not_gt)).1

theorem lt_bisectRight {x a : α} {i : ℕ} (h : l.Pairwise (· ≤ ·)) (ha : l[i]? = some a) :
    i < bisectRight l x ↔ a ≤ x := by
  have hsplits : Splits (fun a => decide (a ≤ x)) l :=
    h.imp fun hab hb => decide_eq_true (hab.trans (of_decide_eq_true hb))
  have hsplit := loop_splitsAt hsplits (Nat.zero_le _) le_rfl
    (fun i _ hi _ => absurd hi (Nat.not_lt_zero i))
    (fun i b hi hb => absurd (List.getElem?_eq_some_iff.mp hb).1 hi.not_gt)
  rw [← decide_eq_true_iff (p := a ≤ x)]
  exact (hsplit.2 i a ha).symm

theorem bisectLeft_le_length {x : α} (h : l.Pairwise (· ≤ ·)) : bisectLeft l x ≤ l.length := by
  have hsplits : Splits (fun a => decide (a < x)) l :=
    h.imp fun hab hb => decide_eq_true (hab.trans_lt (of_decide_eq_true hb))
  exact (loop_splitsAt hsplits (Nat.zero_le _) le_rfl
    (fun i _ hi _ => absurd hi (Nat.not_lt_zero i))
    (fun i b hi hb => absurd (List.getElem?_eq_some_iff.mp hb).1 hi.not_gt)).1

theorem lt_bisectLeft {x a : α} {i : ℕ} (h : l.Pairwise (· ≤ ·)) (ha : l[i]? = some a) :
    i < bisectLeft l x ↔ a < x := by
  have hsplits : Splits (fun a => decide (a < x)) l :=
    h.imp fun hab hb => decide_eq_true (hab.trans_lt (of_decide_eq_true hb))
  have hsplit := loop_splitsAt hsplits (Nat.zero_le _) le_rfl
    (fun i _ hi _ => absurd hi (Nat.not_lt_zero i))
    (fun i b hi hb => absurd (List.getElem?_eq_some_iff.mp hb).1 hi.not_gt)
  rw [← decide_eq_true_iff (p := a < x)]
  exact (hsplit.2 i a ha).symm

end Sorted

end Bisect
