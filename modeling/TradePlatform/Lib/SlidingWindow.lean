/-
# `TradePlatform.Lib.SlidingWindow` — the extreme of a moving window

A monotone deque holds the positions of a window that can still be its extreme: a new
position drives out those it beats, and old positions leave at the front.  The order is
any total one, so the same rules give the maximum and the minimum.
-/
import Mathlib

namespace SlidingWindow

variable {α β : Type*}

theorem le_foldl_max [LinearOrder α] {values : List α} {start : α} :
    start ≤ values.foldl max start ∧ ∀ value ∈ values, value ≤ values.foldl max start := by
  induction values generalizing start with
  | nil => exact ⟨le_rfl, fun _ h => nomatch h⟩
  | cons value values ih =>
      obtain ⟨hstart, hvalues⟩ := @ih (max start value)
      refine ⟨(le_max_left _ _).trans hstart, fun a ha => ?_⟩
      rcases List.mem_cons.mp ha with rfl | ha
      · exact (le_max_right _ _).trans hstart
      · exact hvalues a ha

/-! ## The extreme of a window -/

/-- `x` is a value of the positions from `lo` on and before `hi`, and none is better: `r a b`
says that `b` is at least as good as `a`. -/
structure IsExtreme (r : α → α → Prop) (v : ℕ → α) (lo hi : ℕ) (x : α) : Prop where
  attained : ∃ k, lo ≤ k ∧ k < hi ∧ v k = x
  best : ∀ k, lo ≤ k → k < hi → r (v k) x

section Extreme

variable {r : α → α → Prop} {v : ℕ → α} {lo hi : ℕ} {x y : α}

theorem IsExtreme.unique [Std.Antisymm r] (hx : IsExtreme r v lo hi x)
    (hy : IsExtreme r v lo hi y) : x = y := by
  obtain ⟨j, hlo, hhi, rfl⟩ := hx.attained
  obtain ⟨k, hlo', hhi', rfl⟩ := hy.attained
  exact Std.Antisymm.antisymm _ _ (hy.best j hlo hhi) (hx.best k hlo' hhi')

theorem IsExtreme.congr {v' : ℕ → α} {lo' hi' n : ℕ} (h : IsExtreme r v lo hi x)
    (hhi : hi = lo + n) (hhi' : hi' = lo' + n) (heq : ∀ k < n, v (lo + k) = v' (lo' + k)) :
    IsExtreme r v' lo' hi' x := by
  constructor
  · obtain ⟨k, hlo, hk, rfl⟩ := h.attained
    refine ⟨lo' + (k - lo), by omega, by omega, ?_⟩
    rw [← heq _ (by omega), Nat.add_sub_cancel' hlo]
  · intro k hlo hk
    have hbest := h.best (lo + (k - lo')) (by omega) (by omega)
    rwa [heq _ (by omega), Nat.add_sub_cancel' hlo] at hbest

theorem IsExtreme.map {r' : β → β → Prop} {f : α → β} (h : IsExtreme r v lo hi x)
    (hf : ∀ a b, r a b → r' (f a) (f b)) : IsExtreme r' (fun k => f (v k)) lo hi (f x) := by
  constructor
  · obtain ⟨k, hlo, hhi, rfl⟩ := h.attained
    exact ⟨k, hlo, hhi, rfl⟩
  · intro k hlo hhi
    exact hf _ _ (h.best k hlo hhi)

def Picks (r : α → α → Prop) (op : α → α → α) : Prop :=
  ∀ a b, (op a b = a ∨ op a b = b) ∧ r a (op a b) ∧ r b (op a b)

theorem IsExtreme.union [IsTrans α r] {op : α → α → α} (hop : Picks r op) {mid lo' : ℕ}
    (hx : IsExtreme r v lo mid x) (hy : IsExtreme r v lo' hi y) (hlo : lo ≤ lo')
    (hgap : lo' ≤ mid) (hhi : mid ≤ hi) : IsExtreme r v lo hi (op x y) := by
  obtain ⟨hpick, hbestx, hbesty⟩ := hop x y
  constructor
  · rcases hpick with h | h
    · obtain ⟨k, hk, hk', heq⟩ := hx.attained
      exact ⟨k, hk, hk'.trans_le hhi, heq.trans h.symm⟩
    · obtain ⟨k, hk, hk', heq⟩ := hy.attained
      exact ⟨k, hlo.trans hk, hk', heq.trans h.symm⟩
  · intro k hk hk'
    rcases lt_or_ge k mid with hmid | hmid
    · exact IsTrans.trans _ _ _ (hx.best k hk hmid) hbestx
    · exact IsTrans.trans _ _ _ (hy.best k (hgap.trans hmid) hk') hbesty

/-! ## The sparse table -/

/-- The table of `n` values after so many doublings of the stretch that an entry covers. -/
def sparseTable (op : α → α → α) (n : ℕ) (v : ℕ → α) : ℕ → ℕ → α
  | 0 => v
  | level + 1 => fun j =>
      if j + 2 ^ level < n then
        op (sparseTable op n v level j) (sparseTable op n v level (j + 2 ^ level))
      else sparseTable op n v level j

theorem sparseTable_isExtreme [Std.Refl r] [IsTrans α r] {op : α → α → α} (hop : Picks r op)
    {n level j : ℕ} (hj : j + 2 ^ level ≤ n) :
    IsExtreme r v j (j + 2 ^ level) (sparseTable op n v level j) := by
  induction level generalizing j with
  | zero =>
      refine ⟨⟨j, le_rfl, by omega, rfl⟩, fun k hlo hhi => ?_⟩
      rw [show k = j by omega]
      exact Std.Refl.refl _
  | succ level ih =>
      have hpow : 2 ^ (level + 1) = 2 ^ level + 2 ^ level := by rw [pow_succ, mul_two]
      have hpos : 0 < 2 ^ level := Nat.two_pow_pos level
      rw [sparseTable]
      dsimp only
      rw [if_pos (by omega), hpow, ← Nat.add_assoc]
      exact (ih (by omega)).union hop (ih (by omega)) (by omega) (by omega) (by omega)

end Extreme

/-! ## The monotone deque -/

section Deque

/-- The position `n` enters at the back, past those that are no better. -/
def push (r : α → α → Prop) [DecidableRel r] (v : ℕ → α) (queue : List ℕ) (n : ℕ) : List ℕ :=
  (queue.rdropWhile fun k => r (v k) (v n)) ++ [n]

def expire (queue : List ℕ) (lo : ℕ) : List ℕ := queue.dropWhile (· < lo)

structure Valid (r : α → α → Prop) (v : ℕ → α) (lo hi : ℕ) (queue : List ℕ) : Prop where
  inside : ∀ k ∈ queue, lo ≤ k ∧ k < hi
  sorted : queue.Pairwise fun a b => a < b ∧ r (v b) (v a)
  covers : ∀ j, lo ≤ j → j < hi → ∃ k ∈ queue, j ≤ k ∧ r (v j) (v k)

/-- A deque between two moves: it stands for the window from `lo` on and before `hi`, and may
still hold positions from `front` on. -/
structure Spans (r : α → α → Prop) (v : ℕ → α) (front lo hi : ℕ) (queue : List ℕ) : Prop where
  inside : ∀ k ∈ queue, front ≤ k ∧ k < hi
  sorted : queue.Pairwise fun a b => a < b ∧ r (v b) (v a)
  covers : ∀ j, lo ≤ j → j < hi → ∃ k ∈ queue, j ≤ k ∧ r (v j) (v k)

variable {r : α → α → Prop} {v : ℕ → α} {front lo hi : ℕ} {queue : List ℕ}

theorem Valid.nil (r : α → α → Prop) (v : ℕ → α) (lo : ℕ) : Valid r v lo lo [] :=
  ⟨nofun, .nil, fun _ hlo hhi => absurd hhi (not_lt.mpr hlo)⟩

theorem mem_expire (hsorted : queue.Pairwise (· < ·)) {cut k : ℕ} :
    k ∈ expire queue cut ↔ k ∈ queue ∧ cut ≤ k := by
  induction queue with
  | nil => simp [expire]
  | cons a queue ih =>
      have htail : k ∈ queue.dropWhile (· < cut) ↔ k ∈ queue ∧ cut ≤ k := ih hsorted.of_cons
      rw [expire, List.dropWhile_cons]
      split
      · rename_i hlt
        have hlt := of_decide_eq_true hlt
        rw [htail, List.mem_cons]
        constructor
        · exact fun hk => ⟨.inr hk.1, hk.2⟩
        · rintro ⟨rfl | hk, hcut⟩
          · omega
          · exact ⟨hk, hcut⟩
      · rename_i hge
        have hge : cut ≤ a := by simpa using hge
        refine ⟨fun hk => ⟨hk, ?_⟩, fun hk => hk.1⟩
        rcases List.mem_cons.mp hk with rfl | hk
        · exact hge
        · exact hge.trans (List.rel_of_pairwise_cons hsorted hk).le

theorem Valid.spans (h : Valid r v lo hi queue) : Spans r v lo lo hi queue :=
  ⟨h.inside, h.sorted, h.covers⟩

/-- The end of the window moves on, past positions that never entered: those are none of the new
window's. -/
theorem Spans.skip (h : Spans r v front lo hi queue) {front' lo' hi' : ℕ} (hfront : front' ≤ front)
    (hlo : lo ≤ lo') (hhi : hi ≤ hi') (hgap : hi' = hi ∨ hi' ≤ lo') :
    Spans r v front' lo' hi' queue := by
  constructor
  · intro k hk
    have hin := h.inside k hk
    omega
  · exact h.sorted
  · intro j hj hj'
    exact h.covers j (by omega) (by omega)

theorem Spans.expire {cut : ℕ} (h : Spans r v front (max front cut) hi queue) :
    Valid r v (max front cut) hi (expire queue cut) := by
  have hmem : ∀ k, k ∈ SlidingWindow.expire queue cut ↔ k ∈ queue ∧ cut ≤ k :=
    fun _ => mem_expire (h.sorted.imp fun hab => hab.1)
  constructor
  · intro k hk
    obtain ⟨hk, hcut⟩ := (hmem k).mp hk
    have hin := h.inside k hk
    omega
  · exact h.sorted.sublist (List.dropWhile_sublist _)
  · intro j hj hhi
    obtain ⟨k, hk, hle, hr⟩ := h.covers j hj hhi
    exact ⟨k, (hmem k).mpr ⟨hk, by omega⟩, hle, hr⟩

variable [IsTrans α r]

theorem Valid.head (h : Valid r v lo hi queue) (hlt : lo < hi) :
    ∃ k, queue.head? = some k ∧ IsExtreme r v lo hi (v k) := by
  obtain ⟨last, hlast, _⟩ := h.covers lo le_rfl hlt
  cases queue with
  | nil => cases hlast
  | cons a queue =>
      have ha := h.inside a List.mem_cons_self
      refine ⟨a, rfl, ⟨a, ha.1, ha.2, rfl⟩, fun j hlo hhi => ?_⟩
      obtain ⟨k, hk, _, hr⟩ := h.covers j hlo hhi
      rcases List.mem_cons.mp hk with rfl | hk
      · exact hr
      · exact IsTrans.trans _ _ _ hr (List.rel_of_pairwise_cons h.sorted hk).2

variable [DecidableRel r] [Std.Total r]

theorem Spans.better (h : Spans r v front lo hi queue) {n k : ℕ}
    (hk : k ∈ queue.rdropWhile fun k => r (v k) (v n)) : r (v n) (v k) := by
  have hne := List.ne_nil_of_mem hk
  have hlast : r (v n) (v ((queue.rdropWhile fun k => r (v k) (v n)).getLast hne)) := by
    have hnot := List.rdropWhile_last_not (fun k => decide (r (v k) (v n))) queue hne
    exact (Std.Total.total _ _).resolve_right fun hr => hnot (decide_eq_true hr)
  have hsorted := h.sorted.sublist
    (List.rdropWhile_prefix (fun k => decide (r (v k) (v n))) queue).sublist
  rw [← List.dropLast_append_getLast hne] at hk hsorted
  rcases List.mem_append.mp hk with hk | hk
  · have hfront := (List.pairwise_append.mp hsorted).2.2 k hk _ List.mem_cons_self
    exact IsTrans.trans _ _ _ hlast hfront.2
  · rw [List.mem_singleton.mp hk]
    exact hlast

theorem Spans.push (h : Spans r v front lo hi queue) (hfront : front ≤ hi) :
    Spans r v front lo (hi + 1) (push r v queue hi) := by
  have hsub : ∀ k ∈ queue.rdropWhile fun k => r (v k) (v hi), k ∈ queue :=
    fun k hk => (List.rdropWhile_prefix _ queue).subset hk
  constructor
  · intro k hk
    rcases List.mem_append.mp hk with hk | hk
    · have hin := h.inside k (hsub k hk)
      omega
    · have heq := List.mem_singleton.mp hk
      omega
  · refine List.pairwise_append.mpr ⟨?_, List.pairwise_singleton .., ?_⟩
    · exact h.sorted.sublist (List.rdropWhile_prefix _ queue).sublist
    · intro k hk b hb
      rw [List.mem_singleton.mp hb]
      exact ⟨(h.inside k (hsub k hk)).2, h.better hk⟩
  · intro j hj hhi
    rcases Nat.lt_succ_iff_lt_or_eq.mp hhi with hlt | rfl
    · obtain ⟨k, hk, hle, hr⟩ := h.covers j hj hlt
      rw [← List.rdropWhile_append_rtakeWhile (p := fun k => decide (r (v k) (v hi)))
        (l := queue)] at hk
      rcases List.mem_append.mp hk with hk | hk
      · exact ⟨k, List.mem_append_left _ hk, hle, hr⟩
      · have hbeaten : r (v k) (v hi) := by simpa using List.mem_rtakeWhile_imp hk
        exact ⟨hi, List.mem_append_right _ List.mem_cons_self, hlt.le,
          IsTrans.trans _ _ _ hr hbeaten⟩
    · exact ⟨j, List.mem_append_right _ List.mem_cons_self, le_rfl,
        (Std.Total.total _ _).elim id id⟩

theorem Spans.pushes (h : Spans r v front lo hi queue) (hfront : front ≤ hi) (n : ℕ) :
    Spans r v front lo (hi + n) ((List.range' hi n).foldl (SlidingWindow.push r v) queue) := by
  induction n generalizing hi queue with
  | zero => exact h
  | succ n ih =>
      rw [List.range'_succ, List.foldl_cons, show hi + (n + 1) = hi + 1 + n by omega]
      exact ih (h.push hfront) (by omega)

end Deque

end SlidingWindow
