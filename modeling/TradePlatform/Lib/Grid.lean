/-
# `TradePlatform.Lib.Grid` — instants one interval apart, and windows that touch

A window `[start, finish)` of instants that are one interval apart, with less than an
interval before the first and at most one after the last, misses no instant of its grid.  Of
windows that touch, each proves this of itself only: at a seam the gap is more than nothing
and less than two intervals.  It is one interval exactly where the two grids are one.
-/
import Mathlib

namespace Grid

variable {I : ℤ} {l : List ℤ}

def Spaced (I : ℤ) (l : List ℤ) : Prop := l.IsChain fun a b => b - a = I

def OneGrid (I : ℤ) (l : List ℤ) : Prop := ∀ a ∈ l, ∀ b ∈ l, a ≡ b [ZMOD I]

theorem Spaced.modEq_head {x : ℤ} (h : Spaced I (x :: l)) : ∀ a ∈ x :: l, a ≡ x [ZMOD I] := by
  induction l generalizing x with
  | nil =>
      intro a ha
      rw [List.mem_singleton.mp ha]
  | cons y l ih =>
      obtain ⟨hxy, hrest⟩ := List.isChain_cons_cons.mp h
      intro a ha
      rcases List.mem_cons.mp ha with rfl | ha
      · rfl
      · refine (ih hrest a ha).trans ?_
        rw [show y = x + I by linarith]
        exact Int.add_modEq_right

theorem Spaced.oneGrid (h : Spaced I l) : OneGrid I l := by
  cases l with
  | nil => simp [OneGrid]
  | cons x l => exact fun a ha b hb => (h.modEq_head a ha).trans (h.modEq_head b hb).symm

theorem Spaced.sorted (hI : 0 < I) (h : Spaced I l) : l.Pairwise (· < ·) := by
  have hchain : l.IsChain (· < ·) := h.imp fun a b hab => by omega
  exact hchain.pairwise

theorem add_le_of_modEq {x t : ℤ} (hmod : t ≡ x [ZMOD I]) (hlt : x < t) : x + I ≤ t := by
  obtain ⟨k, hk⟩ := hmod.symm.dvd
  have hpos : 0 < I * k := by linarith
  rcases lt_trichotomy I 0 with hI | hI | hI
  · linarith
  · rw [hI] at hpos
    linarith
  · have hk1 : 1 ≤ k := by
      by_contra hk1
      have hle : I * k ≤ 0 := mul_nonpos_of_nonneg_of_nonpos hI.le (by omega)
      linarith
    nlinarith

theorem Spaced.mem_of_between {x t : ℤ} (h : Spaced I (x :: l)) (hmod : t ≡ x [ZMOD I])
    (hfirst : x ≤ t) (hlast : t ≤ (x :: l).getLast (List.cons_ne_nil x l)) : t ∈ x :: l := by
  induction l generalizing x with
  | nil =>
      rw [List.getLast_singleton] at hlast
      rw [le_antisymm hlast hfirst]
      exact List.mem_cons_self
  | cons y l ih =>
      obtain ⟨hxy, hrest⟩ := List.isChain_cons_cons.mp h
      rcases hfirst.eq_or_lt with rfl | hlt
      · exact List.mem_cons_self
      · have hy : x + I = y := by linarith
        have hle := add_le_of_modEq hmod hlt
        rw [hy] at hle
        refine List.mem_cons_of_mem _ (ih hrest ?_ hle ?_)
        · refine hmod.trans ?_
          rw [← hy]
          exact Int.add_modEq_right.symm
        · rwa [List.getLast_cons (List.cons_ne_nil y l)] at hlast

/-! ## Windows -/

structure Window where
  start : ℤ
  finish : ℤ
  instants : List ℤ

namespace Window

structure Tight (I : ℤ) (w : Window) : Prop where
  ne_nil : w.instants ≠ []
  inside : ∀ t ∈ w.instants, w.start ≤ t ∧ t < w.finish
  leading : ∀ t ∈ w.instants.head?, t - w.start < I
  trailing : ∀ t ∈ w.instants.getLast?, w.finish - t ≤ I

def Touching (a b : Window) : Prop := a.finish = b.start

variable {w v : Window} {ws : List Window}

theorem Tight.of_edges (hinside : ∀ t ∈ w.instants, w.start ≤ t ∧ t < w.finish) {first last : ℤ}
    (hfirst : w.instants.head? = some first) (hlast : w.instants.getLast? = some last)
    (hleading : first - w.start < I) (htrailing : w.finish - last ≤ I) : w.Tight I where
  ne_nil := by
    intro hnil
    rw [hnil] at hfirst
    cases hfirst
  inside := hinside
  leading := by
    intro t ht
    rw [hfirst, Option.mem_some_iff] at ht
    rwa [← ht]
  trailing := by
    intro t ht
    rw [hlast, Option.mem_some_iff] at ht
    rwa [← ht]

theorem Tight.mem_of_due (h : w.Tight I) (hspaced : Spaced I w.instants) {t a : ℤ}
    (ht : w.start ≤ t ∧ t < w.finish) (ha : a ∈ w.instants) (hmod : t ≡ a [ZMOD I]) :
    t ∈ w.instants := by
  obtain ⟨hne, -, hleading, htrailing⟩ := h
  generalize w.instants = l at *
  cases l with
  | nil => exact absurd rfl hne
  | cons x l =>
      have hx : t ≡ x [ZMOD I] := hmod.trans (hspaced.modEq_head a ha)
      have hlead := hleading x rfl
      have htrail := htrailing _ (List.getLast?_eq_some_getLast (List.cons_ne_nil x l))
      have hlast := hspaced.modEq_head _ (List.getLast_mem (List.cons_ne_nil x l))
      refine hspaced.mem_of_between hx ?_ ?_
      · by_contra hlt
        have hle := add_le_of_modEq hx.symm (not_le.mp hlt)
        linarith
      · by_contra hlt
        have hle := add_le_of_modEq (hx.trans hlast.symm) (not_le.mp hlt)
        linarith

theorem Tight.mem_iff (h : w.Tight I) (hspaced : Spaced I w.instants) {x t : ℤ}
    (hx : w.instants.head? = some x) :
    t ∈ w.instants ↔ (w.start ≤ t ∧ t < w.finish) ∧ t ≡ x [ZMOD I] := by
  have hmem : x ∈ w.instants := List.mem_of_mem_head? hx
  constructor
  · intro ht
    exact ⟨h.inside t ht, hspaced.oneGrid t ht x hmem⟩
  · rintro ⟨hin, hmod⟩
    exact h.mem_of_due hspaced hin hmem hmod

theorem gap_eq (hw : w.Tight I) (hv : v.Tight I) (htouch : Touching w v) {last first : ℤ}
    (hlast : w.instants.getLast? = some last) (hfirst : v.instants.head? = some first)
    (hmod : first ≡ last [ZMOD I]) : first - last = I := by
  have hbefore := (hw.inside last (List.mem_of_getLast? hlast)).2
  have hafter := (hv.inside first (List.mem_of_head? hfirst)).1
  have htrail := hw.trailing last hlast
  have hlead := hv.leading first hfirst
  unfold Touching at htouch
  have hle := add_le_of_modEq hmod (by linarith)
  by_contra hne
  have hlt : last + I < first := lt_of_le_of_ne hle fun heq => hne (by linarith)
  have hle' := add_le_of_modEq (hmod.trans Int.add_modEq_right.symm) hlt
  linarith

def instantsOf (ws : List Window) : List ℤ := ws.flatMap Window.instants

theorem head?_instantsOf (hw : w.instants ≠ []) :
    (instantsOf (w :: ws)).head? = w.instants.head? := by
  unfold instantsOf
  rw [List.flatMap_cons, List.head?_append_of_ne_nil _ hw]

/-- Windows that touch, each tight and spaced: their instants together are spaced exactly where
they are on one grid. -/
theorem spaced_iff_oneGrid (htight : ∀ w ∈ ws, w.Tight I) (hspaced : ∀ w ∈ ws, Spaced I w.instants)
    (htouch : ws.IsChain Touching) :
    Spaced I (instantsOf ws) ↔ OneGrid I (instantsOf ws) := by
  refine ⟨Spaced.oneGrid, fun hgrid => ?_⟩
  induction ws with
  | nil => exact List.IsChain.nil
  | cons w ws ih =>
      have hrest : OneGrid I (instantsOf ws) := fun a ha b hb =>
        hgrid a (List.mem_append_right _ ha) b (List.mem_append_right _ hb)
      have htail := ih (fun v hv => htight v (List.mem_cons_of_mem _ hv))
        (fun v hv => hspaced v (List.mem_cons_of_mem _ hv)) htouch.tail hrest
      refine List.isChain_append.mpr ⟨hspaced w List.mem_cons_self, htail, ?_⟩
      intro last hlast first hfirst
      cases ws with
      | nil => cases hfirst
      | cons v ws =>
          have hv := htight v (List.mem_cons_of_mem _ List.mem_cons_self)
          have hfirst' : (instantsOf (v :: ws)).head? = some first := hfirst
          rw [head?_instantsOf hv.ne_nil] at hfirst'
          refine gap_eq (htight w List.mem_cons_self) hv (List.isChain_cons_cons.mp htouch).1
            hlast hfirst' (hgrid first ?_ last ?_)
          · exact List.mem_append_right _ (List.mem_append_left _ (List.mem_of_head? hfirst'))
          · exact List.mem_append_left _ (List.mem_of_getLast? hlast)

def join (w : Window) (ws : List Window) : Window where
  start := w.start
  finish := ((w :: ws).getLast (List.cons_ne_nil w ws)).finish
  instants := instantsOf (w :: ws)

theorem Tight.join (htight : ∀ v ∈ w :: ws, v.Tight I) (htouch : (w :: ws).IsChain Touching)
    (hbound : ∀ v ∈ w :: ws, v.start < v.finish) : (join w ws).Tight I := by
  induction ws generalizing w with
  | nil =>
      have hw := htight w List.mem_cons_self
      have heq : (Window.join w []).instants = w.instants := List.append_nil _
      refine ⟨heq ▸ hw.ne_nil, heq ▸ hw.inside, heq ▸ hw.leading, heq ▸ hw.trailing⟩
  | cons v ws ih =>
      have hw := htight w List.mem_cons_self
      obtain ⟨hseam, hrest⟩ := List.isChain_cons_cons.mp htouch
      obtain ⟨hne, hinside, -, htrailing⟩ := ih
        (fun u hu => htight u (List.mem_cons_of_mem _ hu)) hrest
        (fun u hu => hbound u (List.mem_cons_of_mem _ hu))
      have hsplit : (Window.join w (v :: ws)).instants =
          w.instants ++ (Window.join v ws).instants := rfl
      have hfinish : (Window.join w (v :: ws)).finish = (Window.join v ws).finish := rfl
      have hlater : v.start < (Window.join v ws).finish := by
        obtain ⟨t, ht⟩ := List.exists_mem_of_ne_nil _ hne
        exact (hinside t ht).1.trans_lt (hinside t ht).2
      refine ⟨?_, ?_, ?_, ?_⟩
      · rw [hsplit]
        exact List.append_ne_nil_of_left_ne_nil hw.ne_nil _
      · intro t ht
        rw [hsplit] at ht
        rcases List.mem_append.mp ht with ht | ht
        · exact ⟨(hw.inside t ht).1, (hw.inside t ht).2.trans (hseam.trans_lt hlater)⟩
        · have hstart : w.start < v.start := hseam ▸ hbound w List.mem_cons_self
          exact ⟨hstart.le.trans (hinside t ht).1, (hinside t ht).2⟩
      · intro t ht
        rw [hsplit, List.head?_append_of_ne_nil _ hw.ne_nil] at ht
        exact hw.leading t ht
      · intro t ht
        rw [hsplit, List.getLast?_append_of_ne_nil _ hne] at ht
        exact htrailing t ht

end Window

/-! ## Ticks

The instants of a window of whole intervals, each so long after the start of its interval.  Those
of windows that tile another one are those of the other, in order. -/

def ticks (I : ℤ) (n : ℕ) (x : ℤ) : List ℤ := (List.range n).map fun i : ℕ => x + i * I

theorem ticks_add (I : ℤ) (n m : ℕ) (x : ℤ) :
    ticks I (n + m) x = ticks I n x ++ ticks I m (x + n * I) := by
  unfold ticks
  rw [List.range_add, List.map_append, List.map_map]
  refine congrArg (_ ++ ·) (List.map_congr_left fun i _ => ?_)
  simp only [Function.comp_apply, Nat.cast_add]
  ring

theorem ticks_nodup (hI : I ≠ 0) (n : ℕ) (x : ℤ) : (ticks I n x).Nodup := by
  refine List.Nodup.map (fun i j hij => ?_) List.nodup_range
  have heq : (i : ℤ) * I = j * I := add_left_cancel hij
  exact_mod_cast mul_right_cancel₀ hI heq

/-- The ticks of the window from `a` to `b`, `shift` after the start of each interval. -/
def windowTicks (I shift a b : ℤ) : List ℤ := ticks I ((b - a) / I).toNat (a + shift)

theorem windowTicks_self (I shift a : ℤ) : windowTicks I shift a a = [] := by
  simp [windowTicks, ticks]

theorem windowTicks_ne_nil {shift a b : ℤ} (hI : 0 < I) (h : a < b) (hdvd : I ∣ b - a) :
    windowTicks I shift a b ≠ [] := by
  obtain ⟨k, hk⟩ := hdvd
  have hpos : 0 < k := by
    by_contra hle
    have := mul_nonpos_of_nonneg_of_nonpos hI.le (not_lt.mp hle)
    linarith
  have hdiv : (b - a) / I = k := by rw [hk, Int.mul_ediv_cancel_left k hI.ne']
  intro hnil
  have hlength := congrArg List.length hnil
  simp only [windowTicks, ticks, List.length_map, List.length_range, hdiv, List.length_nil]
    at hlength
  omega

theorem windowTicks_append {shift a b c : ℤ} (hI : 0 < I) (hab : a ≤ b) (hbc : b ≤ c)
    (hdvd : I ∣ b - a) :
    windowTicks I shift a c = windowTicks I shift a b ++ windowTicks I shift b c := by
  obtain ⟨k, hk⟩ := hdvd
  have hfirst : (b - a) / I = k := by rw [hk, Int.mul_ediv_cancel_left k hI.ne']
  have hwhole : (c - a) / I = k + (c - b) / I := by
    rw [show c - a = I * k + (c - b) by linarith, Int.mul_add_ediv_left _ _ hI.ne']
  have hk0 : 0 ≤ k := hfirst ▸ Int.ediv_nonneg (by linarith) hI.le
  have hrest : 0 ≤ (c - b) / I := Int.ediv_nonneg (by linarith) hI.le
  unfold windowTicks
  rw [hfirst, hwhole, Int.toNat_add hk0 hrest, ticks_add]
  congr 2
  rw [Int.toNat_of_nonneg hk0]
  linarith

/-- The windows follow each other from `a` to `b`, with no gap and no overlap. -/
def Tiles : ℤ → ℤ → List (ℤ × ℤ) → Prop
  | a, b, [] => a = b
  | a, b, w :: ws => w.1 = a ∧ Tiles w.2 b ws

theorem tiles_concat {a b : ℤ} {w : ℤ × ℤ} {ws : List (ℤ × ℤ)} :
    Tiles a b (ws ++ [w]) ↔ Tiles a w.1 ws ∧ w.2 = b := by
  induction ws generalizing a with
  | nil => simp [Tiles, eq_comm]
  | cons v ws ih =>
      rw [List.cons_append, Tiles, Tiles, ih]
      exact and_assoc.symm

theorem Tiles.sum {a b : ℤ} {ws : List (ℤ × ℤ)} (h : Tiles a b ws) :
    (ws.map fun w => w.2 - w.1).sum = b - a := by
  induction ws generalizing a with
  | nil =>
      rw [show a = b from h]
      simp
  | cons w ws ih =>
      obtain ⟨rfl, hrest⟩ := h
      rw [List.map_cons, List.sum_cons, ih hrest]
      ring

theorem Tiles.le {a b : ℤ} {ws : List (ℤ × ℤ)} (h : Tiles a b ws)
    (hws : ∀ w ∈ ws, w.1 ≤ w.2) : a ≤ b := by
  induction ws generalizing a with
  | nil => exact le_of_eq h
  | cons w ws ih =>
      obtain ⟨rfl, hrest⟩ := h
      exact (hws w List.mem_cons_self).trans
        (ih hrest fun v hv => hws v (List.mem_cons_of_mem _ hv))

theorem Tiles.flatMap_windowTicks {a b shift : ℤ} {ws : List (ℤ × ℤ)} (hI : 0 < I)
    (h : Tiles a b ws) (hle : ∀ w ∈ ws, w.1 ≤ w.2) (hdvd : ∀ w ∈ ws, I ∣ w.2 - w.1) :
    ws.flatMap (fun w => windowTicks I shift w.1 w.2) = windowTicks I shift a b := by
  induction ws generalizing a with
  | nil =>
      obtain rfl := h
      exact (windowTicks_self I shift a).symm
  | cons w ws ih =>
      obtain ⟨rfl, hrest⟩ := h
      have hle' : ∀ v ∈ ws, v.1 ≤ v.2 := fun v hv => hle v (List.mem_cons_of_mem _ hv)
      rw [List.flatMap_cons, ih hrest hle' fun v hv => hdvd v (List.mem_cons_of_mem _ hv)]
      exact (windowTicks_append hI (hle w List.mem_cons_self) (hrest.le hle')
        (hdvd w List.mem_cons_self)).symm

end Grid
