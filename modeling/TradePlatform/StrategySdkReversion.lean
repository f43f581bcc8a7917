/-
# `TradePlatform.StrategySdkReversion` — the two tiers of the reversion family decide alike

The variance of a window is an integer on the squared grid of its closes, so 50 digits hold
every product of it, and a float comparison that is not too close decides the exact one.
-/
import TradePlatform.StrategySdkTicks

namespace TradePlatform

namespace StrategySdk

open MachineInt Decimal RelativeRounding

variable {bars : BarsV1} {fm : FloatModel}

/-! ## The comparison -/

theorem exactScaledSquareCompare_eq (fm : FloatModel) (a n p q : ℤ) (op : Compare) :
    exactScaledSquareCompare fm a n p q op =
      op.holds ((q * q * a ^ 2 : ℤ) : ℚ) ((p * p * n : ℤ) : ℚ) := by
  unfold exactScaledSquareCompare
  dsimp only
  split
  · rfl
  rename_i hclose
  have hleft : Near 5 (floatSides fm a n p q).1 ((q * q * a ^ 2 : ℤ) : ℚ) := by
    have ha := (Near.refl (a : ℚ)).round fm.toRelativeRounding
    have hsquare := (ha.mul ha).round fm.toRelativeRounding
    have hq := (Near.refl ((q : ℚ) * q)).round fm.toRelativeRounding
    have hall := (hq.mul hsquare).round fm.toRelativeRounding
    push_cast
    rwa [pow_two]
  have hright : Near 3 (floatSides fm a n p q).2 ((p * p * n : ℤ) : ℚ) := by
    have hn := (Near.refl (n : ℚ)).round fm.toRelativeRounding
    have hp := (Near.refl ((p : ℚ) * p)).round fm.toRelativeRounding
    have hall := (hp.mul hn).round fm.toRelativeRounding
    push_cast
    exact hall
  have hmargin := not_le.mp (fun h => hclose (decide_eq_true h))
  rcases fm.lt_or_lt_of_margin hleft hright le_rfl (by norm_num) hmargin with
    ⟨hfloat, hexact⟩ | ⟨hfloat, hexact⟩
  · cases op with
    | le => exact (decide_eq_true hfloat.le).trans (decide_eq_true hexact.le).symm
    | ge => exact (decide_eq_false hfloat.not_ge).trans (decide_eq_false hexact.not_ge).symm
  · cases op with
    | le => exact (decide_eq_false hfloat.not_ge).trans (decide_eq_false hexact.not_ge).symm
    | ge => exact (decide_eq_true hfloat.le).trans (decide_eq_true hexact.le).symm

namespace MeanReversionZScoreV1

variable {params : Params}

theorem Params.InSpace.bounds (h : params.InSpace) :
    (30 ≤ params.lookbackBars ∧ params.lookbackBars ≤ 1440) ∧
      (|(ratio params.entryZ).1| ≤ 7 ∧ |(ratio params.entryZ).2| ≤ 4) ∧
      |(ratio params.exitZ).1| ≤ 7 ∧ |(ratio params.exitZ).2| ≤ 4 := by
  obtain ⟨hlookback, hentry, hexit⟩ := h
  simp only [List.mem_cons, List.not_mem_nil, or_false] at hlookback
  have hentries : ∀ z ∈ [(3 / 2 : Decimal), 2, 5 / 2, 3, 7 / 2],
      |(ratio z).1| ≤ 7 ∧ |(ratio z).2| ≤ 4 := by decide +kernel
  have hexits : ∀ z ∈ [(0 : Decimal), 1 / 4, 1 / 2, 1],
      |(ratio z).1| ≤ 7 ∧ |(ratio z).2| ≤ 4 := by decide +kernel
  exact ⟨by omega, hentries _ hentry, hexits _ hexit⟩

/-! ## The authoritative tier -/

abbrev squareD (bars : BarsV1) (j : ℕ) : ℚ := bars.closeD j * bars.closeD j

structure Holds (params : Params) (bars : BarsV1) (start k : ℕ) (s : State) : Prop where
  queue : s.queue = lastBars bars.closeD start k params.lookbackBars
  total : s.total = (lastBars bars.closeD start k params.lookbackBars).sum
  squares : s.squares = (lastBars (squareD bars) start k params.lookbackBars).sum

section Rolling

variable {start k w : ℕ}

theorem roll_squares_eq (hw : w ≤ 1440)
    (hfits : ∀ j, start ≤ j → j ≤ start + k → Fits 9 (10 ^ 21) (bars.closeD j)) :
    let queue := lastBars bars.closeD start k w ++ [bars.closeD (start + k)]
    let total := authoritative.add (lastBars bars.closeD start k w).sum (bars.closeD (start + k))
    let squares := authoritative.add (lastBars (squareD bars) start k w).sum
      (authoritative.mul (bars.closeD (start + k)) (bars.closeD (start + k)))
    (if w < queue.length then
      (queue.tail, authoritative.sub total (queue.headD 0),
        authoritative.sub squares (authoritative.mul (queue.headD 0) (queue.headD 0)))
    else (queue, total, squares)) =
      (lastBars bars.closeD start (k + 1) w, (lastBars bars.closeD start (k + 1) w).sum,
        (lastBars (squareD bars) start (k + 1) w).sum) := by
  intro queue total squares
  have hw' : (w : ℤ) ≤ 1440 := by exact_mod_cast hw
  have hfitsSquare : ∀ j, start ≤ j → j ≤ start + k → Fits 18 (10 ^ 42) (squareD bars j) :=
    fun j hlo hhi => (hfits j hlo hhi).mul (hfits j hlo hhi)
  have hsquare : ∀ j, start ≤ j → j ≤ start + k →
      authoritative.mul (bars.closeD j) (bars.closeD j) = squareD bars j :=
    fun j hlo hhi => authoritative_round (hfitsSquare j hlo hhi) (by norm_num)
  have htotal : total = (lastBars bars.closeD start k w).sum + bars.closeD (start + k) :=
    add_lastBars hfits (by norm_num) (by linarith)
  have hsquares : squares = (lastBars (squareD bars) start k w).sum + squareD bars (start + k) := by
    show authoritative.add _ (authoritative.mul _ _) = _
    rw [hsquare (start + k) (by omega) le_rfl]
    exact add_lastBars hfitsSquare (by norm_num) (by linarith)
  have hlength : queue.length = min k w + 1 := by
    rw [List.length_append, length_lastBars, List.length_singleton]
  rw [htotal, hsquares, hlength]
  rcases le_or_gt w k with hk | hk
  · have hqueue : queue = bars.closeD (start + (k - w)) :: lastBars bars.closeD start (k + 1) w :=
      lastBars_append.trans (by rw [if_pos hk]; rfl)
    rw [if_pos (by omega), hqueue, List.tail_cons, List.headD_cons,
      hsquare (start + (k - w)) (by omega) (by omega), sub_lastBars hk hfits (by norm_num)
      (by linarith), sub_lastBars hk hfitsSquare (by norm_num) (by linarith)]
  · have hqueue : queue = lastBars bars.closeD start (k + 1) w :=
      lastBars_append.trans (by rw [if_neg (by omega)]; rfl)
    rw [if_neg (by omega), hqueue, sum_lastBars_of_lt hk, sum_lastBars_of_lt hk]

end Rolling

/-! ## The window on its grid -/

section OnGrid

variable (params : Params) (bars : BarsV1) (i : ℕ)

/-- The deviation and the variance of the closes of a full window, times its size and its
square. -/
def closeDeviation : ℚ :=
  params.lookbackBars * bars.closeD i -
    ((lastPositions i params.lookbackBars).map bars.closeD).sum

def closeVariance : ℚ :=
  params.lookbackBars * ((lastPositions i params.lookbackBars).map (squareD bars)).sum -
    ((lastPositions i params.lookbackBars).map bars.closeD).sum *
      ((lastPositions i params.lookbackBars).map bars.closeD).sum

def tickDeviation : ℤ :=
  params.lookbackBars * bars.closeTicks i -
    ((lastPositions i params.lookbackBars).map bars.closeTicks).sum

def tickVariance : ℤ :=
  params.lookbackBars *
      ((lastPositions i params.lookbackBars).map fun j => bars.closeTicks j * bars.closeTicks j).sum -
    ((lastPositions i params.lookbackBars).map bars.closeTicks).sum *
      ((lastPositions i params.lookbackBars).map bars.closeTicks).sum

end OnGrid

section Bounds

variable {i : ℕ}

theorem sums_le (hgrid : bars.OnGrid) (hspace : params.InSpace) (hi : i < bars.size)
    (hw : params.lookbackBars ≤ i + 1) :
    |params.lookbackBars * bars.closeTicks i| ≤ 1440 * 2 ^ 20 ∧
      |((lastPositions i params.lookbackBars).map bars.closeTicks).sum| ≤ 1440 * 2 ^ 20 ∧
      |((lastPositions i params.lookbackBars).map
        fun j => bars.closeTicks j * bars.closeTicks j).sum| ≤ 1440 * 2 ^ 40 := by
  obtain ⟨⟨_, hlookback⟩, _⟩ := hspace.bounds
  have hlookback' : (params.lookbackBars : ℤ) ≤ 1440 := by exact_mod_cast hlookback
  refine ⟨?_, ?_, ?_⟩
  · rw [abs_mul, Nat.abs_cast]
    exact mul_le_mul hlookback' (hgrid.ticks_lt i hi).le (abs_nonneg _) (by norm_num)
  · exact (hgrid.abs_sum_ticks_le hi hw).trans (by linarith)
  · have hsum := abs_sum_le (v := fun j => bars.closeTicks j * bars.closeTicks j)
      (l := lastPositions i params.lookbackBars) (b := 2 ^ 40) fun j hj => by
        have hj := (hgrid.ticks_lt j ((mem_lastPositions hw hj).trans_lt hi)).le
        rw [abs_mul]
        exact (mul_le_mul hj hj (abs_nonneg _) (by norm_num)).trans (by norm_num)
    rw [lastPositions, List.length_range'] at hsum
    exact hsum.trans (by linarith)

theorem abs_tickDeviation_le (hgrid : bars.OnGrid) (hspace : params.InSpace)
    (hi : i < bars.size) (hw : params.lookbackBars ≤ i + 1) :
    |tickDeviation params bars i| ≤ 2 ^ 32 := by
  obtain ⟨htick, hsum, _⟩ := sums_le hgrid hspace hi hw
  exact (abs_sub _ _).trans (by linarith)

theorem products_le (hgrid : bars.OnGrid) (hspace : params.InSpace) (hi : i < bars.size)
    (hw : params.lookbackBars ≤ i + 1) :
    |params.lookbackBars * ((lastPositions i params.lookbackBars).map
        fun j => bars.closeTicks j * bars.closeTicks j).sum| ≤ 1440 ^ 2 * 2 ^ 40 ∧
      |((lastPositions i params.lookbackBars).map bars.closeTicks).sum *
        ((lastPositions i params.lookbackBars).map bars.closeTicks).sum| ≤ 1440 ^ 2 * 2 ^ 40 := by
  obtain ⟨_, hsum, hsquares⟩ := sums_le hgrid hspace hi hw
  obtain ⟨⟨_, hlookback⟩, _⟩ := hspace.bounds
  have hlookback' : (params.lookbackBars : ℤ) ≤ 1440 := by exact_mod_cast hlookback
  constructor
  · rw [abs_mul, Nat.abs_cast]
    exact (mul_le_mul hlookback' hsquares (abs_nonneg _) (by norm_num)).trans (by norm_num)
  · rw [abs_mul]
    exact (mul_le_mul hsum hsum (abs_nonneg _) (by norm_num)).trans (by norm_num)

theorem abs_tickVariance_lt (hgrid : bars.OnGrid) (hspace : params.InSpace)
    (hi : i < bars.size) (hw : params.lookbackBars ≤ i + 1) :
    |tickVariance params bars i| < 2 ^ 63 := by
  obtain ⟨hsquares, hsquare⟩ := products_le hgrid hspace hi hw
  exact (abs_sub _ _).trans_lt (by linarith)

theorem closeDeviation_mul_scale (hgrid : bars.OnGrid) (hi : i < bars.size)
    (hw : params.lookbackBars ≤ i + 1) :
    closeDeviation params bars i * bars.closeScale = tickDeviation params bars i := by
  have hclose := hgrid.close_eq i hi
  have hsum := hgrid.sum_last_closes hi hw
  unfold closeDeviation tickDeviation
  generalize ((lastPositions i params.lookbackBars).map bars.closeTicks).sum = ticks at *
  push_cast
  linear_combination params.lookbackBars * hclose - hsum

theorem closeVariance_mul_scale (hgrid : bars.OnGrid) (hi : i < bars.size)
    (hw : params.lookbackBars ≤ i + 1) :
    closeVariance params bars i * bars.closeScale ^ 2 = tickVariance params bars i := by
  have hsum := hgrid.sum_last_closes hi hw
  have hsquares := hgrid.sum_last_squares hi hw
  unfold closeVariance tickVariance
  generalize ((lastPositions i params.lookbackBars).map bars.closeD).sum = total at *
  generalize ((lastPositions i params.lookbackBars).map bars.closeTicks).sum = ticks at *
  generalize ((lastPositions i params.lookbackBars).map
    fun j => bars.closeTicks j * bars.closeTicks j).sum = tickSquares at *
  push_cast
  linear_combination params.lookbackBars * hsquares -
    (total * bars.closeScale + ticks + params.lookbackBars * bars.closeCentre) * hsum

end Bounds

/-! ## The search tier -/

section Search

variable {total squares : ℕ → ℤ} {i : ℕ}

theorem deviation_eq (hgrid : bars.OnGrid) (hspace : params.InSpace) (hi : i < bars.size)
    (hw : params.lookbackBars ≤ i + 1)
    (htotal : windowSums bars.size bars.closeTicks params.lookbackBars = .ok total) :
    deviation params bars total i = tickDeviation params bars i := by
  obtain ⟨htick, hsum, _⟩ := sums_le hgrid hspace hi hw
  have hdeviation := abs_tickDeviation_le hgrid hspace hi hw
  unfold tickDeviation at hdeviation
  unfold deviation tickDeviation
  rw [windowSums_eq htotal hi hw (hsum.trans_lt (by norm_num)),
    int64_eq (htick.trans_lt (by norm_num)), int64_eq (hdeviation.trans_lt (by norm_num))]

theorem variance_eq (hgrid : bars.OnGrid) (hspace : params.InSpace) (hi : i < bars.size)
    (hw : params.lookbackBars ≤ i + 1)
    (htotal : windowSums bars.size bars.closeTicks params.lookbackBars = .ok total)
    (hsquares : windowSums bars.size
      (fun i => int64 (bars.closeTicks i * bars.closeTicks i)) params.lookbackBars = .ok squares) :
    variance params total squares i = tickVariance params bars i := by
  obtain ⟨_, hsum, hsum2⟩ := sums_le hgrid hspace hi hw
  obtain ⟨hproduct, hproduct2⟩ := products_le hgrid hspace hi hw
  have hvariance := abs_tickVariance_lt hgrid hspace hi hw
  have hmap : (lastPositions i params.lookbackBars).map
      (fun j => int64 (bars.closeTicks j * bars.closeTicks j)) =
        (lastPositions i params.lookbackBars).map
          fun j => bars.closeTicks j * bars.closeTicks j := by
    refine List.map_congr_left fun j hj => int64_eq ?_
    have hj := (hgrid.ticks_lt j ((mem_lastPositions hw hj).trans_lt hi)).le
    rw [abs_mul]
    exact (mul_le_mul hj hj (abs_nonneg _) (by norm_num)).trans_lt (by norm_num)
  have hsq := windowSums_eq hsquares hi hw (by rw [hmap]; exact hsum2.trans_lt (by norm_num))
  unfold tickVariance at hvariance
  unfold variance tickVariance
  rw [windowSums_eq htotal hi hw (hsum.trans_lt (by norm_num)), hsq, hmap,
    int64_eq (hproduct.trans_lt (by norm_num)), int64_eq (hproduct2.trans_lt (by norm_num)),
    int64_eq hvariance]

end Search

/-! ## The decision -/

def exactTarget (params : Params) (a n : ℚ) (held : ℤ) : ℤ :=
  let (ep, eq) := ratio params.entryZ
  let (xp, xq) := ratio params.exitZ
  if 0 < n then
    if a < 0 ∧ ep * ep * n ≤ eq * eq * (a * a) then 1
    else if 0 < a ∧ ep * ep * n ≤ eq * eq * (a * a) then params.direction.short
    else if xq * xq * (a * a) ≤ xp * xp * n then 0
    else held
  else held

section Decision

variable {i : ℕ} {total squares : ℕ → ℤ}

theorem exactTarget_eq (fm : FloatModel) (hgrid : bars.OnGrid) (hspace : params.InSpace)
    (htotal : windowSums bars.size bars.closeTicks params.lookbackBars = .ok total)
    (hsquares : windowSums bars.size
      (fun i => int64 (bars.closeTicks i * bars.closeTicks i)) params.lookbackBars = .ok squares)
    (hi : i < bars.size) (hready : ready params bars i = true) (held : ℤ) :
    exactTarget params (closeDeviation params bars i) (closeVariance params bars i) held =
      (events fm params bars total squares i).getD held := by
  have hw : params.lookbackBars ≤ i + 1 := by
    have := of_decide_eq_true hready
    unfold BarsV1.barsInSegment at this
    omega
  have ha := closeDeviation_mul_scale hgrid hi hw
  have hn := closeVariance_mul_scale hgrid hi hw
  have hscale : (0 : ℚ) < bars.closeScale := by exact_mod_cast hgrid.scale_pos
  have hscale2 : (0 : ℚ) < (bars.closeScale : ℚ) ^ 2 := by positivity
  unfold events exactTarget live
  dsimp only
  rw [deviation_eq hgrid hspace hi hw htotal, variance_eq hgrid hspace hi hw htotal hsquares,
    exactScaledSquareCompare_eq, exactScaledSquareCompare_eq, hready]
  generalize closeDeviation params bars i = a at *
  generalize closeVariance params bars i = n at *
  generalize tickDeviation params bars i = a' at *
  generalize tickVariance params bars i = n' at *
  -- the signs and both comparisons are those on the grid of the scale
  have hpos : 0 < n' ↔ 0 < n := by
    rw [← Int.cast_pos (R := ℚ), ← hn, mul_pos_iff_of_pos_right hscale2]
  have hshort : 0 < a' ↔ 0 < a := by
    rw [← Int.cast_pos (R := ℚ), ← ha, mul_pos_iff_of_pos_right hscale]
  have hlong : a' < 0 ↔ a < 0 := by
    rw [← Int.cast_lt_zero (R := ℚ), ← ha]
    exact ⟨fun h => neg_of_mul_neg_left h hscale.le, fun h => mul_neg_of_neg_of_pos h hscale⟩
  have hleft : ∀ q : ℤ, ((q * q * a' ^ 2 : ℤ) : ℚ) = q * q * (a * a) * bars.closeScale ^ 2 := by
    intro q
    push_cast
    rw [← ha]
    ring
  have hright : ∀ p : ℤ, ((p * p * n' : ℤ) : ℚ) = p * p * n * bars.closeScale ^ 2 := by
    intro p
    push_cast
    rw [← hn]
    ring
  have hentry : ∀ p q : ℤ, Compare.ge.holds ((q * q * a' ^ 2 : ℤ) : ℚ) ((p * p * n' : ℤ) : ℚ) =
      true ↔ p * p * n ≤ q * q * (a * a) := by
    intro p q
    rw [hleft, hright, Compare.holds, decide_eq_true_eq, mul_le_mul_iff_left₀ hscale2]
  have hexit : ∀ p q : ℤ, Compare.le.holds ((q * q * a' ^ 2 : ℤ) : ℚ) ((p * p * n' : ℤ) : ℚ) =
      true ↔ q * q * (a * a) ≤ p * p * n := by
    intro p q
    rw [hleft, hright, Compare.holds, decide_eq_true_eq, mul_le_mul_iff_left₀ hscale2]
  simp only [Bool.true_and, decide_eq_true_eq, hentry, hexit, hpos, hlong, hshort]
  rcases le_or_gt n 0 with hflat | hlive
  · rw [if_neg hflat.not_gt, if_neg (fun h => hflat.not_gt h.1), if_neg (fun h => hflat.not_gt h.1),
      if_neg (fun h => hflat.not_gt h.1)]
    rfl
  · simp only [hlive, true_and, if_true]
    rcases lt_trichotomy a 0 with hneg | rfl | hpos'
    · simp only [hneg, hneg.not_gt, true_and, and_true, false_and, and_false, if_false]
      split
      · rfl
      · split
        · rfl
        · rfl
    · simp only [lt_irrefl, false_and, and_false, if_false]
      split
      · rfl
      · rfl
    · simp only [hpos', hpos'.not_gt, true_and, and_true, false_and, and_false, if_false]
      split
      · rfl
      · split
        · rfl
        · rfl

theorem fits_of_mul_scale (hgrid : bars.OnGrid) {x : ℚ} {m b : ℤ} {d : ℕ} (hm : |m| ≤ b)
    (hx : x * bars.closeScale ^ d = m) : ∃ k, Fits k b x := by
  obtain ⟨places, _, hscale⟩ := hgrid.scale_eq
  refine ⟨places * d, m, ?_, hm⟩
  rw [← hx, hscale]
  push_cast
  rw [← pow_mul]
  field_simp

theorem decision_eq (hgrid : bars.OnGrid) (hspace : params.InSpace) (hi : i < bars.size)
    (hw : params.lookbackBars ≤ i + 1) {a n : ℚ} (ha : a = closeDeviation params bars i)
    (hn : n = closeVariance params bars i) :
    authoritative.mul a a = a * a ∧
      ∀ p ∈ [(ratio params.entryZ).1, (ratio params.entryZ).2, (ratio params.exitZ).1,
          (ratio params.exitZ).2],
        authoritative.mul (p * p) n = p * p * n ∧
          authoritative.mul (p * p) (a * a) = p * p * (a * a) := by
  have haScale := closeDeviation_mul_scale hgrid hi hw
  have hnScale := closeVariance_mul_scale hgrid hi hw
  rw [← ha, ← pow_one (bars.closeScale : ℚ)] at haScale
  rw [← hn] at hnScale
  obtain ⟨k, hfitsA⟩ := fits_of_mul_scale hgrid (abs_tickDeviation_le hgrid hspace hi hw) haScale
  obtain ⟨l, hfitsN⟩ := fits_of_mul_scale hgrid (abs_tickVariance_lt hgrid hspace hi hw).le hnScale
  have hfitsA2 := hfitsA.mul hfitsA
  refine ⟨authoritative_round hfitsA2 (by norm_num), fun p hp => ?_⟩
  have hp7 : |p| ≤ 7 := by
    obtain ⟨_, ⟨hep, heq⟩, hxp, hxq⟩ := hspace.bounds
    simp only [List.mem_cons, List.not_mem_nil, or_false] at hp
    rcases hp with rfl | rfl | rfl | rfl <;> linarith
  have hfitsP := ((Fits.intCast p).mono hp7).mul ((Fits.intCast p).mono hp7)
  exact ⟨authoritative_round (hfitsP.mul hfitsN) (by norm_num),
    authoritative_round (hfitsP.mul hfitsA2) (by norm_num)⟩

theorem deviationDecimal_eq (hw : params.lookbackBars ≤ 1440) {start k : ℕ}
    (hk : params.lookbackBars ≤ k + 1)
    (hfits : ∀ j, start ≤ j → j ≤ start + k → Fits 9 (10 ^ 21) (bars.closeD j)) :
    authoritative.sub (authoritative.mul params.lookbackBars (bars.closeD (start + k)))
        (lastBars bars.closeD start (k + 1) params.lookbackBars).sum =
      closeDeviation params bars (start + k) ∧
    authoritative.sub
        (authoritative.mul params.lookbackBars
          (lastBars (squareD bars) start (k + 1) params.lookbackBars).sum)
        (authoritative.mul (lastBars bars.closeD start (k + 1) params.lookbackBars).sum
          (lastBars bars.closeD start (k + 1) params.lookbackBars).sum) =
      closeVariance params bars (start + k) := by
  have hw' : (params.lookbackBars : ℤ) ≤ 1440 := by exact_mod_cast hw
  have hfitsSquare : ∀ j, start ≤ j → j ≤ start + k → Fits 18 (10 ^ 42) (squareD bars j) :=
    fun j hlo hhi => (hfits j hlo hhi).mul (hfits j hlo hhi)
  have hlookback : Fits 0 1440 (params.lookbackBars : ℚ) := (Fits.natCast _).mono hw'
  have htotal : Fits 9 (1440 * 10 ^ 21)
      (lastBars bars.closeD start (k + 1) params.lookbackBars).sum :=
    (sum_lastBars_fits hfits (by norm_num)).mono (by linarith)
  have hsquares : Fits 18 (1440 * 10 ^ 42)
      (lastBars (squareD bars) start (k + 1) params.lookbackBars).sum :=
    (sum_lastBars_fits hfitsSquare (by norm_num)).mono (by linarith)
  have hclose := Nat.zero_add 9 ▸ hlookback.mul (hfits (start + k) (by omega) le_rfl)
  have hproduct := Nat.zero_add 18 ▸ hlookback.mul hsquares
  have hsquare := htotal.mul htotal
  rw [closeDeviation, closeVariance, ← lastBars_eq hk, ← lastBars_eq hk]
  unfold Context.mul Context.sub
  constructor
  · rw [authoritative_round hclose (by norm_num)]
    exact authoritative_round (hclose.sub htotal) (by norm_num)
  · rw [authoritative_round hproduct (by norm_num), authoritative_round hsquare (by norm_num)]
    exact authoritative_round (hproduct.sub hsquare) (by norm_num)

theorem stepDecimal_eq (hgrid : bars.OnGrid) (hspace : params.InSpace) {start k : ℕ} {s : State}
    (h : Holds params bars start k s) (hi : start + k < bars.size) :
    Holds params bars start (k + 1) (stepDecimal params s (bars.closeD (start + k))).1 ∧
      ((stepDecimal params s (bars.closeD (start + k))).1.state,
          (stepDecimal params s (bars.closeD (start + k))).2) =
        hold (fun k => decide (params.lookbackBars ≤ k + 1))
          (fun k => exactTarget params (closeDeviation params bars (start + k))
            (closeVariance params bars (start + k))) s.state k := by
  obtain ⟨queue, total, squares, state⟩ := s
  obtain ⟨hqueue, htotal, hsquares⟩ := h
  dsimp only at hqueue htotal hsquares
  subst hqueue htotal hsquares
  obtain ⟨⟨_, hlookback⟩, _⟩ := hspace.bounds
  have hfits : ∀ j, start ≤ j → j ≤ start + k → Fits 9 (10 ^ 21) (bars.closeD j) :=
    fun j _ hj => hgrid.close_fits j (by omega)
  have hroll := roll_squares_eq hlookback hfits
  dsimp only at hroll
  unfold stepDecimal
  dsimp only
  rw [hroll]
  dsimp only
  rw [length_lastBars]
  rcases le_or_gt params.lookbackBars (k + 1) with hready | hready
  · obtain ⟨hdeviation, hvariance⟩ := deviationDecimal_eq hlookback hready hfits
    obtain ⟨hsquare, hproducts⟩ := decision_eq hgrid hspace hi (by omega) rfl rfl
    simp only [List.forall_mem_cons] at hproducts
    obtain ⟨hep, heq, hxp, hxq, _⟩ := hproducts
    rw [if_neg (by omega), hdeviation, hvariance, hsquare, hep.1, heq.2, hxp.1, hxq.2,
      hold_of_ready]
    · exact ⟨⟨rfl, rfl, rfl⟩, rfl⟩
    · exact decide_eq_true hready
  · rw [if_pos (by omega), hold_of_not_ready]
    · exact ⟨⟨rfl, rfl, rfl⟩, rfl⟩
    · exact decide_eq_false hready.not_ge

end Decision

theorem targetsF64_eq (hgrid : bars.OnGrid) (hspace : params.InSpace) {targets : List ℤ}
    {ties : ℕ} (h : targetsF64 fm params bars = .ok (targets, ties)) :
    targets = targetsDecimal params bars := by
  unfold targetsF64 at h
  split at h
  · cases h
  obtain ⟨total, htotal, h⟩ := Except.bind_eq_ok.mp h
  obtain ⟨squares, hsquares, h⟩ := Except.bind_eq_ok.mp h
  cases Except.pure_eq_ok.mp h
  refine List.map_congr_left fun i hi => ?_
  have hi := List.mem_range.mp hi
  rw [holdEvents_eq]
  symm
  refine BarsV1.scan_related (fun k s held =>
    Holds params bars (bars.segmentStart i) k s ∧ s.state = held) (· = ·) rfl
    ⟨⟨rfl, rfl, rfl⟩, rfl⟩ ?_
  rintro k hk s _ ⟨hholds, rfl⟩
  have hstart := bars.segmentStart_le i
  obtain ⟨hnext, heq⟩ := stepDecimal_eq hgrid hspace hholds (by omega)
  have hsegment : bars.segmentStart (bars.segmentStart i + k) = bars.segmentStart i :=
    BarsV1.segmentStart_eq (by omega) (by omega)
  have hready : decide (params.lookbackBars ≤ k + 1) =
      ready params bars (bars.segmentStart i + k) := by
    unfold ready BarsV1.barsInSegment
    rw [hsegment, Nat.add_sub_cancel_left]
  rw [hold_congr hready fun hr => ?_] at heq
  · exact ⟨congrArg Prod.snd heq, hnext, congrArg Prod.fst heq⟩
  · exact exactTarget_eq fm hgrid hspace htotal hsquares (by omega) hr s.state

end MeanReversionZScoreV1

end StrategySdk

end TradePlatform
