/-
# `TradePlatform.StrategySdkTrend` — the two tiers of the trend family decide alike

The sums of the deques are those of the prefix sums on the grid of the closes, and no
product of either tier wraps or is rounded.
-/
import TradePlatform.StrategySdkTicks

namespace TradePlatform

namespace StrategySdk

open MachineInt Decimal

variable {bars : BarsV1}

namespace TrendMovingAverageCrossV1

variable {params : Params}

theorem le_maxTick {i : ℕ} (hi : i < bars.size) : |bars.closeTicks i| ≤ maxTick bars :=
  SlidingWindow.le_foldl_max.2 _ (List.mem_map_of_mem (List.mem_range.mpr hi))

abbrev tickSum (bars : BarsV1) (i w : ℕ) : ℤ := ((lastPositions i w).map bars.closeTicks).sum

theorem abs_tickSum_le {i w : ℕ} (hi : i < bars.size) (hw : w ≤ i + 1) :
    |tickSum bars i w| ≤ w * maxTick bars := by
  have hsum := abs_sum_le (v := bars.closeTicks) (l := lastPositions i w) fun j hj =>
    le_maxTick ((mem_lastPositions hw hj).trans_lt hi)
  rwa [lastPositions, List.length_range'] at hsum

theorem products_lt {f s q p c M F S : ℤ} (hf : 1 ≤ f) (hs : 0 ≤ s) (hq : 1 ≤ q) (hp : 0 ≤ p)
    (hM : 0 ≤ M) (hF : |F| ≤ f * M) (hS : |S| ≤ s * M) (hcross : q * 2 * f * s * M < 2 ^ 62)
    (hscale : max p 1 * f * s * (M + |c|) < 2 ^ 62) :
    (|s * F| < 2 ^ 63 ∧ |f * S| < 2 ^ 63 ∧ |s * F - f * S| < 2 ^ 63 ∧
      |q * (s * F - f * S)| < 2 ^ 63) ∧
    |S + s * c| < 2 ^ 63 ∧ |f * (S + s * c)| < 2 ^ 63 ∧ |p * (f * (S + s * c))| < 2 ^ 63 := by
  have hf0 : 0 ≤ f := by omega
  have hA0 : 0 ≤ f * s * M := mul_nonneg (mul_nonneg hf0 hs) hM
  have hA : |s * F| ≤ f * s * M := by
    rw [abs_mul, abs_of_nonneg hs]
    calc s * |F| ≤ s * (f * M) := mul_le_mul_of_nonneg_left hF hs
      _ = f * s * M := by ring
  have hB : |f * S| ≤ f * s * M := by
    rw [abs_mul, abs_of_nonneg hf0]
    calc f * |S| ≤ f * (s * M) := mul_le_mul_of_nonneg_left hS hf0
      _ = f * s * M := by ring
  have hcross' : |s * F - f * S| ≤ 2 * (f * s * M) := by
    have hsub := abs_sub (s * F) (f * S)
    linarith
  have hq' : |q * (s * F - f * S)| ≤ q * (2 * (f * s * M)) := by
    rw [abs_mul, abs_of_nonneg (show 0 ≤ q by omega)]
    exact mul_le_mul_of_nonneg_left hcross' (by omega)
  have hqA : q * (2 * (f * s * M)) < 2 ^ 62 := by
    calc q * (2 * (f * s * M)) = q * 2 * f * s * M := by ring
      _ < 2 ^ 62 := hcross
  have hone : 2 * (f * s * M) ≤ q * (2 * (f * s * M)) := le_mul_of_one_le_left (by linarith) hq
  have hR0 : 0 ≤ s * (M + |c|) := mul_nonneg hs (add_nonneg hM (abs_nonneg c))
  have hsum : |S + s * c| ≤ s * (M + |c|) := by
    have hadd := abs_add_le S (s * c)
    rw [abs_mul, abs_of_nonneg hs] at hadd
    linarith
  have hfsum : |f * (S + s * c)| ≤ f * (s * (M + |c|)) := by
    rw [abs_mul, abs_of_nonneg hf0]
    exact mul_le_mul_of_nonneg_left hsum hf0
  have hfR0 : 0 ≤ f * (s * (M + |c|)) := mul_nonneg hf0 hR0
  have hfR : s * (M + |c|) ≤ f * (s * (M + |c|)) := le_mul_of_one_le_left hR0 hf
  have hpsum : |p * (f * (S + s * c))| ≤ max p 1 * (f * (s * (M + |c|))) := by
    rw [abs_mul, abs_of_nonneg hp]
    exact mul_le_mul (le_max_left p 1) hfsum (abs_nonneg _) (le_trans hp (le_max_left p 1))
  have hpR : max p 1 * (f * (s * (M + |c|))) < 2 ^ 62 := by
    calc max p 1 * (f * (s * (M + |c|))) = max p 1 * f * s * (M + |c|) := by ring
      _ < 2 ^ 62 := hscale
  have honeR : f * (s * (M + |c|)) ≤ max p 1 * (f * (s * (M + |c|))) :=
    le_mul_of_one_le_left hfR0 (le_max_right p 1)
  refine ⟨⟨?_, ?_, ?_, ?_⟩, ?_, ?_, ?_⟩ <;> linarith

theorem sides_eq (hfast : 1 ≤ params.fastBars) (hband : 0 ≤ params.band)
    (hbound : exceedsBound params bars = false) (sumFast sumSlow : ℕ → ℤ) (i : ℕ)
    (hf : |sumFast i| ≤ params.fastBars * maxTick bars)
    (hs : |sumSlow i| ≤ params.slowBars * maxTick bars) :
    left params sumFast sumSlow i = (ratio params.band).2 *
        (params.slowBars * sumFast i - params.fastBars * sumSlow i) ∧
      right params bars sumSlow i = (ratio params.band).1 *
        (params.fastBars * (sumSlow i + params.slowBars * bars.closeCentre)) ∧
      |right params bars sumSlow i| < 2 ^ 63 := by
  have hq : 1 ≤ (ratio params.band).2 := Int.ofNat_lt.mpr params.band.den_pos
  have hp : 0 ≤ (ratio params.band).1 := Rat.num_nonneg.mpr hband
  have hM : 0 ≤ maxTick bars := SlidingWindow.le_foldl_max.1
  have hf1 : (1 : ℤ) ≤ params.fastBars := by exact_mod_cast hfast
  unfold exceedsBound at hbound
  simp only [decide_eq_false_iff_not, not_or, not_le] at hbound
  obtain ⟨⟨h1, h2, h3, h4⟩, h5, h6, h7⟩ := products_lt hf1 (Int.natCast_nonneg _) hq hp hM hf hs
    hbound.1 hbound.2
  unfold left right
  rw [int64_eq h1, int64_eq h2, int64_eq h3, int64_eq h4, int64_eq h5, int64_eq h6, int64_eq h7]
  exact ⟨rfl, rfl, h7⟩

theorem Params.InSpace.bounds (h : params.InSpace) :
    (15 ≤ params.fastBars ∧ params.fastBars ≤ 480 ∧ params.slowBars ≤ 5760) ∧ 0 ≤ params.band ∧
      |(ratio params.band).1| ≤ 1 ∧ |(ratio params.band).2| ≤ 2000 := by
  obtain ⟨hfast, hslow, hband⟩ := h
  simp only [List.mem_cons, List.not_mem_nil, or_false] at hfast hslow
  refine ⟨⟨by omega, by omega, by omega⟩, ?_⟩
  have hall : ∀ band ∈ [(0 : Decimal), 5 / 10000, 1 / 1000, 2 / 1000, 5 / 1000],
      0 ≤ band ∧ |(ratio band).1| ≤ 1 ∧ |(ratio band).2| ≤ 2000 := by decide +kernel
  exact hall _ hband

theorem fast_lt_slow (h : inadmissible params = none) : params.fastBars < params.slowBars := by
  unfold inadmissible at h
  split at h
  · cases h
  · omega

structure Holds (params : Params) (bars : BarsV1) (start k : ℕ) (s : State) : Prop where
  fastQ : s.fastQ = lastBars bars.closeD start k params.fastBars
  slowQ : s.slowQ = lastBars bars.closeD start k params.slowBars
  fastSum : s.fastSum = (lastBars bars.closeD start k params.fastBars).sum
  slowSum : s.slowSum = (lastBars bars.closeD start k params.slowBars).sum

def exactTarget (params : Params) (F S : ℚ) (held : ℤ) : ℤ :=
  let (p, q) := ratio params.band
  if p * params.fastBars * S < q * (params.slowBars * F - params.fastBars * S) then 1
  else if q * (params.slowBars * F - params.fastBars * S) < -(p * params.fastBars * S) then
    params.direction.short
  else held

theorem sidesDecimal_eq (hspace : params.InSpace) {F S : ℚ}
    (hF : Fits 9 (params.fastBars * 10 ^ 21) F) (hS : Fits 9 (params.slowBars * 10 ^ 21) S) :
    authoritative.mul (ratio params.band).2 (authoritative.sub
        (authoritative.mul params.slowBars F) (authoritative.mul params.fastBars S)) =
      (ratio params.band).2 * (params.slowBars * F - params.fastBars * S) ∧
    authoritative.mul ((ratio params.band).1 * params.fastBars) S =
      (ratio params.band).1 * params.fastBars * S ∧
    authoritative.neg ((ratio params.band).1 * params.fastBars * S) =
      -((ratio params.band).1 * params.fastBars * S) := by
  obtain ⟨⟨_, hfast, hslow⟩, _, hp, hq⟩ := hspace.bounds
  have hproduct : (params.slowBars : ℤ) * params.fastBars ≤ 5760 * 480 := by
    exact_mod_cast Nat.mul_le_mul hslow hfast
  have hproduct0 : (0 : ℤ) ≤ params.slowBars * params.fastBars := by positivity
  have h1 : Fits 9 (5760 * 480 * 10 ^ 21) (params.slowBars * F) := by
    refine (Nat.zero_add 9 ▸ (Fits.natCast params.slowBars).mul hF).mono ?_
    linarith
  have h2 : Fits 9 (5760 * 480 * 10 ^ 21) (params.fastBars * S) := by
    refine (Nat.zero_add 9 ▸ (Fits.natCast params.fastBars).mul hS).mono ?_
    linarith
  have h3 := h1.sub h2
  have h4 : Fits 9 (2000 * (2 * (5760 * 480 * 10 ^ 21)))
      ((ratio params.band).2 * (params.slowBars * F - params.fastBars * S)) := by
    refine (Nat.zero_add 9 ▸ (Fits.intCast _).mul h3).mono ?_
    linarith
  have h5 : Fits 9 (5760 * 480 * 10 ^ 21) ((ratio params.band).1 * (params.fastBars * S)) := by
    refine (Nat.zero_add 9 ▸ (Fits.intCast _).mul h2).mono ?_
    linarith
  rw [← mul_assoc] at h5
  refine ⟨?_, authoritative_round h5 (by norm_num), authoritative_round h5.neg (by norm_num)⟩
  unfold Context.mul Context.sub
  rw [authoritative_round h1 (by norm_num), authoritative_round h2 (by norm_num),
    authoritative_round h3 (by norm_num), authoritative_round h4 (by norm_num)]

theorem stepDecimal_eq (hspace : params.InSpace) {start k : ℕ} {s : State}
    (h : Holds params bars start k s)
    (hfits : ∀ j, start ≤ j → j ≤ start + k → Fits 9 (10 ^ 21) (bars.closeD j)) :
    Holds params bars start (k + 1) (stepDecimal params s (bars.closeD (start + k))).1 ∧
      ((stepDecimal params s (bars.closeD (start + k))).1.state,
          (stepDecimal params s (bars.closeD (start + k))).2) =
        hold (fun k => decide (params.slowBars ≤ k + 1))
          (fun k => exactTarget params (lastBars bars.closeD start (k + 1) params.fastBars).sum
            (lastBars bars.closeD start (k + 1) params.slowBars).sum) s.state k := by
  obtain ⟨fastSum, slowSum, fastQ, slowQ, state⟩ := s
  obtain ⟨hfastQ, hslowQ, hfastSum, hslowSum⟩ := h
  dsimp only at hfastQ hslowQ hfastSum hslowSum
  subst hfastQ hslowQ hfastSum hslowSum
  obtain ⟨⟨_, hfast, hslow⟩, _⟩ := hspace.bounds
  have hfast' : (params.fastBars : ℤ) ≤ 480 := by exact_mod_cast hfast
  have hslow' : (params.slowBars : ℤ) ≤ 5760 := by exact_mod_cast hslow
  have hrollF := roll_eq (w := params.fastBars) hfits (by norm_num) (by linarith)
  have hrollS := roll_eq (w := params.slowBars) hfits (by norm_num) (by linarith)
  unfold stepDecimal
  dsimp only
  rw [hrollF, hrollS]
  dsimp only
  have hF : Fits 9 (params.fastBars * 10 ^ 21)
      (lastBars bars.closeD start (k + 1) params.fastBars).sum := sum_lastBars_fits hfits (by norm_num)
  have hS : Fits 9 (params.slowBars * 10 ^ 21)
      (lastBars bars.closeD start (k + 1) params.slowBars).sum := sum_lastBars_fits hfits (by norm_num)
  obtain ⟨hleft, hright, hneg⟩ := sidesDecimal_eq hspace hF hS
  rw [length_lastBars, hleft, hright, hneg]
  rcases le_or_gt params.slowBars (k + 1) with hready | hready
  · rw [if_neg (by omega), hold_of_ready]
    · exact ⟨⟨rfl, rfl, rfl, rfl⟩, rfl⟩
    · exact decide_eq_true hready
  · rw [if_pos (by omega), hold_of_not_ready]
    · exact ⟨⟨rfl, rfl, rfl, rfl⟩, rfl⟩
    · exact decide_eq_false hready.not_ge

theorem exactTarget_eq (hgrid : bars.OnGrid) (hspace : params.InSpace)
    (hadmissible : inadmissible params = none) (hbound : exceedsBound params bars = false)
    {sumFast sumSlow : ℕ → ℤ}
    (hsumFast : windowSums bars.size bars.closeTicks params.fastBars = .ok sumFast)
    (hsumSlow : windowSums bars.size bars.closeTicks params.slowBars = .ok sumSlow) {i : ℕ}
    (hi : i < bars.size) (hready : ready params bars i = true) (held : ℤ) :
    exactTarget params ((lastPositions i params.fastBars).map bars.closeD).sum
        ((lastPositions i params.slowBars).map bars.closeD).sum held =
      (events params bars sumFast sumSlow i).getD held := by
  obtain ⟨⟨hfast1, hfast, hslow⟩, hband, _⟩ := hspace.bounds
  have hslowi : params.slowBars ≤ i + 1 := by
    have := of_decide_eq_true hready
    unfold BarsV1.barsInSegment at this
    omega
  have hfastslow := fast_lt_slow hadmissible
  have hsmall : ∀ {w}, w ≤ 5760 → w ≤ i + 1 → |tickSum bars i w| < 2 ^ 63 := by
    intro w hw hwi
    have hw' : (w : ℤ) ≤ 5760 := by exact_mod_cast hw
    exact (hgrid.abs_sum_ticks_le hi hwi).trans_lt (by linarith)
  have hfastTicks := windowSums_eq hsumFast hi (by omega) (hsmall (by omega) (by omega))
  have hslowTicks := windowSums_eq hsumSlow hi hslowi (hsmall hslow hslowi)
  obtain ⟨hleft, hright, hright_lt⟩ := sides_eq (by omega) hband hbound sumFast sumSlow i
    (hfastTicks ▸ abs_tickSum_le hi (by omega)) (hslowTicks ▸ abs_tickSum_le hi hslowi)
  have hFt := hgrid.sum_last_closes (w := params.fastBars) hi (by omega)
  have hSt := hgrid.sum_last_closes hi hslowi
  have hS0 : 0 ≤ ((lastPositions i params.slowBars).map bars.closeD).sum := by
    refine List.sum_nonneg fun x hx => ?_
    obtain ⟨j, hj, rfl⟩ := List.mem_map.mp hx
    exact hgrid.close_nonneg j ((mem_lastPositions hslowi hj).trans_lt hi)
  have hscale : (0 : ℚ) < bars.closeScale := by exact_mod_cast hgrid.scale_pos
  unfold exactTarget
  generalize ((lastPositions i params.fastBars).map bars.closeD).sum = F at *
  generalize ((lastPositions i params.slowBars).map bars.closeD).sum = S at *
  rw [← hfastTicks] at hFt
  rw [← hslowTicks] at hSt
  have hp : (0 : ℚ) ≤ (ratio params.band).1 := by exact_mod_cast Rat.num_nonneg.mpr hband
  have hR0 : 0 ≤ (ratio params.band).1 * params.fastBars * S := by positivity
  -- both sides of the search tier are those of the other on the grid of the scale
  have hleft' : (left params sumFast sumSlow i : ℚ) =
      (ratio params.band).2 * (params.slowBars * F - params.fastBars * S) * bars.closeScale := by
    rw [hleft]
    push_cast
    linear_combination (ratio params.band).2 * params.fastBars * hSt -
      (ratio params.band).2 * params.slowBars * hFt
  have hright' : (right params bars sumSlow i : ℚ) =
      (ratio params.band).1 * params.fastBars * S * bars.closeScale := by
    rw [hright]
    push_cast
    linear_combination -(ratio params.band).1 * params.fastBars * hSt
  dsimp only
  unfold events
  rw [int64_eq (by rwa [abs_neg])]
  generalize (ratio params.band).2 * (params.slowBars * F - params.fastBars * S) = L at *
  generalize (ratio params.band).1 * params.fastBars * S = R at *
  have hgt : right params bars sumSlow i < left params sumFast sumSlow i ↔ R < L := by
    rw [← Int.cast_lt (R := ℚ), hleft', hright', mul_lt_mul_iff_left₀ hscale]
  have hlt : left params sumFast sumSlow i < -right params bars sumSlow i ↔ L < -R := by
    rw [← Int.cast_lt (R := ℚ), Int.cast_neg, hleft', hright', ← neg_mul,
      mul_lt_mul_iff_left₀ hscale]
  simp only [hready, true_and, hgt, hlt]
  rcases lt_or_ge R L with hlong | hlong
  · rw [if_pos hlong, if_pos hlong, if_neg (by linarith)]
    rfl
  · rw [if_neg hlong.not_gt, if_neg hlong.not_gt]
    split
    · rfl
    · rfl

theorem targetsF64_eq (hgrid : bars.OnGrid) (hspace : params.InSpace)
    (hadmissible : inadmissible params = none) {targets : List ℤ} {ties : ℕ}
    (h : targetsF64 params bars = .ok (targets, ties)) : targets = targetsDecimal params bars := by
  unfold targetsF64 at h
  split at h
  · cases h
  rename_i hbound
  obtain ⟨sumFast, hsumFast, h⟩ := Except.bind_eq_ok.mp h
  obtain ⟨sumSlow, hsumSlow, h⟩ := Except.bind_eq_ok.mp h
  cases Except.pure_eq_ok.mp h
  refine List.map_congr_left fun i hi => ?_
  have hi := List.mem_range.mp hi
  rw [holdEvents_eq]
  symm
  refine BarsV1.scan_related (fun k s held =>
    Holds params bars (bars.segmentStart i) k s ∧ s.state = held) (· = ·) rfl
    ⟨⟨rfl, rfl, rfl, rfl⟩, rfl⟩ ?_
  rintro k hk s _ ⟨hholds, rfl⟩
  have hstart := bars.segmentStart_le i
  obtain ⟨hnext, heq⟩ := stepDecimal_eq hspace hholds
    fun j _ hj => hgrid.close_fits j (by omega)
  have hsegment : bars.segmentStart (bars.segmentStart i + k) = bars.segmentStart i :=
    BarsV1.segmentStart_eq (by omega) (by omega)
  have hready : decide (params.slowBars ≤ k + 1) =
      ready params bars (bars.segmentStart i + k) := by
    unfold ready BarsV1.barsInSegment
    rw [hsegment, Nat.add_sub_cancel_left]
  rw [hold_congr hready fun hr => ?_] at heq
  · exact ⟨congrArg Prod.snd heq, hnext, congrArg Prod.fst heq⟩
  · have hlong := of_decide_eq_true (hready.trans hr)
    have hshort := fast_lt_slow hadmissible
    rw [lastBars_eq (by omega), lastBars_eq hlong]
    exact exactTarget_eq hgrid hspace hadmissible (Bool.eq_false_of_not_eq_true hbound) hsumFast
      hsumSlow (by omega) hr s.state

end TrendMovingAverageCrossV1

end StrategySdk

end TradePlatform
