/-
# `TradePlatform.StrategySdkTicks` — what both tiers of a family compute

Between its first bar and its last a segment holds one target, which an event changes; both
tiers run that machine.  The ticks of a window are its closes on an integer grid, and the
sums of both tiers over the last bars are sums over one stretch of positions.
-/
import TradePlatform.StrategySdkLocality
import TradePlatform.StrategySdkSearch
import TradePlatform.Lib.DecimalExact

namespace TradePlatform

namespace StrategySdk

open MachineInt Decimal

/-! ## The held target -/

def hold (ready : ℕ → Bool) (change : ℕ → ℤ → ℤ) (held : ℤ) (i : ℕ) : ℤ × ℤ :=
  if ready i then (change i held, change i held) else (held, 0)

section Hold

variable {ready ready' : ℕ → Bool} {change change' : ℕ → ℤ → ℤ} {held : ℤ} {i i' : ℕ}

theorem hold_of_ready (h : ready i = true) :
    hold ready change held i = (change i held, change i held) := if_pos h

theorem hold_of_not_ready (h : ready i = false) : hold ready change held i = (held, 0) :=
  if_neg (by rw [h]; exact Bool.false_ne_true)

theorem hold_congr (hready : ready i = ready' i')
    (hchange : ready' i' = true → change i held = change' i' held) :
    hold ready change held i = hold ready' change' held i' := by
  cases h : ready' i' with
  | true => rw [hold_of_ready (hready.trans h), hold_of_ready h, hchange h]
  | false => rw [hold_of_not_ready (hready.trans h), hold_of_not_ready h]

end Hold

def BarsV1.heldAfter (bars : BarsV1) (ready : ℕ → Bool) (change : ℕ → ℤ → ℤ) (i : ℕ) : ℤ :=
  (bars.scan (fun _ => 0) (hold ready change) i).1

variable {bars : BarsV1} {ready : ℕ → Bool} {change : ℕ → ℤ → ℤ} {i : ℕ}

theorem scan_hold_snd : (bars.scan (fun _ => 0) (hold ready change) i).2 =
    if ready i then bars.heldAfter ready change i else 0 := by
  unfold BarsV1.heldAfter
  cases i with
  | zero =>
      rw [BarsV1.scan, hold]
      split
      · rfl
      · rfl
  | succ i =>
      rw [BarsV1.scan, hold]
      split
      · rfl
      · rfl

theorem heldAfter_start (h : bars.segmentStart i = i) :
    bars.heldAfter ready change i = if ready i then change i 0 else 0 := by
  rw [BarsV1.heldAfter, BarsV1.scan_start h, hold]
  split
  · rfl
  · rfl

theorem heldAfter_succ (h : bars.segmentStart (i + 1) ≠ i + 1) :
    bars.heldAfter ready change (i + 1) =
      if ready (i + 1) then change (i + 1) (bars.heldAfter ready change i)
      else bars.heldAfter ready change i := by
  rw [BarsV1.heldAfter, BarsV1.scan_succ h, hold]
  split
  · rfl
  · rfl

/-! ### Events filled forward -/

theorem lastEvent_le (filled : ℕ → Option ℤ) (i : ℕ) : lastEvent filled i ≤ i := by
  induction i with
  | zero => exact le_rfl
  | succ i ih =>
      rw [lastEvent]
      split <;> omega

theorem lastEvent_succ (filled : ℕ → Option ℤ) (i : ℕ) : lastEvent filled (i + 1) =
    if (filled (i + 1)).isSome then i + 1 else lastEvent filled i := by
  have hle := lastEvent_le filled i
  rw [lastEvent]
  split <;> omega

def maskedAt (events : ℕ → Option ℤ) (ready : ℕ → Bool) (i : ℕ) : Option ℤ :=
  if ready i then events i else none

def filledAt (bars : BarsV1) (events : ℕ → Option ℤ) (ready : ℕ → Bool) (i : ℕ) : Option ℤ :=
  if maskedAt events ready i = none ∧ i = bars.segmentStart i then some 0
  else maskedAt events ready i

section Events

variable {events : ℕ → Option ℤ}

theorem maskedAt_getD (held : ℤ) : (maskedAt events ready i).getD held =
    if ready i then (events i).getD held else held := by
  unfold maskedAt
  split
  · rfl
  · rfl

theorem filledAt_start (h : bars.segmentStart i = i) :
    filledAt bars events ready i = some ((maskedAt events ready i).getD 0) := by
  unfold filledAt
  cases hmasked : maskedAt events ready i with
  | none => rw [if_pos ⟨rfl, h.symm⟩]; rfl
  | some event => rw [if_neg fun h => nomatch h.1]; rfl

theorem filledAt_of_ne (h : bars.segmentStart i ≠ i) :
    filledAt bars events ready i = maskedAt events ready i :=
  if_neg fun hstart => h hstart.2.symm

theorem filledAt_lastEvent :
    (filledAt bars events ready (lastEvent (filledAt bars events ready) i)).getD 0 =
      bars.heldAfter ready (fun i held => (events i).getD held) i := by
  induction i with
  | zero =>
      have hstart := bars.segmentStart_zero
      rw [lastEvent, filledAt_start hstart, heldAfter_start hstart, ← maskedAt_getD]
      rfl
  | succ i ih =>
      rw [lastEvent_succ]
      rcases eq_or_ne (bars.segmentStart (i + 1)) (i + 1) with hstart | hstart
      · rw [filledAt_start hstart, Option.isSome_some, if_pos rfl, filledAt_start hstart,
          heldAfter_start hstart, ← maskedAt_getD]
        rfl
      · rw [heldAfter_succ hstart, ← maskedAt_getD, filledAt_of_ne hstart]
        cases hmasked : maskedAt events ready (i + 1) with
        | none =>
            rw [Option.isSome_none, if_neg nofun]
            exact ih
        | some event =>
            rw [Option.isSome_some, if_pos rfl, filledAt_of_ne hstart, hmasked]
            rfl

theorem holdEvents_eq : holdEvents bars events ready i =
    (bars.scan (fun _ => 0) (hold ready fun i held => (events i).getD held) i).2 := by
  rw [scan_hold_snd, ← filledAt_lastEvent]
  rfl

end Events

/-! ## Closes on a grid -/

/-- What the window says of its closes: each is a tick of a grid with at most nine
fractional digits. -/
structure BarsV1.OnGrid (bars : BarsV1) : Prop where
  scale_eq : ∃ places ≤ 9, bars.closeScale = 10 ^ places
  ticks_lt : ∀ i < bars.size, |bars.closeTicks i| < 2 ^ 20
  close_eq : ∀ i < bars.size, bars.closeD i * bars.closeScale = bars.closeTicks i + bars.closeCentre
  close_fits : ∀ i < bars.size, Fits 9 (10 ^ 21) (bars.closeD i)
  close_nonneg : ∀ i < bars.size, 0 ≤ bars.closeD i

/-- A close that both tiers can take: not negative, below `10 ^ 12`, of at most 28 digits. -/
def Row.Admissible (row : Row) : Prop :=
  0 ≤ row.close ∧ row.close < 10 ^ 12 ∧ Context.default.Represents row.close

theorem exactTicks_ok {prices : List Decimal} {scale centre : ℤ} {ticks : List ℤ}
    (h : exactTicks prices = .ok (scale, centre, ticks)) : ∃ places ≤ 9, scale = 10 ^ places ∧
      (∀ i (hi : i < prices.length), ∃ raw : ℤ,
        (raw : ℚ) = Context.default.mul prices[i] scale ∧ ticks[i]? = some (raw - centre)) ∧
      ∀ tick ∈ ticks, |tick| < 2 ^ 20 := by
  unfold exactTicks at h
  dsimp only at h
  generalize (prices.map fun price => fractionDigits (Context.default.round price)).foldl max 0 =
    places at h
  split at h
  · cases h
  rename_i hplaces
  split at h
  · cases h
  rename_i hgrid
  generalize hraw : prices.map (fun price => roundDown (Context.default.mul price
    ((10 ^ places : ℤ) : ℚ))) = raw at h hgrid
  generalize (raw.foldl max (raw.headD 0) + raw.foldl min (raw.headD 0)) / 2 = mid at h
  split at h
  · cases h
  split at h
  · cases h
  rename_i hrange
  cases h
  subst hraw
  refine ⟨places, not_lt.mp hplaces, rfl, fun i hi => ?_, fun tick htick => ?_⟩
  · refine ⟨roundDown (Context.default.mul prices[i] ((10 ^ places : ℤ) : ℚ)), ?_, ?_⟩
    · by_contra hne
      rw [← List.map_prod_left_eq_zip] at hgrid
      exact hgrid (List.any_eq_true.mpr
        ⟨_, List.mem_map_of_mem (List.getElem_mem hi), decide_eq_true hne⟩)
    · rw [List.getElem?_map, List.getElem?_map, List.getElem?_eq_getElem hi]
      rfl
  · by_contra hlt
    exact hrange (List.any_eq_true.mpr ⟨tick, htick, decide_eq_true (not_lt.mp hlt)⟩)

theorem fromRows_onGrid {κ : Type} [DecidableEq κ] {rows : List Row} {keys : Option (List κ)}
    (h : BarsV1.fromRows rows keys = .ok bars) (hrows : ∀ row ∈ rows, row.Admissible) :
    bars.OnGrid := by
  obtain ⟨hsize, _, _, hclose, _, _⟩ := BarsV1.fromRows_ok h
  unfold BarsV1.fromRows at h
  dsimp only at h
  split at h
  · cases h
  split at h
  · cases h
  split at h
  · cases h
  obtain ⟨⟨scale, centre, ticks⟩, hticks, h⟩ := Except.bind_eq_ok.mp h
  cases Except.pure_eq_ok.mp h
  obtain ⟨places, hplaces, hscale, hall, hlt⟩ := exactTicks_ok hticks
  have hten : (0 : ℚ) < 10 ^ places := by positivity
  -- each close is an integer number of units of the scale
  have hraw : ∀ i < rows.length, ∃ raw : ℤ, (raw : ℚ) = (rows.getD i default).close * 10 ^ places ∧
      ticks.getD i 0 = raw - centre ∧ ticks.getD i 0 ∈ ticks ∧
      0 ≤ (rows.getD i default).close ∧ (rows.getD i default).close < 10 ^ 12 := by
    intro i hi
    obtain ⟨raw, hraw, htick⟩ := hall i (by rw [List.length_map]; exact hi)
    have hrow : rows.getD i default = rows[i] := by
      rw [List.getD_eq_getElem?_getD, List.getElem?_eq_getElem hi, Option.getD_some]
    obtain ⟨hnonneg, hbelow, hdigits⟩ := hrows rows[i] (List.getElem_mem hi)
    have hsmall : |rows[i].close * 10 ^ places| < 10 ^ 28 := by
      rw [abs_of_nonneg (by positivity)]
      have hp : (10 : ℚ) ^ places ≤ 10 ^ 9 := pow_le_pow_right₀ (by norm_num) hplaces
      calc rows[i].close * 10 ^ places ≤ 10 ^ 12 * 10 ^ 9 :=
            mul_le_mul hbelow.le hp hten.le (by norm_num)
        _ < 10 ^ 28 := by norm_num
    refine ⟨raw, ?_, ?_, ?_, hrow ▸ hnonneg, hrow ▸ hbelow⟩
    · rw [hraw, List.getElem_map, hscale, hrow]
      push_cast
      exact roundSig_mul_pow hdigits hsmall
    · rw [List.getD_eq_getElem?_getD, htick, Option.getD_some]
    · rw [List.getD_eq_getElem?_getD, htick, Option.getD_some]
      exact List.mem_of_getElem? htick
  constructor
  · exact ⟨places, hplaces, hscale⟩
  · intro i hi
    obtain ⟨raw, _, _, hmem, _, _⟩ := hraw i hi
    exact hlt _ hmem
  · intro i hi
    obtain ⟨raw, hraw, htick, _⟩ := hraw i hi
    show (rows.getD i default).close * (scale : ℚ) = ((ticks.getD i 0 : ℤ) : ℚ) + (centre : ℚ)
    rw [htick, hscale]
    push_cast
    rw [← hraw]
    ring
  · intro i hi
    obtain ⟨raw, hraw, _, _, hnonneg, hbelow⟩ := hraw i hi
    have hfits : Fits places (10 ^ (12 + places)) (rows.getD i default).close := by
      refine ⟨raw, by rw [hraw]; field_simp, ?_⟩
      have hcast : |(raw : ℚ)| ≤ 10 ^ (12 + places) := by
        rw [hraw, abs_of_nonneg (by positivity), pow_add]
        exact mul_le_mul_of_nonneg_right hbelow.le hten.le
      exact_mod_cast hcast
    have hscaled := hfits.scale (9 - places)
    rw [Nat.add_sub_cancel' hplaces, ← pow_add,
      show 12 + places + (9 - places) = 21 by omega] at hscaled
    exact hscaled
  · intro i hi
    exact (hraw i hi).choose_spec.2.2.2.1

/-! ## Sums over the last bars -/

def lastPositions (i w : ℕ) : List ℕ := List.range' (i + 1 - w) w

theorem mem_lastPositions {j w : ℕ} (hw : w ≤ i + 1) (h : j ∈ lastPositions i w) : j ≤ i := by
  have hj := List.mem_range'_1.mp h
  omega

theorem windowSums_eq {size w : ℕ} {values sums : ℕ → ℤ} (h : windowSums size values w = .ok sums)
    (hi : i < size) (hw : w ≤ i + 1)
    (hsum : |((lastPositions i w).map values).sum| < 2 ^ 63) :
    sums i = ((lastPositions i w).map values).sum := by
  unfold windowSums at h
  split at h
  · cases h
  · cases h
    dsimp only
    rw [if_neg (by omega)]
    have hsub := runningSum_sub hsum
    rwa [Nat.sub_add_cancel hw] at hsub

/-- Before bar `k` of a segment the deque of `w` bars holds the last of them. -/
def lastBars (v : ℕ → ℚ) (start k w : ℕ) : List ℚ :=
  (List.range' (start + (k - w)) (min k w)).map v

section Rolling

variable {v : ℕ → ℚ} {start k w d : ℕ} {b : ℤ}

theorem lastBars_eq (hw : w ≤ k + 1) :
    lastBars v start (k + 1) w = (lastPositions (start + k) w).map v := by
  rw [lastBars, lastPositions, Nat.min_eq_right hw,
    show start + (k + 1 - w) = start + k + 1 - w by omega]

theorem length_lastBars : (lastBars v start k w).length = min k w := by simp [lastBars]

theorem lastBars_append : lastBars v start k w ++ [v (start + k)] =
    (if w ≤ k then [v (start + (k - w))] else []) ++ lastBars v start (k + 1) w := by
  have hpush : lastBars v start k w ++ [v (start + k)] =
      (List.range' (start + (k - w)) (min k w + 1)).map v := by
    rw [List.range'_concat, List.map_append, lastBars]
    congr 3
    omega
  rw [hpush, lastBars]
  split
  · rename_i hle
    rw [show min k w + 1 = (min (k + 1) w) + 1 by omega, List.range'_succ, List.map_cons,
      show start + (k - w) + 1 = start + (k + 1 - w) by omega]
    rfl
  · rw [show min k w + 1 = min (k + 1) w by omega,
      show start + (k - w) = start + (k + 1 - w) by omega]
    rfl

theorem sum_lastBars_append : (lastBars v start k w).sum + v (start + k) =
    (if w ≤ k then v (start + (k - w)) else 0) + (lastBars v start (k + 1) w).sum := by
  rw [← List.sum_singleton (x := v (start + k)), ← List.sum_append, lastBars_append,
    List.sum_append]
  split
  · rw [List.sum_singleton]
  · rw [List.sum_nil]

theorem sum_lastBars_of_lt (hk : k < w) :
    (lastBars v start k w).sum + v (start + k) = (lastBars v start (k + 1) w).sum := by
  rw [sum_lastBars_append, if_neg (by omega), zero_add]

theorem lastBars_fits (hfits : ∀ j, start ≤ j → j < start + k → Fits d b (v j)) :
    ∀ x ∈ lastBars v start k w, Fits d b x := by
  intro x hx
  obtain ⟨j, hj, rfl⟩ := List.mem_map.mp hx
  have hj := List.mem_range'_1.mp hj
  exact hfits j (by omega) (by omega)

theorem sum_lastBars_fits (hfits : ∀ j, start ≤ j → j ≤ start + k → Fits d b (v j))
    (hb : 0 ≤ b) : Fits d (w * b) (lastBars v start (k + 1) w).sum := by
  have hsum := Fits.sum (lastBars_fits (w := w) (k := k + 1) fun j hj hlt =>
    hfits j hj (Nat.lt_succ_iff.mp hlt))
  refine hsum.mono ?_
  rw [length_lastBars]
  have hmin : ((min (k + 1) w : ℕ) : ℤ) ≤ w := by exact_mod_cast min_le_right (k + 1) w
  exact mul_le_mul_of_nonneg_right hmin hb

theorem authoritative_round {x : ℚ} (h : Fits d b x) (hb : b < 10 ^ 50) :
    authoritative.round x = x := h.roundSig_eq hb

theorem add_lastBars (hfits : ∀ j, start ≤ j → j ≤ start + k → Fits d b (v j)) (hb : 0 ≤ b)
    (hlt : (w + 1) * b < 10 ^ 50) : authoritative.add (lastBars v start k w).sum (v (start + k)) =
      (lastBars v start k w).sum + v (start + k) := by
  have hsum := Fits.sum (lastBars_fits (w := w) fun j hj hlt => hfits j hj hlt.le)
  have hadd := hsum.add (hfits (start + k) (by omega) le_rfl)
  refine authoritative_round hadd (lt_of_le_of_lt ?_ hlt)
  rw [length_lastBars, add_mul, one_mul]
  have hmin : ((min k w : ℕ) : ℤ) ≤ w := by exact_mod_cast min_le_right k w
  have hmul := mul_le_mul_of_nonneg_right hmin hb
  linarith

theorem sub_lastBars (hk : w ≤ k)
    (hfits : ∀ j, start ≤ j → j ≤ start + k → Fits d b (v j)) (hb : 0 ≤ b)
    (hlt : (w + 1) * b < 10 ^ 50) :
    authoritative.sub ((lastBars v start k w).sum + v (start + k)) (v (start + (k - w))) =
      (lastBars v start (k + 1) w).sum := by
  have hsub : (lastBars v start k w).sum + v (start + k) - v (start + (k - w)) =
      (lastBars v start (k + 1) w).sum := by
    rw [sum_lastBars_append, if_pos hk]
    ring
  have hsum := sum_lastBars_fits (w := w) hfits hb
  rw [← hsub] at hsum ⊢
  exact authoritative_round hsum (by linarith)

theorem roll_eq (hfits : ∀ j, start ≤ j → j ≤ start + k → Fits d b (v j)) (hb : 0 ≤ b)
    (hlt : (w + 1) * b < 10 ^ 50) :
    (if w < (lastBars v start k w ++ [v (start + k)]).length then
      ((lastBars v start k w ++ [v (start + k)]).tail,
        authoritative.sub (authoritative.add (lastBars v start k w).sum (v (start + k)))
          ((lastBars v start k w ++ [v (start + k)]).headD 0))
    else (lastBars v start k w ++ [v (start + k)],
      authoritative.add (lastBars v start k w).sum (v (start + k)))) =
        (lastBars v start (k + 1) w, (lastBars v start (k + 1) w).sum) := by
  rw [add_lastBars hfits hb hlt, List.length_append, length_lastBars, List.length_singleton]
  rcases le_or_gt w k with hk | hk
  · rw [if_pos (by omega), lastBars_append, if_pos hk]
    exact Prod.ext rfl (sub_lastBars hk hfits hb hlt)
  · rw [if_neg (by omega), lastBars_append, if_neg (by omega)]
    exact Prod.ext rfl (sum_lastBars_of_lt hk)

end Rolling

theorem BarsV1.OnGrid.scale_pos (hgrid : bars.OnGrid) : 0 < bars.closeScale := by
  obtain ⟨places, _, hscale⟩ := hgrid.scale_eq
  rw [hscale]
  positivity

theorem BarsV1.OnGrid.abs_sum_ticks_le (hgrid : bars.OnGrid) {w : ℕ} (hi : i < bars.size)
    (hw : w ≤ i + 1) : |((lastPositions i w).map bars.closeTicks).sum| ≤ w * 2 ^ 20 := by
  have hsum := abs_sum_le (v := bars.closeTicks) (l := lastPositions i w) fun j hj =>
    (hgrid.ticks_lt j ((mem_lastPositions hw hj).trans_lt hi)).le
  rwa [lastPositions, List.length_range'] at hsum

theorem BarsV1.OnGrid.sum_close (hgrid : bars.OnGrid) {positions : List ℕ}
    (h : ∀ j ∈ positions, j < bars.size) :
    (positions.map bars.closeD).sum * bars.closeScale =
      ((positions.map bars.closeTicks).sum : ℤ) + positions.length * bars.closeCentre := by
  induction positions with
  | nil => simp
  | cons j positions ih =>
      have hj := hgrid.close_eq j (h j List.mem_cons_self)
      have hpositions := ih fun j' hj' => h j' (List.mem_cons_of_mem _ hj')
      rw [List.map_cons, List.map_cons, List.sum_cons, List.sum_cons, List.length_cons, add_mul, hj,
        hpositions]
      push_cast
      ring

theorem BarsV1.OnGrid.sum_square (hgrid : bars.OnGrid) {positions : List ℕ}
    (h : ∀ j ∈ positions, j < bars.size) :
    (positions.map fun j => bars.closeD j * bars.closeD j).sum * bars.closeScale ^ 2 =
      ((positions.map fun j => bars.closeTicks j * bars.closeTicks j).sum : ℤ) +
        2 * bars.closeCentre * ((positions.map bars.closeTicks).sum : ℤ) +
          positions.length * bars.closeCentre ^ 2 := by
  induction positions with
  | nil => simp
  | cons j positions ih =>
      have hj := hgrid.close_eq j (h j List.mem_cons_self)
      have hpositions := ih fun j' hj' => h j' (List.mem_cons_of_mem _ hj')
      have hsquare : bars.closeD j * bars.closeD j * (bars.closeScale : ℚ) ^ 2 =
          ((bars.closeTicks j : ℚ) + bars.closeCentre) ^ 2 := by
        rw [← hj]
        ring
      rw [List.map_cons, List.map_cons, List.map_cons, List.sum_cons, List.sum_cons, List.sum_cons,
        List.length_cons, add_mul, hsquare, hpositions]
      push_cast
      ring

section LastPositions

variable {w : ℕ}

theorem BarsV1.OnGrid.sum_last_closes (hgrid : bars.OnGrid) (hi : i < bars.size)
    (hw : w ≤ i + 1) : ((lastPositions i w).map bars.closeD).sum * bars.closeScale =
      (((lastPositions i w).map bars.closeTicks).sum : ℤ) + w * bars.closeCentre := by
  have hsum := hgrid.sum_close fun j hj => (mem_lastPositions hw hj).trans_lt hi
  rwa [lastPositions, List.length_range'] at hsum

theorem BarsV1.OnGrid.sum_last_squares (hgrid : bars.OnGrid) (hi : i < bars.size)
    (hw : w ≤ i + 1) :
    ((lastPositions i w).map fun j => bars.closeD j * bars.closeD j).sum *
        bars.closeScale ^ 2 =
      (((lastPositions i w).map fun j => bars.closeTicks j * bars.closeTicks j).sum : ℤ) +
        2 * bars.closeCentre * (((lastPositions i w).map bars.closeTicks).sum : ℤ) +
          w * bars.closeCentre ^ 2 := by
  have hsum := hgrid.sum_square fun j hj => (mem_lastPositions hw hj).trans_lt hi
  rwa [lastPositions, List.length_range'] at hsum

end LastPositions

end StrategySdk

end TradePlatform
