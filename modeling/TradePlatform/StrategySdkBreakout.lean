/-
# `TradePlatform.StrategySdkBreakout` — the two tiers of the channel family decide alike

The sparse table and the deque give the extreme of the same bars, and floats that are no
near tie compare as their prices do.  The loop over the marks visits each bar at which the
held target can change.
-/
import TradePlatform.StrategySdkTicks

namespace TradePlatform

namespace StrategySdk

variable {bars : BarsV1}

/-! ## Channels -/

section Channels

variable {maximum : Bool} {values : ℕ → Decimal} {size w i : ℕ} {x y : Decimal}

theorem picks_extreme (maximum : Bool) : SlidingWindow.Picks (PriorExtreme.NoBetter maximum)
    fun a b => if maximum then max a b else min a b := by
  cases maximum with
  | true => exact fun a b => ⟨max_choice a b, le_max_left a b, le_max_right a b⟩
  | false => exact fun a b => ⟨min_choice a b, min_le_left a b, min_le_right a b⟩

theorem rollingExtremePriorF64_isExtreme {v : ℕ → ℚ} (hw : 1 ≤ w) (hwi : w ≤ i) (hi : i < size) :
    ∃ y, rollingExtremePriorF64 size v w maximum i = some y ∧
      SlidingWindow.IsExtreme (PriorExtreme.NoBetter maximum) v (i - w) i y := by
  unfold rollingExtremePriorF64
  dsimp only
  rw [if_neg (by omega)]
  have hlog := Nat.pow_log_le_self 2 (show w ≠ 0 by omega)
  have hlog' := Nat.lt_pow_succ_log_self (show 1 < 2 by omega) w
  rw [Nat.pow_succ] at hlog'
  have hpicks := picks_extreme maximum
  have hfirst := SlidingWindow.sparseTable_isExtreme (v := v) hpicks
    (show i - w + 2 ^ Nat.log 2 w ≤ size by omega)
  have hlast := SlidingWindow.sparseTable_isExtreme (v := v) hpicks
    (show i - 2 ^ Nat.log 2 w + 2 ^ Nat.log 2 w ≤ size by omega)
  rw [Nat.sub_add_cancel (hlog.trans hwi)] at hlast
  have hunion := hfirst.union hpicks hlast (by omega) (by omega) (by omega)
  exact ⟨_, rfl, hunion⟩

theorem rollingExtremePriorF64_eq (fm : FloatModel) (hw : 1 ≤ w) (hwi : w ≤ i) (hi : i < size)
    (hx : SlidingWindow.IsExtreme (PriorExtreme.NoBetter maximum) values (i - w) i x) :
    rollingExtremePriorF64 size (fun j => fm.price (values j)) w maximum i =
      some (fm.price x) := by
  obtain ⟨y, hy, hextreme⟩ := @rollingExtremePriorF64_isExtreme maximum size w i
    (fun j => fm.price (values j)) hw hwi hi
  have hprice : ∀ a b, PriorExtreme.NoBetter maximum a b →
      PriorExtreme.NoBetter maximum (fm.price a) (fm.price b) := by
    intro a b hab
    cases maximum with
    | true => exact fm.price_mono hab
    | false => exact fm.price_mono hab
  rw [hy, hextreme.unique (hx.map hprice)]

theorem nearTieAt_self (fm : FloatModel) (a : ℚ) : nearTieAt fm (some a) (some a) = true := by
  have hzero : fm.round 0 = 0 := by simpa using fm.round_err 0
  have hnonneg : ∀ z, 0 ≤ z → 0 ≤ fm.round z := by
    intro z hz
    have herr := (abs_le.mp (fm.round_err z)).1
    rw [abs_of_nonneg hz] at herr
    linarith
  refine decide_eq_true ?_
  rw [sub_self, hzero, abs_zero]
  exact hnonneg _ (mul_nonneg (hnonneg _ (by norm_num))
    (le_max_of_le_left (le_max_of_le_left (abs_nonneg a))))

theorem floatLt_price_eq (fm : FloatModel)
    (hties : nearTieAt fm (some (fm.price x)) (some (fm.price y)) = false) :
    floatLt (some (fm.price x)) (some (fm.price y)) = decide (x < y) ∧
      floatLt (some (fm.price y)) (some (fm.price x)) = decide (y < x) := by
  have hne : fm.price x ≠ fm.price y := by
    intro heq
    rw [heq, nearTieAt_self] at hties
    cases hties
  rcases lt_trichotomy x y with hlt | rfl | hlt
  · have hprice := (fm.price_mono hlt.le).lt_of_ne hne
    exact ⟨(decide_eq_true hprice).trans (decide_eq_true hlt).symm,
      (decide_eq_false hprice.not_gt).trans (decide_eq_false hlt.not_gt).symm⟩
  · exact absurd rfl hne
  · have hprice := (fm.price_mono hlt.le).lt_of_ne hne.symm
    exact ⟨(decide_eq_false hprice.not_gt).trans (decide_eq_false hlt.not_gt).symm,
      (decide_eq_true hprice).trans (decide_eq_true hlt).symm⟩

end Channels

namespace ChannelBreakoutV1

variable {fm : FloatModel} {params : Params}

/-! ## Marks -/

def change (fm : FloatModel) (params : Params) (bars : BarsV1) (i : ℕ) (held : ℤ) : ℤ :=
  breakoutStep held (longEntry fm params bars i) (shortEntry fm params bars i)
    (longExit fm params bars i) (shortExit fm params bars i)

abbrev held (fm : FloatModel) (params : Params) (bars : BarsV1) (i : ℕ) : ℤ :=
  bars.heldAfter (ready params bars) (change fm params bars) i

theorem of_not_isMark {i : ℕ} (h : isMark fm params bars i = false) :
    bars.segmentStart i ≠ i ∧ ∀ held, change fm params bars i held = held := by
  unfold isMark at h
  simp only [Bool.or_eq_false_iff, decide_eq_false_iff_not] at h
  obtain ⟨⟨⟨⟨hstart, hlong⟩, hshort⟩, hlongExit⟩, hshortExit⟩ := h
  refine ⟨fun h => hstart h.symm, fun held => ?_⟩
  rw [change, hlong, hshort, hlongExit, hshortExit]
  simp [breakoutStep]

theorem held_eq_of_not_isMark {i stop : ℕ}
    (hmarks : ∀ j, i < j → j < stop → isMark fm params bars j = false) {j : ℕ} (hij : i ≤ j)
    (hj : j < stop) : held fm params bars j = held fm params bars i := by
  induction j, hij using Nat.le_induction with
  | base => rfl
  | succ j hij ih =>
      obtain ⟨hstart, hchange⟩ := of_not_isMark (hmarks (j + 1) (by omega) hj)
      rw [held, heldAfter_succ hstart, hchange, ite_self]
      exact ih (by omega)

structure MarksFrom (fm : FloatModel) (params : Params) (bars : BarsV1) (lo : ℕ)
    (marks : List ℕ) : Prop where
  sorted : marks.Pairwise (· < ·)
  mem_iff : ∀ j, j ∈ marks ↔ lo ≤ j ∧ j < bars.size ∧ isMark fm params bars j = true

namespace MarksFrom

variable {lo i : ℕ} {marks : List ℕ}

theorem all (fm : FloatModel) (params : Params) (bars : BarsV1) :
    MarksFrom fm params bars 0 ((List.range bars.size).filter (isMark fm params bars)) := by
  refine ⟨List.pairwise_lt_range.filter _, fun j => ?_⟩
  rw [List.mem_filter, List.mem_range]
  exact ⟨fun h => ⟨Nat.zero_le j, h⟩, fun h => h.2⟩

theorem lt_size (h : MarksFrom fm params bars lo (i :: marks)) : i < bars.size :=
  ((h.mem_iff i).mp List.mem_cons_self).2.1

theorem tail (h : MarksFrom fm params bars lo (i :: marks)) :
    MarksFrom fm params bars (i + 1) marks := by
  obtain ⟨hfirst, hsorted⟩ := List.pairwise_cons.mp h.sorted
  have hi := (h.mem_iff i).mp List.mem_cons_self
  refine ⟨hsorted, fun j => ⟨fun hj => ?_, fun hj => ?_⟩⟩
  · exact ⟨hfirst j hj, ((h.mem_iff j).mp (List.mem_cons_of_mem _ hj)).2⟩
  · rcases List.mem_cons.mp ((h.mem_iff j).mpr ⟨by omega, hj.2⟩) with rfl | hmem
    · omega
    · exact hmem

theorem next (h : MarksFrom fm params bars lo marks) (hlo : lo ≤ bars.size) :
    lo ≤ marks.headD bars.size ∧ marks.headD bars.size ≤ bars.size ∧
      ∀ j, lo ≤ j → j < marks.headD bars.size → isMark fm params bars j = false := by
  cases marks with
  | nil =>
      refine ⟨hlo, le_rfl, fun j hj hlt => ?_⟩
      refine Bool.eq_false_of_not_eq_true fun hmark => ?_
      exact List.not_mem_nil ((h.mem_iff j).mpr ⟨hj, hlt, hmark⟩)
  | cons i marks =>
      have hi := (h.mem_iff i).mp List.mem_cons_self
      refine ⟨hi.1, hi.2.1.le, fun j hj hlt => ?_⟩
      have hlt : j < i := hlt
      refine Bool.eq_false_of_not_eq_true fun hmark => ?_
      rcases List.mem_cons.mp ((h.mem_iff j).mpr ⟨hj, hlt.trans hi.2.1, hmark⟩) with rfl | hmem
      · exact lt_irrefl _ hlt
      · exact absurd hlt ((List.pairwise_cons.mp h.sorted).1 j hmem).not_gt

end MarksFrom

theorem mark_state_eq {i : ℕ} {state : ℤ}
    (hstate : 0 < i → state = held fm params bars (i - 1)) :
    (let state := if i = bars.segmentStart i then 0 else state
      if ready params bars i then change fm params bars i state else state) =
        held fm params bars i := by
  dsimp only
  rcases eq_or_ne (bars.segmentStart i) i with hstart | hstart
  · rw [held, heldAfter_start hstart, if_pos hstart.symm]
  · cases i with
    | zero => exact absurd bars.segmentStart_zero hstart
    | succ i =>
        rw [held, heldAfter_succ hstart, if_neg hstart.symm, hstate (Nat.succ_pos i)]
        rfl

/-- The loop over the marks gives each bar the target that is held after it: those before the
next mark have theirs, and the loop has the last one. -/
theorem fillMarks_eq {lo : ℕ} {marks : List ℕ} (hmarks : MarksFrom fm params bars lo marks)
    {state : ℤ} {targets : ℕ → ℤ}
    (htargets : ∀ j < marks.headD bars.size, targets j = held fm params bars j)
    (hstate : 0 < marks.headD bars.size →
      state = held fm params bars (marks.headD bars.size - 1)) :
    ∀ j < bars.size, fillMarks fm params bars state targets marks j = held fm params bars j := by
  induction marks generalizing lo state targets with
  | nil => exact htargets
  | cons i marks ih =>
      have hi := hmarks.lt_size
      obtain ⟨hnext, hstop, hnone⟩ := hmarks.tail.next hi
      rw [List.headD_cons] at hstate htargets
      have hset := mark_state_eq hstate
      rw [fillMarks]
      dsimp only [change] at hset ⊢
      rw [hset]
      refine ih hmarks.tail (fun j hj => ?_) fun _ => ?_
      · split
        · rename_i hin
          exact (held_eq_of_not_isMark hnone hin.1 hj).symm
        · exact htargets j (by omega)
      · exact (held_eq_of_not_isMark hnone (by omega) (by omega)).symm

/-! ## Targets -/

theorem no_tie_of_ties (h : ties fm params bars = 0) {i : ℕ} (hi : i < bars.size)
    (hready : ready params bars i = true) :
    nearTieAt fm (closeF64 fm bars i) (upperF64 fm params bars i) = false ∧
      nearTieAt fm (closeF64 fm bars i) (lowerF64 fm params bars i) = false ∧
      nearTieAt fm (closeF64 fm bars i) (exitLowF64 fm params bars i) = false ∧
      nearTieAt fm (closeF64 fm bars i) (exitHighF64 fm params bars i) = false := by
  unfold ties countNonzero at h
  simp only [Nat.add_eq_zero_iff, List.countP_eq_zero, List.mem_range] at h
  obtain ⟨⟨⟨hupper, hlower⟩, hexitLow⟩, hexitHigh⟩ := h
  have hnear : ∀ channel : ℕ → Option ℚ,
      (∀ i < bars.size, ¬(ready params bars i &&
        nearTieAt fm (closeF64 fm bars i) (channel i)) = true) →
      nearTieAt fm (closeF64 fm bars i) (channel i) = false := by
    intro channel hall
    have hnot := hall i hi
    rw [hready, Bool.true_and] at hnot
    exact Bool.eq_false_of_not_eq_true hnot
  exact ⟨hnear _ hupper, hnear _ hlower, hnear _ hexitLow, hnear _ hexitHigh⟩

theorem channel_eq {maximum : Bool} {values : ℕ → Decimal} {extreme : PriorExtreme}
    {start k n : ℕ} (h : Holds values start k n maximum extreme) (hn : 1 ≤ n) (hk : n ≤ k)
    (hi : start + k < bars.size)
    (hties : nearTieAt fm (closeF64 fm bars (start + k)) (rollingExtremePriorF64 bars.size
      (fun j => fm.price (values j)) n maximum (start + k)) = false) :
    ∃ x, (extreme.advanceTo values (start + k)).value values = some x ∧
      floatLt (closeF64 fm bars (start + k)) (rollingExtremePriorF64 bars.size
        (fun j => fm.price (values j)) n maximum (start + k)) =
          decide (bars.closeD (start + k) < x) ∧
      floatLt (rollingExtremePriorF64 bars.size (fun j => fm.price (values j)) n maximum
        (start + k)) (closeF64 fm bars (start + k)) = decide (x < bars.closeD (start + k)) := by
  obtain ⟨x, hx, hextreme⟩ := h.value hn hk
  rw [show start + (k - n) = start + k - n by omega] at hextreme
  rw [rollingExtremePriorF64_eq fm hn (by omega) hi hextreme] at hties ⊢
  exact ⟨x, hx, floatLt_price_eq fm hties⟩

theorem stepDecimal_eq (hexit : 1 ≤ params.exitBars) (hentry : params.exitBars < params.entryBars)
    (hties : ties fm params bars = 0) {start k : ℕ} (hi : start + k < bars.size)
    (hstart : bars.segmentStart (start + k) = start) {s : State}
    (h : Before params bars start k s) :
    (stepDecimal params bars s (start + k)).2 = .ok
        (hold (ready params bars) (change fm params bars) s.state (start + k)).2 ∧
      Before params bars start (k + 1) (stepDecimal params bars s (start + k)).1 ∧
      (stepDecimal params bars s (start + k)).1.state =
        (hold (ready params bars) (change fm params bars) s.state (start + k)).1 := by
  have hpos : 1 ≤ params.entryBars := by omega
  have hnext : ∀ state, Before params bars start (k + 1) ⟨state,
      s.upper.advanceTo bars.highD (start + k), s.lower.advanceTo bars.lowD (start + k),
      s.exitLow.advanceTo bars.lowD (start + k), s.exitHigh.advanceTo bars.highD (start + k)⟩ :=
    fun _ => ⟨h.upper.advanceTo, h.lower.advanceTo, h.exitLow.advanceTo,
      h.exitHigh.advanceTo⟩
  have hready : ready params bars (start + k) = decide (params.entryBars ≤ k) := by
    unfold ready BarsV1.barsInSegment
    rw [hstart, Nat.add_sub_cancel_left]
    exact decide_eq_decide.mpr Nat.lt_succ_iff
  unfold stepDecimal
  dsimp only
  rw [hstart, Nat.add_sub_cancel_left]
  rcases lt_or_ge k params.entryBars with hwarm | hlong
  · rw [if_pos hwarm, hold_of_not_ready (hready.trans (decide_eq_false hwarm.not_ge))]
    exact ⟨rfl, hnext _, rfl⟩
  · have hready := hready.trans (decide_eq_true hlong)
    obtain ⟨hupper, hlower, hexitLow, hexitHigh⟩ := no_tie_of_ties hties hi hready
    obtain ⟨upper, hu, _, hlongEntry⟩ := channel_eq h.upper hpos hlong hi hupper
    obtain ⟨lower, hl, hshortEntry, _⟩ := channel_eq h.lower hpos hlong hi hlower
    obtain ⟨exitLow, hel, hlongExit, _⟩ := channel_eq h.exitLow hexit (by omega) hi hexitLow
    obtain ⟨exitHigh, heh, _, hshortExit⟩ := channel_eq h.exitHigh hexit (by omega) hi hexitHigh
    have hchange : change fm params bars (start + k) s.state = breakoutStep s.state
        (upper < bars.closeD (start + k))
        (params.direction = .longShort ∧ bars.closeD (start + k) < lower)
        (bars.closeD (start + k) < exitLow) (exitHigh < bars.closeD (start + k)) := by
      unfold change longEntry shortEntry longExit shortExit upperF64 lowerF64 exitLowF64 exitHighF64
      rw [hready, hlongEntry, hshortEntry, hlongExit, hshortExit]
      simp only [Bool.true_and, Bool.decide_and, Bool.and_comm]
    rw [if_neg hlong.not_gt, hold_of_ready hready, hu, hl, hel, heh, hchange]
    exact ⟨rfl, hnext _, rfl⟩

theorem targetsF64_eq (hexit : 1 ≤ params.exitBars) (hentry : params.exitBars < params.entryBars)
    {targets : List ℤ} (h : targetsF64 fm params bars = (targets, 0)) :
    targetsDecimal params bars = .ok targets := by
  unfold targetsF64 at h
  obtain ⟨rfl, hties⟩ := Prod.mk.inj h
  refine Except.mapM_eq_ok fun i hi => ?_
  have hi := List.mem_range.mp hi
  have hall := MarksFrom.all fm params bars
  have hhead : ((List.range bars.size).filter (isMark fm params bars)).headD bars.size = 0 := by
    by_contra hne
    have hmark := (hall.next (Nat.zero_le _)).2.2 0 le_rfl (Nat.pos_of_ne_zero hne)
    exact (of_not_isMark hmark).1 bars.segmentStart_zero
  have hfilled : fillMarks fm params bars 0 (fun _ => 0)
      ((List.range bars.size).filter (isMark fm params bars)) i = held fm params bars i := by
    refine fillMarks_eq hall ?_ ?_ i hi
    · rw [hhead]
      exact fun j hj => absurd hj (Nat.not_lt_zero j)
    · rw [hhead]
      exact fun h => absurd h (lt_irrefl 0)
  rw [hfilled, held, ← scan_hold_snd]
  refine BarsV1.scan_related (fun k s held =>
    Before params bars (bars.segmentStart i) k s ∧ s.state = held)
    (fun (t : Except Exn ℤ) t' => t = .ok t') rfl ⟨reset_before .., rfl⟩ ?_
  rintro k hk s _ ⟨hbefore, rfl⟩
  have hle := bars.segmentStart_le i
  exact stepDecimal_eq hexit hentry hties (by omega) (BarsV1.segmentStart_eq (by omega) (by omega))
    hbefore

end ChannelBreakoutV1

end StrategySdk

end TradePlatform
