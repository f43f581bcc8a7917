/-
# `TradePlatform.StrategySdkLocality` — a target depends on its segment up to its bar

Two windows that agree from the start of a bar's segment up to the bar give it the same
target.  A loop over the bars starts anew with each segment, so two runs of it are compared
from there on; of the four channels that is the extreme that each deque gives.
-/
import TradePlatform.StrategySdk
import TradePlatform.Lib.Replay

namespace TradePlatform

namespace StrategySdk

/-! ## Segments -/

namespace BarsV1

variable {bars bars' : BarsV1} {i i' : ℕ}

theorem segmentStart_le (bars : BarsV1) (i : ℕ) : bars.segmentStart i ≤ i := by
  induction i with
  | zero => exact bars.segmentStart_zero.le
  | succ i ih =>
      rcases bars.segmentStart_succ i with h | h
      · exact h.le
      · omega

theorem segmentStart_eq {k : ℕ} (hstart : bars.segmentStart i ≤ k) (hk : k ≤ i) :
    bars.segmentStart k = bars.segmentStart i := by
  induction i with
  | zero => rw [Nat.le_zero.mp hk]
  | succ i ih =>
      rcases Nat.le_succ_iff.mp hk with hk | rfl
      · rcases bars.segmentStart_succ i with h | h
        · omega
        · rw [h]
          exact ih (h ▸ hstart) hk
      · rfl

/-! ## Loops -/

section Scan

variable {σ σ' ω ω' : Type} {reset : ℕ → σ} {reset' : ℕ → σ'} {step : σ → ℕ → σ × ω}
  {step' : σ' → ℕ → σ' × ω'}

theorem scan_start (h : bars.segmentStart i = i) :
    bars.scan reset step i = step (reset i) i := by
  cases i with
  | zero => rfl
  | succ i => rw [scan, if_pos h.symm]

theorem scan_succ (h : bars.segmentStart (i + 1) ≠ i + 1) :
    bars.scan reset step (i + 1) = step (bars.scan reset step i).1 (i + 1) := by
  rw [scan, if_neg h.symm]

/-- Two loops side by side, each from the start of a segment: what `R` relates before a bar
gives related results and is kept. -/
theorem scan_related (R : ℕ → σ → σ' → Prop) (S : ω → ω' → Prop)
    (hoffset : i - bars.segmentStart i = i' - bars'.segmentStart i')
    (hreset : R 0 (reset (bars.segmentStart i)) (reset' (bars'.segmentStart i')))
    (hstep : ∀ k ≤ i - bars.segmentStart i, ∀ s s', R k s s' →
      S (step s (bars.segmentStart i + k)).2 (step' s' (bars'.segmentStart i' + k)).2 ∧
        R (k + 1) (step s (bars.segmentStart i + k)).1
          (step' s' (bars'.segmentStart i' + k)).1) :
    S (bars.scan reset step i).2 (bars'.scan reset' step' i').2 := by
  have hle := bars.segmentStart_le i
  have hle' := bars'.segmentStart_le i'
  generalize hs : bars.segmentStart i = start at *
  generalize hs' : bars'.segmentStart i' = start' at *
  have hall : ∀ k ≤ i - start,
      S (bars.scan reset step (start + k)).2 (bars'.scan reset' step' (start' + k)).2 ∧
        R (k + 1) (bars.scan reset step (start + k)).1
          (bars'.scan reset' step' (start' + k)).1 := by
    intro k
    induction k with
    | zero =>
        intro hk
        have hstart : bars.segmentStart start = start :=
          (segmentStart_eq hs.le hle).trans hs
        have hstart' : bars'.segmentStart start' = start' :=
          (segmentStart_eq hs'.le hle').trans hs'
        rw [Nat.add_zero, Nat.add_zero, scan_start hstart, scan_start hstart']
        exact hstep 0 hk _ _ hreset
    | succ k ih =>
        intro hk
        have hin : bars.segmentStart (start + k + 1) = start :=
          (segmentStart_eq (by omega) (by omega)).trans hs
        have hin' : bars'.segmentStart (start' + k + 1) = start' :=
          (segmentStart_eq (by omega) (by omega)).trans hs'
        rw [← Nat.add_assoc, ← Nat.add_assoc, scan_succ (by omega), scan_succ (by omega)]
        exact hstep (k + 1) hk _ _ (ih (by omega)).2
  have hend := (hall (i - start) le_rfl).1
  rwa [Nat.add_sub_cancel' hle, hoffset, Nat.add_sub_cancel' hle'] at hend

end Scan

end BarsV1

/-! ## Channels -/

namespace PriorExtreme

variable {maximum : Bool} {values values' : ℕ → Decimal} {extreme : PriorExtreme} {start i : ℕ}

instance : (maximum : Bool) → Std.Total (NoBetter maximum)
  | true => ⟨fun a b => le_total a b⟩
  | false => ⟨fun a b => le_total b a⟩

instance : (maximum : Bool) → IsTrans Decimal (NoBetter maximum)
  | true => ⟨fun _ _ _ h h' => h.trans h'⟩
  | false => ⟨fun _ _ _ h h' => h'.trans h⟩

instance : (maximum : Bool) → Std.Antisymm (NoBetter maximum)
  | true => ⟨fun _ _ h h' => le_antisymm h h'⟩
  | false => ⟨fun _ _ h h' => le_antisymm h' h⟩

/-- The window of `i` in the segment that starts at `start`. -/
structure At (values : ℕ → Decimal) (start i : ℕ) (extreme : PriorExtreme) : Prop where
  valid : SlidingWindow.Valid (NoBetter extreme.maximum) values
    (max start (i - extreme.window)) i extreme.queue
  next : extreme.next = i

theorem reset_at (values : ℕ → Decimal) (extreme : PriorExtreme) (start : ℕ) :
    (extreme.reset start).At values start start := by
  refine ⟨?_, rfl⟩
  rw [Nat.max_eq_left (Nat.sub_le ..)]
  exact .nil ..

theorem At.advanceTo (h : extreme.At values start i) (hstart : start ≤ i) {j : ℕ} (hj : i ≤ j) :
    (extreme.advanceTo values j).At values start j := by
  have hskipped : SlidingWindow.Spans (NoBetter extreme.maximum) values start
      (max start (j - extreme.window)) (max i (j - extreme.window)) extreme.queue :=
    h.valid.spans.skip (by omega) (by omega) (by omega) (by omega)
  have hpushed := hskipped.pushes (by omega) (j - max i (j - extreme.window))
  rw [show max i (j - extreme.window) + (j - max i (j - extreme.window)) = j by omega,
    ← h.next] at hpushed
  refine ⟨hpushed.expire, ?_⟩
  have hpos := h.next
  show max (max extreme.next (j - extreme.window)) j = j
  omega

theorem At.value (h : extreme.At values start i) (hwindow : 1 ≤ extreme.window)
    (hlt : start < i) : ∃ x, extreme.value values = some x ∧
      SlidingWindow.IsExtreme (NoBetter extreme.maximum) values
        (max start (i - extreme.window)) i x := by
  obtain ⟨k, hhead, hextreme⟩ := h.valid.head (by omega)
  exact ⟨values k, by rw [PriorExtreme.value, hhead]; rfl, hextreme⟩

end PriorExtreme

/-! ## Windows that agree up to a bar -/

/-- The bars of the segment of `i` up to `i` are those of the segment of `i'` up to `i'`. -/
structure BarsV1.AgreesUpTo (bars bars' : BarsV1) (i i' : ℕ) : Prop where
  offset : i - bars.segmentStart i = i' - bars'.segmentStart i'
  high : ∀ k ≤ i - bars.segmentStart i,
    bars.highD (bars.segmentStart i + k) = bars'.highD (bars'.segmentStart i' + k)
  low : ∀ k ≤ i - bars.segmentStart i,
    bars.lowD (bars.segmentStart i + k) = bars'.lowD (bars'.segmentStart i' + k)
  close : ∀ k ≤ i - bars.segmentStart i,
    bars.closeD (bars.segmentStart i + k) = bars'.closeD (bars'.segmentStart i' + k)

theorem BarsV1.AgreesUpTo.refl (bars : BarsV1) (i : ℕ) : bars.AgreesUpTo bars i i :=
  ⟨rfl, fun _ _ => rfl, fun _ _ => rfl, fun _ _ => rfl⟩

variable {bars bars' : BarsV1} {i i' : ℕ}

theorem scan_close_eq {σ : Type} {start : σ} {step : σ → Decimal → σ × ℤ}
    (h : bars.AgreesUpTo bars' i i') :
    (bars.scan (fun _ => start) (fun s i => step s (bars.closeD i)) i).2 =
      (bars'.scan (fun _ => start) (fun s i => step s (bars'.closeD i)) i').2 := by
  refine BarsV1.scan_related (fun _ s s' => s = s') (· = ·) h.offset rfl ?_
  rintro k hk s _ rfl
  rw [h.close k hk]
  exact ⟨rfl, rfl⟩

namespace ChannelBreakoutV1

variable {params : Params}

abbrev Holds (values : ℕ → Decimal) (start k n : ℕ) (maximum : Bool) (extreme : PriorExtreme) :
    Prop :=
  extreme.At values start (start + (k - 1)) ∧ extreme.window = n ∧ extreme.maximum = maximum

variable {values values' : ℕ → Decimal} {extreme extreme' : PriorExtreme} {start start' k n : ℕ}
  {maximum : Bool}

theorem Holds.advanceTo (h : Holds values start k n maximum extreme) :
    Holds values start (k + 1) n maximum (extreme.advanceTo values (start + k)) := by
  obtain ⟨hat, rfl, rfl⟩ := h
  exact ⟨hat.advanceTo (by omega) (by omega), rfl, rfl⟩

theorem Holds.value (h : Holds values start k n maximum extreme) (hn : 1 ≤ n) (hk : n ≤ k) :
    ∃ x, (extreme.advanceTo values (start + k)).value values = some x ∧
      SlidingWindow.IsExtreme (PriorExtreme.NoBetter maximum) values
        (start + (k - n)) (start + k) x := by
  obtain ⟨hat, rfl, rfl⟩ := h.advanceTo
  obtain ⟨x, hx, hextreme⟩ := hat.value hn (by omega)
  refine ⟨x, hx, ?_⟩
  rw [show start + (k + 1 - 1) = start + k from rfl] at hextreme
  rwa [show max start (start + k - (extreme.advanceTo values (start + k)).window) =
    start + (k - (extreme.advanceTo values (start + k)).window) by omega] at hextreme

theorem Holds.value_eq (h : Holds values start k n maximum extreme)
    (h' : Holds values' start' k n maximum extreme') (hn : 1 ≤ n) (hk : n ≤ k)
    (heq : ∀ j < k, values (start + j) = values' (start' + j)) :
    ∃ x, (extreme.advanceTo values (start + k)).value values = some x ∧
      (extreme'.advanceTo values' (start' + k)).value values' = some x := by
  obtain ⟨x, hx, hextreme⟩ := h.value hn hk
  obtain ⟨x', hx', hextreme'⟩ := h'.value hn hk
  have hsame : SlidingWindow.IsExtreme (PriorExtreme.NoBetter maximum) values'
      (start' + (k - n)) (start' + k) x := by
    refine hextreme.congr (n := n) (by omega) (by omega) fun j hj => ?_
    rw [Nat.add_assoc, Nat.add_assoc]
    exact heq _ (by omega)
  exact ⟨x, hx, hsame.unique hextreme' ▸ hx'⟩

structure Before (params : Params) (bars : BarsV1) (start k : ℕ) (s : State) : Prop where
  upper : Holds bars.highD start k params.entryBars true s.upper
  lower : Holds bars.lowD start k params.entryBars false s.lower
  exitLow : Holds bars.lowD start k params.exitBars false s.exitLow
  exitHigh : Holds bars.highD start k params.exitBars true s.exitHigh

theorem reset_before (params : Params) (bars : BarsV1) (start : ℕ) :
    Before params bars start 0 (reset params start) :=
  ⟨⟨PriorExtreme.reset_at .., rfl, rfl⟩, ⟨PriorExtreme.reset_at .., rfl, rfl⟩,
    ⟨PriorExtreme.reset_at .., rfl, rfl⟩, ⟨PriorExtreme.reset_at .., rfl, rfl⟩⟩

theorem stepDecimal_related (hentry : 1 ≤ params.exitBars)
    (hexit : params.exitBars < params.entryBars) {s s' : State}
    (h : Before params bars start k s) (h' : Before params bars' start' k s')
    (hstart : bars.segmentStart (start + k) = start)
    (hstart' : bars'.segmentStart (start' + k) = start') (hstate : s.state = s'.state)
    (hhigh : ∀ j ≤ k, bars.highD (start + j) = bars'.highD (start' + j))
    (hlow : ∀ j ≤ k, bars.lowD (start + j) = bars'.lowD (start' + j))
    (hclose : bars.closeD (start + k) = bars'.closeD (start' + k)) :
    ((stepDecimal params bars s (start + k)).2 = (stepDecimal params bars' s' (start' + k)).2 ∧
      (stepDecimal params bars s (start + k)).2.isOk = true) ∧
      (stepDecimal params bars s (start + k)).1.state =
        (stepDecimal params bars' s' (start' + k)).1.state ∧
      Before params bars start (k + 1) (stepDecimal params bars s (start + k)).1 ∧
      Before params bars' start' (k + 1) (stepDecimal params bars' s' (start' + k)).1 := by
  have hpos : 1 ≤ params.entryBars := by omega
  unfold stepDecimal
  dsimp only
  rw [hstart, hstart', Nat.add_sub_cancel_left, Nat.add_sub_cancel_left]
  split
  · exact ⟨⟨rfl, rfl⟩, hstate, ⟨h.upper.advanceTo, h.lower.advanceTo,
      h.exitLow.advanceTo, h.exitHigh.advanceTo⟩,
      ⟨h'.upper.advanceTo, h'.lower.advanceTo,
        h'.exitLow.advanceTo, h'.exitHigh.advanceTo⟩⟩
  · obtain ⟨upper, hu, hu'⟩ := h.upper.value_eq h'.upper hpos (by omega)
      fun j hj => hhigh j hj.le
    obtain ⟨lower, hl, hl'⟩ := h.lower.value_eq h'.lower hpos (by omega)
      fun j hj => hlow j hj.le
    obtain ⟨exitLow, hel, hel'⟩ := h.exitLow.value_eq h'.exitLow hentry (by omega)
      fun j hj => hlow j hj.le
    obtain ⟨exitHigh, heh, heh'⟩ := h.exitHigh.value_eq h'.exitHigh hentry (by omega)
      fun j hj => hhigh j hj.le
    simp only [hu, hu', hl, hl', hel, hel', heh, heh', hstate, hclose]
    exact ⟨⟨trivial, rfl⟩, trivial, ⟨h.upper.advanceTo, h.lower.advanceTo,
      h.exitLow.advanceTo, h.exitHigh.advanceTo⟩,
      ⟨h'.upper.advanceTo, h'.lower.advanceTo,
        h'.exitLow.advanceTo, h'.exitHigh.advanceTo⟩⟩

theorem scan_eq (hentry : 1 ≤ params.exitBars) (hexit : params.exitBars < params.entryBars)
    (h : bars.AgreesUpTo bars' i i') :
    (bars.scan (reset params) (stepDecimal params bars) i).2 =
        (bars'.scan (reset params) (stepDecimal params bars') i').2 ∧
      (bars.scan (reset params) (stepDecimal params bars) i).2.isOk = true := by
  refine BarsV1.scan_related
    (fun k s s' => s.state = s'.state ∧ Before params bars (bars.segmentStart i) k s ∧
      Before params bars' (bars'.segmentStart i') k s')
    (fun (t t' : Except Exn ℤ) => t = t' ∧ t.isOk = true) h.offset
    ⟨rfl, reset_before .., reset_before ..⟩ ?_
  rintro k hk s s' ⟨hstate, hbefore, hbefore'⟩
  have hle := bars.segmentStart_le i
  have hle' := bars'.segmentStart_le i'
  have hoffset := h.offset
  exact stepDecimal_related hentry hexit hbefore hbefore'
    (BarsV1.segmentStart_eq (by omega) (by omega)) (BarsV1.segmentStart_eq (by omega) (by omega))
    hstate (fun j hj => h.high j (hj.trans hk)) (fun j hj => h.low j (hj.trans hk)) (h.close k hk)

end ChannelBreakoutV1

/-! ## The families -/

namespace FamilyPoint

variable {point : FamilyPoint}

def targetAt (point : FamilyPoint) (bars : BarsV1) (i : ℕ) : Except Exn ℤ :=
  match point with
  | trendMaCross params => .ok (bars.scan (fun _ => {}) (fun s i =>
      TrendMovingAverageCrossV1.stepDecimal params s (bars.closeD i)) i).2
  | meanReversionZ params => .ok (bars.scan (fun _ => {}) (fun s i =>
      MeanReversionZScoreV1.stepDecimal params s (bars.closeD i)) i).2
  | breakoutChannel params => (bars.scan (ChannelBreakoutV1.reset params)
      (ChannelBreakoutV1.stepDecimal params bars) i).2

theorem targetsDecimal_eq : point.targetsDecimal bars =
    (List.range bars.size).mapM (point.targetAt bars) := by
  cases point with
  | trendMaCross params => exact (List.mapM_pure (m := Except Exn)).symm
  | meanReversionZ params => exact (List.mapM_pure (m := Except Exn)).symm
  | breakoutChannel params => rfl

theorem exit_lt_entry {params : ChannelBreakoutV1.Params}
    (hspace : (breakoutChannel params).InSpace)
    (hadm : (breakoutChannel params).inadmissible = none) :
    1 ≤ params.exitBars ∧ params.exitBars < params.entryBars := by
  constructor
  · have hexit : params.exitBars ∈ [15, 30, 60, 120, 240, 480] := hspace.2
    simp only [List.mem_cons, List.not_mem_nil, or_false] at hexit
    omega
  · have hadm : ChannelBreakoutV1.inadmissible params = none := hadm
    unfold ChannelBreakoutV1.inadmissible at hadm
    split at hadm
    · cases hadm
    · omega

theorem targetAt_eq (hspace : point.InSpace) (hadm : point.inadmissible = none)
    (h : bars.AgreesUpTo bars' i i') :
    point.targetAt bars i = point.targetAt bars' i' ∧ (point.targetAt bars i).isOk = true := by
  cases point with
  | trendMaCross params => exact ⟨congrArg _ (scan_close_eq h), rfl⟩
  | meanReversionZ params => exact ⟨congrArg _ (scan_close_eq h), rfl⟩
  | breakoutChannel params =>
      obtain ⟨hentry, hexit⟩ := exit_lt_entry hspace hadm
      exact ChannelBreakoutV1.scan_eq hentry hexit h

theorem exists_targetsDecimal (hspace : point.InSpace) (hadm : point.inadmissible = none)
    (bars : BarsV1) : ∃ ts, point.targetsDecimal bars = .ok ts := by
  rw [targetsDecimal_eq]
  exact Except.exists_mapM_range fun i _ => (targetAt_eq hspace hadm (.refl bars i)).2

theorem getElem?_targetsDecimal (hspace : point.InSpace) (hadm : point.inadmissible = none)
    (h : bars.AgreesUpTo bars' i i') (hi : i < bars.size) (hi' : i' < bars'.size)
    {ts ts' : List ℤ} (hts : point.targetsDecimal bars = .ok ts)
    (hts' : point.targetsDecimal bars' = .ok ts') : ts[i]? = ts'[i']? := by
  rw [targetsDecimal_eq] at hts hts'
  obtain ⟨t, ht, hat⟩ := (Except.mapM_range_ok hts).2 i hi
  obtain ⟨t', ht', hat'⟩ := (Except.mapM_range_ok hts').2 i' hi'
  rw [(targetAt_eq hspace hadm h).1, hat'] at hat
  cases hat
  rw [ht, ht']

theorem length_targetsDecimal {ts : List ℤ} (hts : point.targetsDecimal bars = .ok ts) :
    ts.length = bars.size := by
  rw [targetsDecimal_eq] at hts
  exact (Except.mapM_range_ok hts).1

end FamilyPoint

/-! ## Windows over one list of rows -/

namespace BarsV1

variable {κ κ' : Type} [DecidableEq κ] [DecidableEq κ']

theorem fromRows_ok {rows : List Row} {keys : Option (List κ)} (h : fromRows rows keys = .ok bars) :
    bars.size = rows.length ∧
      (∀ i, bars.highD i = (rows.getD i default).high) ∧
      (∀ i, bars.lowD i = (rows.getD i default).low) ∧
      (∀ i, bars.closeD i = (rows.getD i default).close) ∧
      (∀ ks ∈ keys, ks.length = rows.length) ∧
      bars.segmentStart = segmentStarts (segmentsOf
        (breakAt (fun i => (rows.getD i default).barOpenAt) keys)) := by
  unfold fromRows at h
  dsimp only at h
  split at h
  · cases h
  split at h
  · cases h
  rename_i hkeys
  split at h
  · cases h
  obtain ⟨ticks, _, h⟩ := Except.bind_eq_ok.mp h
  cases Except.pure_eq_ok.mp h
  refine ⟨rfl, fun _ => rfl, fun _ => rfl, fun _ => rfl, fun ks hks => ?_, rfl⟩
  rw [Option.mem_def.mp hks] at hkeys
  simpa using hkeys

theorem segmentStarts_segmentsOf (breaks : ℕ → Bool) (i : ℕ) :
    segmentStarts (segmentsOf breaks) (i + 1) =
      if breaks (i + 1) then i + 1 else segmentStarts (segmentsOf breaks) i := by
  rw [segmentStarts_succ, segmentsOf]
  cases breaks (i + 1) with
  | false => simp
  | true => simp

theorem segmentStarts_shift {breaks breaks' : ℕ → Bool} {o n : ℕ} (hbreak : o = 0 ∨ breaks o = true)
    (h : ∀ k, k + 1 < n → breaks (o + k + 1) = breaks' (k + 1)) (hi : i < n) :
    segmentStarts (segmentsOf breaks) (o + i) = o + segmentStarts (segmentsOf breaks') i := by
  induction i with
  | zero =>
      rcases hbreak with rfl | hbreak
      · rfl
      · cases o with
        | zero => rfl
        | succ o => rw [Nat.add_zero, segmentStarts_segmentsOf, if_pos hbreak]; rfl
  | succ i ih =>
      rw [← Nat.add_assoc, segmentStarts_segmentsOf, segmentStarts_segmentsOf, h i hi, ih (by omega)]
      split
      · rfl
      · rfl

theorem agreesUpTo_slice {bars bars' : BarsV1} {rows : List Row} {keys : Option (List κ)} {o n : ℕ}
    (h : fromRows rows keys = .ok bars)
    (h' : fromRows ((rows.drop o).take n) (keys.map fun ks => (ks.drop o).take n) = .ok bars')
    (hbreak : o = 0 ∨ breakAt (fun i => (rows.getD i default).barOpenAt) keys o = true)
    (hi : i < n) : bars.AgreesUpTo bars' (o + i) i := by
  obtain ⟨_, hhigh, hlow, hclose, _, hstart⟩ := fromRows_ok h
  obtain ⟨_, hhigh', hlow', hclose', _, hstart'⟩ := fromRows_ok h'
  have hrow : ∀ k < n, ((rows.drop o).take n).getD k default = rows.getD (o + k) default := by
    intro k hk
    rw [List.getD_eq_getElem?_getD, List.getD_eq_getElem?_getD, List.getElem?_take_of_lt hk,
      List.getElem?_drop]
  have hbreaks : ∀ k, k + 1 < n →
      breakAt (fun i => (rows.getD i default).barOpenAt) keys (o + k + 1) =
        breakAt (fun i => (((rows.drop o).take n).getD i default).barOpenAt)
          (keys.map fun ks => (ks.drop o).take n) (k + 1) := by
    intro k hk
    simp only [breakAt, hrow k (by omega), hrow (k + 1) hk, Nat.add_assoc o k 1]
    congr 1
    cases keys with
    | none => rfl
    | some ks =>
        simp only [Option.map_some, Option.any_some, List.getElem?_drop,
          List.getElem?_take_of_lt hk, List.getElem?_take_of_lt (show k < n by omega)]
  have hsegment := segmentStarts_shift hbreak hbreaks hi
  rw [← hstart, ← hstart'] at hsegment
  have hle := bars'.segmentStart_le i
  have hat : ∀ k ≤ o + i - bars.segmentStart (o + i),
      ((rows.drop o).take n).getD (bars'.segmentStart i + k) default =
        rows.getD (bars.segmentStart (o + i) + k) default := by
    intro k hk
    rw [hrow _ (by omega), hsegment, Nat.add_assoc]
  constructor
  · omega
  · intro k hk
    rw [hhigh, hhigh', hat k hk]
  · intro k hk
    rw [hlow, hlow', hat k hk]
  · intro k hk
    rw [hclose, hclose', hat k hk]

end BarsV1

end StrategySdk

end TradePlatform
