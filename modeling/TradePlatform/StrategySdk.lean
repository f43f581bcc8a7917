/-
# `TradePlatform.StrategySdk` — bar windows and the authoritative tier of the families

`strategy_sdk_v1.py`: a bar window with its segments and its exact ticks, and the targets
of the three strategy families in decimals of 50 digits.  A column is a function of the
position, read below the size of the window.
-/
import TradePlatform.Domain
import TradePlatform.Lib.SlidingWindow

namespace TradePlatform

namespace StrategySdk

def refuse {α : Type} (message : String) : Except Exn α := .error (.strategySdkError message)

def authoritative : Decimal.Context := ⟨Decimal.roundSig 50⟩

/-! ## Bars -/

structure Row where
  barOpenAt : ℤ
  barCloseAt : ℤ
  openPrice : Decimal
  high : Decimal
  low : Decimal
  close : Decimal
deriving DecidableEq, Inhabited

structure BarsV1 where
  size : ℕ
  openUs : ℕ → ℤ
  closeUs : ℕ → ℤ
  segment : ℕ → ℕ
  segmentStart : ℕ → ℕ
  openD : ℕ → Decimal
  highD : ℕ → Decimal
  lowD : ℕ → Decimal
  closeD : ℕ → Decimal
  closeTicks : ℕ → ℤ
  closeScale : ℤ
  closeCentre : ℤ
  segmentStart_zero : segmentStart 0 = 0
  segmentStart_succ : ∀ i, segmentStart (i + 1) = i + 1 ∨ segmentStart (i + 1) = segmentStart i

/-- The fractional digits that a number needs: minus the exponent of a normalized decimal,
where that is not below zero. -/
def fractionDigits (x : Decimal) : ℕ := max (padicValNat 2 x.den) (padicValNat 5 x.den)

def maxTickDeviation : ℤ := 2 ^ 20

/-- The scale, the centre and the centred ticks of prices that are not empty.  The
arithmetic is that of the default context. -/
def exactTicks (prices : List Decimal) : Except Exn (ℤ × ℤ × List ℤ) :=
  let c := Decimal.Context.default
  let places := (prices.map fun price => fractionDigits (c.round price)).foldl max 0
  if 9 < places then refuse "price_precision_too_fine_for_exact_ticks"
  else
    let scale : ℤ := 10 ^ places
    let raw := prices.map fun price => Decimal.roundDown (c.mul price scale)
    if (prices.zip raw).any fun pair => (pair.2 : Decimal) ≠ c.mul pair.1 scale then
      refuse "price_not_on_its_decimal_grid"
    else
      let centre := (raw.foldl max (raw.headD 0) + raw.foldl min (raw.headD 0)) / 2
      let centred := raw.map (· - centre)
      -- a tick that no `int64` holds
      if centred.any fun tick => tick < -2 ^ 63 ∨ 2 ^ 63 ≤ tick then .error .arithmeticError
      else if centred.any fun tick => maxTickDeviation ≤ |tick| then
        refuse "price_range_too_wide_for_exact_int64_arithmetic"
      else .ok (scale, centre, centred)

def breakAt {κ : Type} [DecidableEq κ] (openUs : ℕ → ℤ) (segmentKeys : Option (List κ)) :
    ℕ → Bool
  | 0 => false
  | i + 1 =>
      decide (1 < openUs (i + 1) / 86400000000 - openUs i / 86400000000) ||
        segmentKeys.any fun keys => decide (keys[i + 1]? ≠ keys[i]?)

def segmentsOf (breaks : ℕ → Bool) : ℕ → ℕ
  | 0 => (breaks 0).toNat
  | i + 1 => segmentsOf breaks i + (breaks (i + 1)).toNat

/-- The running maximum of the boundaries: a bar that no bar stands before, or whose segment is
not the one before. -/
def segmentStarts (segment : ℕ → ℕ) : ℕ → ℕ
  | 0 => 0
  | i + 1 => max (segmentStarts segment i) (if segment (i + 1) ≠ segment i then i + 1 else 0)

theorem segmentStarts_le (segment : ℕ → ℕ) (i : ℕ) : segmentStarts segment i ≤ i := by
  induction i with
  | zero => exact le_rfl
  | succ i ih =>
      rw [segmentStarts]
      split <;> omega

theorem segmentStarts_succ (segment : ℕ → ℕ) (i : ℕ) : segmentStarts segment (i + 1) =
    if segment (i + 1) ≠ segment i then i + 1 else segmentStarts segment i := by
  have hle := segmentStarts_le segment i
  rw [segmentStarts]
  split <;> omega

def BarsV1.fromRows {κ : Type} [DecidableEq κ] (rows : List Row)
    (segmentKeys : Option (List κ) := none) : Except Exn BarsV1 :=
  let column {α : Type} (f : Row → α) (i : ℕ) : α := f (rows.getD i default)
  if rows = [] then refuse "no_bars"
  else if segmentKeys.any fun keys => decide (keys.length ≠ rows.length) then
    refuse "segment_keys_must_match_rows"
  else if ¬ (rows.map Row.barOpenAt).Pairwise (· < ·) then refuse "bars_not_strictly_increasing"
  else do
    let segment := segmentsOf (breakAt (column Row.barOpenAt) segmentKeys)
    let (scale, centre, ticks) ← exactTicks (rows.map Row.close)
    return {
      size := rows.length
      openUs := column Row.barOpenAt
      closeUs := column Row.barCloseAt
      segment
      segmentStart := segmentStarts segment
      openD := column Row.openPrice
      highD := column Row.high
      lowD := column Row.low
      closeD := column Row.close
      closeTicks := (ticks.getD · 0)
      closeScale := scale
      closeCentre := centre
      segmentStart_zero := rfl
      segmentStart_succ := fun i => by
        rw [segmentStarts_succ]
        split
        · exact .inl rfl
        · exact .inr rfl }

/-- A loop over the bars whose state is made anew at the first bar of each segment: the state
after bar `i` and what the loop wrote for it. -/
def BarsV1.scan {σ ω : Type} (bars : BarsV1) (reset : ℕ → σ) (step : σ → ℕ → σ × ω) :
    ℕ → σ × ω
  | 0 => step (reset 0) 0
  | i + 1 =>
      step (if i + 1 = bars.segmentStart (i + 1) then reset (i + 1)
        else (bars.scan reset step i).1) (i + 1)

/-! ## Parameters -/

inductive Direction where
  | longOnly | longShort
deriving DecidableEq, Repr

def Direction.short : Direction → ℤ
  | .longOnly => 0
  | .longShort => -1

def ratio (value : Decimal) : ℤ × ℤ := (value.num, value.den)

/-! ## The families -/

namespace TrendMovingAverageCrossV1

structure Params where
  fastBars : ℕ
  slowBars : ℕ
  band : Decimal
  direction : Direction
deriving DecidableEq

def Params.InSpace (params : Params) : Prop :=
  params.fastBars ∈ [15, 30, 60, 120, 240, 480] ∧
    params.slowBars ∈ [60, 120, 240, 480, 960, 1440, 2880, 5760] ∧
    params.band ∈ [(0 : Decimal), 5 / 10000, 1 / 1000, 2 / 1000, 5 / 1000]

instance (params : Params) : Decidable params.InSpace := inferInstanceAs (Decidable (_ ∧ _ ∧ _))

def inadmissible (params : Params) : Option String :=
  if params.slowBars ≤ params.fastBars then some "fast_not_shorter_than_slow" else none

structure State where
  fastSum : Decimal := 0
  slowSum : Decimal := 0
  fastQ : List Decimal := []
  slowQ : List Decimal := []
  state : ℤ := 0

variable (params : Params)

def stepDecimal (s : State) (close : Decimal) : State × ℤ :=
  let c := authoritative
  let (p, q) := ratio params.band
  let fastQ := s.fastQ ++ [close]
  let slowQ := s.slowQ ++ [close]
  let fastSum := c.add s.fastSum close
  let slowSum := c.add s.slowSum close
  let (fastQ, fastSum) :=
    if params.fastBars < fastQ.length then (fastQ.tail, c.sub fastSum (fastQ.headD 0))
    else (fastQ, fastSum)
  let (slowQ, slowSum) :=
    if params.slowBars < slowQ.length then (slowQ.tail, c.sub slowSum (slowQ.headD 0))
    else (slowQ, slowSum)
  if slowQ.length < params.slowBars then (⟨fastSum, slowSum, fastQ, slowQ, s.state⟩, 0)
  else
    let left := c.mul q (c.sub (c.mul params.slowBars fastSum) (c.mul params.fastBars slowSum))
    let right := c.mul (p * params.fastBars) slowSum
    let state :=
      if right < left then 1
      else if left < c.neg right then params.direction.short
      else s.state
    (⟨fastSum, slowSum, fastQ, slowQ, state⟩, state)

def targetsDecimal (bars : BarsV1) : List ℤ :=
  (List.range bars.size).map fun i =>
    (bars.scan (fun _ => {}) (fun s i => stepDecimal params s (bars.closeD i)) i).2

end TrendMovingAverageCrossV1

namespace MeanReversionZScoreV1

structure Params where
  lookbackBars : ℕ
  entryZ : Decimal
  exitZ : Decimal
  direction : Direction
deriving DecidableEq

def Params.InSpace (params : Params) : Prop :=
  params.lookbackBars ∈ [30, 60, 120, 240, 480, 1440] ∧
    params.entryZ ∈ [(3 / 2 : Decimal), 2, 5 / 2, 3, 7 / 2] ∧
    params.exitZ ∈ [(0 : Decimal), 1 / 4, 1 / 2, 1]

instance (params : Params) : Decidable params.InSpace := inferInstanceAs (Decidable (_ ∧ _ ∧ _))

def inadmissible (params : Params) : Option String :=
  if params.entryZ ≤ params.exitZ then some "exit_not_inside_entry" else none

structure State where
  queue : List Decimal := []
  total : Decimal := 0
  squares : Decimal := 0
  state : ℤ := 0

variable (params : Params)

def stepDecimal (s : State) (close : Decimal) : State × ℤ :=
  let c := authoritative
  let (ep, eq) := ratio params.entryZ
  let (xp, xq) := ratio params.exitZ
  let queue := s.queue ++ [close]
  let total := c.add s.total close
  let squares := c.add s.squares (c.mul close close)
  let old := queue.headD 0
  let (queue, total, squares) :=
    if params.lookbackBars < queue.length then
      (queue.tail, c.sub total old, c.sub squares (c.mul old old))
    else (queue, total, squares)
  if queue.length < params.lookbackBars then (⟨queue, total, squares, s.state⟩, 0)
  else
    let a := c.sub (c.mul params.lookbackBars close) total
    let n := c.sub (c.mul params.lookbackBars squares) (c.mul total total)
    let state :=
      if 0 < n then
        let a2 := c.mul a a
        if a < 0 ∧ c.mul (ep * ep) n ≤ c.mul (eq * eq) a2 then 1
        else if 0 < a ∧ c.mul (ep * ep) n ≤ c.mul (eq * eq) a2 then params.direction.short
        else if c.mul (xq * xq) a2 ≤ c.mul (xp * xp) n then 0
        else s.state
      else s.state
    (⟨queue, total, squares, state⟩, state)

def targetsDecimal (bars : BarsV1) : List ℤ :=
  (List.range bars.size).map fun i =>
    (bars.scan (fun _ => {}) (fun s i => stepDecimal params s (bars.closeD i)) i).2

end MeanReversionZScoreV1

/-- `_PriorExtreme`: the deque of the positions and the next one to enter. -/
structure PriorExtreme where
  window : ℕ
  maximum : Bool
  queue : List ℕ := []
  next : ℕ := 0

namespace PriorExtreme

/-- The comparison that drives a position out: `<=` for a maximum, `>=` for a minimum. -/
def NoBetter (maximum : Bool) (a b : Decimal) : Prop := if maximum then a ≤ b else b ≤ a

instance : (maximum : Bool) → DecidableRel (NoBetter maximum)
  | true => fun a b => inferInstanceAs (Decidable (a ≤ b))
  | false => fun a b => inferInstanceAs (Decidable (b ≤ a))

variable (values : ℕ → Decimal) (extreme : PriorExtreme)

def reset (start : ℕ) : PriorExtreme := { extreme with queue := [], next := start }

def advanceTo (i : ℕ) : PriorExtreme :=
  let next := max extreme.next (i - extreme.window)
  let queue := (List.range' next (i - next)).foldl
    (SlidingWindow.push (NoBetter extreme.maximum) values) extreme.queue
  { extreme with
    queue := SlidingWindow.expire queue (i - extreme.window)
    next := max next i }

def value : Option Decimal := extreme.queue.head?.map values

end PriorExtreme

def breakoutStep (state : ℤ) (longEntry shortEntry longExit shortExit : Bool) : ℤ :=
  if longEntry then 1
  else if shortEntry then -1
  else if state = 1 ∧ longExit then 0
  else if state = -1 ∧ shortExit then 0
  else state

namespace ChannelBreakoutV1

structure Params where
  entryBars : ℕ
  exitBars : ℕ
  direction : Direction
deriving DecidableEq

def Params.InSpace (params : Params) : Prop :=
  params.entryBars ∈ [60, 120, 240, 480, 960, 1440, 2880] ∧
    params.exitBars ∈ [15, 30, 60, 120, 240, 480]

instance (params : Params) : Decidable params.InSpace := inferInstanceAs (Decidable (_ ∧ _))

def inadmissible (params : Params) : Option String :=
  if params.entryBars ≤ params.exitBars then some "exit_channel_not_shorter" else none

structure State where
  state : ℤ
  upper : PriorExtreme
  lower : PriorExtreme
  exitLow : PriorExtreme
  exitHigh : PriorExtreme

variable (params : Params) (bars : BarsV1)

def reset (start : ℕ) : State where
  state := 0
  upper := PriorExtreme.reset { window := params.entryBars, maximum := true } start
  lower := PriorExtreme.reset { window := params.entryBars, maximum := false } start
  exitLow := PriorExtreme.reset { window := params.exitBars, maximum := false } start
  exitHigh := PriorExtreme.reset { window := params.exitBars, maximum := true } start

def stepDecimal (s : State) (i : ℕ) : State × Except Exn ℤ :=
  let upper := s.upper.advanceTo bars.highD i
  let lower := s.lower.advanceTo bars.lowD i
  let exitLow := s.exitLow.advanceTo bars.lowD i
  let exitHigh := s.exitHigh.advanceTo bars.highD i
  if i - bars.segmentStart i < params.entryBars then
    (⟨s.state, upper, lower, exitLow, exitHigh⟩, .ok 0)
  else
    let close := bars.closeD i
    match upper.value bars.highD, lower.value bars.lowD, exitLow.value bars.lowD,
        exitHigh.value bars.highD with
    | some upperValue, some lowerValue, some exitLowValue, some exitHighValue =>
        let state := breakoutStep s.state (upperValue < close)
          (params.direction = .longShort ∧ close < lowerValue) (close < exitLowValue)
          (exitHighValue < close)
        (⟨state, upper, lower, exitLow, exitHigh⟩, .ok state)
    | _, _, _, _ => (⟨s.state, upper, lower, exitLow, exitHigh⟩, .error .indexError)

def targetsDecimal : Except Exn (List ℤ) :=
  (List.range bars.size).mapM fun i =>
    (bars.scan (reset params) (stepDecimal params bars) i).2

end ChannelBreakoutV1

/-! ## `FAMILIES_V1` -/

inductive FamilyPoint where
  | trendMaCross (params : TrendMovingAverageCrossV1.Params)
  | meanReversionZ (params : MeanReversionZScoreV1.Params)
  | breakoutChannel (params : ChannelBreakoutV1.Params)
deriving DecidableEq

namespace FamilyPoint

def InSpace : FamilyPoint → Prop
  | trendMaCross params => params.InSpace
  | meanReversionZ params => params.InSpace
  | breakoutChannel params => params.InSpace

instance : (point : FamilyPoint) → Decidable point.InSpace
  | trendMaCross params => inferInstanceAs (Decidable params.InSpace)
  | meanReversionZ params => inferInstanceAs (Decidable params.InSpace)
  | breakoutChannel params => inferInstanceAs (Decidable params.InSpace)

def inadmissible : FamilyPoint → Option String
  | trendMaCross params => TrendMovingAverageCrossV1.inadmissible params
  | meanReversionZ params => MeanReversionZScoreV1.inadmissible params
  | breakoutChannel params => ChannelBreakoutV1.inadmissible params

def targetsDecimal (bars : BarsV1) : FamilyPoint → Except Exn (List ℤ)
  | trendMaCross params => .ok (TrendMovingAverageCrossV1.targetsDecimal params bars)
  | meanReversionZ params => .ok (MeanReversionZScoreV1.targetsDecimal params bars)
  | breakoutChannel params => ChannelBreakoutV1.targetsDecimal params bars

end FamilyPoint

end StrategySdk

end TradePlatform
