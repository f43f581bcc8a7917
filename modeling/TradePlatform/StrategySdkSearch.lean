/-
# `TradePlatform.StrategySdkSearch` — the search tier of the families

The float64 tier of `strategy_sdk_v1.py`, by columns: prefix sums of ticks in `int64`, a
float comparison with an exact second look, sparse tables, and events that are filled
forward.  Of a float operation only its relative error is known, of a price only that it is
read monotonely.
-/
import TradePlatform.StrategySdk
import TradePlatform.Lib.MachineInt
import TradePlatform.Lib.RelativeError

namespace TradePlatform

namespace StrategySdk

open MachineInt

/-- The floats: the rounding of an operation, and `float(price)`. -/
structure FloatModel extends RelativeRounding where
  price : Decimal → ℚ
  price_mono : Monotone price

/-! ## Columns -/

def BarsV1.barsInSegment (bars : BarsV1) (i : ℕ) : ℕ := i - bars.segmentStart i + 1

def countNonzero (size : ℕ) (mask : ℕ → Bool) : ℕ := (List.range size).countP mask

def windowSums (size : ℕ) (values : ℕ → ℤ) (window : ℕ) : Except Exn (ℕ → ℤ) :=
  if 2 ^ 13 < window then refuse "window_exceeds_the_exact_arithmetic_bound"
  else
    .ok fun i =>
      if size < window ∨ i + 1 < window then 0
      else int64 (runningSum values (i + 1) - runningSum values (i + 1 - window))

def lastEvent (filled : ℕ → Option ℤ) : ℕ → ℕ
  | 0 => 0
  | i + 1 => max (lastEvent filled i) (if (filled (i + 1)).isSome then i + 1 else 0)

def holdEvents (bars : BarsV1) (events : ℕ → Option ℤ) (ready : ℕ → Bool) : ℕ → ℤ :=
  let masked (i : ℕ) : Option ℤ := if ready i then events i else none
  let filled (i : ℕ) : Option ℤ :=
    if masked i = none ∧ i = bars.segmentStart i then some 0 else masked i
  fun i => if ready i then (filled (lastEvent filled i)).getD 0 else 0

/-! ## Comparisons -/

inductive Compare where
  | le | ge
deriving DecidableEq

def Compare.holds : Compare → ℚ → ℚ → Bool
  | le, left, right => decide (left ≤ right)
  | ge, left, right => decide (right ≤ left)

section Comparisons

variable (fm : FloatModel)

/-- The two sides of `_exact_scaled_square_compare` in floats. -/
def floatSides (a n p q : ℤ) : ℚ × ℚ :=
  (fm.round (fm.round (q * q) * fm.round (fm.round a * fm.round a)),
    fm.round (fm.round (p * p) * fm.round n))

def tooClose (left right : ℚ) : Bool :=
  decide (|fm.round (left - right)| ≤
    fm.round (fm.round (1 / 10 ^ 9) * max (max |left| |right|) 1))

/-- `_exact_scaled_square_compare` at one element of the mask. -/
def exactScaledSquareCompare (a n p q : ℤ) (op : Compare) : Bool :=
  let (left, right) := floatSides fm a n p q
  if tooClose fm left right then op.holds (q * q * a ^ 2 : ℤ) (p * p * n : ℤ)
  else op.holds left right

def exactTies (size : ℕ) (a n : ℕ → ℤ) (p q : ℤ) (mask : ℕ → Bool) : ℕ :=
  countNonzero size fun i =>
    mask i && tooClose fm (floatSides fm (a i) (n i) p q).1 (floatSides fm (a i) (n i) p q).2 &&
      decide (q * q * a i ^ 2 = p * p * n i)

/-- `lhs < rhs` in floats; no comparison holds of what is not a number. -/
def floatLt : Option ℚ → Option ℚ → Bool
  | some left, some right => decide (left < right)
  | _, _ => false

def nearTieAt : Option ℚ → Option ℚ → Bool
  | some left, some right =>
      decide (|fm.round (left - right)| ≤
        fm.round (fm.round (1 / 10 ^ 9) * max (max |left| |right|) (fm.round (1 / 10 ^ 300))))
  | _, _ => false

end Comparisons

/-! ## The families -/

namespace TrendMovingAverageCrossV1

variable (params : Params) (bars : BarsV1)

def ready (i : ℕ) : Bool := decide (params.slowBars ≤ bars.barsInSegment i)

def maxTick : ℤ := ((List.range bars.size).map fun i => |bars.closeTicks i|).foldl max 0

def exceedsBound : Bool :=
  let (p, q) := ratio params.band
  decide (2 ^ 62 ≤ q * 2 * params.fastBars * params.slowBars * maxTick bars ∨
    2 ^ 62 ≤ max p 1 * params.fastBars * params.slowBars * (maxTick bars + |bars.closeCentre|))

def left (sumFast sumSlow : ℕ → ℤ) (i : ℕ) : ℤ :=
  int64 ((ratio params.band).2 *
    int64 (int64 (params.slowBars * sumFast i) - int64 (params.fastBars * sumSlow i)))

def right (sumSlow : ℕ → ℤ) (i : ℕ) : ℤ :=
  int64 ((ratio params.band).1 *
    int64 (params.fastBars * int64 (sumSlow i + params.slowBars * bars.closeCentre)))

def events (sumFast sumSlow : ℕ → ℤ) (i : ℕ) : Option ℤ :=
  if ready params bars i ∧ left params sumFast sumSlow i < int64 (-right params bars sumSlow i) then
    some params.direction.short
  else if ready params bars i ∧ right params bars sumSlow i < left params sumFast sumSlow i then
    some 1
  else none

def targetsF64 : Except Exn (List ℤ × ℕ) :=
  if exceedsBound params bars then refuse "trend_cross_products_exceed_the_exact_arithmetic_bound"
  else do
    let sumFast ← windowSums bars.size bars.closeTicks params.fastBars
    let sumSlow ← windowSums bars.size bars.closeTicks params.slowBars
    let ties := countNonzero bars.size fun i => ready params bars i &&
      decide (left params sumFast sumSlow i = right params bars sumSlow i ∨
        left params sumFast sumSlow i = int64 (-right params bars sumSlow i))
    return ((List.range bars.size).map
      (holdEvents bars (events params bars sumFast sumSlow) (ready params bars)), ties)

end TrendMovingAverageCrossV1

namespace MeanReversionZScoreV1

variable (fm : FloatModel) (params : Params) (bars : BarsV1)

def ready (i : ℕ) : Bool := decide (params.lookbackBars ≤ bars.barsInSegment i)

def deviation (total : ℕ → ℤ) (i : ℕ) : ℤ :=
  int64 (int64 (params.lookbackBars * bars.closeTicks i) - total i)

def variance (total squares : ℕ → ℤ) (i : ℕ) : ℤ :=
  int64 (int64 (params.lookbackBars * squares i) - int64 (total i * total i))

def live (total squares : ℕ → ℤ) (i : ℕ) : Bool :=
  ready params bars i && decide (0 < variance params total squares i)

def events (total squares : ℕ → ℤ) (i : ℕ) : Option ℤ :=
  let (ep, eq) := ratio params.entryZ
  let (xp, xq) := ratio params.exitZ
  let a := deviation params bars total i
  let n := variance params total squares i
  if live params bars total squares i ∧ exactScaledSquareCompare fm a n ep eq .ge ∧ 0 < a then
    some params.direction.short
  else if live params bars total squares i ∧ exactScaledSquareCompare fm a n ep eq .ge ∧ a < 0 then
    some 1
  else if live params bars total squares i ∧ exactScaledSquareCompare fm a n xp xq .le then some 0
  else none

def targetsF64 : Except Exn (List ℤ × ℕ) :=
  if 2 ^ 11 < params.lookbackBars then
    refuse "variance_window_exceeds_the_exact_arithmetic_bound"
  else do
    let (ep, eq) := ratio params.entryZ
    let (xp, xq) := ratio params.exitZ
    let total ← windowSums bars.size bars.closeTicks params.lookbackBars
    let squares ← windowSums bars.size
      (fun i => int64 (bars.closeTicks i * bars.closeTicks i)) params.lookbackBars
    let a := deviation params bars total
    let n := variance params total squares
    let ties := exactTies fm bars.size a n ep eq (live params bars total squares) +
      exactTies fm bars.size a n xp xq (live params bars total squares)
    return ((List.range bars.size).map
      (holdEvents bars (events fm params bars total squares) (ready params bars)), ties)

end MeanReversionZScoreV1

def rollingExtremePriorF64 (size : ℕ) (values : ℕ → ℚ) (window : ℕ) (maximum : Bool) (i : ℕ) :
    Option ℚ :=
  let op (a b : ℚ) : ℚ := if maximum then max a b else min a b
  if size ≤ window ∨ i < window then none
  else
    let k := Nat.log 2 window
    let table := SlidingWindow.sparseTable op size values k
    some (op (table (i - window)) (table (i - 2 ^ k)))

namespace ChannelBreakoutV1

variable (fm : FloatModel) (params : Params) (bars : BarsV1)

def ready (i : ℕ) : Bool := decide (params.entryBars < bars.barsInSegment i)

def upperF64 (i : ℕ) : Option ℚ :=
  rollingExtremePriorF64 bars.size (fun j => fm.price (bars.highD j)) params.entryBars true i

def lowerF64 (i : ℕ) : Option ℚ :=
  rollingExtremePriorF64 bars.size (fun j => fm.price (bars.lowD j)) params.entryBars false i

def exitLowF64 (i : ℕ) : Option ℚ :=
  rollingExtremePriorF64 bars.size (fun j => fm.price (bars.lowD j)) params.exitBars false i

def exitHighF64 (i : ℕ) : Option ℚ :=
  rollingExtremePriorF64 bars.size (fun j => fm.price (bars.highD j)) params.exitBars true i

def closeF64 (i : ℕ) : Option ℚ := some (fm.price (bars.closeD i))

def longEntry (i : ℕ) : Bool :=
  ready params bars i && floatLt (upperF64 fm params bars i) (closeF64 fm bars i)

def shortEntry (i : ℕ) : Bool :=
  ready params bars i && floatLt (closeF64 fm bars i) (lowerF64 fm params bars i) &&
    decide (params.direction = .longShort)

def longExit (i : ℕ) : Bool :=
  ready params bars i && floatLt (closeF64 fm bars i) (exitLowF64 fm params bars i)

def shortExit (i : ℕ) : Bool :=
  ready params bars i && floatLt (exitHighF64 fm params bars i) (closeF64 fm bars i)

def ties : ℕ :=
  let near (channel : ℕ → Option ℚ) : ℕ :=
    countNonzero bars.size fun i =>
      ready params bars i && nearTieAt fm (closeF64 fm bars i) (channel i)
  near (upperF64 fm params bars) + near (lowerF64 fm params bars) +
    near (exitLowF64 fm params bars) + near (exitHighF64 fm params bars)

def isMark (i : ℕ) : Bool :=
  decide (i = bars.segmentStart i) || longEntry fm params bars i || shortEntry fm params bars i ||
    longExit fm params bars i || shortExit fm params bars i

/-- The loop over the marks: each sets the targets from itself up to the next mark, or up to
the end. -/
def fillMarks (state : ℤ) (targets : ℕ → ℤ) : List ℕ → ℕ → ℤ
  | [] => targets
  | i :: marks =>
      let state := if i = bars.segmentStart i then 0 else state
      let state :=
        if ready params bars i then
          breakoutStep state (longEntry fm params bars i) (shortEntry fm params bars i)
            (longExit fm params bars i) (shortExit fm params bars i)
        else state
      let stop := marks.headD bars.size
      fillMarks state (fun j => if i ≤ j ∧ j < stop then state else targets j) marks

def targetsF64 : List ℤ × ℕ :=
  let filled := fillMarks fm params bars 0 (fun _ => 0)
    ((List.range bars.size).filter (isMark fm params bars))
  ((List.range bars.size).map fun i => if ready params bars i then filled i else 0,
    ties fm params bars)

end ChannelBreakoutV1

/-- `targets_f64` of a family: the targets and the near ties. -/
def FamilyPoint.targetsF64 (fm : FloatModel) (bars : BarsV1) :
    FamilyPoint → Except Exn (List ℤ × ℕ)
  | trendMaCross params => TrendMovingAverageCrossV1.targetsF64 params bars
  | meanReversionZ params => MeanReversionZScoreV1.targetsF64 fm params bars
  | breakoutChannel params => .ok (ChannelBreakoutV1.targetsF64 fm params bars)

end StrategySdk

end TradePlatform
