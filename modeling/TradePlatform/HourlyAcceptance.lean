/-
# `TradePlatform.HourlyAcceptance` — proven runs, hour verdicts and joint hours

`first_party_capture_hourly_acceptance_v1.py`: the windows of a source are chained into runs
across day rollovers, each hour of a symbol gets a verdict from the runs, and the hours that
are complete for all symbols form consecutive runs.
-/
import TradePlatform.CaptureArchive
import TradePlatform.Lib.Dict
import TradePlatform.Lib.Intervals
import TradePlatform.Lib.SortBy

namespace TradePlatform

namespace HourlyAcceptance

open CaptureArchive

def hourNanos : ℤ := 3600 * 1000000000

def dayNanos : ℤ := 24 * hourNanos

def refuse {α : Type} (message : String) : Except Exn α :=
  .error (.hourlySegmentAcceptanceError message)

inductive HourVerdictV1 where
  | complete | noProvenCoverage | coverageEndsBeforeHourEnd | headUnprovenExceedsBound
  | unprovenGapExceedsBound
deriving DecidableEq, Repr

structure ProvenRunV1 where
  sessionId : UUID
  intervals : List (ℤ × ℤ)
  endProof : EndProof
  nonempty : intervals ≠ []
deriving DecidableEq

namespace ProvenRunV1

variable (run : ProvenRunV1)

def startUtcNanos : ℤ := (run.intervals.head run.nonempty).1

def endUtcNanos : ℤ := (run.intervals.getLast run.nonempty).2

def unprovenNanos (startUtcNanos endUtcNanos : ℤ) : ℤ :=
  (endUtcNanos - startUtcNanos) -
    (run.intervals.map (Intervals.clipped startUtcNanos endUtcNanos)).sum

/-- `(start, str(session_id))`: the texts of two ids compare as the ids do. -/
def startKey : ℤ ×ₗ UUID := toLex (run.startUtcNanos, run.sessionId)

def endKey : ℤ ×ₗ UUID := toLex (run.endUtcNanos, run.sessionId)

end ProvenRunV1

structure HourlySegmentV1 where
  hourStartUtcNanos : ℤ
  verdict : HourVerdictV1
  sessionId : Option UUID := none
  unprovenNanos : Option ℤ := none
  detail : Option EndProof := none
deriving DecidableEq

def HourlySegmentV1.complete (segment : HourlySegmentV1) : Bool :=
  decide (segment.verdict = .complete)

structure ConsecutiveHoursV1 where
  firstHourStartUtcNanos : ℤ
  hours : ℕ
deriving DecidableEq

structure PendingHourInterruptionV1 where
  symbol : String
  sessionId : UUID
  endUtcNanos : ℤ
  endProof : EndProof
deriving DecidableEq

structure SymbolHoursV1 where
  symbol : String
  segments : List HourlySegmentV1
  latestProvenEndUtcNanos : Option ℤ := none
deriving DecidableEq

structure HourlyAcceptanceV1 where
  requiredConsecutiveHours : ℤ
  maxUnprovenNanos : ℤ
  firstHourStartUtcNanos : Option ℤ
  hoursJudged : ℕ
  symbols : List SymbolHoursV1
  jointComplete : List Bool
  runs : List ConsecutiveHoursV1
  pendingHourInterruptions : List PendingHourInterruptionV1 := []
deriving DecidableEq

/-! ## Runs -/

def windowKey (window : ProvenWindowV1) : ℤ ×ₗ UUID :=
  toLex (window.interval.startUtcNanos, window.sessionId)

def own (window : ProvenWindowV1) : ℤ × ℤ :=
  (window.interval.startUtcNanos, window.interval.endUtcNanos)

def Continues (previous : ProvenRunV1) (window : ProvenWindowV1) : Prop :=
  previous.endProof = .utcDayRollover ∧ previous.endUtcNanos ≤ window.interval.startUtcNanos ∧
    window.interval.startUtcNanos / dayNanos = (previous.endUtcNanos - 1) / dayNanos + 1

instance (previous : ProvenRunV1) (window : ProvenWindowV1) :
    Decidable (Continues previous window) :=
  inferInstanceAs (Decidable (_ ∧ _ ∧ _))

def extendRun (previous : Option ProvenRunV1) (window : ProvenWindowV1) : ProvenRunV1 where
  sessionId := window.sessionId
  intervals := (previous.elim [] ProvenRunV1.intervals) ++ [own window]
  endProof := window.interval.endProof
  nonempty := List.append_ne_nil_of_right_ne_nil _ (List.cons_ne_nil _ _)

def chainStep (s : Dict UUID ProvenRunV1 × List ProvenRunV1) (window : ProvenWindowV1) :
    Except Exn (Dict UUID ProvenRunV1 × List ProvenRunV1) := do
  match s.1.get? window.sessionId with
  | some previous =>
      if Continues previous window then
        if previous ∉ s.2 then .error (.valueError "list.remove(x): x not in list")
        else
          let run := extendRun (some previous) window
          return (s.1.set window.sessionId run, s.2.erase previous ++ [run])
      else
        let run := extendRun none window
        return (s.1.set window.sessionId run, s.2 ++ [run])
  | none =>
      let run := extendRun none window
      return (s.1.set window.sessionId run, s.2 ++ [run])

def chainProvenRunsV1 (windows : List ProvenWindowV1) : Except Exn (List ProvenRunV1) := do
  let s ← Replay.replay chainStep (.empty, []) (sortBy windowKey windows)
  return sortBy ProvenRunV1.startKey s.2

/-! ## Hours -/

def spanKey (hourStart : ℤ) (run : ProvenRunV1) : ℤ ×ₗ ℤ ×ₗ UUID :=
  toLex (run.unprovenNanos hourStart (hourStart + hourNanos), run.startKey)

def classifyHourV1 (runs : List ProvenRunV1) (hourStart maxUnprovenNanos : ℤ) :
    Except Exn HourlySegmentV1 :=
  if hourStart % hourNanos ≠ 0 then refuse "hour_start_is_not_on_the_utc_hour_grid"
  else
    let hourEnd := hourStart + hourNanos
    let headLimit := hourStart + maxUnprovenNanos
    let unproven (run : ProvenRunV1) : ℤ := run.unprovenNanos hourStart hourEnd
    let intersecting := runs.filter fun run => unproven run < hourNanos
    let spanning := intersecting.filter fun run =>
      run.startUtcNanos ≤ headLimit ∧ hourEnd ≤ run.endUtcNanos
    let headed := intersecting.filter fun run => run.startUtcNanos ≤ headLimit
    match minBy (spanKey hourStart) spanning, maxBy ProvenRunV1.endKey headed,
        minBy ProvenRunV1.startKey intersecting with
    | some best, _, _ =>
        .ok ⟨hourStart,
          if unproven best ≤ maxUnprovenNanos then .complete else .unprovenGapExceedsBound,
          some best.sessionId, some (unproven best), none⟩
    | none, some last, _ =>
        .ok ⟨hourStart, .coverageEndsBeforeHourEnd, some last.sessionId, some (unproven last),
          some last.endProof⟩
    | none, none, some late =>
        .ok ⟨hourStart, .headUnprovenExceedsBound, some late.sessionId, some (unproven late), none⟩
    | none, none, none => .ok ⟨hourStart, .noProvenCoverage, none, none, none⟩

/-- The loop of `_consecutive_runs` from index `i` on, with the start of the open block. -/
def consecutiveFrom (firstHour : ℤ) : Option ℕ → ℕ → List Bool → List ConsecutiveHoursV1
  | _, _, [] => []
  | none, i, complete :: flags =>
      consecutiveFrom firstHour (if complete then some i else none) (i + 1) flags
  | some start, i, complete :: flags =>
      if complete then consecutiveFrom firstHour (some start) (i + 1) flags
      else
        ⟨firstHour + start * hourNanos, i - start⟩ ::
          consecutiveFrom firstHour none (i + 1) flags

def consecutiveRuns (firstHour : ℤ) (joint : List Bool) : List ConsecutiveHoursV1 :=
  consecutiveFrom firstHour none 0 (joint ++ [false])

def pendingHourInterruptions (runsBySymbol : List (String × List ProvenRunV1))
    (pendingStart maxUnprovenNanos : ℤ) : List PendingHourInterruptionV1 :=
  let pendingEnd := pendingStart + hourNanos
  runsBySymbol.filterMap fun (symbol, runs) =>
    let inside := runs.filter fun run =>
      (pendingStart < run.endUtcNanos ∧ run.endUtcNanos < pendingEnd) ∧
        maxUnprovenNanos < hourNanos - run.unprovenNanos pendingStart pendingEnd
    (maxBy ProvenRunV1.endKey inside).map fun last =>
      ⟨symbol, last.sessionId, last.endUtcNanos, last.endProof⟩

def completeAt (index : ℕ) (symbol : SymbolHoursV1) : Except Exn Bool :=
  match symbol.segments[index]? with
  | none => .error .indexError
  | some segment => .ok segment.complete

def deriveHourlyAcceptanceV1 (windowsBySymbol : List (String × List ProvenWindowV1))
    (maxUnprovenNanos requiredConsecutiveHours : ℤ) : Except Exn HourlyAcceptanceV1 := do
  if windowsBySymbol = [] then refuse "acceptance_requires_at_least_one_symbol"
  else if ¬ (windowsBySymbol.map Prod.fst).Nodup then refuse "acceptance_symbols_must_be_distinct"
  else if ¬ (0 ≤ maxUnprovenNanos ∧ maxUnprovenNanos < hourNanos) then
    refuse "max_unproven_must_be_within_one_hour"
  else if requiredConsecutiveHours < 1 then
    refuse "required_consecutive_hours_must_be_positive"
  else
    let runsBySymbol ← windowsBySymbol.mapM fun (symbol, windows) => do
      let runs ← chainProvenRunsV1 windows
      return (symbol, runs)
    let allRuns := runsBySymbol.flatMap Prod.snd
    match (allRuns.map ProvenRunV1.startUtcNanos).min?,
        (allRuns.map ProvenRunV1.endUtcNanos).max? with
    | some earliest, some latest =>
        let firstHour := earliest / hourNanos * hourNanos
        let horizon := latest / hourNanos * hourNanos
        let hours := ((horizon - firstHour) / hourNanos).toNat
        let symbols ← runsBySymbol.mapM fun (symbol, runs) => do
          let segments ← (List.range hours).mapM fun (index : ℕ) =>
            classifyHourV1 runs (firstHour + index * hourNanos) maxUnprovenNanos
          return { symbol, segments,
                   latestProvenEndUtcNanos := (runs.map ProvenRunV1.endUtcNanos).max? }
        let joint ← (List.range hours).mapM fun (index : ℕ) =>
          (symbols.mapM (completeAt index)).map (·.all id)
        return {
          requiredConsecutiveHours, maxUnprovenNanos
          firstHourStartUtcNanos := some firstHour
          hoursJudged := hours
          symbols
          jointComplete := joint
          runs := consecutiveRuns firstHour joint
          pendingHourInterruptions := pendingHourInterruptions runsBySymbol
            (firstHour + hours * hourNanos) maxUnprovenNanos }
    | _, _ =>
        return {
          requiredConsecutiveHours, maxUnprovenNanos
          firstHourStartUtcNanos := none
          hoursJudged := 0
          symbols := windowsBySymbol.map fun entry => { symbol := entry.1, segments := [] }
          jointComplete := []
          runs := [] }

end HourlyAcceptance

end TradePlatform
