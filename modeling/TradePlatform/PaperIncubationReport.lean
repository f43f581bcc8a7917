/-
# `TradePlatform.PaperIncubationReport` — one candidate's report

`_incubation`, `_liveness_section` and `_candidate_report` of `paper_incubation_report_v1.py`:
the clock of a candidate, and the loop that follows its known position through the fills.  The
decimals are those of the default context; a figure that the source formats as text is its
value.
-/
import TradePlatform.PaperAccount
import TradePlatform.PaperFundingEvidence
import TradePlatform.PaperIncubation
import TradePlatform.RunnerLiveness

namespace TradePlatform

namespace PaperIncubation

open FundingEvidence (CandidateFundingEvidenceV1 FundingEvidenceSection Holding HoldingEnd
  fundingEvidenceSectionV1)
open RunnerLiveness (RunnerLivenessV1 LivenessIntervalV1 Bounds)
open Segments

def refuse {α : Type} (message : String) : Except Exn α := .error (.paperIncubationError message)

def livenessRefusalPrefix : String := "runner_liveness_"

def unprovenOutsideLivenessWindow : String := "OUTSIDE_THE_LIVENESS_WINDOW"

def authorityIncubating : String := "INCUBATING"

def dayMicros : ℤ := 86400000000

def minuteMicros : ℤ := 60000000

/-! ## The clock -/

/-- `IncubationBindingV1`: `requiredDays` is `none` where a reason is unresolved. -/
structure IncubationBindingV1 where
  studyId : String
  trialId : String
  symbol : String
  cycleId : String
  preregistrationHash : String
  validationHash : String
  incubatingSinceMicros : ℤ
  requiredDays : Option ℤ
  unresolved : List String
  source : String
deriving DecidableEq

inductive Clock where
  | fillSegments | livenessIntervals
deriving DecidableEq, Repr

inductive Window where
  | unresolved | incomplete | elapsed
deriving DecidableEq, Repr

structure LivenessSection where
  livenessHash : String
  startMicros : ℤ
  endMicros : ℤ
  bounds : Bounds
  captureMaxUnprovenNanos : ℤ
  watchedAs : List (String × String)
  runnerSessions : List (String × String × String)
  restarts : ℕ
  excludedSessions : List String
  discontinuities : List (String × ℕ)
  provenMicros : ℤ
  unprovenMicrosByReason : List (String × ℤ)
  fillsDecidedOutsideProvenProcessing : ℕ
deriving DecidableEq

structure Incubation where
  binding : Option IncubationBindingV1
  requiredDays : Option ℤ
  unresolved : List String
  elapsedClock : Clock
  evidencedSegments : List (ℤ × ℤ)
  evidencedElapsedMicros : ℤ
  window : Window
  fillSegments : Option (List (ℤ × ℤ))
  runnerLiveness : Option LivenessSection
deriving DecidableEq

def clip (low high start end_ : ℤ) : ℤ := max 0 (min high end_ - max low start)

def clipped (low high : ℤ) (interval : LivenessIntervalV1) : Option (LivenessIntervalV1 × ℤ × ℤ) :=
  let start := max low interval.startMicros
  let end_ := min high interval.endMicros
  if end_ ≤ start then none else some (interval, start, end_)

def unprovenMicros (parts : List (LivenessIntervalV1 × ℤ × ℤ)) : Dict String ℤ :=
  parts.foldl (fun out part =>
    match part.1.status, part.1.reason with
    | .unproven, some reason =>
        Dict.set out reason (Dict.getD out reason 0 + part.2.2 - part.2.1)
    | _, _ => out) Dict.empty

def discontinuityCounts (liveness : RunnerLivenessV1) : List (String × ℕ) :=
  let kinds := liveness.runnerSessions.flatMap fun session =>
    session.discontinuities.map fun item => item.kind.value
  sortBy Prod.fst (kinds.foldl (fun (out : Dict String ℕ) kind =>
    Dict.set out kind (Dict.getD out kind 0 + 1)) Dict.empty).rows

def livenessSection (livenessHash : RunnerLivenessV1 → String) (liveness : RunnerLivenessV1)
    (binding : IncubationBindingV1) (asOfMicros : ℤ) (items : List Fill) :
    Except Exn (List (ℤ × ℤ) × LivenessSection) :=
  let candidate := liveness.candidate
  let watched := candidate.watchedAs.getD []
  if (candidate.studyId, candidate.trialId, candidate.symbol) ≠
      (binding.studyId, binding.trialId, binding.symbol) then
    refuse (livenessRefusalPrefix ++ "is_of_another_candidate")
  else if (watched.lookup "authority", watched.lookup "authority_evidence_hash") ≠
      (some authorityIncubating, some binding.validationHash) ∨
      (watched.lookup "study_content_hash").all (fun hash => hash = "") then
    refuse (livenessRefusalPrefix ++ "not_bound_to_this_incubation_evidence")
  else if asOfMicros < liveness.endMicros then
    refuse (livenessRefusalPrefix ++ "window_ends_after_the_report_as_of")
  else if liveness.refusedSessions ≠ [] then
    let reasons := sortedSet id (liveness.refusedSessions.map fun item => item.reason.value)
    refuse (livenessRefusalPrefix ++ "session_refused:" ++ ",".intercalate reasons)
  else
    let low := binding.incubatingSinceMicros
    let high := max binding.incubatingSinceMicros asOfMicros
    let parts := liveness.intervals.filterMap (clipped low high)
    let proven := parts.filter fun part => part.1.status = .proven
    let segments := (proven.map Prod.snd).foldl join []
    let outside := (high - low) - clip low high liveness.startMicros liveness.endMicros
    let unproven :=
      if outside ≠ 0 then Dict.set (unprovenMicros parts) unprovenOutsideLivenessWindow outside
      else unprovenMicros parts
    .ok (segments, {
      livenessHash := livenessHash liveness
      startMicros := liveness.startMicros
      endMicros := liveness.endMicros
      bounds := liveness.bounds
      captureMaxUnprovenNanos := liveness.captureMaxUnprovenNanos
      watchedAs := watched
      runnerSessions := liveness.runnerSessions.map fun session =>
        (session.runnerSessionId, session.startProgressHash, session.bindingHash)
      restarts := liveness.restarts
      excludedSessions := liveness.excludedSessions
      discontinuities := discontinuityCounts liveness
      provenMicros := total segments
      unprovenMicrosByReason := sortBy Prod.fst unproven.rows
      fillsDecidedOutsideProvenProcessing := items.countP fun item =>
        !segments.any fun segment =>
          segment.1 ≤ item.decidedAtMicros ∧ item.decidedAtMicros < segment.2 })

/-- A fill's evidence lies between the start of the incubation and the report's instant. -/
def checkInstants (binding : Option IncubationBindingV1) (asOfMicros : ℤ) :
    List Fill → Except Exn Unit
  | [] => .ok ()
  | item :: items =>
      if asOfMicros < max item.decidedAtMicros item.observedMicros then
        refuse "fill_evidence_after_the_report_as_of"
      else if binding.any fun binding =>
          min item.decidedAtMicros item.observedMicros < binding.incubatingSinceMicros then
        refuse "fill_decided_before_the_candidate_was_incubating"
      else checkInstants binding asOfMicros items

def clockOf (livenessHash : RunnerLivenessV1 → String) (items : List Fill)
    (binding : Option IncubationBindingV1) (asOfMicros : ℤ) :
    Option RunnerLivenessV1 → Except Exn (List (ℤ × ℤ) × Option LivenessSection)
  | none => .ok (evidencedSegmentsV1 items, none)
  | some liveness =>
      match binding with
      | none => refuse (livenessRefusalPrefix ++ "without_an_incubation_binding")
      | some binding =>
          (livenessSection livenessHash liveness binding asOfMicros items).map fun found =>
            (found.1, some found.2)

def incubation (livenessHash : RunnerLivenessV1 → String) (items : List Fill)
    (binding : Option IncubationBindingV1) (asOfMicros : ℤ) (unbound : List String)
    (liveness : Option RunnerLivenessV1) : Except Exn Incubation := do
  checkInstants binding asOfMicros items
  let (segments, section_) ← clockOf livenessHash items binding asOfMicros liveness
  let elapsed := total segments
  let required := binding.bind IncubationBindingV1.requiredDays
  return {
    binding
    requiredDays := required
    unresolved := binding.elim unbound IncubationBindingV1.unresolved
    elapsedClock := if section_.isSome then .livenessIntervals else .fillSegments
    evidencedSegments := segments
    evidencedElapsedMicros := elapsed
    window := match required with
      | none => .unresolved
      | some days => if days * dayMicros ≤ elapsed then .elapsed else .incomplete
    fillSegments := section_.map fun _ => evidencedSegmentsV1 items
    runnerLiveness := section_ }

/-! ## The known position -/

structure RoundTrip where
  direction : ℤ
  entryBarOpenMicros : ℤ
  exitBarOpenMicros : ℤ
  holdingMinutes : ℤ
  grossReturn : Decimal
deriving DecidableEq

structure Ledger where
  position : ℤ := 0
  entryPrice : Decimal := 0
  entryMicros : ℤ := 0
  chainIntact : Bool := false
  lastSignal : Option String := none
  breaks : ℕ := 0
  skipped : ℕ := 0
  inconsistent : ℕ := 0
  roundTrips : List RoundTrip := []
  holdings : List Holding := []

def Fill.price (item : Fill) : Except Exn Decimal :=
  match item.fillPrice with
  | some price => .ok price
  | none => .error .arithmeticError

/-- `(Decimal(position) * (price / entry_price - 1)).quantize(RETURN_QUANTUM_V1)`. -/
def grossReturn (position : ℤ) (price entryPrice : Decimal) : Except Exn Decimal :=
  let c := Decimal.Arithmetic.default
  if entryPrice = 0 then .error .arithmeticError
  else
    match c.quantize 12 (c.mul position (c.sub (c.div price entryPrice) 1)) with
    | some gross => .ok gross
    | none => .error .arithmeticError

namespace Ledger

variable (ledger : Ledger)

def brokenOff (until_ : ℤ) : Ledger :=
  if ledger.position ≠ 0 then
    { ledger with holdings := ledger.holdings ++
        [⟨ledger.position, ledger.entryMicros, max ledger.entryMicros until_, .chainBroken⟩] }
  else ledger

def lose (until_ : ℤ) : Ledger :=
  { ledger.brokenOff until_ with chainIntact := false, position := 0 }

def Linked (item : Fill) : Prop :=
  item.previousSignalId.isSome ∧ item.previousSignalId = ledger.lastSignal

instance (item : Fill) : Decidable (ledger.Linked item) := inferInstanceAs (Decidable (_ ∧ _))

def relink (item : Fill) : Ledger :=
  let seen := { ledger with lastSignal := some item.signalId }
  if ledger.chainIntact ∧ (¬ ledger.Linked item ∨ item.status ≠ .filled) then
    { seen.lose item.decidedAtMicros with breaks := ledger.breaks + 1 }
  else seen

def close (price : Decimal) (at_ : ℤ) : Except Exn Ledger :=
  if ledger.position ≠ 0 then do
    let gross ← grossReturn ledger.position price ledger.entryPrice
    return { ledger with
      roundTrips := ledger.roundTrips ++ [⟨ledger.position, ledger.entryMicros, at_,
        (at_ - ledger.entryMicros) / minuteMicros, gross⟩]
      holdings := ledger.holdings ++
        [⟨ledger.position, ledger.entryMicros, at_, .closedByFill⟩] }
  else .ok ledger

def book (item : Fill) : Except Exn Ledger := do
  let price ← item.price
  let closed ← ledger.close price item.fillBarOpenMicros
  return { closed with
    position := item.targetTo
    entryPrice := price
    entryMicros := item.fillBarOpenMicros }

def add (item : Fill) : Except Exn Ledger :=
  let ledger := ledger.relink item
  if item.status ≠ .filled then .ok ledger
  else if ¬ ledger.chainIntact ∧ item.targetFrom ≠ 0 then
    .ok { ledger with skipped := ledger.skipped + 1 }
  else
    let ledger := { ledger with chainIntact := true }
    if item.targetFrom ≠ ledger.position then
      .ok { ledger.lose item.decidedAtMicros with inconsistent := ledger.inconsistent + 1 }
    else ledger.book item

def allHoldings (asOfMicros : ℤ) : List Holding :=
  if ledger.chainIntact ∧ ledger.position ≠ 0 then
    ledger.holdings ++ [⟨ledger.position, ledger.entryMicros, asOfMicros, .openAtAsOf⟩]
  else ledger.holdings

end Ledger

/-! ## The report -/

inductive Net where
  | grossNonPromotableNoVerifiedFeeSchedule
  | noSlippageScenarioDeclared
  | scenarios (net : List (String × Decimal))
deriving DecidableEq

structure CandidateReport where
  studyId : String
  trialId : String
  symbol : String
  fills : ℕ
  fillsByStatus : List (FillStatus × ℕ)
  chainBreaks : ℕ
  fillsSkippedUnknownPosition : ℕ
  chainInconsistencies : ℕ
  openPosition : Option ℤ
  roundTrips : List RoundTrip
  grossReturnSum : Decimal
  closedSides : ℕ
  holdingMinutes : ℤ
  elapsedDays : Decimal
  requiredDays : Option ℤ
  incubation : Incubation
  fundingEvidence : FundingEvidenceSection
  breakEvenCostBpsPerSide : Option Decimal
  net : Net
deriving DecidableEq

def figure (value : Option Decimal) : Except Exn Decimal :=
  match value with
  | some value => .ok value
  | none => .error .arithmeticError

/-- `CostPolicyV1.total_cost_bps_per_side`, of a declared scenario under a fee schedule. -/
def totalCostBpsPerSide (fee cost : Decimal) : Decimal := Decimal.Arithmetic.default.add fee cost

def netOf (cost : CostPolicyV1) (grossTotal : Decimal) (sides : ℕ) : Except Exn Net :=
  let c := Decimal.Arithmetic.default
  match cost.takerFeeBps with
  | none => .ok .grossNonPromotableNoVerifiedFeeSchedule
  | some fee =>
      if cost.slippageScenarios.rows = [] then .ok .noSlippageScenarioDeclared
      else do
        let net ← cost.slippageScenarios.rows.mapM fun scenario => do
          let charge := c.mul (c.div (totalCostBpsPerSide fee scenario.2) 10000) sides
          let value ← figure (c.quantize 12 (c.sub grossTotal charge))
          return (scenario.1, value)
        return .scenarios net

def breakEvenOf (grossTotal : Decimal) (sides : ℕ) : Except Exn (Option Decimal) :=
  let c := Decimal.Arithmetic.default
  if sides = 0 then .ok none
  else (figure (c.quantize 4 (c.mul (c.div grossTotal sides) 10000))).map some

def candidateReport (env : FundingEvidence.Env) (livenessHash : RunnerLivenessV1 → String)
    (studyId trialId symbol : String) (items : List Fill) (cost : CostPolicyV1) (asOfMicros : ℤ)
    (binding : Option IncubationBindingV1) (unbound : List String)
    (liveness : Option RunnerLivenessV1) (funding : Option (CandidateFundingEvidenceV1 env)) :
    Except Exn CandidateReport := do
  let c := Decimal.Arithmetic.default
  let incubation ← incubation livenessHash items binding asOfMicros unbound liveness
  let ledger ← Replay.replay Ledger.add {} items
  let grossTotal := (ledger.roundTrips.map RoundTrip.grossReturn).foldl c.add 0
  let sides := 2 * ledger.roundTrips.length
  let elapsedDays ← figure (c.quantizeDown 3 (c.div incubation.evidencedElapsedMicros dayMicros))
  let grossReturnSum ← figure (c.quantize 12 grossTotal)
  let fundingEvidence ← fundingEvidenceSectionV1 env funding studyId trialId symbol
    (ledger.allHoldings asOfMicros) (ledger.skipped + ledger.inconsistent) asOfMicros
    (binding.map IncubationBindingV1.validationHash) cost.takerFeeBps.isSome
  let breakEven ← breakEvenOf grossTotal sides
  let net ← netOf cost grossTotal sides
  return {
    studyId, trialId, symbol
    fills := items.length
    fillsByStatus := [FillStatus.filled, .fillBarNotObserved, .fillOpenSequenceAmbiguous].map
      fun status => (status, items.countP fun item => item.status = status)
    chainBreaks := ledger.breaks
    fillsSkippedUnknownPosition := ledger.skipped
    chainInconsistencies := ledger.inconsistent
    openPosition := if ledger.chainIntact then some ledger.position else none
    roundTrips := ledger.roundTrips
    grossReturnSum
    closedSides := sides
    holdingMinutes := (ledger.roundTrips.map RoundTrip.holdingMinutes).sum
    elapsedDays
    requiredDays := incubation.requiredDays
    incubation
    fundingEvidence
    breakEvenCostBpsPerSide := breakEven
    net }

end PaperIncubation

end TradePlatform
