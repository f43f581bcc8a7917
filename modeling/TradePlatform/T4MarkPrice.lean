/-
# `TradePlatform.T4MarkPrice` — venue mark prices around a settlement instant

`first_party_t4_settlement_mark_price_v1.py`: the ticker rows of a sealed segment with the mark
observations among them, the hour of acceptance that proves a row, the bracket of an instant in one
segment, and the resolution over the datasets a caller holds.  A dataset carries what the rows were
checked for when it was read from its frame; the frame store and the seal are not modelled.
-/
import TradePlatform.ForwardFunding
import TradePlatform.HourlyAcceptance
import TradePlatform.Lib.IsoText

namespace TradePlatform

namespace T4Mark

open HourlyAcceptance (HourlyAcceptanceV1 hourNanos)
open IsoText (Stamp)

def refuse {α : Type} (code : String) : Except Exn α := .error (.t4MarkPriceRefusal code)

/-! ## Observations -/

def componentMark : String := "MARK"

def componentIndex : String := "INDEX"

structure T4TickerRowClockV1 where
  observationReference : String
  component : String
  messageType : String
  exchangeTsMillis : ℤ
  sessionId : UUID
  recordSequence : ℤ
  recordContentHash : String
  arrivalUtcNanos : ℤ
  clockBoundNanos : ℤ
  clockBoundEvidence : String
deriving DecidableEq

def T4TickerRowClockV1.marketKnowledgeMicros (row : T4TickerRowClockV1) : ℤ :=
  T4.marketKnowledgeMicrosV1 row.arrivalUtcNanos row.clockBoundNanos

structure T4MarkObservationV1 where
  clock : T4TickerRowClockV1
  price : Decimal
deriving DecidableEq

def T4MarkObservationV1.exchangeTsMillis (mark : T4MarkObservationV1) : ℤ :=
  mark.clock.exchangeTsMillis

def SameRecord (row previous : T4TickerRowClockV1) : Prop :=
  row.recordContentHash = previous.recordContentHash ∧
    row.exchangeTsMillis = previous.exchangeTsMillis ∧
    row.arrivalUtcNanos = previous.arrivalUtcNanos ∧
    row.clockBoundNanos = previous.clockBoundNanos ∧
    row.clockBoundEvidence = previous.clockBoundEvidence ∧ row.messageType = previous.messageType

instance (row previous : T4TickerRowClockV1) : Decidable (SameRecord row previous) :=
  inferInstanceAs (Decidable (_ ∧ _))

def checkNext (previous row : T4TickerRowClockV1) : Except Exn Unit :=
  if row.recordSequence = previous.recordSequence then
    if ¬ SameRecord row previous ∨ row.component ≤ previous.component then
      .error (.t4MarkEvidenceError "record_rows_disagree_or_repeat_a_component")
    else .ok ()
  else if row.recordSequence < previous.recordSequence ∨
      row.arrivalUtcNanos < previous.arrivalUtcNanos ∨
      row.exchangeTsMillis < previous.exchangeTsMillis then
    .error (.t4MarkEvidenceError "ticker_order_not_monotonic_within_segment")
  else .ok ()

def checkOrderFrom : Option T4TickerRowClockV1 → List T4TickerRowClockV1 → Except Exn Unit
  | _, [] => .ok ()
  | previous, row :: rows => do
      if row.component ≠ componentMark ∧ row.component ≠ componentIndex then
        .error (.t4MarkEvidenceError "reference_component_not_recognized")
      else
        previous.elim (.ok ()) fun previous => checkNext previous row
        checkOrderFrom (some row) rows

def checkOrder (rows : List T4TickerRowClockV1) : Except Exn Unit := checkOrderFrom none rows

/-! ## Datasets -/

/-- Every ticker row and mark observation of one sealed segment.  `mark_evidence_from_seal_v1`, which
alone builds one, checks the order of the rows and makes the marks of the `MARK` rows. -/
structure T4MarkEvidenceDatasetV1 where
  datasetVersionId : UUID
  datasetContentHash : String
  sourceId : UUID
  sessionId : UUID
  instrument : String
  exchangeSymbol : String
  segmentClockEvidenceHash : String
  tickerRows : List T4TickerRowClockV1
  marks : List T4MarkObservationV1
  order : checkOrder tickerRows = .ok ()
  marks_clock : marks.map T4MarkObservationV1.clock =
    tickerRows.filter fun row => decide (row.component = componentMark)
deriving DecidableEq

/-! ## Hours -/

structure T4HourEvidenceV1 where
  hourStartUtcNanos : ℤ
  sessionId : UUID
  unprovenNanos : ℤ
  maxUnprovenNanos : ℤ
deriving DecidableEq

def verdictValue : HourlyAcceptance.HourVerdictV1 → String
  | .complete => "COMPLETE"
  | .noProvenCoverage => "NO_PROVEN_COVERAGE"
  | .coverageEndsBeforeHourEnd => "COVERAGE_ENDS_BEFORE_HOUR_END"
  | .headUnprovenExceedsBound => "HEAD_UNPROVEN_EXCEEDS_BOUND"
  | .unprovenGapExceedsBound => "UNPROVEN_GAP_EXCEEDS_BOUND"

def hourStartOf (arrivalUtcNanos : ℤ) : ℤ := arrivalUtcNanos / hourNanos * hourNanos

def segmentEvidence (acceptance : HourlyAcceptanceV1) (sessionId : UUID) (hourStart : ℤ)
    (segment : HourlyAcceptance.HourlySegmentV1) : Except Exn T4HourEvidenceV1 :=
  if segment.hourStartUtcNanos ≠ hourStart then refuse "hourly_acceptance_malformed"
  else if segment.complete = false then
    refuse ("hour_not_complete:" ++ verdictValue segment.verdict)
  else
    match segment.sessionId, segment.unprovenNanos with
    | some proven, some unproven =>
        if proven ≠ sessionId then refuse "hour_proven_by_another_capture_session"
        else .ok ⟨hourStart, proven, unproven, acceptance.maxUnprovenNanos⟩
    | _, _ => refuse "hourly_acceptance_malformed"

def hour (acceptance : HourlyAcceptanceV1) (exchangeSymbol : String) (sessionId : UUID)
    (arrivalUtcNanos : ℤ) : Except Exn T4HourEvidenceV1 :=
  let hourStart := hourStartOf arrivalUtcNanos
  match acceptance.symbols.filter fun item => decide (item.symbol = exchangeSymbol) with
  | [symbol] =>
      match acceptance.firstHourStartUtcNanos with
      | none => refuse "hour_not_judged"
      | some first =>
          if ¬ (first ≤ hourStart ∧ hourStart < first + acceptance.hoursJudged * hourNanos) then
            refuse "hour_not_judged"
          else if symbol.segments.length ≠ acceptance.hoursJudged then
            refuse "hourly_acceptance_malformed"
          else
            match symbol.segments[((hourStart - first) / hourNanos).toNat]? with
            | none => .error .indexError
            | some segment => segmentEvidence acceptance sessionId hourStart segment
  | _ => refuse "hourly_acceptance_does_not_cover_the_symbol"

/-! ## Brackets -/

structure Bracket where
  before : T4TickerRowClockV1
  after : T4TickerRowClockV1
  exact : List T4MarkObservationV1
deriving DecidableEq

def bracket (dataset : T4MarkEvidenceDatasetV1) (instant : ℤ) : Option Bracket :=
  let before := dataset.tickerRows.filter fun row => decide (row.exchangeTsMillis < instant)
  let after := dataset.tickerRows.filter fun row => decide (instant < row.exchangeTsMillis)
  match before.getLast?, after.head? with
  | some last, some first =>
      some ⟨last, first, dataset.marks.filter fun mark => decide (mark.exchangeTsMillis = instant)⟩
  | _, _ => none

namespace Bracket

def cited (found : Bracket) : List T4TickerRowClockV1 :=
  found.before :: found.after :: found.exact.map T4MarkObservationV1.clock

end Bracket

/-! ## Results -/

inductive T4SettlementMarkStatusV1 where
  | exactVenueTimestampMatch | nearbyOnlyUnresolvedSelectionConvention
deriving DecidableEq

inductive Side where
  | before | after
deriving DecidableEq

structure T4NearbyMarkV1 where
  side : Side
  offsetMillis : ℤ
  observation : T4MarkObservationV1
deriving DecidableEq

def settlementMarkIdentity : String := "UNRESOLVED_OWNER_DECISION_SETTLEMENT_MARK_IDENTITY"

def nearbyMarkSelectionConvention : String :=
  "UNRESOLVED_OWNER_DECISION_NEARBY_MARK_SELECTION_CONVENTION"

structure T4SettlementMarkPriceV1 where
  status : T4SettlementMarkStatusV1
  settledAtMs : ℤ
  symbol : String
  dataset : T4MarkEvidenceDatasetV1
  markPrice : Option Decimal
  exact : List T4MarkObservationV1
  nearby : List T4NearbyMarkV1
  bracketBefore : T4TickerRowClockV1
  bracketAfter : T4TickerRowClockV1
  corroborating : List T4MarkObservationV1
  hours : List T4HourEvidenceV1
  unresolvedDecisions : List String
deriving DecidableEq

namespace T4SettlementMarkPriceV1

variable (result : T4SettlementMarkPriceV1)

def cited : List T4TickerRowClockV1 :=
  result.bracketBefore :: result.bracketAfter ::
    (result.exact.map T4MarkObservationV1.clock ++ result.nearby.map fun near => near.observation.clock)

def knowableAtMicros : ℤ :=
  (result.cited.tail.map T4TickerRowClockV1.marketKnowledgeMicros).foldl max
    result.bracketBefore.marketKnowledgeMicros

end T4SettlementMarkPriceV1

/-! ## Resolution -/

section Resolve

variable (acceptance : HourlyAcceptanceV1) (symbol : String) (instant : ℤ)

structure Accepted where
  dataset : T4MarkEvidenceDatasetV1
  found : Bracket
  hours : List T4HourEvidenceV1

def hoursOf (dataset : T4MarkEvidenceDatasetV1) (rows : List T4TickerRowClockV1) :
    Except Exn (List T4HourEvidenceV1) :=
  (rows.mapM fun row => hour acceptance symbol dataset.sessionId row.arrivalUtcNanos).map
    (sortedSet T4HourEvidenceV1.hourStartUtcNanos)

def judge (item : T4MarkEvidenceDatasetV1 × Bracket) : Except Exn (String ⊕ Accepted) :=
  match hoursOf acceptance symbol item.1 item.2.cited with
  | .ok hours => .ok (.inr ⟨item.1, item.2, hours⟩)
  | .error (.t4MarkPriceRefusal code) => .ok (.inl code)
  | .error error => .error error

def candidatesOf (dataset : T4MarkEvidenceDatasetV1) : List T4NearbyMarkV1 :=
  let before := dataset.marks.filter fun mark => decide (mark.exchangeTsMillis < instant)
  let after := dataset.marks.filter fun mark => decide (instant < mark.exchangeTsMillis)
  (before.getLast?.map fun mark => ⟨.before, mark.exchangeTsMillis - instant, mark⟩).toList ++
    (after.head?.map fun mark => ⟨.after, mark.exchangeTsMillis - instant, mark⟩).toList

def resultOf (accepted : Accepted) (others : List T4MarkObservationV1) :
    Except Exn T4SettlementMarkPriceV1 :=
  match accepted.found.exact with
  | mark :: _ =>
      .ok ⟨.exactVenueTimestampMatch, instant, symbol, accepted.dataset, some mark.price,
        accepted.found.exact, [], accepted.found.before, accepted.found.after, others,
        accepted.hours, [settlementMarkIdentity]⟩
  | [] => do
      let candidates := candidatesOf instant accepted.dataset
      let extra ← hoursOf acceptance symbol accepted.dataset
        (candidates.map fun near => near.observation.clock)
      .ok ⟨.nearbyOnlyUnresolvedSelectionConvention, instant, symbol, accepted.dataset, none, [],
        candidates, accepted.found.before, accepted.found.after, others,
        sortedSet T4HourEvidenceV1.hourStartUtcNanos (accepted.hours ++ extra),
        [settlementMarkIdentity, nearbyMarkSelectionConvention]⟩

def knownByMicros (knownBy : Stamp) : Except Exn ℤ :=
  match Stamp.utc? knownBy.instant with
  | none => .error .arithmeticError
  | some utc => .ok (utc.instant - 719163 * 86400 * 10 ^ 6)

def othersOf (ordered : List T4MarkEvidenceDatasetV1) (dataset : T4MarkEvidenceDatasetV1) :
    List T4MarkObservationV1 :=
  (ordered.filter fun item => decide (item.datasetVersionId ≠ dataset.datasetVersionId)).flatMap
    fun item => item.marks.filter fun mark => decide (mark.exchangeTsMillis = instant)

def conclude (ordered : List T4MarkEvidenceDatasetV1) (knownBy : Stamp) (accepted : Accepted) :
    Except Exn T4SettlementMarkPriceV1 := do
  let exactPrices := (accepted.found.exact.map T4MarkObservationV1.price).dedup
  if 1 < exactPrices.length then
    refuse "ambiguous_ordering_distinct_marks_stamped_at_the_instant"
  else
    let others := othersOf instant ordered accepted.dataset
    if ∃ mark ∈ others, mark.price ∉ exactPrices then
      refuse "conflicting_mark_observations_at_the_instant"
    else
      let result ← resultOf acceptance symbol instant accepted others
      let known ← knownByMicros knownBy
      if known < result.knowableAtMicros then
        refuse "mark_evidence_not_yet_knowable_at_known_by"
      else .ok result

def bracketingOf (ordered : List T4MarkEvidenceDatasetV1) :
    List (T4MarkEvidenceDatasetV1 × Bracket) :=
  ordered.filterMap fun item => (bracket item instant).map fun found => (item, found)

def resolveOrdered (ordered : List T4MarkEvidenceDatasetV1) (knownBy : Stamp) :
    Except Exn T4SettlementMarkPriceV1 := do
  let bracketing := bracketingOf instant ordered
  if bracketing = [] then refuse "settlement_instant_not_bracketed_by_one_sealed_segment"
  else
    let judged ← bracketing.mapM (judge acceptance symbol)
    match judged.filterMap Sum.getRight?, judged.filterMap Sum.getLeft? with
    | [accepted], _ => conclude acceptance symbol instant ordered knownBy accepted
    | [], code :: _ => refuse code
    | [], [] => .error .indexError
    | _, _ => refuse "settlement_instant_proven_by_more_than_one_segment"

/-- `resolve_settlement_mark_price_v1`, of mark evidence.  The ids are sorted by their texts, which
compare as the ids do. -/
def resolveSettlementMarkPriceV1 (datasets : List T4MarkEvidenceDatasetV1) (knownBy : Stamp) :
    Except Exn T4SettlementMarkPriceV1 :=
  if instant ≤ 0 then refuse "settlement_instant_must_be_positive_integer_venue_millis"
  else if ForwardFunding.canonicalSymbolIdentityV1 symbol ≠ .ok () then
    refuse "symbol_outside_the_funding_universe"
  else if datasets = [] then refuse "no_mark_evidence_dataset_supplied"
  else if ∃ item ∈ datasets, item.exchangeSymbol ≠ symbol then
    refuse "dataset_symbol_differs_from_the_settlement_symbol"
  else if (datasets.map T4MarkEvidenceDatasetV1.datasetVersionId).dedup.length ≠ datasets.length then
    refuse "dataset_supplied_more_than_once"
  else
    resolveOrdered acceptance symbol instant
      (sortBy T4MarkEvidenceDatasetV1.datasetVersionId datasets) knownBy

end Resolve

end T4Mark

end TradePlatform
