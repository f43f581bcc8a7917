/-
# `TradePlatform.RunnerLiveness` — which minutes a runner provably processed

`runner_liveness_v1.py`: the stored progress records of each runner session are checked and
walked into processing runs, flags and alive spans; each minute of the claimed window gets one
status from them, the capture's hour verdicts and the sealed bars; and minutes of one status
are laid together into intervals.  A stored identity is decoded JSON: a missing key, a value of
another type and a refused hash each end a session where the source ends it, and a walk that
ends so keeps what it has already added.
-/
import TradePlatform.HourlyAcceptance
import TradePlatform.KnowledgeTime
import TradePlatform.Lib.Grid

namespace TradePlatform

namespace RunnerLiveness

open HourlyAcceptance (HourlyAcceptanceV1 HourlySegmentV1 HourVerdictV1 hourNanos)
open KnowledgeTime (stripped)

def refuse {α : Type} (message : String) : Except Exn α := .error (.runnerLivenessError message)

def minuteMicros : ℤ := 60000000

def hourMicros : ℤ := hourNanos / 1000

/-! ## Decoded values -/

def item (fields : List (String × Json)) (key : String) : Except Exn Json :=
  match fields.lookup key with
  | some value => .ok value
  | none => .error (.keyError key)

def fieldsOf : Json → Except Exn (List (String × Json))
  | .obj fields => .ok fields
  | _ => .error .typeError

def int : Json → Except Exn ℤ
  | .int n => .ok n
  | _ => refuse "progress_field_not_an_integer"

def truthy : Json → Bool
  | .null => false
  | .bool b => b
  | .int n => decide (n ≠ 0)
  | .float x => decide (x ≠ some 0)
  | .str text => decide (text ≠ "")
  | .arr items => !items.isEmpty
  | .obj fields => !fields.isEmpty

def elements : Json → Except Exn (List Json)
  | .arr items => .ok items
  | .str text => .ok (text.toList.map fun ch => .str ch.toString)
  | .obj fields => .ok (fields.map fun field => .str field.1)
  | _ => .error .typeError

mutual

def same : Json → Json → Bool
  | .null, .null => true
  | .str a, .str b => a == b
  | .bool a, .bool b => a == b
  | .bool a, b => b.eqInt (if a then 1 else 0)
  | .int a, b => b.eqInt a
  | .float (some x), .float (some y) => x == y
  | .float (some x), .int b => x == b
  | .float (some x), .bool b => x == if b then 1 else 0
  | .arr as, .arr bs => sameItems as bs
  | .obj as, .obj bs => as.length == bs.length && sameFields as bs
  | _, _ => false

def sameItems : List Json → List Json → Bool
  | [], [] => true
  | a :: as, b :: bs => same a b && sameItems as bs
  | _, _ => false

def sameFields : List (String × Json) → List (String × Json) → Bool
  | [], _ => true
  | (key, a) :: as, bs =>
      (match bs.lookup key with
        | some b => same a b
        | none => false) && sameFields as bs

end

/-- The code outside the module: `identity_hash_v1`, which refuses floats, the text of a value
that is no text, number, truth value or `None`, and the text of a session's identifier. -/
structure Env where
  identityHash : List (String × Json) → Except Exn String
  repr : Json → String
  uuidText : UUID → String

variable (env : Env)

def text : Json → String
  | .str text => text
  | .int n => toString n
  | .null => "None"
  | .bool b => if b then "True" else "False"
  | value => env.repr value

/-! ## Progress records -/

inductive SessionRefusalV1 where
  | malformedRecord | contentHashDoesNotRederive | duplicateSequence
  | runnerSessionWithoutStart | hashChainBroken | sessionBindingChanged
deriving DecidableEq, Repr

inductive DiscontinuityV1 where
  | sequenceGap | progressGap | hostClockBackwards | monotonicClockBackwards | hostClockJump
  | barCompletedAfterProcessing | feedSegmentBreak
deriving DecidableEq, Repr

def SessionRefusalV1.value : SessionRefusalV1 → String
  | .malformedRecord => "MALFORMED_RECORD"
  | .contentHashDoesNotRederive => "CONTENT_HASH_DOES_NOT_REDERIVE"
  | .duplicateSequence => "DUPLICATE_SEQUENCE"
  | .runnerSessionWithoutStart => "RUNNER_SESSION_WITHOUT_START"
  | .hashChainBroken => "HASH_CHAIN_BROKEN"
  | .sessionBindingChanged => "SESSION_BINDING_CHANGED"

structure Stored where
  contentHash : String
  identity : Json

/-- A checked record: its hash and the fields of its identity, with the three numbers that
`_session_records` has seen to be integers. -/
structure Progress where
  contentHash : String
  fields : List (String × Json)
  sequence : ℤ
  hostWallMicros : ℤ
  hostMonotonicNanos : ℤ

/-- Why a session's records cannot be used: `_Refused`, or another exception. -/
inductive Failure where
  | refused (reason : SessionRefusalV1)
  | raised (error : Exn)
deriving DecidableEq

def Failure.reason : Failure → Except Exn SessionRefusalV1
  | .refused reason => .ok reason
  | .raised (.keyError _) | .raised .typeError | .raised (.attributeError _) =>
      .ok .malformedRecord
  | .raised error => .error error

def orRaise {α : Type} : Except Exn α → Except Failure α
  | .ok a => .ok a
  | .error error => .error (.raised error)

/-- `except (KeyError, RunnerLivenessError)`: the record is malformed. -/
def orMalformed {α : Type} : Except Exn α → Except Failure α
  | .ok a => .ok a
  | .error (.keyError _) | .error (.runnerLivenessError _) => .error (.refused .malformedRecord)
  | .error error => .error (.raised error)

def runnerProgressSchemaVersionV1 : String := "runner-liveness-progress-v1"

def kindStarted : String := "STARTED"

def kindHeartbeat : String := "HEARTBEAT"

def kindBars : String := "BARS"

def kinds : List String := [kindStarted, kindHeartbeat, kindBars]

def isText (value : Json) (expected : String) : Bool := decide (value.str? = some expected)

def checkFields (fields : List (String × Json)) : Except Failure (ℤ × ℤ × ℤ) := do
  let schema ← orMalformed (item fields "schema_version")
  if !isText schema runnerProgressSchemaVersionV1 then .error (.refused .malformedRecord)
  else
    let kind ← orMalformed (item fields "kind")
    if !kinds.any (isText kind) then .error (.refused .malformedRecord)
    else
      let sequence ← orMalformed (item fields "sequence" >>= int)
      let wall ← orMalformed (item fields "host_wall_micros" >>= int)
      let monotonic ← orMalformed (item fields "host_monotonic_nanos" >>= int)
      .ok (sequence, wall, monotonic)

def checkRow (row : Stored) : Except Failure Progress := do
  match row.identity with
  | .obj fields =>
      let derived ← orRaise (env.identityHash fields)
      if derived ≠ stripped row.contentHash then .error (.refused .contentHashDoesNotRederive)
      else
        let (sequence, wall, monotonic) ← checkFields fields
        .ok ⟨stripped row.contentHash, fields, sequence, wall, monotonic⟩
  | _ => .error (.refused .malformedRecord)

def checkStart (first : Progress) : Except Failure (List (String × Json) × String) := do
  if first.sequence ≠ 0 then .error (.refused .runnerSessionWithoutStart)
  else
    let kind ← orRaise (item first.fields "kind")
    if !isText kind kindStarted then .error (.refused .runnerSessionWithoutStart)
    else
      match ← orRaise (item first.fields "previous_progress_hash") with
      | .null =>
          match ← orRaise (item first.fields "binding") with
          | .obj binding =>
              let derived ← orRaise (env.identityHash binding)
              let bindingHash ← orRaise (item first.fields "binding_hash")
              if !isText bindingHash derived then .error (.refused .sessionBindingChanged)
              else .ok (binding, derived)
          | _ => .error (.refused .sessionBindingChanged)
      | _ => .error (.refused .runnerSessionWithoutStart)

def checkNext (bindingHash : String) (previous current : Progress) : Except Failure Unit := do
  let kind ← orRaise (item current.fields "kind")
  if isText kind kindStarted then .error (.refused .sessionBindingChanged)
  else
    match ← orRaise (item current.fields "binding") with
    | .null =>
        let stated ← orRaise (item current.fields "binding_hash")
        if !isText stated bindingHash then .error (.refused .sessionBindingChanged)
        else
          if current.sequence = previous.sequence + 1 then
            let link ← orRaise (item current.fields "previous_progress_hash")
            if !isText link previous.contentHash then .error (.refused .hashChainBroken)
          let bars ← orRaise (item current.fields "bars")
          if isText kind kindBars ≠ truthy bars then .error (.refused .malformedRecord)
          else .ok ()
    | _ => .error (.refused .sessionBindingChanged)

def checkRest (bindingHash : String) : Progress → List Progress → Except Failure Unit
  | _, [] => .ok ()
  | previous, current :: rest => do
      checkNext bindingHash previous current
      checkRest bindingHash current rest

structure SessionRecords where
  first : Progress
  rest : List Progress
  binding : List (String × Json)
  bindingHash : String

def sessionRecords (rows : List Stored) : Except Failure SessionRecords := do
  let checked ← rows.mapM (checkRow env)
  let ordered := sortBy Progress.sequence checked
  if ¬ (ordered.map Progress.sequence).Nodup then .error (.refused .duplicateSequence)
  else
    match ordered with
    | [] => .error (.raised .indexError)
    | first :: rest =>
        let (binding, bindingHash) ← checkStart env first
        checkRest bindingHash first rest
        .ok ⟨first, rest, binding, bindingHash⟩

def getOf (value : Json) (key : String) : Except Exn Json :=
  match value with
  | .obj fields => .ok (Json.get fields key)
  | _ => .error (.attributeError "get")

def isCandidate (studyId trialId : String) (entry : Json) : Except Exn Bool := do
  let study ← getOf entry "study_id"
  if !isText study studyId then return false
  else
    let trial ← getOf entry "trial_id"
    return isText trial trialId

def relevant (binding : List (String × Json)) (studyId trialId symbol : String) :
    Except Failure (Option Json) := do
  if !isText (Json.get binding "symbol") symbol then .ok none
  else
    let entries ← orRaise (item binding "candidates" >>= elements)
    let found ← orRaise (entries.filterM (isCandidate studyId trialId))
    match found with
    | [] => .ok none
    | [entry] => .ok (some entry)
    | _ => .error (.refused .malformedRecord)

/-! ## The walk of a session -/

def DiscontinuityV1.value : DiscontinuityV1 → String
  | .sequenceGap => "SEQUENCE_GAP"
  | .progressGap => "PROGRESS_GAP"
  | .hostClockBackwards => "HOST_CLOCK_BACKWARDS"
  | .monotonicClockBackwards => "MONOTONIC_CLOCK_BACKWARDS"
  | .hostClockJump => "HOST_CLOCK_JUMP"
  | .barCompletedAfterProcessing => "BAR_COMPLETED_AFTER_PROCESSING"
  | .feedSegmentBreak => "FEED_SEGMENT_BREAK"

inductive UnprovenReasonV1 where
  | noRunnerProgress | aliveWithoutDataProof | candidateNotEvaluated | barProcessedLate
  | barCompletedAfterProcessing | runnerEvidenceConflict | captureAcceptanceDoesNotCoverSymbol
  | captureHourNotJudged | captureHourSessionMismatch | notSealed | barNotSealed
  | sealedBarNotProcessed | sealConflict
deriving DecidableEq, Repr

def UnprovenReasonV1.value : UnprovenReasonV1 → String
  | .noRunnerProgress => "NO_RUNNER_PROGRESS"
  | .aliveWithoutDataProof => "ALIVE_WITHOUT_DATA_PROOF"
  | .candidateNotEvaluated => "CANDIDATE_NOT_EVALUATED_HOLDOUT_GATE"
  | .barProcessedLate => "BAR_PROCESSED_LATE"
  | .barCompletedAfterProcessing => "BAR_COMPLETED_AFTER_PROCESSING"
  | .runnerEvidenceConflict => "RUNNER_EVIDENCE_CONFLICT"
  | .captureAcceptanceDoesNotCoverSymbol => "CAPTURE_ACCEPTANCE_DOES_NOT_COVER_SYMBOL"
  | .captureHourNotJudged => "CAPTURE_HOUR_NOT_JUDGED"
  | .captureHourSessionMismatch => "CAPTURE_HOUR_SESSION_MISMATCH"
  | .notSealed => "NOT_SEALED"
  | .barNotSealed => "BAR_NOT_SEALED"
  | .sealedBarNotProcessed => "SEALED_BAR_NOT_PROCESSED"
  | .sealConflict => "SEAL_CONFLICT"

structure Bounds where
  maxProgressGapNanos : ℤ
  maxClockDivergenceNanos : ℤ
  maxProcessingLagNanos : ℤ
deriving DecidableEq

/-- `_Run`: live bars of one runner session and one feed segment, processed in a row. -/
structure Run where
  runnerSessionId : String
  captureSourceId : String
  feedSegment : ℤ
  bars : Dict ℤ (List (String × Json))
  first : ℤ
  last : ℤ

structure Break where
  kind : DiscontinuityV1
  sequence : ℤ
  hostWallMicros : ℤ
deriving DecidableEq

structure SessionSummary where
  runnerSessionId : String
  runner : String
  startProgressHash : String
  bindingHash : String
  candidateBinding : List (String × String)
  startedHostWallMicros : ℤ
  lastHostWallMicros : ℤ
  records : ℕ
  discontinuities : List Break
deriving DecidableEq

structure Refusal where
  runnerSessionId : String
  reason : SessionRefusalV1
deriving DecidableEq

structure Walk where
  runs : List Run := []
  flags : Dict ℤ UnprovenReasonV1 := Dict.empty
  alive : List (ℤ × ℤ) := []
  sessions : List SessionSummary := []
  refusals : List Refusal := []

structure Session where
  walk : Walk
  run : Option Run := none
  breaks : List Break := []
  chainStart : ℤ

def breakOf (bounds : Bounds) (previous current : Progress) : Option DiscontinuityV1 :=
  let wall := (current.hostWallMicros - previous.hostWallMicros) * 1000
  let monotonic := current.hostMonotonicNanos - previous.hostMonotonicNanos
  if current.sequence ≠ previous.sequence + 1 then some .sequenceGap
  else if wall < 0 then some .hostClockBackwards
  else if monotonic < 0 then some .monotonicClockBackwards
  else if bounds.maxClockDivergenceNanos < |wall - monotonic| then some .hostClockJump
  else if bounds.maxProgressGapNanos < max wall monotonic then some .progressGap
  else none

namespace Session

variable (s : Session)

def close : Session :=
  match s.run with
  | some run =>
      if run.bars.rows = [] then { s with run := none }
      else { s with run := none, walk := { s.walk with runs := s.walk.runs ++ [run] } }
  | none => s

def note (kind : DiscontinuityV1) (record : Progress) : Session :=
  { s with breaks := s.breaks ++ [⟨kind, record.sequence, record.hostWallMicros⟩] }

def flag (minute : ℤ) (reason : UnprovenReasonV1) : Session :=
  { s with walk := { s.walk with flags := Dict.setdefault s.walk.flags minute reason } }

def chain (bounds : Bounds) (previous record : Progress) : Session :=
  match breakOf bounds previous record with
  | some kind =>
      let s := s.note kind record
      ({ s with
        walk := { s.walk with
          alive := s.walk.alive ++ [(s.chainStart, previous.hostWallMicros * 1000)] }
        chainStart := record.hostWallMicros * 1000 }).close
  | none => s

def extend (sessionId source : String) (segment minute : ℤ) (bar : List (String × Json))
    (record : Progress) : Session :=
  let s := match s.run with
    | some run =>
        if segment ≠ run.feedSegment then (s.note .feedSegmentBreak record).close
        else if minute ≤ run.last then s.close
        else s
    | none => s
  let run := s.run.getD ⟨sessionId, source, segment, Dict.empty, minute, 0⟩
  { s with run := some { run with bars := Dict.set run.bars minute bar, last := minute } }

def bar (bounds : Bounds) (sessionId source : String) (started : ℤ) (record : Progress)
    (value : Json) : Except Exn Session := do
  let fields ← fieldsOf value
  let minute ← item fields "bar_open_micros" >>= int
  let completed ← item fields "completed_by_arrival_nanos" >>= int
  let lag := record.hostWallMicros * 1000 - completed
  if completed < started then return s.close
  else if lag < 0 then
    return ((s.note .barCompletedAfterProcessing record).flag minute
      .barCompletedAfterProcessing).close
  else if bounds.maxProcessingLagNanos < lag then
    return (s.flag minute .barProcessedLate).close
  else
    match ← item fields "admitted" with
    | .bool true =>
        let segment ← item fields "feed_segment" >>= int
        return s.extend sessionId source segment minute fields record
    | _ => return (s.flag minute .candidateNotEvaluated).close

def bars (bounds : Bounds) (sessionId source : String) (started : ℤ) (record : Progress)
    (s : Session) : List Json → Session × Option Exn
  | [] => (s, none)
  | value :: rest =>
      match s.bar bounds sessionId source started record value with
      | .ok s => bars bounds sessionId source started record s rest
      | .error error => (s, some error)

def records (bounds : Bounds) (sessionId source : String) (started : ℤ) (s : Session)
    (previous : Progress) : List Progress → Session × Progress × Option Exn
  | [] => (s, previous, none)
  | record :: rest =>
      let s := s.chain bounds previous record
      match item record.fields "bars" >>= elements with
      | .error error => (s, record, some error)
      | .ok values =>
          match bars bounds sessionId source started record s values with
          | (s, some error) => (s, record, some error)
          | (s, none) => records bounds sessionId source started s record rest

end Session

def watchedAsKeys : List String :=
  ["study_content_hash", "authority", "authority_evidence_hash"]

/-- `{key: str(entry.get(key)) for key in WATCHED_AS_KEYS}`. -/
def candidateBinding (entry : Json) : Except Exn (List (String × String)) :=
  watchedAsKeys.mapM fun key => do
    let value ← getOf entry key
    return (key, text env value)

/-- `_walk_session`: the walk it leaves, and what it raises. -/
def walkSession (bounds : Bounds) (walk : Walk) (session : SessionRecords) (entry : Json) :
    Walk × Option Exn :=
  let start : Except Exn (String × String) := do
    let sessionId ← item session.first.fields "runner_session_id"
    let source ← item session.binding "capture_source_id"
    return (text env sessionId, text env source)
  match start with
  | .error error => (walk, some error)
  | .ok (sessionId, source) =>
      let started := session.first.hostWallMicros * 1000
      let (s, previous, raised) := Session.records bounds sessionId source started
        { walk, chainStart := started } session.first session.rest
      match raised with
      | some error => (s.walk, some error)
      | none =>
          let s := ({ s with walk := { s.walk with
            alive := s.walk.alive ++ [(s.chainStart, previous.hostWallMicros * 1000)] } }).close
          let summary : Except Exn SessionSummary := do
            let runner ← item session.binding "runner"
            let candidateBinding ← candidateBinding env entry
            return {
              runnerSessionId := sessionId
              runner := text env runner
              startProgressHash := session.first.contentHash
              bindingHash := session.bindingHash
              candidateBinding
              startedHostWallMicros := session.first.hostWallMicros
              lastHostWallMicros := previous.hostWallMicros
              records := session.rest.length + 1
              discontinuities := s.breaks }
          match summary with
          | .error error => (s.walk, some error)
          | .ok summary => ({ s.walk with sessions := s.walk.sessions ++ [summary] }, none)

/-! ## The minutes -/

/-- `SealedBarsEvidenceV1`: the bar identities of one sealed dataset. -/
structure SealedBarsEvidenceV1 where
  datasetVersionId : String
  datasetContentHash : String
  sourceId : String
  sessionId : String
  exchangeSymbol : String
  bars : Dict ℤ (String × String)

def SealedBarsEvidenceV1.label (dataset : SealedBarsEvidenceV1) : String :=
  dataset.datasetVersionId ++ ":" ++ dataset.datasetContentHash

def range (lo hi step : ℤ) : List ℤ := Grid.ticks step ((hi - lo + step - 1) / step).toNat lo

def evidenceOf (bar : List (String × Json)) : Except Exn (Json × Json × Json) := do
  let manifest ← item bar "trade_manifest_hash"
  let closing ← item bar "closing_record_hash"
  let capture ← item bar "capture_session_id"
  return (manifest, closing, capture)

def disagree (run held : Run) (minute : ℤ) : Except Exn Bool :=
  match Dict.get? run.bars minute, Dict.get? held.bars minute with
  | some mine, some theirs => do
      let a ← evidenceOf mine
      let b ← evidenceOf theirs
      return !(same a.1 b.1 && same a.2.1 b.2.1 && same a.2.2 b.2.2)
  | none, none => .ok false
  | _, _ => .ok true

structure Proofs where
  proof : Dict ℤ Run := Dict.empty
  conflicts : List ℤ := []

def Proofs.add (proofs : Proofs) (claim : Run × ℤ) : Except Exn Proofs :=
  match Dict.get? proofs.proof claim.2 with
  | none => .ok { proofs with proof := Dict.set proofs.proof claim.2 claim.1 }
  | some held => do
      if ← disagree claim.1 held claim.2 then
        return { proofs with conflicts := proofs.conflicts ++ [claim.2] }
      else return proofs

def claims (runs : List Run) (start end_ : ℤ) : List (Run × ℤ) :=
  (sortBy (fun run : Run => toLex (run.first, run.runnerSessionId)) runs).flatMap fun run =>
    (range (max run.first start) (min (run.last + minuteMicros) end_) minuteMicros).map
      fun minute => (run, minute)

def verdictsFrom (first : Option ℤ) (index : ℕ) (out : Dict ℤ HourlySegmentV1) :
    List HourlySegmentV1 → Except Exn (Dict ℤ HourlySegmentV1)
  | [] => .ok out
  | segment :: segments =>
      if first.all fun first => decide (segment.hourStartUtcNanos ≠ first + index * hourNanos) then
        refuse "hourly_acceptance_malformed"
      else verdictsFrom first (index + 1) (Dict.set out segment.hourStartUtcNanos segment) segments

def hourVerdicts (acceptance : HourlyAcceptanceV1) (symbol : String) :
    Except Exn (Option (Dict ℤ HourlySegmentV1)) :=
  match acceptance.symbols.filter fun item => item.symbol = symbol with
  | [] => .ok none
  | [found] =>
      if found.segments.length ≠ acceptance.hoursJudged then refuse "hourly_acceptance_malformed"
      else (verdictsFrom acceptance.firstHourStartUtcNanos 0 Dict.empty found.segments).map some
  | _ => refuse "hourly_acceptance_malformed"

def verdictValue : HourVerdictV1 → String
  | .complete => "COMPLETE"
  | .noProvenCoverage => "NO_PROVEN_COVERAGE"
  | .coverageEndsBeforeHourEnd => "COVERAGE_ENDS_BEFORE_HOUR_END"
  | .headUnprovenExceedsBound => "HEAD_UNPROVEN_EXCEEDS_BOUND"
  | .unprovenGapExceedsBound => "UNPROVEN_GAP_EXCEEDS_BOUND"

def sealedOf (sealed_ : List SealedBarsEvidenceV1) (symbol source session : String) :
    List SealedBarsEvidenceV1 :=
  sealed_.filter fun dataset => dataset.exchangeSymbol = symbol ∧ dataset.sourceId = source ∧
    dataset.sessionId = session

def sealedDisagrees (datasets : List SealedBarsEvidenceV1) (bar : List (String × Json)) :
    Except Exn Bool := do
  let manifest ← item bar "trade_manifest_hash"
  let closing ← item bar "closing_record_hash"
  let minute ← item bar "bar_open_micros" >>= int
  return datasets.any fun dataset =>
    (Dict.get? dataset.bars minute).any fun held =>
      !(isText manifest held.1 && isText closing held.2)

/-- `_sealed_minute`: why the minute is not proven, or the datasets it is proven by. -/
def sealedMinute (datasets : List SealedBarsEvidenceV1) (minute : ℤ)
    (bar : Option (List (String × Json))) : UnprovenReasonV1 ⊕ List String :=
  let held := datasets.filter fun dataset => (Dict.get? dataset.bars minute).isSome
  if bar.isSome then
    if held = [] then .inl .barNotSealed else .inr (held.map SealedBarsEvidenceV1.label)
  else if held ≠ [] then .inl .sealedBarNotProcessed
  else
    let covering := datasets.filter fun dataset =>
      let minutes := dataset.bars.rows.map Prod.fst
      minutes.any (fun low => low ≤ minute) && minutes.any fun high => minute ≤ high
    if covering = [] then .inl .notSealed else .inr (covering.map SealedBarsEvidenceV1.label)

/-- `any(bar["capture_session_id"] != session for bar in bars)`. -/
def otherSession (session : String) : List (List (String × Json)) → Except Exn Bool
  | [] => .ok false
  | bar :: bars => do
      let capture ← item bar "capture_session_id"
      if !isText capture session then return true else otherSession session bars

/-- `any(_sealed_disagrees(datasets, bar) for bar in bars)`. -/
def anyDisagrees (datasets : List SealedBarsEvidenceV1) :
    List (List (String × Json)) → Except Exn Bool
  | [] => .ok false
  | bar :: bars => do
      if ← sealedDisagrees datasets bar then return true else anyDisagrees datasets bars

/-- `hour_check`: why a run's part of an hour is not proven, or the session that proves it. -/
def hourCheck (verdicts : Option (Dict ℤ HourlySegmentV1)) (sealed_ : List SealedBarsEvidenceV1)
    (symbol : String) (hour : ℤ) (run : Run) : Except Exn (String ⊕ String) :=
  match verdicts with
  | none => .ok (.inl UnprovenReasonV1.captureAcceptanceDoesNotCoverSymbol.value)
  | some verdicts =>
      match Dict.get? verdicts (hour * 1000) with
      | none => .ok (.inl UnprovenReasonV1.captureHourNotJudged.value)
      | some segment =>
          let bars := (run.bars.rows.filter fun row => row.1 - row.1 % hourMicros = hour).map
            Prod.snd
          if !segment.complete then .ok (.inl ("CAPTURE_HOUR_" ++ verdictValue segment.verdict))
          else
            match segment.sessionId.map env.uuidText with
            | none => .ok (.inl UnprovenReasonV1.captureHourSessionMismatch.value)
            | some session => do
                if ← otherSession session bars then
                  return .inl UnprovenReasonV1.captureHourSessionMismatch.value
                else if ← anyDisagrees (sealedOf sealed_ symbol run.captureSourceId session) bars then
                  return .inl UnprovenReasonV1.sealConflict.value
                else return .inr session

inductive Key where
  | unproven (reason : String)
  | proven (runnerSessionId captureSessionId : String)
deriving DecidableEq

structure Minute where
  key : Key
  minute : ℤ
  datasets : List String
  hour : ℤ
deriving DecidableEq

structure Evidence where
  walk : Walk
  proofs : Proofs
  verdicts : Option (Dict ℤ HourlySegmentV1)
  sealed_ : List SealedBarsEvidenceV1
  symbol : String

def idleReason (walk : Walk) (minute : ℤ) : UnprovenReasonV1 :=
  (Dict.get? walk.flags minute).getD
    (if walk.alive.any fun span => span.1 ≤ minute * 1000 ∧ minute * 1000 < span.2 then
      .aliveWithoutDataProof else .noRunnerProgress)

def classify (evidence : Evidence) (minute : ℤ) : Except Exn Minute :=
  let hour := minute / hourMicros * hourMicros
  match Dict.get? evidence.proofs.proof minute with
  | none => .ok ⟨.unproven (idleReason evidence.walk minute).value, minute, [], hour⟩
  | some prover =>
      if minute ∈ evidence.proofs.conflicts then
        .ok ⟨.unproven UnprovenReasonV1.runnerEvidenceConflict.value, minute, [], hour⟩
      else do
        match ← hourCheck env evidence.verdicts evidence.sealed_ evidence.symbol hour prover with
        | .inl failed => return ⟨.unproven failed, minute, [], hour⟩
        | .inr session =>
            match sealedMinute
                (sealedOf evidence.sealed_ evidence.symbol prover.captureSourceId session) minute
                (Dict.get? prover.bars minute) with
            | .inl failed => return ⟨.unproven failed.value, minute, [], hour⟩
            | .inr datasets =>
                return ⟨.proven prover.runnerSessionId session, minute, datasets, hour⟩

/-! ## The intervals -/

inductive Status where
  | proven | unproven
deriving DecidableEq, Repr

structure LivenessIntervalV1 where
  startMicros : ℤ
  endMicros : ℤ
  status : Status
  reason : Option String
  runnerSessionId : Option String := none
  captureSessionId : Option String := none
  datasets : List String := []
  hours : List ℤ := []
deriving DecidableEq

def intervalOf (first : Minute) (group : List Minute) : LivenessIntervalV1 :=
  let start := first.minute
  let end_ := ((first :: group).getLast (List.cons_ne_nil first group)).minute + minuteMicros
  match first.key with
  | .proven runner capture =>
      { startMicros := start
        endMicros := end_
        status := .proven
        reason := none
        runnerSessionId := some runner
        captureSessionId := some capture
        datasets := sortedSet id ((first :: group).flatMap Minute.datasets)
        hours := sortedSet id ((first :: group).map fun item => item.hour * 1000) }
  | .unproven reason =>
      { startMicros := start, endMicros := end_, status := .unproven, reason := some reason }

def flush (intervals : List LivenessIntervalV1) : List Minute → List LivenessIntervalV1
  | [] => intervals
  | first :: group => intervals ++ [intervalOf first group]

def group (s : List LivenessIntervalV1 × List Minute) (entry : Minute) :
    List LivenessIntervalV1 × List Minute :=
  match s.2 with
  | [] => (s.1, [entry])
  | first :: rest =>
      if first.key ≠ entry.key then (flush s.1 s.2, [entry])
      else (s.1, first :: rest ++ [entry])

def intervalsOf (minutes : List Minute) : List LivenessIntervalV1 :=
  let s := minutes.foldl group ([], [])
  flush s.1 s.2

/-! ## The reconstruction -/

structure Candidate where
  studyId : String
  trialId : String
  symbol : String
  watchedAs : Option (List (String × String))
deriving DecidableEq

structure RunnerLivenessV1 where
  candidate : Candidate
  startMicros : ℤ
  endMicros : ℤ
  bounds : Bounds
  captureMaxUnprovenNanos : ℤ
  runnerSessions : List SessionSummary
  restarts : ℕ
  refusedSessions : List Refusal
  excludedSessions : List String
  intervals : List LivenessIntervalV1
deriving DecidableEq

namespace LivenessIntervalV1

def micros (interval : LivenessIntervalV1) : ℤ := interval.endMicros - interval.startMicros

def key (interval : LivenessIntervalV1) : Status × Option String × Option String × Option String :=
  (interval.status, interval.reason, interval.runnerSessionId, interval.captureSessionId)

end LivenessIntervalV1

namespace RunnerLivenessV1

variable (liveness : RunnerLivenessV1)

def provenIntervals : List (ℤ × ℤ) :=
  (liveness.intervals.filter fun interval => interval.status = .proven).map fun interval =>
    (interval.startMicros, interval.endMicros)

def provenMicros : ℤ := (liveness.provenIntervals.map fun span => span.2 - span.1).sum

/-- One interval of the loop of `unproven_micros_by_reason`. -/
def addUnproven (out : Dict String ℤ) (interval : LivenessIntervalV1) : Dict String ℤ :=
  match interval.status, interval.reason with
  | .unproven, some reason => Dict.set out reason (Dict.getD out reason 0 + interval.micros)
  | _, _ => out

def unprovenMicrosByReason : List (String × ℤ) :=
  sortBy Prod.fst (liveness.intervals.foldl addUnproven Dict.empty).rows

end RunnerLivenessV1

def micros : DateTime → Except Exn ℤ
  | .aware instant => .ok instant
  | .naive _ => refuse "instant_must_be_timezone_aware"

/-- The checks of `watched_as`, and what is expected of a binding. -/
def expectedOf (watchedAs : List (String × String)) : Except Exn (List (String × String)) :=
  if sortedSet id (watchedAs.map Prod.fst) ≠ sortedSet id watchedAsKeys ∨
      watchedAs.any (fun entry => blank entry.2) then
    refuse "watched_as_needs_study_content_hash_authority_and_authority_evidence_hash"
  else .ok (watchedAsKeys.map fun key => (key, stripped ((watchedAs.lookup key).getD "")))

def sessionKey (row : Stored) : String :=
  match row.identity with
  | .obj fields => text env (Json.get fields "runner_session_id")
  | _ => "<malformed>"

def bySession (rows : List Stored) : List (String × List Stored) :=
  (sortedSet id (rows.map (sessionKey env))).map fun key =>
    (key, rows.filter fun row => sessionKey env row = key)

structure Sessions where
  walk : Walk := {}
  excluded : List String := []

def Sessions.refuse (s : Sessions) (sessionId : String) (reason : SessionRefusalV1) : Sessions :=
  { s with walk := { s.walk with refusals := s.walk.refusals ++ [⟨sessionId, reason⟩] } }

def readSession (studyId trialId symbol : String) (rows : List Stored) :
    Except Failure (SessionRecords × Option Json) := do
  let session ← sessionRecords env rows
  let entry ← relevant session.binding studyId trialId symbol
  return (session, entry)

def Sessions.walkEntry (s : Sessions) (bounds : Bounds)
    (expected : Option (List (String × String))) (sessionId : String) (session : SessionRecords)
    (entry : Json) : Except Exn Sessions := do
  let binding ← candidateBinding env entry
  if expected.any fun expected => decide (binding ≠ expected) then
    return { s with excluded := s.excluded ++ [sessionId] }
  else
    match walkSession env bounds s.walk session entry with
    | (walk, none) => return { s with walk }
    | (walk, some (.keyError _)) | (walk, some .typeError)
    | (walk, some (.runnerLivenessError _)) =>
        return ({ s with walk }).refuse sessionId .malformedRecord
    | (_, some error) => .error error

def Sessions.add (studyId trialId symbol : String) (bounds : Bounds)
    (expected : Option (List (String × String))) (s : Sessions)
    (entry : String × List Stored) : Except Exn Sessions :=
  match readSession env studyId trialId symbol entry.2 with
  | .error failure => do
      let reason ← failure.reason
      return s.refuse entry.1 reason
  | .ok (_, none) => .ok s
  | .ok (session, some found) => s.walkEntry env bounds expected entry.1 session found

def deriveRunnerLivenessV1 (records : List Stored) (studyId trialId symbol : String)
    (windowStart windowEnd : DateTime) (acceptance : HourlyAcceptanceV1)
    (sealed_ : List SealedBarsEvidenceV1) (bounds : Bounds)
    (watchedAs : Option (List (String × String))) : Except Exn RunnerLivenessV1 := do
  let start ← micros windowStart
  let end_ ← micros windowEnd
  if start % minuteMicros ≠ 0 ∨ end_ % minuteMicros ≠ 0 ∨ end_ ≤ start then
    refuse "window_must_be_a_non_empty_whole_minute_range"
  else if bounds.maxProgressGapNanos ≤ 0 ∨ bounds.maxClockDivergenceNanos ≤ 0 ∨
      bounds.maxProcessingLagNanos ≤ 0 then
    refuse "liveness_bounds_must_be_positive_integer_nanos"
  else
    let expected ← watchedAs.mapM expectedOf
    let sessions ← Replay.replay (Sessions.add env studyId trialId symbol bounds expected) {}
      (bySession env records)
    let proofs ← Replay.replay Proofs.add {} (claims sessions.walk.runs start end_)
    let verdicts ← hourVerdicts acceptance symbol
    let minutes ← (range start end_ minuteMicros).mapM
      (classify env ⟨sessions.walk, proofs, verdicts, sealed_, symbol⟩)
    let intervals := intervalsOf minutes
    let summaries := sortBy (fun session : SessionSummary =>
      toLex (session.startedHostWallMicros, session.runnerSessionId)) sessions.walk.sessions
    return {
      candidate := ⟨studyId, trialId, symbol, expected⟩
      startMicros := start
      endMicros := end_
      bounds
      captureMaxUnprovenNanos := acceptance.maxUnprovenNanos
      runnerSessions := summaries
      restarts := summaries.length - 1
      refusedSessions := sortBy (fun item : Refusal =>
        toLex (item.runnerSessionId, item.reason.value)) sessions.walk.refusals
      excludedSessions := sortBy id sessions.excluded
      intervals }

end RunnerLiveness

end TradePlatform
