/-
# `TradePlatform.ForwardFunding` — settled funding observed forward, and what it proves as of an instant

`bybit_forward_settled_funding_v1.py`: an observation of published settlements built from a
raw body and the clocks it arrived under, the published interval built the same way, and the
window `[start, end)` that the observations known at an instant prove.  The decoder of the
standard library, the digests and the text of an instant are parameters.
-/
import TradePlatform.ClockEvidence

namespace TradePlatform

namespace ForwardFunding

def refuse {α : Type} (message : String) : Except Exn α := .error (.forwardFundingError message)

abbrev Bytes := List UInt8

/-! ## Evidence -/

structure FundingEventV1 where
  settledAtMs : ℤ
  rateText : String
deriving DecidableEq, Repr

structure ObservationClockBoundV1 where
  venueMinusHostUpperBoundNanos : ℤ
  evidenceReference : String
deriving DecidableEq

structure EventRecord where
  settledAtMs : ℤ
  settledAt : String
  rate : String
deriving DecidableEq

def EventRecord.event (record : EventRecord) : FundingEventV1 := ⟨record.settledAtMs, record.rate⟩

structure ObservationIdentity where
  symbol : String
  requestStartMs : ℤ
  requestEndMs : ℤ
  events : List EventRecord
deriving DecidableEq

structure ObservationProvenance where
  contentHash : String
  url : String
  rawSha256 : String
  publishedServerTimeMs : ℤ
  coverageEndMs : ℤ
  observedAtHostUtcNanos : ℤ
  clockBound : Option ObservationClockBoundV1
  knowledgeAtMicros : Option ℤ
  availability : String
deriving DecidableEq

structure ForwardFundingObservationV1 where
  identity : ObservationIdentity
  contentHash : String
  provenance : ObservationProvenance
  provenanceHash : String
  idempotencyKey : String
deriving DecidableEq

structure IntervalIdentity where
  symbol : String
  hours : ℕ
deriving DecidableEq

structure IntervalProvenance where
  contentHash : String
  url : String
  rawSha256 : String
  publishedServerTimeMs : ℤ
  observedAtHostUtcNanos : ℤ
  clockBound : Option ObservationClockBoundV1
  knowledgeAtMicros : Option ℤ
deriving DecidableEq

structure PublishedFundingIntervalObservationV1 where
  identity : IntervalIdentity
  contentHash : String
  provenance : IntervalProvenance
  provenanceHash : String
  idempotencyKey : String
  rawBody : Bytes
deriving DecidableEq

structure PublishedFundingIntervalV1 where
  hours : ℕ
  sourceReference : String
  knowledgeAtMicros : ℤ
  evidence : Option PublishedFundingIntervalObservationV1
  hours_pos : 0 < hours
deriving DecidableEq

structure IntervalReference where
  hours : ℕ
  sourceReference : String
  knowledgeAtMicros : ℤ
  evidenceContentHash : Option String
  evidenceProvenance : Option IntervalProvenance
deriving DecidableEq

structure IntervalHistoryItem where
  observationId : String
  contentHash : String
  provenanceHash : String
deriving DecidableEq

inductive Completeness where
  | complete (intervalMs : ℤ)
  | irregularRefused (irregularities : List String)
deriving DecidableEq

structure WindowIdentity where
  symbol : String
  startMs : ℤ
  endMsExclusive : ℤ
  asOfMicros : ℤ
  publishedInterval : Option IntervalReference
  observations : List String
  events : List EventRecord
  completeness : Completeness
  /-- Bound by `window_as_of` only. -/
  publishedIntervalObservations : Option (List IntervalHistoryItem)
deriving DecidableEq

structure ForwardFundingWindowV1 where
  identity : WindowIdentity
  contentHash : String
deriving DecidableEq

/-- The code outside the module: `json.loads` (`none` is a decoding error), SHA-256 of bytes,
`identity_hash_v1` of each kind of identity, `uuid5` of a key in the module's namespace with
its text, and the text of an instant (`none` is an overflow). -/
structure Env where
  loads : Bytes → Option Json
  sha256 : Bytes → String
  observationHash : ObservationIdentity → String
  observationProvenanceHash : ObservationProvenance → String
  intervalHash : IntervalIdentity → String
  intervalProvenanceHash : IntervalProvenance → String
  keyHash : String → String → String
  windowHash : WindowIdentity → String
  observationUuid : String → UUID
  intervalUuid : String → UUID
  uuidText : UUID → String
  isoMs : ℤ → Option String

variable (env : Env)

def isoMs (ms : ℤ) : Except Exn String := (env.isoMs ms).elim (.error .arithmeticError) .ok

namespace ForwardFundingObservationV1

variable (o : ForwardFundingObservationV1)

def observationId : String := env.uuidText (env.observationUuid o.idempotencyKey)

def symbol : String := o.identity.symbol

def knowledgeAtMicros : Option ℤ := o.provenance.knowledgeAtMicros

def coverageMs : ℤ × ℤ := (o.identity.requestStartMs, o.provenance.coverageEndMs)

def events : List FundingEventV1 := o.identity.events.map EventRecord.event

def isAvailableAt (asOfMicros : ℤ) : Bool := o.knowledgeAtMicros.any fun known => known ≤ asOfMicros

end ForwardFundingObservationV1

namespace PublishedFundingIntervalObservationV1

variable (item : PublishedFundingIntervalObservationV1)

def observationId : String := env.uuidText (env.intervalUuid item.idempotencyKey)

def symbol : String := item.identity.symbol

end PublishedFundingIntervalObservationV1

/-! ## Canonical symbols and payload kinds -/

def canonicalSymbolsV1 : List String := ["BTCUSDT", "ETHUSDT", "SOLUSDT"]

/-- `canonical_symbol_identity_v1`: every field of the identity is made from the symbol. -/
def canonicalSymbolIdentityV1 (symbol : String) : Except Exn Unit :=
  if symbol ∈ canonicalSymbolsV1 then .ok ()
  else refuse "forward_funding_symbol_outside_the_universe"

def indicativeKeys : List String :=
  ["nextFundingTime", "fundingIntervalHour", "fundingCap", "next_funding_at",
    "published_funding_rate"]

mutual

def keys : Json → List String
  | .obj fields => keysOfFields fields
  | .arr items => keysOfItems items
  | .null | .bool _ | .int _ | .float _ | .str _ => []

def keysOfFields : List (String × Json) → List String
  | [] => []
  | field :: fields => keysOfField field ++ keysOfFields fields

def keysOfField : String × Json → List String
  | (key, value) => key :: keys value

def keysOfItems : List Json → List String
  | [] => []
  | item :: items => keys item ++ keysOfItems items

end

inductive PayloadKind where
  | settledFundingHistory | indicativeTickerFundingState | unrecognizedFundingPayload
deriving DecidableEq, Repr

/-- `payload["result"]["list"]`, where these are an object and a list. -/
def resultList : Json → Option (List Json)
  | .obj fields =>
      match Json.get fields "result" with
      | .obj result =>
          match Json.get result "list" with
          | .arr rows => some rows
          | _ => none
      | _ => none
  | _ => none

def isSettledRow : Json → Bool
  | .obj row => (row.lookup "fundingRateTimestamp").isSome
  | _ => false

def classifyBybitFundingPayloadV1 (body : Bytes) : PayloadKind :=
  match env.loads body with
  | none => .unrecognizedFundingPayload
  | some payload =>
      if (keys payload).any (· ∈ indicativeKeys) then .indicativeTickerFundingState
      else if (resultList payload).any fun rows => rows.all isSettledRow then
        .settledFundingHistory
      else .unrecognizedFundingPayload

/-! ## The strict parse of a page -/

def isDigits (text : List Char) : Bool := !text.isEmpty && text.all Char.isDigit

def digitsValue (text : List Char) : ℕ :=
  text.foldl (fun n c => 10 * n + (c.toNat - '0'.toNat)) 0

def unsigned : List Char → List Char
  | '-' :: text => text
  | text => text

/-- `_RATE_TEXT`: an optional minus, digits, and possibly a point and digits. -/
def isRateText (text : String) : Bool :=
  let body := unsigned text.toList
  let whole := body.takeWhile Char.isDigit
  match body.dropWhile Char.isDigit with
  | [] => isDigits whole
  | '.' :: fraction => isDigits whole && isDigits fraction
  | _ => false

def pageRows (payload : Json) : Except Exn (List Json) :=
  match payload with
  | .obj fields =>
      if ¬ Json.eqInt 0 (Json.get fields "retCode") then refuse "funding_ret_code_not_zero"
      else match Json.get fields "result" with
        | .obj result =>
            if (Json.get result "category").str? ≠ some "linear" then
              refuse "funding_result_is_not_linear"
            else match Json.get result "list" with
              | .arr rows => .ok rows
              | _ => refuse "funding_list_missing"
        | _ => refuse "funding_result_is_not_linear"
  | _ => refuse "funding_ret_code_not_zero"

def pageFields : List String := ["symbol", "fundingRate", "fundingRateTimestamp"]

def parseRow (symbol : String) (startMs endMs : ℤ) (seen : List FundingEventV1) (row : Json) :
    Except Exn (List FundingEventV1) :=
  match row with
  | .obj fields =>
      if ¬ (fields.map Prod.fst ⊆ pageFields ∧ pageFields ⊆ fields.map Prod.fst) then
        refuse "funding_row_fields_mismatch"
      else if (Json.get fields "symbol").str? ≠ some symbol then
        refuse "funding_row_is_not_the_requested_symbol"
      else match Json.get fields "fundingRateTimestamp" with
        | .str stamp =>
            let settled : ℤ := digitsValue stamp.toList
            if isDigits stamp.toList = false then refuse "funding_timestamp_malformed"
            else if ¬ (startMs ≤ settled ∧ settled ≤ endMs) then
              refuse "funding_timestamp_outside_the_requested_window"
            else if settled ∈ seen.map FundingEventV1.settledAtMs then
              refuse "funding_timestamp_repeated"
            else match Json.get fields "fundingRate" with
              | .str rate =>
                  if isRateText rate then .ok (seen ++ [⟨settled, rate⟩])
                  else refuse "funding_rate_malformed"
              | _ => refuse "funding_rate_malformed"
        | _ => refuse "funding_timestamp_malformed"
  | _ => refuse "funding_row_fields_mismatch"

def fundingPageLimitV1 : ℕ := 200

def parseFundingPageV1 (payload : Json) (symbol : String) (startMs endMs : ℤ) :
    Except Exn (List FundingEventV1) := do
  let rows ← pageRows payload
  if fundingPageLimitV1 ≤ rows.length then refuse "funding_page_may_be_truncated"
  else do
    let events ← rows.foldlM (parseRow symbol startMs endMs) []
    .ok (sortBy FundingEventV1.settledAtMs events)

/-- `funding_history_url_v1`; a canonical symbol is well formed. -/
def fundingHistoryUrlV1 (symbol : String) (startMs endMs : ℤ) : String :=
  "https://api.bybit.com/v5/market/funding/history?category=linear&symbol=" ++ symbol ++
    "&startTime=" ++ toString startMs ++ "&endTime=" ++ toString endMs ++ "&limit=" ++
    toString fundingPageLimitV1

/-! ## Observations -/

def serverTime (payload : Json) : Except Exn ℤ :=
  match payload with
  | .obj fields =>
      match (Json.get fields "time").int? with
      | some time =>
          if 0 < time then .ok time else refuse "funding_server_time_missing_or_malformed"
      | none => refuse "funding_server_time_missing_or_malformed"
  | _ => refuse "funding_server_time_missing_or_malformed"

def settledPayload (body : Bytes) : Except Exn Json :=
  match classifyBybitFundingPayloadV1 env body with
  | .indicativeTickerFundingState => refuse "indicative_ticker_funding_is_never_settled_evidence"
  | .unrecognizedFundingPayload => refuse "funding_payload_is_not_settled_history"
  | .settledFundingHistory => (env.loads body).elim (refuse "funding_body_not_json") .ok

def knowledgeOf (observedAtHostUtcNanos : ℤ) (clockBound : Option ObservationClockBoundV1) :
    Option ℤ :=
  clockBound.map fun bound =>
    T4.marketKnowledgeMicrosV1 observedAtHostUtcNanos bound.venueMinusHostUpperBoundNanos

def checkClocks (serverTimeMs : ℤ) (events : List FundingEventV1) (knowledge : Option ℤ) :
    Except Exn Unit :=
  if knowledge.any fun known => known < serverTimeMs * 1000 then
    refuse "server_time_contradicts_the_observation_clock_bound"
  else if knowledge.any fun known => events.any fun event => known < event.settledAtMs * 1000 then
    refuse "settlement_after_the_observation_knowledge_bound"
  else if events.any fun event => serverTimeMs < event.settledAtMs then
    refuse "settlement_after_the_published_server_time"
  else .ok ()

def eventRecord (event : FundingEventV1) : Except Exn EventRecord :=
  (isoMs env event.settledAtMs).map fun text => ⟨event.settledAtMs, text, event.rateText⟩

def availabilityOf : Option ℤ → String
  | none => "NOT_AVAILABLE_CLOCK_UNCERTAINTY_MISSING"
  | some _ => "AVAILABLE_FROM_KNOWLEDGE_TIME"

def sealObservation (identity : ObservationIdentity) (url raw : String)
    (serverTimeMs observedAtHostUtcNanos : ℤ) (clockBound : Option ObservationClockBoundV1) :
    ForwardFundingObservationV1 :=
  let contentHash := env.observationHash identity
  let knowledge := knowledgeOf observedAtHostUtcNanos clockBound
  let provenance : ObservationProvenance := {
    contentHash := contentHash
    url := url
    rawSha256 := raw
    publishedServerTimeMs := serverTimeMs
    coverageEndMs := min identity.requestEndMs serverTimeMs
    observedAtHostUtcNanos := observedAtHostUtcNanos
    clockBound := clockBound
    knowledgeAtMicros := knowledge
    availability := availabilityOf knowledge }
  let provenanceHash := env.observationProvenanceHash provenance
  ⟨identity, contentHash, provenance, provenanceHash, env.keyHash contentHash provenanceHash⟩

def observeForwardSettledFundingV1 (body : Bytes) (symbol : String)
    (startMs endMs observedAtHostUtcNanos : ℤ) (clockBound : Option ObservationClockBoundV1) :
    Except Exn ForwardFundingObservationV1 := do
  canonicalSymbolIdentityV1 symbol
  if endMs < startMs then refuse "request_window_end_before_start"
  else if observedAtHostUtcNanos ≤ 0 then refuse "observed_at_host_utc_nanos_must_be_positive"
  else do
    let payload ← settledPayload env body
    let events ← parseFundingPageV1 payload symbol startMs endMs
    let serverTimeMs ← serverTime payload
    checkClocks serverTimeMs events (knowledgeOf observedAtHostUtcNanos clockBound)
    let records ← events.mapM (eventRecord env)
    .ok (sealObservation env ⟨symbol, startMs, endMs, records⟩
      (fundingHistoryUrlV1 symbol startMs endMs) (env.sha256 body) serverTimeMs
      observedAtHostUtcNanos clockBound)

def rebuild (observation : ForwardFundingObservationV1) (rawBody : Bytes) :
    Except Exn ForwardFundingObservationV1 :=
  observeForwardSettledFundingV1 env rawBody observation.symbol
    observation.identity.requestStartMs observation.identity.requestEndMs
    observation.provenance.observedAtHostUtcNanos observation.provenance.clockBound

/-! ## Published intervals -/

/-- The `fundingIntervalHour` of a row: a decimal number without leading zeros. -/
def intervalHours (row : List (String × Json)) : Except Exn ℕ :=
  match Json.get row "fundingIntervalHour" with
  | .str text =>
      let hours := digitsValue text.toList
      if ¬ (isDigits text.toList ∧ toString hours = text) then
        refuse "published_interval_hours_malformed"
      else if hours = 0 then refuse "published_interval_hours_must_be_positive"
      else .ok hours
  | _ => refuse "published_interval_hours_malformed"

def tickerRow (fields : List (String × Json)) (symbol : String) :
    Except Exn (List (String × Json)) :=
  if (Json.get fields "retCode").int? ≠ some 0 then
    refuse "published_interval_response_not_successful"
  else match Json.get fields "result" with
    | .obj result =>
        if (Json.get result "category").str? ≠ some "linear" then
          refuse "published_interval_category_mismatch"
        else match Json.get result "list" with
          | .arr [.obj row] =>
              if (Json.get row "symbol").str? ≠ some symbol then
                refuse "published_interval_symbol_mismatch"
              else .ok row
          | _ => refuse "published_interval_requires_one_unambiguous_instrument"
    | _ => refuse "published_interval_category_mismatch"

def tickerFields (body : Bytes) : Except Exn (List (String × Json)) :=
  match env.loads body with
  | none => refuse "published_interval_payload_malformed"
  | some (.obj fields) => .ok fields
  | some _ => refuse "published_interval_response_not_successful"

def publishedServerTime (fields : List (String × Json)) : Except Exn ℤ :=
  match (Json.get fields "time").int? with
  | none => refuse "published_server_time_ms_must_be_an_integer"
  | some time => if 0 < time then .ok time else refuse "published_server_time_must_be_positive"

def tickerUrl (symbol : String) : String :=
  "https://api.bybit.com/v5/market/tickers?category=linear&symbol=" ++ symbol

def sealInterval (identity : IntervalIdentity) (body : Bytes)
    (publishedServerTimeMs observedAtHostUtcNanos : ℤ)
    (clockBound : Option ObservationClockBoundV1) : PublishedFundingIntervalObservationV1 :=
  let contentHash := env.intervalHash identity
  let provenance : IntervalProvenance := {
    contentHash := contentHash
    url := tickerUrl identity.symbol
    rawSha256 := env.sha256 body
    publishedServerTimeMs := publishedServerTimeMs
    observedAtHostUtcNanos := observedAtHostUtcNanos
    clockBound := clockBound
    knowledgeAtMicros := knowledgeOf observedAtHostUtcNanos clockBound }
  let provenanceHash := env.intervalProvenanceHash provenance
  ⟨identity, contentHash, provenance, provenanceHash, env.keyHash contentHash provenanceHash, body⟩

def observePublishedFundingIntervalV1 (body : Bytes) (symbol sourceReference : String)
    (observedAtHostUtcNanos : ℤ) (clockBound : Option ObservationClockBoundV1) :
    Except Exn PublishedFundingIntervalObservationV1 := do
  canonicalSymbolIdentityV1 symbol
  if sourceReference ≠ tickerUrl symbol then
    refuse "published_interval_source_reference_mismatch"
  else if observedAtHostUtcNanos ≤ 0 then refuse "observed_at_host_utc_nanos_must_be_positive"
  else do
    let fields ← tickerFields env body
    let row ← tickerRow fields symbol
    let hours ← intervalHours row
    let published ← publishedServerTime fields
    if (knowledgeOf observedAtHostUtcNanos clockBound).any fun known => known < published * 1000 then
      refuse "server_time_contradicts_the_observation_clock_bound"
    else .ok (sealInterval env ⟨symbol, hours⟩ body published observedAtHostUtcNanos clockBound)

def rebuildInterval (item : PublishedFundingIntervalObservationV1) :
    Except Exn PublishedFundingIntervalObservationV1 :=
  observePublishedFundingIntervalV1 env item.rawBody item.symbol item.provenance.url
    item.provenance.observedAtHostUtcNanos item.provenance.clockBound

/-- `PublishedFundingIntervalV1(hours, source_reference, known, evidence)`. -/
def PublishedFundingIntervalV1.init (hours : ℕ) (sourceReference : String)
    (knowledgeAtMicros : ℤ) (evidence : Option PublishedFundingIntervalObservationV1) :
    Except Exn PublishedFundingIntervalV1 :=
  if h : 0 < hours then .ok ⟨hours, sourceReference, knowledgeAtMicros, evidence, h⟩
  else refuse "published_interval_hours_must_be_positive"

def intervalOf (rebuilt : PublishedFundingIntervalObservationV1) :
    Except Exn PublishedFundingIntervalV1 :=
  match rebuilt.provenance.knowledgeAtMicros with
  | none => refuse "published_interval_clock_uncertainty_missing"
  | some known => PublishedFundingIntervalV1.init rebuilt.identity.hours
      (rebuilt.provenance.url ++ "#observation=" ++ rebuilt.observationId env) known (some rebuilt)

def PublishedFundingIntervalObservationV1.interval (item : PublishedFundingIntervalObservationV1) :
    Except Exn PublishedFundingIntervalV1 := do
  let rebuilt ← rebuildInterval env item
  if item ≠ rebuilt then refuse "published_interval_observation_does_not_reproduce"
  else intervalOf env rebuilt

/-! ## The window as of an instant -/

inductive Irregularity where
  | windowNotClosedAsOf
  | notCovered (start finish : ℤ)
  | settledRateConflict (at_ : ℤ)
  | publishedIntervalEvidenceMissing
  | publishedIntervalNotKnownAsOf
  | publishedIntervalSourceEvidenceUnverified
  | publishedIntervalSourceEvidenceMismatch
  | publishedIntervalSymbolMismatch
  | publishedIntervalNotKnownAtWindowStart
  | noRecordInWindow
  | oneRecordProvesNoInterval
  | spacing (earlier later : ℤ)
  | leadingEdgeNotProven (at_ : ℤ)
  | trailingEdgeNotProven (at_ : ℤ)
deriving DecidableEq

def Irregularity.text : Irregularity → Except Exn String
  | .windowNotClosedAsOf => .ok "WINDOW_NOT_CLOSED_AS_OF"
  | .notCovered start finish => do
      .ok ("NOT_COVERED:" ++ (← isoMs env start) ++ "->" ++ (← isoMs env finish))
  | .settledRateConflict at_ => do .ok ("SETTLED_RATE_CONFLICT:" ++ (← isoMs env at_))
  | .publishedIntervalEvidenceMissing => .ok "PUBLISHED_INTERVAL_EVIDENCE_MISSING"
  | .publishedIntervalNotKnownAsOf => .ok "PUBLISHED_INTERVAL_NOT_KNOWN_AS_OF"
  | .publishedIntervalSourceEvidenceUnverified =>
      .ok "PUBLISHED_INTERVAL_SOURCE_EVIDENCE_UNVERIFIED"
  | .publishedIntervalSourceEvidenceMismatch => .ok "PUBLISHED_INTERVAL_SOURCE_EVIDENCE_MISMATCH"
  | .publishedIntervalSymbolMismatch => .ok "PUBLISHED_INTERVAL_SYMBOL_MISMATCH"
  | .publishedIntervalNotKnownAtWindowStart => .ok "PUBLISHED_INTERVAL_NOT_KNOWN_AT_WINDOW_START"
  | .noRecordInWindow => .ok "NO_RECORD_IN_WINDOW"
  | .oneRecordProvesNoInterval => .ok "ONE_RECORD_PROVES_NO_INTERVAL"
  | .spacing earlier later => do
      .ok ("SPACING:" ++ (← isoMs env earlier) ++ "->" ++ (← isoMs env later) ++ ":" ++
        toString (later - earlier))
  | .leadingEdgeNotProven at_ => do .ok ("LEADING_EDGE_NOT_PROVEN:" ++ (← isoMs env at_))
  | .trailingEdgeNotProven at_ => do .ok ("TRAILING_EDGE_NOT_PROVEN:" ++ (← isoMs env at_))

def uncoveredFrom (lastMs : ℤ) : ℤ → List (ℤ × ℤ) → List Irregularity
  | cursor, [] => if cursor ≤ lastMs then [.notCovered cursor (lastMs + 1)] else []
  | cursor, (first, last) :: spans =>
      let gap := if cursor < first then [.notCovered cursor (min first (lastMs + 1))] else []
      let cursor := max cursor (last + 1)
      if lastMs < cursor then gap else gap ++ uncoveredFrom lastMs cursor spans

def uncovered (spans : List (ℤ × ℤ)) (startMs lastMs : ℤ) : List Irregularity :=
  uncoveredFrom lastMs startMs (sortBy toLex (spans.filter fun span => span.1 ≤ span.2))

def recorded (available : List ForwardFundingObservationV1) (startMs endMs : ℤ) :
    List FundingEventV1 :=
  (available.flatMap ForwardFundingObservationV1.events).filter fun event =>
    startMs ≤ event.settledAtMs ∧ event.settledAtMs < endMs

def instants (events : List FundingEventV1) : List ℤ :=
  sortedSet id (events.map FundingEventV1.settledAtMs)

def ratesAt (events : List FundingEventV1) (at_ : ℤ) : List String :=
  sortedSet id ((events.filter fun event => event.settledAtMs = at_).map FundingEventV1.rateText)

def conflicts (events : List FundingEventV1) : List Irregularity :=
  ((instants events).filter fun at_ => 1 < (ratesAt events at_).length).map .settledRateConflict

def settledEvents (events : List FundingEventV1) : List FundingEventV1 :=
  (instants events).filterMap fun at_ =>
    match ratesAt events at_ with
    | [rate] => some ⟨at_, rate⟩
    | _ => none

def judgeInterval (symbol : String) (startMs asOfMicros : ℤ) :
    Option PublishedFundingIntervalV1 → Except Exn (Irregularity ⊕ ℤ)
  | none => .ok (.inl .publishedIntervalEvidenceMissing)
  | some interval =>
      if asOfMicros < interval.knowledgeAtMicros then .ok (.inl .publishedIntervalNotKnownAsOf)
      else match interval.evidence with
        | none => .ok (.inl .publishedIntervalSourceEvidenceUnverified)
        | some evidence => do
            let own ← evidence.interval env
            .ok (if interval ≠ own then .inl .publishedIntervalSourceEvidenceMismatch
              else if evidence.symbol ≠ symbol then .inl .publishedIntervalSymbolMismatch
              else if startMs * 1000 < interval.knowledgeAtMicros then
                .inl .publishedIntervalNotKnownAtWindowStart
              else .inr (interval.hours * 3600000))

/-- `SPACING` of neighbours that are not an interval apart. -/
def spacings (intervalMs : ℤ) : List FundingEventV1 → List Irregularity
  | a :: b :: events =>
      (if b.settledAtMs - a.settledAtMs ≠ intervalMs then [.spacing a.settledAtMs b.settledAtMs]
        else []) ++ spacings intervalMs (b :: events)
  | _ => []

def countIrregularities (events : List FundingEventV1) : List Irregularity :=
  match events with
  | [] => [.noRecordInWindow]
  | [_] => [.oneRecordProvesNoInterval]
  | _ => []

def regularity (startMs endMs intervalMs : ℤ) (events : List FundingEventV1) :
    List Irregularity :=
  match events.head?, events.getLast? with
  | some first, some last =>
      spacings intervalMs events ++
        (if intervalMs ≤ first.settledAtMs - startMs then
          [.leadingEdgeNotProven first.settledAtMs] else []) ++
        (if intervalMs < endMs - last.settledAtMs then
          [.trailingEdgeNotProven last.settledAtMs] else [])
  | _, _ => []

def coverageIrregularities (startMs endMs asOfMicros : ℤ)
    (available : List ForwardFundingObservationV1) : List Irregularity :=
  (if asOfMicros < endMs * 1000 then [.windowNotClosedAsOf] else []) ++
    uncovered (available.map ForwardFundingObservationV1.coverageMs) startMs (endMs - 1) ++
    conflicts (recorded available startMs endMs)

/-- The others, in order: the interval, the number of records, their spacing and the edges. -/
def intervalIrregularities (startMs endMs : ℤ) (events : List FundingEventV1)
    (judged : Irregularity ⊕ ℤ) : List Irregularity :=
  judged.elim (fun reason => [reason]) (fun _ => []) ++ countIrregularities events ++
    judged.elim (fun _ => []) (fun intervalMs => regularity startMs endMs intervalMs events)

def completenessOf (irregular : List String) (judged : Irregularity ⊕ ℤ) : Completeness :=
  match irregular, judged with
  | [], .inr intervalMs => .complete intervalMs
  | irregular, _ => .irregularRefused irregular

def intervalReference (asOfMicros : ℤ) :
    Option PublishedFundingIntervalV1 → Option IntervalReference
  | none => none
  | some interval =>
      if asOfMicros < interval.knowledgeAtMicros then none
      else some ⟨interval.hours, interval.sourceReference, interval.knowledgeAtMicros,
        interval.evidence.map PublishedFundingIntervalObservationV1.contentHash,
        interval.evidence.map PublishedFundingIntervalObservationV1.provenance⟩

def availableAsOf (observations : List ForwardFundingObservationV1) (symbol : String)
    (asOfMicros : ℤ) : List ForwardFundingObservationV1 :=
  sortBy (fun o => o.observationId env)
    (observations.filter fun o => o.symbol = symbol ∧ o.isAvailableAt asOfMicros)

def forwardFundingWindowAsOfV1 (observations : List ForwardFundingObservationV1)
    (symbol : String) (startMs endMs asOfMicros : ℤ)
    (publishedInterval : Option PublishedFundingIntervalV1) :
    Except Exn ForwardFundingWindowV1 := do
  canonicalSymbolIdentityV1 symbol
  if endMs ≤ startMs then refuse "window_end_not_after_start"
  else do
    let available := availableAsOf env observations symbol asOfMicros
    let settled := settledEvents (recorded available startMs endMs)
    let early ← (coverageIrregularities startMs endMs asOfMicros available).mapM
      (Irregularity.text env)
    let judged ← judgeInterval env symbol startMs asOfMicros publishedInterval
    let late ← (intervalIrregularities startMs endMs settled judged).mapM (Irregularity.text env)
    let events ← settled.mapM (eventRecord env)
    let identity : WindowIdentity := {
      symbol := symbol
      startMs := startMs
      endMsExclusive := endMs
      asOfMicros := asOfMicros
      publishedInterval := intervalReference asOfMicros publishedInterval
      observations := available.map fun o => o.observationId env
      events := events
      completeness := completenessOf (early ++ late) judged
      publishedIntervalObservations := none }
    .ok ⟨identity, env.windowHash identity⟩

/-! ## The window by the interval history -/

def PublishedFundingIntervalV1.publishedAt (item : PublishedFundingIntervalV1) : Option ℤ :=
  item.evidence.map fun evidence => evidence.provenance.publishedServerTimeMs

def knownItems (items : List PublishedFundingIntervalObservationV1) (asOfMicros : ℤ) :
    List PublishedFundingIntervalObservationV1 :=
  items.filter fun item => item.provenance.knowledgeAtMicros.any fun known => known ≤ asOfMicros

def selectInterval (visible : List PublishedFundingIntervalV1) (startMs : ℤ) :
    Option PublishedFundingIntervalV1 :=
  maxBy (fun item => toLex (item.publishedAt.getD (-1), item.knowledgeAtMicros))
    (visible.filter fun item => item.knowledgeAtMicros ≤ startMs * 1000)

/-- Another published value from the selected publication on, before the window ends, or at the
same publication. -/
def contradicts (selected item : PublishedFundingIntervalV1) (endMs : ℤ) : Bool :=
  decide (item.hours ≠ selected.hours) &&
    item.publishedAt.any fun at_ => selected.publishedAt.any (fun published =>
      published ≤ at_ ∧ at_ < endMs) || selected.publishedAt = some at_

def historyItem (item : PublishedFundingIntervalObservationV1) : IntervalHistoryItem :=
  ⟨item.observationId env, item.contentHash, item.provenanceHash⟩

def boundHistory (visible : List PublishedFundingIntervalV1)
    (selected : Option PublishedFundingIntervalV1) (startMs endMs : ℤ) :
    List IntervalHistoryItem :=
  sortBy IntervalHistoryItem.observationId (visible.filterMap fun item =>
    item.evidence.bind fun evidence =>
      if evidence.provenance.publishedServerTimeMs < endMs ∧
          (item.knowledgeAtMicros ≤ startMs * 1000 ∨ selected.isSome) then
        some (historyItem env evidence)
      else none)

def Completeness.status : Completeness → String
  | .complete _ => "COMPLETE"
  | .irregularRefused _ => "IRREGULAR_REFUSED"

def Completeness.irregularities : Completeness → List String
  | .complete _ => []
  | .irregularRefused irregularities => irregularities

def bindHistory (window : ForwardFundingWindowV1) (history : List IntervalHistoryItem)
    (conflict : Bool) : ForwardFundingWindowV1 :=
  let identity := { window.identity with
    publishedIntervalObservations := some history
    completeness := if conflict then
        .irregularRefused (window.identity.completeness.irregularities ++
          ["PUBLISHED_INTERVAL_CHANGED_OR_CONTRADICTORY"])
      else window.identity.completeness }
  ⟨identity, env.windowHash identity⟩

/-- `PublishedFundingIntervalStoreV1.window_as_of`, of what `load` returned. -/
def windowAsOf (items : List PublishedFundingIntervalObservationV1)
    (observations : List ForwardFundingObservationV1) (symbol : String)
    (startMs endMs asOfMicros : ℤ) : Except Exn ForwardFundingWindowV1 := do
  let visible ← (knownItems items asOfMicros).mapM fun item => item.interval env
  let selected := selectInterval visible startMs
  let conflict := selected.any fun chosen =>
    visible.any fun item => contradicts chosen item endMs
  let window ←
    forwardFundingWindowAsOfV1 env observations symbol startMs endMs asOfMicros selected
  .ok (bindHistory env window (boundHistory env visible selected startMs endMs) conflict)

end ForwardFunding

end TradePlatform
