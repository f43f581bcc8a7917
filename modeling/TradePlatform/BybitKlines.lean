/-
# `TradePlatform.BybitKlines` — the pages of a kline window, newest first

The kline pages of `bybit_crypto_provider.py`.  The venue answers with the newest bars of a
window; the adapter reads their rows, keeps the bars that lie inside the scope, and names
the next window by a cursor: the instant before the earliest open that it has seen.
-/
import TradePlatform.HistoricalIngestion
import TradePlatform.Lib.IsoText
import TradePlatform.Lib.SortBy

namespace TradePlatform.BybitKlines

open HistoricalIngestion (RawHistoricalPage Attempt CaptureResult)
open RawCapture (RawHistoricalObservation)

/-! ## Scopes and bars -/

inductive KlineKind where
  | trade | mark | index
deriving DecidableEq, Repr

namespace KlineKind

def observationKind : KlineKind → RawCapture.ObservationKind
  | trade => .ohlcv
  | mark => .markPrice
  | index => .indexPrice

def family : KlineKind → String
  | trade => "trade-kline"
  | mark => "mark-kline"
  | index => "index-kline"

def methodology : KlineKind → String
  | trade => ""
  | mark => "bybit:v5:mark-price-kline:close"
  | index => "bybit:v5:index-price-kline:close"

def expectedFields : KlineKind → ℕ
  | trade => 7
  | mark | index => 5

end KlineKind

/-- A `BybitScope` of a kline kind; its instants are in microseconds. -/
structure BybitScope where
  kind : KlineKind
  category : String
  symbol : String
  quoteAsset : String
  start : ℤ
  end_ : ℤ

def epochMilliseconds (instant : ℤ) : ℤ := instant / 1000

def BybitScope.startMs (scope : BybitScope) : ℤ := epochMilliseconds scope.start

def BybitScope.endMs (scope : BybitScope) : ℤ := epochMilliseconds scope.end_

def barWidth : ℤ := 60 * 10 ^ 6

/-- A one-minute bar: its open in milliseconds, and the other fields of its row, which are
texts of finite decimals. -/
structure Bar (decimal : String → Bool) (kind : KlineKind) where
  openMs : ℤ
  values : List String
  length : values.length + 1 = kind.expectedFields
  finite : ∀ value ∈ values, decimal value = true ∧ blank value = false

variable {decimal : String → Bool} {kind : KlineKind}

def Bar.row (bar : Bar decimal kind) : List String := toString bar.openMs :: bar.values

abbrev Venue (decimal : String → Bool) (kind : KlineKind) := Table (@Bar.openMs decimal kind)

namespace Venue

variable (venue : Venue decimal kind)

def window (startMs endMs : ℤ) : List (Bar decimal kind) :=
  sortBy (fun bar => -bar.openMs)
    (venue.rows.filter fun bar => decide (startMs ≤ bar.openMs ∧ bar.openMs ≤ endMs))

def klines (startMs endMs : ℤ) (limit : ℕ) : List (Bar decimal kind) :=
  (venue.window startMs endMs).take limit

end Venue

/-! ## Rows -/

inductive PayloadValue where
  | text (value : String)
  | int (value : ℤ)
  | texts (values : List String)
deriving DecidableEq

abbrev KlinePayload := List (String × PayloadValue)

def digitsValue? (text : List Char) : Option ℤ :=
  if text ≠ [] ∧ text.all Char.isDigit = true then some (Nat.ofDigitChars 10 text 0) else none

def providerError {α : Type} (message : String) : Except Exn α := .error (.providerError message)

def klineRow (kind : KlineKind) (row : List String) : Except Exn (List String) :=
  if row.length < kind.expectedFields then providerError "bybit_unexpected_kline_row_shape"
  else if (row.take kind.expectedFields).any blank = true then
    providerError "bybit_unexpected_kline_row_shape"
  else .ok (row.take kind.expectedFields)

def providerMilliseconds (value label : String) : Except Exn ℤ :=
  match digitsValue? value.toList with
  | some milliseconds => .ok milliseconds
  | none => providerError s!"{label}:{value}"

def decimalText (decimal : String → Bool) (value label : String) : Except Exn String :=
  if decimal value = true then .ok value else providerError s!"{label}:{value}"

/-- `_decimal_text(value, "bybit_unparseable_kline_value")` of the values, in order. -/
def klineValues (decimal : String → Bool) (values : List String) : Except Exn (List String) :=
  values.mapM fun value => decimalText decimal value "bybit_unparseable_kline_value"

def tradeKlinePayload (decimal : String → Bool) (fields : List String) (openMs : ℤ) :
    Except Exn KlinePayload := do
  match ← klineValues decimal fields.tail with
  | [opens, high, low, close, volume, turnover] =>
      return [("bar_timestamp_semantics", .text "EVENT_AT_BAR_OPEN_EFFECTIVE_AT_BAR_CLOSE_V1"),
        ("interval", .text "1m"), ("open", .text opens), ("high", .text high), ("low", .text low),
        ("close", .text close), ("volume", .text volume), ("provider_category", .text "linear"),
        ("provider_interval", .text "1"), ("provider_turnover", .text turnover),
        ("provider_bar_open_ms", .int openMs), ("provider_row", .texts fields)]
  | _ => .error .indexError

/-- `_reference_price_payload`, whose `price` is the close, read before the other values. -/
def referencePricePayload (decimal : String → Bool) (scope : BybitScope) (fields : List String)
    (openMs barCloseAt : ℤ) : Except Exn KlinePayload := do
  let price ← decimalText decimal (fields.getD 4 "") "bybit_unparseable_kline_value"
  match ← klineValues decimal fields.tail with
  | [opens, high, low, close] =>
      return [("price", .text price), ("price_asset", .text scope.quoteAsset),
        ("observed_at", .text (IsoText.Stamp.utcText barCloseAt)),
        ("methodology_reference", .text scope.kind.methodology),
        ("provider_category", .text "linear"), ("provider_interval", .text "1"),
        ("provider_bar_open_ms", .int openMs), ("provider_open", .text opens),
        ("provider_high", .text high), ("provider_low", .text low),
        ("provider_close", .text close)]
  | _ => .error .indexError

def klinePayload (decimal : String → Bool) (scope : BybitScope) (fields : List String)
    (openMs barCloseAt : ℤ) : Except Exn KlinePayload :=
  match scope.kind with
  | .trade => tradeKlinePayload decimal fields openMs
  | .mark | .index => referencePricePayload decimal scope fields openMs barCloseAt

def observation (scope : BybitScope) (sourceId rawObservationId : UUID)
    (barOpenAt barCloseAt retrievedAt : ℤ) (payload : KlinePayload) :
    RawHistoricalObservation KlinePayload where
  sourceId := sourceId
  observationKind := scope.kind.observationKind
  providerIdentifier := scope.symbol
  providerSymbol := scope.symbol
  exchange := "BYBIT"
  eventAt := .aware (if scope.kind = .trade then barOpenAt else barCloseAt)
  effectiveAt := .aware barCloseAt
  ingestedAt := .aware retrievedAt
  adjustmentStatus := .raw
  revision := 0
  provenanceUri := s!"bybit://v5/{scope.kind.family}/{scope.category}/{scope.symbol}"
  rawPayload := payload
  rawObservationId := rawObservationId

/-- What the adapter meets when it asks for a page: the request fails; or the bars come in
some order, at the time its clock gives, and a record draws its identifier. -/
inductive PageEvent (decimal : String → Bool) (kind : KlineKind) where
  | fails (error : Exn)
  | served (order : List (Bar decimal kind) → List (Bar decimal kind))
      (perm : ∀ bars, (order bars).Perm bars) (retrievedAt : ℤ) (draw : ℤ → UUID)

/-- A row of the loop: its open, and its record where the bar lies inside the scope and has
closed. -/
def readRow (decimal : String → Bool) (scope : BybitScope) (sourceId : UUID) (retrievedAt : ℤ)
    (draw : ℤ → UUID) (row : List String) :
    Except Exn (ℤ × Option (RawHistoricalObservation KlinePayload)) := do
  let fields ← klineRow scope.kind row
  let openMs ← providerMilliseconds (fields.headD "") "bybit_unparseable_kline_start_time"
  let barOpenAt := openMs * 1000
  let barCloseAt := barOpenAt + barWidth
  if barOpenAt < scope.start ∨ barCloseAt > scope.end_ then return (openMs, none)
  else if barCloseAt > retrievedAt then return (openMs, none)
  else
    let payload ← klinePayload decimal scope fields openMs barCloseAt
    return (openMs,
      some (observation scope sourceId (draw openMs) barOpenAt barCloseAt retrievedAt payload))

/-! ## Cursors -/

def timeCursor (windowEndMs : ℤ) : String := "t:" ++ toString windowEndMs

def cursorWindowEnd (cursor : Option String) (startMs endMs : ℤ) : Except Exn ℤ :=
  match cursor with
  | none => .ok (endMs - 1)
  | some cursor =>
      match cursor.toList with
      | 'c' :: ':' :: _ => providerError "bybit_cursor_kind_mismatch"
      | 't' :: ':' :: digits =>
          match digitsValue? digits with
          | none => providerError "invalid_bybit_resume_cursor"
          | some windowEndMs =>
              if ¬ (startMs ≤ windowEndMs ∧ windowEndMs ≤ endMs - 1) then
                providerError "invalid_bybit_resume_cursor"
              else .ok windowEndMs
      | _ => providerError "invalid_bybit_resume_cursor"

def klineWindowEnd (cursor : Option String) (startMs endMs : ℤ) : Except Exn ℤ := do
  let windowEndMs ← cursorWindowEnd cursor startMs endMs
  if windowEndMs < startMs then providerError "invalid_bybit_scope_window"
  else return windowEndMs

def nextTimeCursor (earliestOpenMs : Option ℤ) (startMs windowEndMs : ℤ) :
    Except Exn (Option String) :=
  match earliestOpenMs with
  | none => .ok none
  | some earliestOpenMs =>
      let nextWindowEndMs := earliestOpenMs - 1
      if nextWindowEndMs < startMs then .ok none
      else if nextWindowEndMs ≥ windowEndMs then
        providerError "bybit_kline_cursor_did_not_advance"
      else .ok (some (timeCursor nextWindowEndMs))

/-! ## Pages -/

def klinePageLimit : ℕ := 1000

def eventInstant (record : RawHistoricalObservation KlinePayload) : ℤ :=
  match record.eventAt with
  | .aware instant => instant
  | .naive wall => wall

def klinePage (venue : Venue decimal kind) (scope : BybitScope) (sourceId : UUID)
    (event : PageEvent decimal kind) (cursor : Option String) :
    Except Exn (RawHistoricalPage KlinePayload) := do
  let windowEndMs ← klineWindowEnd cursor scope.startMs scope.endMs
  match event with
  | .fails error => .error error
  | .served order _ retrievedAt draw =>
      let rows := (order (venue.klines scope.startMs windowEndMs klinePageLimit)).map Bar.row
      let reads ← rows.mapM (readRow decimal scope sourceId retrievedAt draw)
      let earliestOpenMs := (reads.map Prod.fst).min?
      let records := sortBy eventInstant (reads.filterMap Prod.snd)
      let nextCursor ← nextTimeCursor earliestOpenMs scope.startMs windowEndMs
      return ⟨records, nextCursor, "bybit-v5-public-market-v1", .aware retrievedAt⟩

def fetchRawPage (termsAccepted : Bool) (venue : Venue decimal kind) (scope : BybitScope)
    (sourceId : UUID) (event : PageEvent decimal kind) (cursor : Option String) :
    Except Exn (RawHistoricalPage KlinePayload) :=
  if termsAccepted = false then providerError "provider_terms_not_accepted"
  else klinePage venue scope sourceId event cursor

/-- An attempt over the window of a scope: its clock, its bounds, and what the adapter and the
sink meet at each page. -/
structure KlineAttempt (decimal : String → Bool) (kind : KlineKind) where
  checkedAt : DateTime
  maximumPages : ℤ
  staleAfter : ℤ
  termsAccepted : Bool
  events : ℕ → PageEvent decimal kind
  captures : ℕ → CaptureResult KlinePayload

/-- The attempt of `ingest_raw_historical_pages` with this adapter. -/
def KlineAttempt.on (attempt : KlineAttempt decimal kind) (venue : Venue decimal kind)
    (scope : BybitScope) (sourceId : UUID) : Attempt KlinePayload where
  checkedAt := attempt.checkedAt
  maximumPages := attempt.maximumPages
  staleAfter := attempt.staleAfter
  fetch n cursor :=
    fetchRawPage attempt.termsAccepted venue scope sourceId (attempt.events n) cursor
  capture := attempt.captures

/-! ## What is to be captured -/

def Bar.Inside (scope : BybitScope) (bar : Bar decimal kind) : Prop :=
  scope.start ≤ bar.openMs * 1000 ∧ bar.openMs * 1000 + barWidth ≤ scope.end_

instance (scope : BybitScope) (bar : Bar decimal kind) : Decidable (bar.Inside scope) :=
  inferInstanceAs (Decidable (_ ∧ _))

def Venue.inside (venue : Venue decimal kind) (scope : BybitScope) : List (Bar decimal kind) :=
  venue.rows.filter fun bar => decide (bar.Inside scope)

def Records (scope : BybitScope) (sourceId : UUID) (bar : Bar decimal kind)
    (record : RawHistoricalObservation KlinePayload) : Prop :=
  ∃ rawObservationId retrievedAt payload,
    klinePayload decimal scope bar.row bar.openMs (bar.openMs * 1000 + barWidth) = .ok payload ∧
      record = observation scope sourceId rawObservationId (bar.openMs * 1000)
        (bar.openMs * 1000 + barWidth) retrievedAt payload

def RecordsOf (scope : BybitScope) (sourceId : UUID) (bars : List (Bar decimal kind))
    (records : List (RawHistoricalObservation KlinePayload)) : Prop :=
  ∃ bars', bars'.Perm bars ∧ List.Forall₂ (Records scope sourceId) bars' records

/-- The captures that succeeded are the bars inside the scope, each once, and no capture that
failed has kept another. -/
structure Complete (venue : Venue decimal kind) (scope : BybitScope) (sourceId : UUID)
    (log : HistoricalIngestion.CaptureLog KlinePayload) : Prop where
  succeeded : RecordsOf scope sourceId (venue.inside scope) log.succeeded.flatten
  interrupted : ∀ record ∈ log.interrupted,
    ∃ bar ∈ venue.inside scope, Records scope sourceId bar record

def Venue.page (venue : Venue decimal kind) (scope : BybitScope) (k : ℕ) :
    List (Bar decimal kind) :=
  ((venue.window scope.startMs (scope.endMs - 1)).drop (klinePageLimit * k)).take klinePageLimit

def EpochEndsPage (venue : Venue decimal kind) (scope : BybitScope) : Prop :=
  scope.startMs < 0 ∧ ∃ k, (∃ bar ∈ venue.page scope k, bar.openMs = 0) ∧
    ∀ bar ∈ venue.page scope k, 0 ≤ bar.openMs

def BybitScope.MinuteAligned (scope : BybitScope) : Prop :=
  ∃ m n : ℤ, m < n ∧ scope.start = m * barWidth ∧ scope.end_ = n * barWidth

/-- The adapter's clock has passed `instant` when it answers. -/
def PageEvent.After (instant : ℤ) : PageEvent decimal kind → Prop
  | .fails _ => True
  | .served _ _ retrievedAt _ => instant ≤ retrievedAt

end TradePlatform.BybitKlines
