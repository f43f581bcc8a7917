/-
# `TradePlatform.T4Normalizer` — records to trades, minute bars and basis values

`T4SegmentNormalizerV1` of `first_party_t4_normalization_v1.py`: one record at a time,
with the state of the segment, every check and the bar of a minute that is proven open
and proven closed.  The decoders of the standard library and the digest of a manifest
are parameters.
-/
import TradePlatform.ClockEvidence

namespace TradePlatform

namespace T4

/-- `json.loads` (`none` is a decoding error), `Decimal(text)` (`none` is an invalid
operation, `some none` a number that is not finite), and the digest of a bar's manifest: its
minute and the references of its trades. -/
structure Codec where
  loads : String → Option Json
  decimal : String → Option (Option Decimal)
  manifestHash : ℤ → List String → String

/-! ## Observations -/

structure T4ArrivalV1 where
  sessionId : UUID
  recordSequence : ℤ
  recordContentHash : String
  arrivalUtcNanos : ℤ
  clockBoundNanos : ℤ
  clockBoundEvidence : String
deriving DecidableEq

def T4ArrivalV1.marketKnowledgeMicros (arrival : T4ArrivalV1) : ℤ :=
  marketKnowledgeMicrosV1 arrival.arrivalUtcNanos arrival.clockBoundNanos

inductive Component where
  | index | mark
deriving DecidableEq, Repr

structure T4ReferencePriceV1 where
  component : Component
  price : Decimal
  exchangeTsMillis : ℤ
  messageType : String
  arrival : T4ArrivalV1
deriving DecidableEq

structure T4BasisV1 where
  mark : T4ReferencePriceV1
  index : T4ReferencePriceV1
  basis : Decimal
  emittingRecordHash : String
deriving DecidableEq

structure T4TradeV1 where
  tradeId : String
  tradeTsMillis : ℤ
  messageTsMillis : ℤ
  venueSeq : ℤ
  side : String
  price : Decimal
  quantity : Decimal
  blockTrade : Option Bool
  rpi : Option Bool
  entryIndex : ℕ
  arrival : T4ArrivalV1
deriving DecidableEq

namespace T4TradeV1

variable (trade : T4TradeV1)

def key : ℤ ×ₗ ℤ := toLex (trade.tradeTsMillis, trade.venueSeq)

def orderingKey : ℤ ×ₗ ℤ ×ₗ ℤ ×ₗ ℕ :=
  toLex (trade.tradeTsMillis, toLex (trade.venueSeq,
    toLex (trade.arrival.recordSequence, trade.entryIndex)))

def observationReference : String :=
  "t4-trade:" ++ trade.arrival.recordContentHash ++ ":" ++ toString trade.entryIndex

/-- `(_millis_to_micros(trade_ts) // _MICROS_PER_MINUTE) * _MICROS_PER_MINUTE`. -/
def minute : ℤ := trade.tradeTsMillis * 1000 / 60000000 * 60000000

def notional (c : Decimal.Context) : Decimal := c.mul trade.price trade.quantity

end T4TradeV1

structure T4MinuteBarV1 where
  barOpenMicros : ℤ
  openPrice : Decimal
  highPrice : Decimal
  lowPrice : Decimal
  closePrice : Decimal
  baseVolume : Decimal
  quoteTurnover : Decimal
  tradeCount : ℕ
  blockTradeCount : ℕ
  rpiTradeCount : ℕ
  firstTradeReference : String
  lastTradeReference : String
  openMarketKnowledgeMicros : ℤ
  completeMarketKnowledgeMicros : ℤ
  openIsSequenceAmbiguous : Bool
  closeIsSequenceAmbiguous : Bool
  closingRecordHash : String
  tradeManifestHash : String
deriving DecidableEq

def T4MinuteBarV1.barCloseMicros (bar : T4MinuteBarV1) : ℤ := bar.barOpenMicros + 60000000

structure T4NormalizationCountsV1 where
  records : ℕ := 0
  tickerRecords : ℕ := 0
  tradeRecords : ℕ := 0
  tickerSnapshots : ℕ := 0
  tickerDeltas : ℕ := 0
  referencePrices : ℕ := 0
  markUpdates : ℕ := 0
  indexUpdates : ℕ := 0
  basisObservations : ℕ := 0
  tickerRecordsBeforeStateComplete : ℕ := 0
  trades : ℕ := 0
  bars : ℕ := 0
  barsOpenAmbiguous : ℕ := 0
  barsCloseAmbiguous : ℕ := 0
  minutesWithoutOpenProof : ℕ := 0
  minutesOpenAtSegmentEnd : ℕ := 0
deriving DecidableEq

structure T4SegmentOutputV1 where
  referencePrices : List T4ReferencePriceV1 := []
  basis : List T4BasisV1 := []
  trades : List T4TradeV1 := []
  bars : List T4MinuteBarV1 := []
deriving DecidableEq

/-! ## Numbers -/

def refuse {α : Type} (message : String) : Except Exn α := .error (.t4NormalizationError message)

def sumArithmetic : Decimal.Arithmetic := ⟨⟨Decimal.roundSig 60⟩, some 60⟩

/-- The context of `compute_basis_v1`: 50 significant digits. -/
def basisArithmetic : Decimal.Arithmetic := ⟨⟨Decimal.roundSig 50⟩, some 50⟩

def sumOf (c : Decimal.Context) (values : List Decimal) : Decimal := values.foldl c.add 0

/-- `exact_sum_v1`, at a quantum of 8 fractional digits, over values computed as it adds. -/
def exactSumV1 (values : Decimal.Context → List Decimal) (name : String) : Except Exn Decimal :=
  let total := sumOf sumArithmetic.toContext (values sumArithmetic.toContext)
  match sumArithmetic.quantize 8 total with
  | none => .error .arithmeticError
  | some quantized =>
      if quantized ≠ total then refuse (name ++ "_not_exact_at_its_quantum") else .ok quantized

def computeBasisV1 (mark index : Decimal) : Except Exn Decimal :=
  let c := basisArithmetic.toContext
  match basisArithmetic.quantize 18 (c.div (c.sub mark index) index) with
  | none => .error .arithmeticError
  | some basis => .ok basis

def strip (text : String) : String :=
  String.ofList ((((text.toList.dropWhile isSpace).reverse).dropWhile isSpace).reverse)

def decimalPositive (codec : Codec) (raw : Json) (name : String) : Except Exn Decimal :=
  let parse (text : String) : Except Exn Decimal :=
    let text := strip text
    if text = "" then refuse (name ++ "_empty")
    else
      match codec.decimal text with
      | none => refuse (name ++ "_malformed")
      | some (some value) =>
          if 0 < value then .ok value else refuse (name ++ "_not_positive_finite")
      | some none => refuse (name ++ "_not_positive_finite")
  match raw with
  | .str text => parse text
  | .int n => parse (toString n)
  | _ => refuse (name ++ "_malformed")

def optionalBool (raw : Json) (name : String) : Except Exn (Option Bool) :=
  match raw with
  | .null => .ok none
  | .bool b => .ok (some b)
  | _ => refuse (name ++ "_malformed")

/-! ## The normalizer -/

/-- The fields of a `FirstPartyCaptureRecordV1` that the normalizer reads. -/
structure FirstPartyCaptureRecordV1 where
  sessionId : UUID
  sequence : ℤ
  arrivalUtcNanos : ℤ
  channel : String
  messageType : Option String
  exchangeTimestampMillis : Option ℤ
  payloadText : String
  contentHash : String

structure T4SegmentNormalizerV1 where
  symbol : String
  sessionId : UUID
  mark : Option T4ReferencePriceV1 := none
  index : Option T4ReferencePriceV1 := none
  lastTickerCs : Option ℤ := none
  lastTickerTs : Option ℤ := none
  lastTradeKey : Option (ℤ ×ₗ ℤ) := none
  minute : Option ℤ := none
  minuteTrades : List T4TradeV1 := []
  minuteOpenProven : Bool := false
  lastSequence : Option ℤ := none
  lastArrival : Option ℤ := none
  seenTradeIds : List String := []
  finished : Bool := false
  counts : T4NormalizationCountsV1 := {}
  output : T4SegmentOutputV1 := {}

namespace T4SegmentNormalizerV1

/-- `T4SegmentNormalizerV1(exchange_symbol=.., session_id=..)`. -/
def init (exchangeSymbol : String) (sessionId : UUID) : Except Exn T4SegmentNormalizerV1 :=
  if blank exchangeSymbol then refuse "exchange_symbol_required"
  else .ok { symbol := exchangeSymbol, sessionId }

variable (codec : Codec) (s : T4SegmentNormalizerV1)

/-! ### Tickers -/

def observe (data : List (String × Json)) (component : Component) (name : String) (ts : ℤ)
    (messageType : Option String) (arrival : T4ArrivalV1) :
    Except Exn (Option T4ReferencePriceV1) :=
  match data.lookup name with
  | none => .ok none
  | some raw => do
      let price ← decimalPositive codec raw ("ticker_" ++ name)
      return some ⟨component, price, ts, messageType.getD "None", arrival⟩

def tickerCs (payload : List (String × Json)) : Except Exn (Option ℤ) :=
  match Json.get payload "cs" with
  | .null => .ok s.lastTickerCs
  | .int cs =>
      if s.lastTickerCs.any fun last => decide (cs < last) then
        refuse "ticker_cross_sequence_regressed"
      else .ok (some cs)
  | _ => refuse "ticker_cross_sequence_malformed"

def emitBasis (arrival : T4ArrivalV1) : Except Exn T4SegmentNormalizerV1 :=
  match s.mark, s.index with
  | some mark, some index =>
      if arrival.arrivalUtcNanos <
          max mark.arrival.arrivalUtcNanos index.arrival.arrivalUtcNanos then
        refuse "ticker_future_component_leak"
      else do
        let basis ← computeBasisV1 mark.price index.price
        return { s with
          output := { s.output with
            basis := s.output.basis ++ [⟨mark, index, basis, arrival.recordContentHash⟩] }
          counts := { s.counts with basisObservations := s.counts.basisObservations + 1 } }
  | _, _ =>
      .ok { s with counts := { s.counts with
        tickerRecordsBeforeStateComplete := s.counts.tickerRecordsBeforeStateComplete + 1 } }

def feedTicker (payload : List (String × Json)) (ts : ℤ) (messageType : Option String)
    (arrival : T4ArrivalV1) : Except Exn T4SegmentNormalizerV1 :=
  match Json.get payload "data" with
  | .obj data =>
      if (Json.get data "symbol").str? ≠ some s.symbol then refuse "ticker_payload_malformed"
      else do
        let cs ← s.tickerCs payload
        if s.lastTickerTs.any fun last => decide (ts < last) then
          refuse "ticker_ts_regressed_within_segment"
        else
          let index ← observe codec data .index "indexPrice" ts messageType arrival
          let mark ← observe codec data .mark "markPrice" ts messageType arrival
          let observed := index.toList ++ mark.toList
          let counts := { s.counts with
            tickerRecords := s.counts.tickerRecords + 1
            referencePrices := s.counts.referencePrices + observed.length
            markUpdates := s.counts.markUpdates + mark.toList.length
            indexUpdates := s.counts.indexUpdates + index.toList.length }
          let s := { s with
            lastTickerCs := cs
            lastTickerTs := some ts
            output := { s.output with referencePrices := s.output.referencePrices ++ observed } }
          let s ← match messageType with
            | some "snapshot" =>
                .ok { s with
                  mark, index
                  counts := { counts with tickerSnapshots := counts.tickerSnapshots + 1 } }
            | some "delta" =>
                .ok { s with
                  mark := mark.or s.mark
                  index := index.or s.index
                  counts := { counts with tickerDeltas := counts.tickerDeltas + 1 } }
            | _ => refuse "ticker_message_type_not_recognized"
          if observed = [] then .ok s else s.emitBasis arrival
  | _ => refuse "ticker_payload_malformed"

/-! ### Trades and bars -/

def bar (minute : ℤ) (trades : List T4TradeV1) (closing : T4ArrivalV1) :
    Except Exn T4MinuteBarV1 :=
  let ordered := sortBy T4TradeV1.orderingKey trades
  match ordered.head?, ordered.getLast? with
  | some first, some last => do
      let leading := ordered.filter fun trade => trade.key = first.key
      let trailing := ordered.filter fun trade => trade.key = last.key
      let baseVolume ← exactSumV1 (fun _ => ordered.map T4TradeV1.quantity) "bar_volume"
      let quoteTurnover ←
        exactSumV1 (fun c => ordered.map (T4TradeV1.notional · c)) "bar_turnover"
      return {
        barOpenMicros := minute
        openPrice := first.price
        highPrice := (ordered.map T4TradeV1.price).foldl max first.price
        lowPrice := (ordered.map T4TradeV1.price).foldl min first.price
        closePrice := last.price
        baseVolume, quoteTurnover
        tradeCount := ordered.length
        blockTradeCount := ordered.countP fun trade => trade.blockTrade = some true
        rpiTradeCount := ordered.countP fun trade => trade.rpi = some true
        firstTradeReference := first.observationReference
        lastTradeReference := last.observationReference
        openMarketKnowledgeMicros := first.arrival.marketKnowledgeMicros
        completeMarketKnowledgeMicros :=
          (ordered.map fun trade => trade.arrival.marketKnowledgeMicros).foldl max
            (max (minute + 60000000) closing.marketKnowledgeMicros)
        openIsSequenceAmbiguous := leading.any fun trade => trade.price ≠ first.price
        closeIsSequenceAmbiguous := trailing.any fun trade => trade.price ≠ last.price
        closingRecordHash := closing.recordContentHash
        tradeManifestHash :=
          codec.manifestHash minute (ordered.map T4TradeV1.observationReference) }
  | _, _ => .error .indexError

def closeMinute (closing : T4ArrivalV1) : Except Exn T4SegmentNormalizerV1 :=
  match s.minute with
  | none => .ok s
  | some minute =>
      let closed := { s with minute := none, minuteTrades := [] }
      if s.minuteOpenProven = false then
        .ok { closed with counts := { s.counts with
          minutesWithoutOpenProof := s.counts.minutesWithoutOpenProof + 1 } }
      else do
        let bar ← bar codec minute s.minuteTrades closing
        return { closed with
          output := { s.output with bars := s.output.bars ++ [bar] }
          counts := { s.counts with
            bars := s.counts.bars + 1
            barsOpenAmbiguous := s.counts.barsOpenAmbiguous + bar.openIsSequenceAmbiguous.toNat
            barsCloseAmbiguous :=
              s.counts.barsCloseAmbiguous + bar.closeIsSequenceAmbiguous.toNat } }

def addTrade (trade : T4TradeV1) : T4SegmentNormalizerV1 :=
  { s with
    minuteTrades := s.minuteTrades ++ [trade]
    lastTradeKey := some trade.key
    output := { s.output with trades := s.output.trades ++ [trade] }
    counts := { s.counts with trades := s.counts.trades + 1 } }

/-- The minute of the trade is the open one; it is open proven when a trade was seen before. -/
def openMinute (trade : T4TradeV1) : T4SegmentNormalizerV1 :=
  { s with minute := some trade.minute, minuteOpenProven := s.lastTradeKey.isSome }

/-- The end of the loop over the entries: the trade closes the minute before it, or opens
its own, and is added to it. -/
def acceptTrade (trade : T4TradeV1) : Except Exn T4SegmentNormalizerV1 := do
  -- a trade past the open minute proves that no further trade of that minute exists
  let s ←
    if s.minute.any (· ≠ trade.minute) then s.closeMinute codec trade.arrival else .ok s
  return (if s.minute = none then s.openMinute trade else s).addTrade trade

def feedTrade (messageTs : ℤ) (arrival : T4ArrivalV1) (s : T4SegmentNormalizerV1)
    (entry : Json × ℕ) : Except Exn T4SegmentNormalizerV1 :=
  match entry.1 with
  | .obj fields =>
      if (Json.get fields "s").str? ≠ some s.symbol then refuse "trade_entry_malformed"
      else
        match (Json.get fields "i").str?, (Json.get fields "T").int?,
            (Json.get fields "seq").int?, (Json.get fields "S").str? with
        | none, _, _, _ => refuse "trade_id_missing"
        | some tradeId, tradeTs, venueSeq, side =>
            if blank tradeId then refuse "trade_id_missing"
            else
              match tradeTs with
              | none => refuse "trade_time_malformed"
              | some tradeTs =>
                  if tradeTs ≤ 0 then refuse "trade_time_malformed"
                  else if messageTs < tradeTs then refuse "trade_time_after_its_message"
                  else
                    match venueSeq with
                    | none => refuse "trade_venue_seq_missing"
                    | some venueSeq =>
                        if side ≠ some "Buy" ∧ side ≠ some "Sell" then
                          refuse "trade_side_malformed"
                        else if tradeId ∈ s.seenTradeIds then
                          refuse "trade_id_repeated_within_segment"
                        else if s.lastTradeKey.any fun last =>
                            decide (toLex (tradeTs, venueSeq) < last) then
                          refuse "trade_order_regressed_within_segment"
                        else do
                          let price ← decimalPositive codec (Json.get fields "p") "trade_price"
                          let quantity ←
                            decimalPositive codec (Json.get fields "v") "trade_quantity"
                          let block ← optionalBool (Json.get fields "BT") "trade_block_flag"
                          let rpi ← optionalBool (Json.get fields "RPI") "trade_rpi_flag"
                          acceptTrade codec { s with seenTradeIds := tradeId :: s.seenTradeIds }
                            ⟨tradeId, tradeTs, messageTs, venueSeq, side.getD "", price, quantity,
                              block, rpi, entry.2, arrival⟩
  | _ => refuse "trade_entry_malformed"

def feedTrades (payload : List (String × Json)) (ts : ℤ) (arrival : T4ArrivalV1) :
    Except Exn T4SegmentNormalizerV1 :=
  match Json.get payload "data" with
  | .arr (entry :: entries) =>
      (entry :: entries).zipIdx.foldlM (feedTrade codec ts arrival)
        { s with counts := { s.counts with tradeRecords := s.counts.tradeRecords + 1 } }
  | _ => refuse "trade_payload_malformed"

/-! ### Records -/

def arrivalOf (record : FirstPartyCaptureRecordV1) (bound : ArrivalClockBoundEvidenceV1) :
    T4ArrivalV1 where
  sessionId := record.sessionId
  recordSequence := record.sequence
  recordContentHash := record.contentHash
  arrivalUtcNanos := record.arrivalUtcNanos
  clockBoundNanos := bound.venueMinusHostUpperBoundNanos
  clockBoundEvidence := "session-rtt-sample-bracket-max-upper-v1:prior=" ++
    bound.priorSampleHash ++ ":next=" ++ bound.nextSampleHash

def countRecord (record : FirstPartyCaptureRecordV1) : T4SegmentNormalizerV1 :=
  { s with
    lastSequence := some record.sequence
    lastArrival := some record.arrivalUtcNanos
    counts := { s.counts with records := s.counts.records + 1 } }

def feed (s : T4SegmentNormalizerV1)
    (input : FirstPartyCaptureRecordV1 × ArrivalClockBoundEvidenceV1) :
    Except Exn T4SegmentNormalizerV1 :=
  let record := input.1
  let arrival := arrivalOf record input.2
  if s.finished = true then refuse "segment_already_finished"
  else if record.sessionId ≠ s.sessionId then refuse "record_from_another_session"
  else if s.lastSequence.any fun last => decide (record.sequence ≤ last) then
    refuse "record_sequence_not_increasing"
  else if s.lastArrival.any fun last => decide (record.arrivalUtcNanos < last) then
    refuse "record_arrival_regressed"
  else
    match codec.loads record.payloadText with
    | none => .error (.valueError "JSONDecodeError")
    | some (.obj payload) =>
        match (Json.get payload "ts").int? with
        | none => refuse "record_exchange_timestamp_disagrees_with_payload"
        | some ts =>
            if record.exchangeTimestampMillis ≠ some ts then
              refuse "record_exchange_timestamp_disagrees_with_payload"
            else if arrival.marketKnowledgeMicros < ts * 1000 then
              refuse "clock_bound_places_knowledge_before_venue_event"
            else
              let s := s.countRecord record
              if record.channel = "tickers" then
                s.feedTicker codec payload ts record.messageType arrival
              else if record.channel = "publicTrade" then s.feedTrades codec payload ts arrival
              else refuse "record_channel_not_normalizable"
    | some _ => .error (.attributeError "get")

def finish : Except Exn (T4SegmentOutputV1 × T4SegmentNormalizerV1) :=
  if s.finished = true then refuse "segment_already_finished"
  else
    .ok (s.output, { s with
      finished := true
      minute := none
      minuteTrades := []
      counts := { s.counts with
        minutesOpenAtSegmentEnd := if s.minute = none then 0 else 1 } })

/-- A new normalizer, `feed` of each record in order, and `finish`. -/
def feedAndFinish (exchangeSymbol : String) (sessionId : UUID)
    (records : List (FirstPartyCaptureRecordV1 × ArrivalClockBoundEvidenceV1)) :
    Except Exn (T4SegmentOutputV1 × T4NormalizationCountsV1) := do
  let s ← init exchangeSymbol sessionId
  let s ← Replay.replay (feed codec) s records
  let (output, s) ← s.finish
  return (output, s.counts)

end T4SegmentNormalizerV1

end T4

end TradePlatform
