/-
# `TradePlatform.BybitTradeBars` — one-minute bars from captured trades

`bybit_trade_bar_reconstruction_v1.py`: the trades of captured `publicTrade` messages, and
the bar of every UTC minute that holds one.  Trades are ordered by exchange time, sequence and
trade id; when they arrived decides only when a bar and its open can be known.
-/
import TradePlatform.Domain
import TradePlatform.Lib.Json
import TradePlatform.Lib.Replay
import TradePlatform.Lib.SortBy

namespace TradePlatform

namespace BybitTradeBars

def refuse {α : Type} (message : String) : Except Exn α :=
  .error (.bybitTradeBarReconstructionError message)

/-! ## Contracts and trades -/

structure LinearContractQuantitySemanticsV1 where
  baseAsset : String
  quoteAsset : String
  quantityIsBaseAsset : Bool
deriving DecidableEq

def LinearContractQuantitySemanticsV1.validate (contract : LinearContractQuantitySemanticsV1) :
    Except Exn Unit :=
  if blank contract.baseAsset ∨ blank contract.quoteAsset then
    refuse "contract_quantity_semantics_assets_required"
  else .ok ()

def bybitBtcusdtLinearPerpetualV1 : LinearContractQuantitySemanticsV1 := ⟨"BTC", "USDT", true⟩

inductive Side where
  | buy | sell
deriving DecidableEq, Repr

/-- A number as it is written, of a positive value: what `_decimal_field` lets pass. -/
abbrev PositiveNumeral := { number : Decimal.Numeral // 0 < number.value }

structure TradeRow where
  tradeId : String
  exchangeTimestamp : ℤ
  sequence : ℤ
  price : PositiveNumeral
  quantity : PositiveNumeral
  side : Side
  localTimestampNanos : ℤ
  recordContentHash : String
deriving DecidableEq

structure CapturedPublicTradeV1 extends TradeRow where
  symbol : String
  recordId : UUID
deriving DecidableEq

namespace TradeRow

variable (row : TradeRow)

def orderingKey : ℤ ×ₗ ℤ ×ₗ String :=
  toLex (row.exchangeTimestamp, toLex (row.sequence, row.tradeId))

def group : ℤ × ℤ := (row.exchangeTimestamp, row.sequence)

def notional : Decimal :=
  Decimal.Context.default.mul row.price.val.value row.quantity.val.value

end TradeRow

/-! ## Bars -/

def barBuilderSemanticVersionV1 : String := "tardis-capture-1m-ohlcv-1.0.0"

structure TradeManifestV1 where
  symbol : String
  barOpenAt : ℤ
  trades : List TradeRow
deriving DecidableEq

/-- What the content hash of a bar is taken of, beside the lifecycle and the builder's
semantic version. -/
structure BarContentV1 where
  symbol : String
  barOpenAt : ℤ
  barCloseAt : ℤ
  openPrice : Decimal.Numeral
  highPrice : Decimal.Numeral
  lowPrice : Decimal.Numeral
  closePrice : Decimal.Numeral
  baseVolume : Decimal
  baseVolumeUnit : String
  quoteTurnover : Option Decimal
  quoteTurnoverUnit : Option String
  tradeCount : ℕ
  firstTradeId : String
  lastTradeId : String
  openAvailableAtNanos : ℤ
  barCompleteAvailableAtNanos : ℤ
  openIsSequenceAmbiguous : Bool
  closeIsSequenceAmbiguous : Bool
  tradeManifestHash : String
deriving DecidableEq

structure ReconstructedTradeBarV1 extends BarContentV1 where
  builderSemanticVersion : String
  contentHash : String
deriving DecidableEq

structure Hashes where
  manifest : TradeManifestV1 → String
  content : BarContentV1 → String

def floorToMinute (instant : ℤ) : ℤ := instant - instant % 60000000

/-- `bar_open_at + BAR_INTERVAL_V1`, an `OverflowError` past the year 9999. -/
def barCloseOf (barOpenAt : ℤ) : Except Exn ℤ :=
  if barOpenAt + 60000000 < 253402300800 * 10 ^ 6 then .ok (barOpenAt + 60000000)
  else .error .arithmeticError

def minuteBoundaryNanos (boundary : ℤ) : Except Exn ℤ :=
  if boundary % 60000000 ≠ 0 then refuse "bar_boundary_not_minute_aligned"
  else .ok (boundary * 1000)

def priceGroupAmbiguous (group : List TradeRow) : Bool :=
  decide (1 < (group.map fun row => row.price.val.value).dedup.length)

/-- `sum(values, Decimal("0")).quantize(Decimal("1E-8"))`, in the default context. -/
def quantizedSum (values : List Decimal) : Except Exn Decimal :=
  match Decimal.Arithmetic.default.quantize 8 (values.foldl Decimal.Context.default.add 0) with
  | none => .error .arithmeticError
  | some total => .ok total

section Builder

variable (hashes : Hashes) (contract : LinearContractQuantitySemanticsV1) (symbol : String)

def quoteTurnoverOf (ordered : List TradeRow) : Except Exn (Option Decimal) :=
  if contract.quantityIsBaseAsset then do
    let turnover ← quantizedSum (ordered.map TradeRow.notional)
    return some turnover
  else .ok none

def highOf (first : TradeRow) (ordered : List TradeRow) : Decimal.Numeral :=
  (maxBy Decimal.Numeral.value (ordered.map fun row => row.price.val)).getD first.price.val

def lowOf (first : TradeRow) (ordered : List TradeRow) : Decimal.Numeral :=
  (minBy Decimal.Numeral.value (ordered.map fun row => row.price.val)).getD first.price.val

def barOfOrdered (barOpenAt : ℤ) (first last : TradeRow) (ordered : List TradeRow) :
    Except Exn ReconstructedTradeBarV1 := do
  let baseVolume ← quantizedSum (ordered.map fun row => row.quantity.val.value)
  let quoteTurnover ← quoteTurnoverOf contract ordered
  let barCloseAt ← barCloseOf barOpenAt
  let boundary ← minuteBoundaryNanos barCloseAt
  let content : BarContentV1 := {
    symbol
    barOpenAt
    barCloseAt
    openPrice := first.price.val
    highPrice := highOf first ordered
    lowPrice := lowOf first ordered
    closePrice := last.price.val
    baseVolume
    baseVolumeUnit := contract.baseAsset
    quoteTurnover
    quoteTurnoverUnit := if contract.quantityIsBaseAsset then some contract.quoteAsset else none
    tradeCount := ordered.length
    firstTradeId := first.tradeId
    lastTradeId := last.tradeId
    openAvailableAtNanos := first.localTimestampNanos
    barCompleteAvailableAtNanos :=
      max boundary ((ordered.map TradeRow.localTimestampNanos).foldl max first.localTimestampNanos)
    openIsSequenceAmbiguous :=
      priceGroupAmbiguous (ordered.filter fun row => row.group = first.group)
    closeIsSequenceAmbiguous :=
      priceGroupAmbiguous (ordered.filter fun row => row.group = last.group)
    tradeManifestHash := hashes.manifest ⟨symbol, barOpenAt, ordered⟩ }
  return ⟨content, barBuilderSemanticVersionV1, hashes.content content⟩

def barOf (barOpenAt : ℤ) (bucket : List TradeRow) : Except Exn ReconstructedTradeBarV1 :=
  let ordered := sortBy TradeRow.orderingKey bucket
  match ordered.head?, ordered.getLast? with
  | some first, some last => barOfOrdered hashes contract symbol barOpenAt first last ordered
  | _, _ => .error .indexError

def bucketOf (trades : List CapturedPublicTradeV1) (barOpenAt : ℤ) : List TradeRow :=
  (trades.filter fun trade => floorToMinute trade.exchangeTimestamp = barOpenAt).map
    CapturedPublicTradeV1.toTradeRow

def minutesOf (trades : List CapturedPublicTradeV1) : List ℤ :=
  sortedSet id (trades.map fun trade => floorToMinute trade.exchangeTimestamp)

def requireSymbol (trades : List CapturedPublicTradeV1) : Except Exn Unit :=
  if blank symbol then refuse "bybit_trade_symbol_required"
  else if ∀ trade ∈ trades, trade.symbol = symbol then .ok ()
  else refuse "bybit_trade_symbol_mismatch"

def buildOneMinuteTradeBars (trades : List CapturedPublicTradeV1) :
    Except Exn (List ReconstructedTradeBarV1) := do
  contract.validate
  requireSymbol symbol trades
  (minutesOf trades).mapM fun barOpenAt =>
    barOf hashes contract symbol barOpenAt (bucketOf trades barOpenAt)

end Builder

end BybitTradeBars

end TradePlatform
