/-
# `TradePlatform.ResearchDataPlane` — frames of rows in content-addressed Parquet objects

`ResearchFrameStoreV1` of `research_data_plane_v1.py`: a sorted stream of rows is prepared,
hashed row by row and written to objects of bounded size; verification reads every object again
and hashes what it reads.  Arrow and Parquet are outside the module: how a cell becomes a typed
value, and what a file holds, is a parameter (`Env`).  A stream that is refused leaves no
manifest; the objects it may have left behind are not part of the model.
-/
import TradePlatform.Domain
import TradePlatform.Lib.DecimalParts
import TradePlatform.Lib.IsoText
import TradePlatform.Lib.JsonText
import TradePlatform.Lib.Replay

namespace TradePlatform.DataPlane

open JsonText (Text)

def refuse {α : Type} (message : String) : Except Exn α := .error (.researchDataPlaneError message)

def rowGroupRows : ℕ := 131072

def readBatchRows : ℕ := 32768

/-! ## Frame schemas -/

/-- The Arrow types in use; a decimal is a `decimal128(38, scale)`. -/
inductive ColumnType where
  | string | int32 | int64 | timestamp
  | decimal (scale : ℕ)
deriving DecidableEq, Repr

def ColumnType.text : ColumnType → String
  | .string => "string"
  | .int32 => "int32"
  | .int64 => "int64"
  | .timestamp => "timestamp[us, tz=UTC]"
  | .decimal scale => s!"decimal128(38, {scale})"

structure Field where
  name : String
  type : ColumnType
  nullable : Bool
deriving DecidableEq, Repr

structure FrameSchemaV1 where
  kind : String
  version : String
  schema : List Field
  sortKey : List String
deriving DecidableEq, Repr

def required (type : ColumnType) (name : String) : Field := ⟨name, type, false⟩

def optional (type : ColumnType) (name : String) : Field := ⟨name, type, true⟩

def decimal : ColumnType := .decimal 18

def observationClocks : List Field :=
  [required .timestamp "event_at", required .timestamp "effective_at",
    optional .timestamp "market_knowledge_at", required .timestamp "ingested_at",
    required .timestamp "platform_recorded_at"]

def observationIdentity : List Field :=
  [required .string "instrument_id", required .string "observation_kind",
    required .string "provider_identifier", required .int32 "revision",
    required .string "normalized_observation_id", required .string "raw_observation_id"]

def observationSort : List String :=
  ["instrument_id", "observation_kind", "event_at", "provider_identifier", "revision",
    "raw_observation_id"]

def referencePriceFrame : FrameSchemaV1 where
  kind := "REFERENCE_PRICE"
  version := "1"
  schema := observationIdentity ++ observationClocks ++
    [required decimal "price", required .string "price_asset"]
  sortKey := observationSort

def ohlcvFrame : FrameSchemaV1 where
  kind := "OHLCV"
  version := "1"
  schema := observationIdentity ++ observationClocks ++
    ["open", "high", "low", "close", "volume"].map (required decimal) ++
    [required .string "interval"]
  sortKey := observationSort

def openInterestFrame : FrameSchemaV1 where
  kind := "OPEN_INTEREST"
  version := "1"
  schema := observationIdentity ++ observationClocks ++
    [required decimal "open_interest", required .string "unit", optional .string "unit_asset"]
  sortKey := observationSort

def featureFrame : FrameSchemaV1 where
  kind := "FEATURE"
  version := "1"
  schema := [required .string "subject_id", required .timestamp "event_at",
    required .timestamp "effective_at", optional .timestamp "market_knowledge_at",
    optional (.decimal 12) "value"]
  sortKey := ["subject_id", "event_at"]

def t4Arrival : List Field :=
  [required .string "session_id", required .int64 "record_sequence",
    required .string "record_content_hash", required .int64 "arrival_utc_nanos",
    required .int64 "clock_bound_nanos", required .string "clock_bound_evidence",
    required .timestamp "market_knowledge_at"]

def t4ReferencePriceFrame : FrameSchemaV1 where
  kind := "T4_REFERENCE_PRICE"
  version := "1"
  schema := [required .string "observation_reference", required .string "component",
      required .string "message_type", required .int64 "exchange_ts_millis",
      required .timestamp "event_at"] ++ t4Arrival ++ [required decimal "price"]
  sortKey := ["record_sequence", "component"]

def t4BasisFrame : FrameSchemaV1 where
  kind := "T4_BASIS"
  version := "1"
  schema := [required .int64 "emitting_record_sequence", required .string "emitting_record_hash",
    required .string "mark_reference", required .string "index_reference",
    required .timestamp "event_at", required .timestamp "market_knowledge_at",
    required decimal "mark_price", required decimal "index_price", required decimal "basis"]
  sortKey := ["emitting_record_sequence"]

def t4TradeFrame : FrameSchemaV1 where
  kind := "T4_TRADE"
  version := "1"
  schema := [required .string "observation_reference", required .int64 "entry_index",
      required .string "trade_id", required .int64 "trade_ts_millis",
      required .int64 "message_ts_millis", required .timestamp "event_at",
      required .int64 "venue_seq", required .string "side", optional .string "block_trade",
      optional .string "rpi"] ++ t4Arrival ++
    [required decimal "price", required decimal "quantity"]
  sortKey := ["record_sequence", "entry_index"]

def t4Ohlcv1mFrame : FrameSchemaV1 where
  kind := "T4_OHLCV_1M"
  version := "1"
  schema := [required .timestamp "bar_open_at", required .timestamp "bar_close_at"] ++
    ["open", "high", "low", "close", "base_volume", "quote_turnover"].map (required decimal) ++
    ["trade_count", "block_trade_count", "rpi_trade_count"].map (required .int64) ++
    ["first_trade_reference", "last_trade_reference"].map (required .string) ++
    ["open_market_knowledge_at", "complete_market_knowledge_at"].map (required .timestamp) ++
    ["open_is_sequence_ambiguous", "close_is_sequence_ambiguous", "closing_record_hash",
      "trade_manifest_hash"].map (required .string)
  sortKey := ["bar_open_at"]

def t4TopOfBookFrame : FrameSchemaV1 where
  kind := "T4_TOP_OF_BOOK"
  version := "1"
  schema := [required .string "observation_reference", required .string "message_type",
      required .int64 "exchange_ts_millis", required .timestamp "event_at"] ++ t4Arrival ++
    ["bid_price", "bid_size", "ask_price", "ask_size"].map (required decimal) ++
    [required .string "book_state"]
  sortKey := ["record_sequence"]

def t4FundingFrame : FrameSchemaV1 where
  kind := "T4_FUNDING"
  version := "1"
  schema := [required .string "observation_reference", required .string "message_type",
      required .int64 "exchange_ts_millis", required .timestamp "event_at"] ++ t4Arrival ++
    [required decimal "published_funding_rate", required .timestamp "next_funding_at",
      required .int64 "funding_interval_hours", required decimal "funding_cap"]
  sortKey := ["record_sequence"]

def t2ArchiveTradeFrame : FrameSchemaV1 where
  kind := "T2_ARCHIVE_TRADE"
  version := "1"
  schema := [required .string "utc_day", required .int64 "row_index",
    required .string "trade_id", required .string "timestamp_text",
    required .int64 "trade_ts_micros", required .timestamp "event_at",
    optional .timestamp "market_knowledge_at", required .string "side",
    required .string "tick_direction", required .string "rpi", required decimal "price",
    required decimal "quantity", required decimal "published_foreign_notional",
    required .string "source_file_sha256"]
  sortKey := ["utc_day", "row_index"]

def t2ArchiveOhlcv1mFrame : FrameSchemaV1 where
  kind := "T2_ARCHIVE_OHLCV_1M"
  version := "1"
  schema := [required .timestamp "bar_open_at", required .timestamp "bar_close_at",
      optional .timestamp "market_knowledge_at"] ++
    ["open", "high", "low", "close", "base_volume", "quote_turnover"].map (required decimal) ++
    ["trade_count", "rpi_trade_count"].map (required .int64) ++
    ["open_is_order_ambiguous", "close_is_order_ambiguous"].map (required .string) ++
    [required .int64 "boundary_ambiguous_trade_count", required .string "first_trade_id",
      required .string "last_trade_id"]
  sortKey := ["bar_open_at"]

def frameSchemas : List FrameSchemaV1 :=
  [referencePriceFrame, ohlcvFrame, openInterestFrame, featureFrame, t4ReferencePriceFrame,
    t4BasisFrame, t4TradeFrame, t4Ohlcv1mFrame, t4TopOfBookFrame, t4FundingFrame,
    t2ArchiveTradeFrame, t2ArchiveOhlcv1mFrame]

/-! ## Cells and stored values -/

inductive PyDecimal where
  | finite (d : Decimal.Parts)
  | special (text : String)
deriving DecidableEq, Repr

inductive Cell where
  | none
  | bool (b : Bool)
  | str (text : String)
  | int (n : ℤ)
  | decimal (d : PyDecimal)
  | datetime (t : DateTime)
  | other (type : String)
deriving DecidableEq, Repr

def Cell.typeName : Cell → String
  | .none => "NoneType"
  | .bool _ => "bool"
  | .str _ => "str"
  | .int _ => "int"
  | .decimal _ => "Decimal"
  | .datetime _ => "datetime"
  | .other type => type

/-- A value of an Arrow column: the ticks of a decimal, the microseconds of a timestamp since the
epoch. -/
inductive Value where
  | null
  | text (s : String)
  | int (n : ℤ)
  | ticks (scale : ℕ) (n : ℤ)
  | micros (n : ℤ)
deriving DecidableEq, Repr

abbrev Row := List Cell

abbrev Arrow := List (List Value)

/-- The code outside the module: `hashlib.sha256` of texts and of files, Arrow's conversion of one
cell for a column, the file of a `ParquetWriter` that was given these tables, the schema and the
batches that are read from a file, `Decimal(str(cell))` of a cell that is no number, the local
time zone and the precision of the decimal context. -/
structure Env (File : Type) where
  sha256 : Text → String
  fileSha256 : File → String
  fileSize : File → ℕ
  pyarrowVersion : String
  array : ColumnType → Cell → Except Exn Value
  parquet : List Field → List Arrow → File
  schemaArrow : File → List Field
  iterBatches : ℕ → File → List Arrow
  spelled : Cell → Option PyDecimal
  localInstant : ℤ → ℤ
  precision : ℕ

variable {File : Type} (env : Env File)

def fingerprint (frame : FrameSchemaV1) : String :=
  env.sha256 (JsonText.object
    [("fields", JsonText.array (frame.schema.map fun field =>
        JsonText.array [JsonText.quote field.name.toList, JsonText.quote field.type.text.toList,
          JsonText.bool field.nullable])),
      ("kind", JsonText.quote frame.kind.toList),
      ("sort_key", JsonText.array (frame.sortKey.map fun name => JsonText.quote name.toList)),
      ("version", JsonText.quote frame.version.toList)])

/-! ## The canonical encoding -/

def canonicalCell : Cell → Except Exn Text
  | .none => .ok JsonText.null
  | .decimal (.finite d) => .ok (JsonText.quote d.text)
  | .decimal (.special text) => .ok (JsonText.quote text.toList)
  | .datetime (.naive _) => refuse "naive_timestamp_in_frame"
  | .datetime (.aware t) =>
      match IsoText.Stamp.utc? t with
      | some stamp => .ok (JsonText.quote stamp.isoformat)
      | none => .error .arithmeticError
  | .str text => .ok (JsonText.quote text.toList)
  | .int n => .ok (JsonText.int n)
  | cell => refuse s!"unsupported_cell_type:{cell.typeName}"

def canonicalRowBytes (row : Row) : Except Exn Text := do
  let cells ← row.mapM canonicalCell
  pure (JsonText.array cells ++ ['\n'])

/-- The pairs of `_sort_value`, in the order of their first components. -/
inductive SortValue where
  | text (s : String)
  | instant (t : ℤ)
  | number (n : ℤ)
deriving DecidableEq, Repr

def SortValue.lt : SortValue → SortValue → Bool
  | .text s, .text s' => decide (s < s')
  | .text _, _ => true
  | .instant _, .text _ => false
  | .instant t, .instant t' => decide (t < t')
  | .instant _, .number _ => true
  | .number n, .number n' => decide (n < n')
  | .number _, _ => false

def sortValue : Cell → Except Exn SortValue
  | .datetime (.aware t) =>
      match IsoText.Stamp.utc? t with
      | some _ => .ok (.instant t)
      | none => .error .arithmeticError
  | .datetime (.naive wall) => .ok (.instant (env.localInstant wall))
  | .str s => .ok (.text s)
  | .int n => .ok (.number n)
  | cell => refuse s!"unsortable_key_type:{cell.typeName}"

def keyLt : List SortValue → List SortValue → Bool
  | _, [] => false
  | [], _ :: _ => true
  | a :: as, b :: bs => a.lt b || (a == b && keyLt as bs)

/-! ## Preparing a row -/

def quantizeExact (value : PyDecimal) (scale : ℕ) (name : String) : Except Exn Decimal.Parts :=
  match value with
  | .special _ => refuse s!"non_finite_{name}"
  | .finite d =>
      match d.quantize env.precision scale with
      | none => .error .arithmeticError
      | some quantized =>
          if quantized.value ≠ d.value then refuse s!"{name}_exceeds_frame_scale"
          else .ok quantized

def decimalOf : Cell → Option PyDecimal
  | .decimal d => some d
  | .int n => some (.finite ⟨decide (n < 0), n.natAbs, 0⟩)
  | cell => env.spelled cell

def prepareDecimal (field : Field) (scale : ℕ) (cell : Cell) : Except Exn Cell :=
  match decimalOf env cell with
  | none => .error .arithmeticError
  | some d => do
      let quantized ← quantizeExact env d scale field.name
      pure (.decimal (.finite quantized))

def prepareCell (field : Field) (cell : Cell) : Except Exn Cell :=
  if cell = .none then
    if field.nullable then .ok .none
    else refuse s!"null_in_non_nullable_column:{field.name}"
  else
    match field.type with
    | .decimal scale => prepareDecimal env field scale cell
    | _ => .ok cell

def prepareRow (frame : FrameSchemaV1) (row : Row) : Except Exn Row :=
  if row.length ≠ frame.schema.length then refuse "row_width_differs_from_frame_schema"
  else (frame.schema.zip row).mapM fun x => prepareCell env x.1 x.2

/-- `row[index]`, for the index of a field; the index of a missing field is `-1`. -/
def keyCell (frame : FrameSchemaV1) (row : Row) (name : String) : Cell :=
  match frame.schema.findIdx? fun field => field.name == name with
  | some i => row.getD i .none
  | none => row.getLast?.getD .none

/-! ## The logical content hash -/

/-- What a scan of a stream has seen: the last key, the bytes that were hashed, and their rows. -/
structure Scan where
  previous : Option (List SortValue)
  digest : Text
  count : ℕ

def Scan.start : Scan := ⟨none, [], 0⟩

def outOfOrder (previous : Option (List SortValue)) (key : List SortValue) : Bool :=
  previous.any (keyLt key)

def scanRow (frame : FrameSchemaV1) (s : Scan) (raw : Row) : Except Exn (Scan × Row) := do
  let row ← prepareRow env frame raw
  let key ← frame.sortKey.mapM fun name => sortValue env (keyCell frame row name)
  if outOfOrder s.previous key then refuse "frame_rows_not_in_sort_key_order"
  else do
    let bytes ← canonicalRowBytes row
    pure (⟨some key, s.digest ++ bytes, s.count + 1⟩, row)

def logicalContentHashV1 (frame : FrameSchemaV1) (rows : List Row) : Except Exn (String × ℕ) := do
  let s ← rows.foldlM (fun s raw => (scanRow env frame s raw).map Prod.fst) Scan.start
  pure (env.sha256 s.digest, s.count)

/-! ## Manifests -/

structure FrameObjectV1 where
  sha256 : String
  bytes : ℕ
  rows : ℕ
deriving DecidableEq, Repr

structure Payload where
  schemaVersion : String
  frameKind : String
  frameSchemaVersion : String
  frameSchemaFingerprint : String
  rowCount : ℕ
  logicalContentHash : String
  objects : List FrameObjectV1
  rowsPerObject : Option ℤ
  lineage : Text
  cacheKey : Option String
deriving DecidableEq

structure FrameManifestV1 extends Payload where
  manifestHash : String

/-- `_WRITER_SETTINGS`, with the versions that a manifest adds. -/
def writerText (rowsPerObject : Option ℤ) : Text :=
  JsonText.object
    [("compression", JsonText.quote "zstd".toList), ("compression_level", JsonText.int 3),
      ("data_page_version", JsonText.quote "2.0".toList),
      ("pyarrow", JsonText.quote env.pyarrowVersion.toList),
      ("row_group_rows", JsonText.int rowGroupRows),
      ("rows_per_object", (rowsPerObject.map JsonText.int).getD JsonText.null),
      ("use_dictionary", JsonText.bool false), ("write_statistics", JsonText.bool true)]

def Payload.text (payload : Payload) : Text :=
  JsonText.object
    [("cache_key", (payload.cacheKey.map fun key => JsonText.quote key.toList).getD JsonText.null),
      ("frame_kind", JsonText.quote payload.frameKind.toList),
      ("frame_schema_fingerprint", JsonText.quote payload.frameSchemaFingerprint.toList),
      ("frame_schema_version", JsonText.quote payload.frameSchemaVersion.toList),
      ("lineage", payload.lineage),
      ("logical_content_hash", JsonText.quote payload.logicalContentHash.toList),
      ("objects", JsonText.array (payload.objects.map fun item =>
        JsonText.object [("bytes", JsonText.int item.bytes), ("rows", JsonText.int item.rows),
          ("sha256", JsonText.quote item.sha256.toList)])),
      ("row_count", JsonText.int payload.rowCount),
      ("schema_version", JsonText.quote payload.schemaVersion.toList),
      ("writer", writerText env payload.rowsPerObject)]

def hashPayload (payload : Payload) : String := env.sha256 (payload.text env)

def FrameManifestV1.integrityVerified (manifest : FrameManifestV1) : Bool :=
  decide (manifest.manifestHash = hashPayload env manifest.toPayload)

/-- The files under the root: the objects by the digest in their path, and what the manifest files
hold by the hash in theirs. -/
structure Store (File : Type) where
  objects : String → Option File
  manifests : String → Option Payload

/-! ## Writing -/

section Write

variable (frame : FrameSchemaV1) (rowsPerObject : Option ℤ)

/-- The local variables of `write_frame`; an open writer is the tables it was given. -/
structure Writer (File : Type) where
  scan : Scan
  pending : List Row
  writer : Option (List Arrow)
  objectRows : ℕ
  objects : List FrameObjectV1
  store : Store File

/-- `rows_per_object is not None and n >= rows_per_object`. -/
def reached (n : ℕ) : Bool := rowsPerObject.any fun m : ℤ => decide (m ≤ (n : ℤ))

def placeObject (store : Store File) (file : File) : Except Exn (Store File) :=
  match store.objects (env.fileSha256 file) with
  | some final =>
      if env.fileSha256 final ≠ env.fileSha256 file then refuse "content_addressed_object_corrupt"
      else .ok store
  | none => .ok { store with
      objects := Function.update store.objects (env.fileSha256 file) (some file) }

def closeWriter (w : Writer File) : Except Exn (Writer File) :=
  match w.writer with
  | none => .ok w
  | some tables => do
      let file := env.parquet frame.schema tables
      let store ← placeObject env w.store file
      pure { w with
        objects := w.objects ++ [⟨env.fileSha256 file, env.fileSize file, w.objectRows⟩]
        writer := none
        store := store }

def storeRow (row : Row) : Except Exn (List Value) :=
  (frame.schema.zip row).mapM fun x => env.array x.1.type x.2

def writeTable (w : Writer File) (table : Arrow) : Writer File :=
  let open? := w.writer.isSome
  { w with
    writer := some (w.writer.getD [] ++ [table])
    objectRows := (if open? then w.objectRows else 0) + w.pending.length
    pending := [] }

def flush (w : Writer File) : Except Exn (Writer File) :=
  if w.pending = [] then .ok w
  else do
    let table ← w.pending.mapM (storeRow env frame)
    let w := writeTable w table
    if reached rowsPerObject w.objectRows then closeWriter env frame w else pure w

def addRow (w : Writer File) (raw : Row) : Except Exn (Writer File) := do
  let scanned ← scanRow env frame w.scan raw
  let w := { w with scan := scanned.1, pending := w.pending ++ [scanned.2] }
  if w.pending.length = rowGroupRows ∨ reached rowsPerObject (w.objectRows + w.pending.length) then
    flush env frame rowsPerObject w
  else pure w

def placeManifest (store : Store File) (payload : Payload) : Except Exn (Store File) :=
  match store.manifests (hashPayload env payload) with
  | some existing =>
      if hashPayload env existing ≠ hashPayload env payload then
        refuse "content_addressed_manifest_corrupt"
      else .ok store
  | none => .ok { store with
      manifests := Function.update store.manifests (hashPayload env payload) (some payload) }

def writeFrame (store : Store File) (rows : List Row) (lineage : Text) (cacheKey : Option String) :
    Except Exn (Store File × FrameManifestV1) := do
  let w ← rows.foldlM (addRow env frame rowsPerObject) ⟨Scan.start, [], none, 0, [], store⟩
  let w ← flush env frame rowsPerObject w
  let w ← closeWriter env frame w
  let payload : Payload :=
    { schemaVersion := "research-data-plane-v1"
      frameKind := frame.kind
      frameSchemaVersion := frame.version
      frameSchemaFingerprint := fingerprint env frame
      rowCount := w.scan.count
      logicalContentHash := env.sha256 w.scan.digest
      objects := w.objects
      rowsPerObject := rowsPerObject
      lineage := lineage
      cacheKey := cacheKey }
  let store ← placeManifest env w.store payload
  pure (store, ⟨payload, hashPayload env payload⟩)

end Write

/-! ## Reading -/

def epoch : ℤ := 719163 * 86400 * 10 ^ 6

def toPython : Value → Except Exn Cell
  | .null => .ok .none
  | .text s => .ok (.str s)
  | .int n => .ok (.int n)
  | .ticks scale n => .ok (.decimal (.finite (.ofTicks scale n)))
  | .micros n =>
      match IsoText.Stamp.utc? (epoch + n) with
      | some _ => .ok (.datetime (.aware (epoch + n)))
      | none => .error .arithmeticError

abbrev Columns := List (ColumnType × List Value)

def batchColumns (schema : List Field) (batch : Arrow) : Columns :=
  schema.zipIdx.map fun x => (x.1.type, batch.map fun row => row.getD x.2 .null)

/-- The dictionary of `dictionary_encode`: the values, each once, without nulls. -/
def dictionary (joined : List Value) : List Value :=
  (joined.filter fun v => decide (v ≠ .null)).eraseDups

/-- `values[index]` of the slice of one column, where a null has no index. -/
def sharedColumn (joined : List Value) (values : List Cell) (lo numRows : ℕ) : List Cell :=
  ((joined.drop lo).take numRows).map fun v =>
    if v = .null then .none else values.getD ((dictionary joined).idxOf v) .none

/-- `groups[type]`: the positions of the columns of one type. -/
def positionsOf (columns : Columns) (type : ColumnType) : List ℕ :=
  (List.range columns.length).filter fun j => decide (columns[j]?.map Prod.fst = some type)

def joinedColumns (columns : Columns) (type : ColumnType) : List Value :=
  ((positionsOf columns type).map fun j => (columns[j]?.map Prod.snd).getD []).flatten

/-- One column of `_python_columns_v1`: the decimals of all columns of one type share a
dictionary, unless most of them differ. -/
def pythonColumn (columns : Columns) (numRows i : ℕ) (column : ColumnType × List Value) :
    Except Exn (List Cell) :=
  match column.1 with
  | .decimal _ =>
      let joined := joinedColumns columns column.1
      if joined.length * 3 < (dictionary joined).length * 4 then column.2.mapM toPython
      else do
        let values ← (dictionary joined).mapM toPython
        let offset := (positionsOf columns column.1).idxOf i
        pure (sharedColumn joined values (offset * numRows) numRows)
  | _ => column.2.mapM toPython

def pythonColumnsV1 (columns : Columns) (numRows : ℕ) : Except Exn (List (List Cell)) :=
  columns.zipIdx.mapM fun x => pythonColumn columns numRows x.2 x.1

def zipColumns (numRows : ℕ) (columns : List (List Cell)) : List Row :=
  (List.range numRows).map fun r => columns.map fun column => column.getD r .none

def readBatch (frame : FrameSchemaV1) (batch : Arrow) : Except Exn (List Row) := do
  let columns ← pythonColumnsV1 (batchColumns frame.schema batch) batch.length
  pure (zipColumns batch.length columns)

def readObject (frame : FrameSchemaV1) (store : Store File) (item : FrameObjectV1) :
    Except Exn (List Row) :=
  match store.objects item.sha256 with
  | none => .error (.osError "FileNotFoundError")
  | some file =>
      if env.schemaArrow file ≠ frame.schema then refuse "parquet_schema_differs_from_frame_schema"
      else do
        let batches ← (env.iterBatches readBatchRows file).mapM (readBatch frame)
        pure batches.flatten

def iterRows (store : Store File) (manifest : FrameManifestV1) : Except Exn (List Row) :=
  match frameSchemas.find? fun frame => decide (frame.kind = manifest.frameKind) with
  | none => refuse "frame_schema_not_recognised"
  | some frame =>
      if fingerprint env frame ≠ manifest.frameSchemaFingerprint then
        refuse "frame_schema_not_recognised"
      else do
        let objects ← manifest.objects.mapM (readObject env frame store)
        pure objects.flatten

def checkObject (store : Store File) (item : FrameObjectV1) : Except Exn Unit :=
  match store.objects item.sha256 with
  | none => refuse "frame_object_missing"
  | some file =>
      if env.fileSize file ≠ item.bytes ∨ env.fileSha256 file ≠ item.sha256 then
        refuse "frame_object_corrupt"
      else .ok ()

def verify (store : Store File) (manifest : FrameManifestV1) : Except Exn Unit :=
  if manifest.integrityVerified env = false then refuse "frame_manifest_integrity_failed"
  else do
    let _ ← manifest.objects.mapM (checkObject env store)
    let rows ← iterRows env store manifest
    let digest ← rows.mapM canonicalRowBytes
    if rows.length ≠ manifest.rowCount ∨ env.sha256 digest.flatten ≠ manifest.logicalContentHash then
      refuse "frame_logical_content_mismatch"
    else .ok ()

end TradePlatform.DataPlane
