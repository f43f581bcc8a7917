/-
# `TradePlatform.AcquisitionEvidence` — the evidence store of historical acquisition

The tables that `capture_raw`, `normalize` and `seal_dataset` of `historical_market_data.py`
write, and the views that `historical_acquisition.py` reads of them.  Rows are only ever added.
A normalized row is one of its raw row, a dataset is one of its source and version, and its
members are rows that were there when it was sealed; so the view of a sealed dataset does not
change as the store grows (`Database.Le.view`).
-/
import TradePlatform.ScheduledAcquisition
import TradePlatform.Lib.SortBy

namespace TradePlatform.Acquisition

open RawCapture (ObservationKind RawRow RawStore)
open ScheduledAcquisition (Text SealedDatasetView)

/-! ## The tables -/

inductive QualityStatus where
  | validated | rejected
deriving DecidableEq

/-- A row of `historical_normalized_observations`; `sidecar` is what the typed tables hold for it,
as a seal reads it back. -/
structure NormalizedRow where
  normalizedObservationId : UUID
  rawObservationId : UUID
  instrumentId : String
  normalizationVersion : String
  normalizedValue : String
  qualityStatus : QualityStatus
  qualityIssues : List String
  normalizedAt : ℤ
  sidecar : Except Exn (List String)

/-- A row of `historical_dataset_versions`, with its `historical_dataset_members`. -/
structure DatasetRow where
  datasetVersionId : UUID
  sourceId : UUID
  version : Text
  normalizationVersion : String
  contentHash : String
  validFrom : ℤ
  validUntil : ℤ
  createdAt : ℤ
  members : List UUID
deriving DecidableEq

def DatasetRow.key (row : DatasetRow) : UUID × Text := (row.sourceId, row.version)

/-- `historical_normalized_observations`: `raw_observation_id` is unique, and so is the id. -/
structure NormalizedStore where
  table : Table NormalizedRow.rawObservationId
  ids : (table.rows.map NormalizedRow.normalizedObservationId).Nodup

namespace NormalizedStore

def empty : NormalizedStore := ⟨.empty _, List.nodup_nil⟩

end NormalizedStore

structure Database {P : Type} (env : RawCapture.Env P) where
  raw : RawStore env
  normalized : NormalizedStore
  datasets : Table DatasetRow.key
  featureCounts : UUID → UUID → ℕ

variable {P : Type} {env : RawCapture.Env P}

def instantOf : DateTime → ℤ
  | .aware t => t
  | .naive t => t

namespace Database

def empty : Database env := ⟨.empty, .empty, .empty _, fun _ _ => 0⟩

variable (db : Database env)

def rawRow (id : UUID) : Option RawRow :=
  db.raw.table.rows.find? fun row => decide (row.rawObservationId = id)

def member (id : UUID) : Option (NormalizedRow × RawRow) := do
  let row ← db.normalized.table.rows.find? fun row => decide (row.normalizedObservationId = id)
  let raw ← db.rawRow row.rawObservationId
  return (row, raw)

def view (row : DatasetRow) : SealedDatasetView :=
  let rows := row.members.filterMap db.member
  let ofKind := fun kind => rows.filter fun m => decide (m.2.observationKind = kind)
  { datasetVersionId := row.datasetVersionId
    normalizationVersion := row.normalizationVersion
    instrumentIds := (rows.map fun m => m.1.instrumentId).toFinset
    providerIdentifiers := (rows.map fun m => m.2.providerIdentifier).toFinset
    providerSymbols := (rows.map fun m => m.2.providerSymbol).toFinset
    eventAtsByKind := fun kind =>
      if ofKind kind = [] then none
      else some ((ofKind kind).map fun m => instantOf m.2.eventAt).toFinset
    memberCountByKind := fun kind => (ofKind kind).length }

end Database

/-! ## What a call of `acquire` is checked against -/

def allowedObservationKinds : Finset ObservationKind :=
  {.ohlcv, .markPrice, .indexPrice, .openInterest}

def bybitV5SymbolNamespace : String := "bybit_v5_symbol"

structure SourceProfile where
  provider : String
  providerIdentifierNamespace : String
  assetScope : String
  capabilities : Finset ObservationKind

def kindList (kinds : Finset ObservationKind) : String :=
  ",".intercalate (((ScheduledAcquisition.allKinds.filter fun kind => decide (kind ∈ kinds)).map
    ObservationKind.value).mergeSort)

/-- What `materialize_features` does, and what the feature tables hold after it. -/
structure FeatureRun where
  basisFeatureId : Except String UUID
  openInterestFeatureId : Except String UUID
  materialized : Except String (ℤ × ℤ)
  counts : (UUID → UUID → ℕ) → UUID → UUID → ℕ

/-! ## Sealing -/

section Seal

variable (texts : ScheduledAcquisition.Env) (db : Database env)

def marketError {α : Type} (message : String) : Except Exn α :=
  .error (.historicalMarketDataError message)

def memberLine (m : NormalizedRow × RawRow) : Except Exn String := do
  let sidecar ← m.1.sidecar
  return "|".intercalate ([texts.uuidText m.1.normalizedObservationId, m.2.rawPayloadSha256,
    m.2.observationKind.value, m.1.normalizedValue] ++ sidecar)

def digestOf (rows : List (NormalizedRow × RawRow)) : Except Exn (String × ℤ × ℤ) := do
  let lines ← rows.mapM (memberLine texts)
  let events := rows.map fun m => instantOf m.2.eventAt
  return (texts.sha256 (String.join lines), events.min?.getD 0, events.max?.getD 0)

/-- `_proven_member_digest`: the members in the order of the texts of their ids, which is that of
the ids, and none twice. -/
def provenMemberDigest (sourceId : UUID) (normalizationVersion : String) (ids : List UUID)
    (createdAt : ℤ) : Except Exn (String × ℤ × ℤ) :=
  let rows := (sortBy id ids).filterMap db.member
  if rows.length ≠ ids.length then marketError "dataset_member_not_found"
  else if rows.any fun m => decide (m.2.sourceId ≠ sourceId) then
    marketError "dataset_source_mismatch"
  else if rows.any fun m => decide (m.1.normalizationVersion ≠ normalizationVersion) then
    marketError "dataset_normalization_version_mismatch"
  else if rows.any fun m => decide (m.1.qualityStatus ≠ .validated) then
    marketError "rejected_observation_cannot_enter_dataset"
  else if rows.any fun m => decide (createdAt < m.1.normalizedAt ∨
      createdAt < instantOf m.2.ingestedAt) then
    marketError "dataset_created_before_member_available"
  else digestOf texts rows

/-- The transaction that writes the dataset and its members: one dataset of a version, of an id,
and of a digest. -/
def insertDataset (row : DatasetRow) : Except Exn (DatasetRow × Database env) :=
  if db.datasets.find? row.key = none ∧
      (∀ other ∈ db.datasets.rows, other.datasetVersionId ≠ row.datasetVersionId ∧
        other.contentHash ≠ row.contentHash) then
    .ok (row, { db with datasets := db.datasets.put row })
  else marketError "historical_dataset_seal_failed"

def sealDataset (id sourceId : UUID) (version : Text) (normalizationVersion : String)
    (normalizedIds : List UUID) (createdAt : ℤ) : Except Exn (DatasetRow × Database env) := do
  if blank (String.ofList version) then marketError "invalid_dataset_version"
  else if blank normalizationVersion then marketError "invalid_normalization_version"
  else if normalizedIds = [] ∨ ¬ normalizedIds.Nodup then marketError "invalid_dataset_members"
  else
    let (contentHash, validFrom, validUntil) ←
      provenMemberDigest texts db sourceId normalizationVersion normalizedIds createdAt
    insertDataset db
      { datasetVersionId := id
        sourceId := sourceId
        version := version
        normalizationVersion := normalizationVersion
        contentHash := contentHash
        validFrom := validFrom
        validUntil := validUntil
        createdAt := createdAt
        members := normalizedIds }

end Seal

/-! ## A store that grows -/

section Growth

variable {db db' : Database env}

theorem find?_by_id {α : Type} {ids : α → UUID} {rows : List α} (hnodup : (rows.map ids).Nodup)
    {id : UUID} {row : α} :
    (rows.find? fun r => decide (ids r = id)) = some row ↔ row ∈ rows ∧ ids row = id :=
  Table.find?_eq_some (t := ⟨rows, hnodup⟩)

theorem Database.rawRow_eq_some {id : UUID} {row : RawRow} :
    db.rawRow id = some row ↔ row ∈ db.raw.table.rows ∧ row.rawObservationId = id :=
  find?_by_id db.raw.ids

theorem Database.member_eq_some {id : UUID} {m : NormalizedRow × RawRow} :
    db.member id = some m ↔ (m.1 ∈ db.normalized.table.rows ∧ m.1.normalizedObservationId = id) ∧
      db.rawRow m.1.rawObservationId = some m.2 := by
  obtain ⟨row, raw⟩ := m
  simp only [Database.member, bind, Option.bind_eq_some_iff, pure, Option.some.injEq,
    Prod.mk.injEq, find?_by_id db.normalized.ids]
  constructor
  · rintro ⟨row', hrow, raw', hraw, rfl, rfl⟩
    exact ⟨hrow, hraw⟩
  · rintro ⟨hrow, hraw⟩
    exact ⟨row, hrow, raw, hraw, rfl, rfl⟩

structure Database.Le (db db' : Database env) : Prop where
  raw : db.raw.table.rows ⊆ db'.raw.table.rows
  normalized : db.normalized.table.rows ⊆ db'.normalized.table.rows
  datasets : db.datasets.rows ⊆ db'.datasets.rows

theorem Database.Le.refl (db : Database env) : db.Le db := ⟨fun _ h => h, fun _ h => h, fun _ h => h⟩

theorem Database.Le.trans {db'' : Database env} (h : db.Le db') (h' : db'.Le db'') :
    db.Le db'' :=
  ⟨fun _ hr => h'.raw (h.raw hr), fun _ hr => h'.normalized (h.normalized hr),
    fun _ hr => h'.datasets (h.datasets hr)⟩

theorem Database.Le.rawRow (h : db.Le db') {id : UUID} {row : RawRow}
    (hrow : db.rawRow id = some row) : db'.rawRow id = some row := by
  obtain ⟨hmem, hid⟩ := Database.rawRow_eq_some.mp hrow
  exact Database.rawRow_eq_some.mpr ⟨h.raw hmem, hid⟩

theorem Database.Le.member (h : db.Le db') {id : UUID} {m : NormalizedRow × RawRow}
    (hm : db.member id = some m) : db'.member id = some m := by
  obtain ⟨⟨hmem, hid⟩, hraw⟩ := Database.member_eq_some.mp hm
  exact Database.member_eq_some.mpr ⟨⟨h.normalized hmem, hid⟩, h.rawRow hraw⟩

theorem Database.Le.find? (h : db.Le db') {key : UUID × Text} {row : DatasetRow}
    (hrow : db.datasets.find? key = some row) : db'.datasets.find? key = some row := by
  obtain ⟨hmem, hkey⟩ := Table.find?_eq_some.mp hrow
  exact Table.find?_eq_some.mpr ⟨h.datasets hmem, hkey⟩

def Database.Joined (db : Database env) (row : DatasetRow) : Prop :=
  ∀ id ∈ row.members, ∃ m, db.member id = some m

theorem Database.Le.view (h : db.Le db') {row : DatasetRow} (hjoined : db.Joined row) :
    db'.view row = db.view row := by
  have hrows : row.members.filterMap db'.member = row.members.filterMap db.member := by
    refine List.filterMap_congr fun id hid => ?_
    obtain ⟨m, hm⟩ := hjoined id hid
    rw [hm, h.member hm]
  simp only [Database.view, hrows]

end Growth

end TradePlatform.Acquisition
