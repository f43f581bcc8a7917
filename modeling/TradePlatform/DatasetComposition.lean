/-
# `TradePlatform.DatasetComposition` — one sealed dataset of several

`historical_dataset_composition_v1.py`: the window that is asked for is tiled by the windows of
sealed parents; each parent is proven by the identity of its members, and their union is sealed
under a version that the request determines.  A call reads and writes in separate transactions;
`Phase.next` is what it does in one of them, so that calls can be interleaved between.
-/
import TradePlatform.AcquisitionEvidence

namespace TradePlatform.Composition

open RawCapture (ObservationKind)
open ScheduledAcquisition (Text HistoricalAcquisitionRequest oneMinute openInterestGrid
  bybitProviderName bybitInstrumentId bybitSymbol expectedEventAts sealedDatasetMatchesRequest
  allKinds windowStamp)
open Acquisition (Database DatasetRow FeatureRun SourceProfile allowedObservationKinds
  bybitV5SymbolNamespace kindList sealDataset)

def refuse {α : Type} (code : String) : Except Exn α := .error (.datasetCompositionError code)

def require (condition : Prop) [Decidable condition] (code : String) : Except Exn Unit :=
  if condition then .ok () else refuse code

/-! ## Requests -/

/-- A `datetime`: its wall clock, and its `utcoffset()` if it is aware. -/
structure Time where
  wall : ℤ
  offset : Option ℤ
deriving DecidableEq

structure CompositionParent where
  datasetVersionId : UUID
  datasetVersion : Text
  contentHash : String
  start : Time
  stop : Time

structure DatasetCompositionRequest where
  sourceId : UUID
  instrumentId : String
  provider : String
  providerSymbol : String
  normalizationVersion : String
  observationKinds : Finset ObservationKind
  start : Time
  stop : Time
  parents : List CompositionParent
  materializeFeatures : Bool

def iso (time : Time) : String := IsoText.Stamp.utcText time.wall

section Identity

variable (texts : ScheduledAcquisition.Env) (request : DatasetCompositionRequest)

def compositionSemanticVersion : String := "trade_platform.historical_dataset_composition.v1"

def parentText (parent : CompositionParent) : String :=
  "|".intercalate [texts.uuidText parent.datasetVersionId, String.ofList parent.datasetVersion,
    parent.contentHash, iso parent.start, iso parent.stop]

def compositionIdentityHash : String :=
  texts.sha256 ("|".intercalate
    [compositionSemanticVersion, request.provider, texts.uuidText request.sourceId,
      request.instrumentId, request.providerSymbol, request.normalizationVersion,
      kindList request.observationKinds, iso request.start, iso request.stop,
      ";".intercalate (request.parents.map (parentText texts))])

def composedDatasetVersion : Text :=
  "bybit-research-composite-v1:".toList ++
    ((compositionIdentityHash texts request).toList.take 16 ++
      ':' :: (windowStamp request.start.wall ++ ':' :: windowStamp request.stop.wall))

def targetKey : UUID × Text := (request.sourceId, composedDatasetVersion texts request)

end Identity

/-! ## The checks of a request -/

def validateWindow (start stop : Time) (kinds : Finset ObservationKind) (name : String) :
    Except Exn Unit := do
  require (start.offset = some 0) (name ++ "_start_must_be_utc")
  require (stop.offset = some 0) (name ++ "_end_must_be_utc")
  require (start.wall < stop.wall) (name ++ "_window_invalid")
  require (start.wall % oneMinute = 0) (name ++ "_start_not_minute_aligned")
  require ((stop.wall - start.wall) % oneMinute = 0) (name ++ "_window_not_whole_minutes")
  if .openInterest ∈ kinds then do
    require (start.wall / oneMinute % 60 % 5 = 0) (name ++ "_start_not_open_interest_aligned")
    require ((stop.wall - start.wall) % openInterestGrid = 0)
      (name ++ "_span_not_open_interest_aligned")
  else .ok ()

def validateParent (kinds : Finset ObservationKind) (parent : CompositionParent) :
    Except Exn Unit := do
  require (blank (String.ofList parent.datasetVersion) = false) "invalid_parent_dataset_version"
  require (blank parent.contentHash = false) "invalid_parent_content_hash"
  validateWindow parent.start parent.stop kinds "parent"

def validateOrder : List CompositionParent → Except Exn Unit
  | previous :: current :: rest => do
      require (previous.start.wall ≤ current.start.wall) "parent_windows_unordered"
      require (previous.stop.wall ≤ current.start.wall) "parent_window_overlap"
      require (current.start.wall ≤ previous.stop.wall) "parent_window_gap"
      validateOrder (current :: rest)
  | _ => .ok ()

def validateCompositionRequest (request : DatasetCompositionRequest) : Except Exn Unit := do
  require (request.provider = bybitProviderName) "unsupported_provider"
  require (request.instrumentId = bybitInstrumentId) "unsupported_instrument"
  require (request.providerSymbol = bybitSymbol) "unsupported_provider_symbol"
  require (request.observationKinds ≠ ∅) "no_observation_kind_requested"
  require (request.observationKinds \ allowedObservationKinds = ∅)
    ("unsupported_observation_kind:" ++
      kindList (request.observationKinds \ allowedObservationKinds))
  require (blank request.normalizationVersion = false) "invalid_normalization_version"
  validateWindow request.start request.stop request.observationKinds "composition"
  require (2 ≤ request.parents.length) "composition_requires_at_least_two_parents"
  let _ ← request.parents.mapM (validateParent request.observationKinds)
  require (request.parents.map CompositionParent.datasetVersionId).Nodup
    "duplicate_parent:dataset_version_id"
  require (request.parents.map CompositionParent.datasetVersion).Nodup
    "duplicate_parent:dataset_version"
  require (request.parents.map CompositionParent.contentHash).Nodup
    "duplicate_parent:content_hash"
  validateOrder request.parents
  require (request.parents.head?.map (fun parent => parent.start.wall) = some request.start.wall ∧
      request.parents.getLast?.map (fun parent => parent.stop.wall) = some request.stop.wall)
    "parents_do_not_cover_requested_window"

def acquisitionRequest (texts : ScheduledAcquisition.Env) (request : DatasetCompositionRequest)
    (datasetVersion : Text) (start stop : Time) : HistoricalAcquisitionRequest :=
  let acquisition : HistoricalAcquisitionRequest :=
    { sourceId := request.sourceId
      instrumentId := request.instrumentId
      provider := request.provider
      providerSymbol := request.providerSymbol
      start := start.wall
      stop := stop.wall
      observationKinds := request.observationKinds
      normalizationVersion := request.normalizationVersion
      datasetVersion := datasetVersion
      maximumPagesPerKind := 1
      materializeFeatures := false
      idempotencyKey := "" }
  { acquisition with idempotencyKey := acquisition.acquisitionFingerprint texts }

/-! ## The proofs -/

section Proofs

variable {P : Type} {env : RawCapture.Env P}
variable (texts : ScheduledAcquisition.Env) (db : Database env)
  (request : DatasetCompositionRequest)

def validateIdentity (profile : Option SourceProfile) (resolved : List String) :
    Except Exn Unit :=
  match profile with
  | none => refuse "historical_source_not_found"
  | some profile => do
      require (profile.provider = bybitProviderName) "source_provider_mismatch"
      require (profile.providerIdentifierNamespace = bybitV5SymbolNamespace)
        "source_identifier_namespace_mismatch"
      require (profile.assetScope = "CRYPTO") "source_asset_scope_mismatch"
      require (request.observationKinds \ profile.capabilities = ∅)
        ("source_not_authorized_for_kind:" ++
          kindList (request.observationKinds \ profile.capabilities))
      require (resolved ≠ []) "provider_symbol_unresolved"
      require (resolved.toFinset = {request.instrumentId}) "provider_symbol_instrument_mismatch"

/-- `existing_sealed_dataset`; its view is `db.view` of the row. -/
def existingSealedDataset (version : Text) : Option DatasetRow :=
  db.datasets.find? (request.sourceId, version)

/-- `dataset_member_ids`, in the order of the texts of the ids. -/
def datasetMemberIds (row : DatasetRow) : List UUID := sortBy id row.members

def memberCount (row : DatasetRow) : ℕ := (allKinds.map (db.view row).memberCountByKind).sum

def parentRequest (parent : CompositionParent) : HistoricalAcquisitionRequest :=
  acquisitionRequest texts request parent.datasetVersion parent.start parent.stop

/-- One parent of `_prove_parents`: its members, and when it was sealed. -/
def proveParent (parent : CompositionParent) : Except Exn (List UUID × ℤ) :=
  let version := String.ofList parent.datasetVersion
  match existingSealedDataset db request parent.datasetVersion with
  | none => refuse ("parent_not_sealed_or_missing:" ++ version)
  | some row => do
      require (row.datasetVersionId = parent.datasetVersionId)
        ("parent_dataset_version_id_mismatch:" ++ version)
      require (row.contentHash = parent.contentHash) ("parent_content_hash_mismatch:" ++ version)
      require (sealedDatasetMatchesRequest (db.view row) (parentRequest texts request parent) = true)
        ("parent_identity_proof_failed:" ++ version)
      let memberIds := datasetMemberIds row
      require (memberIds.length = memberCount db row ∧ memberIds.Nodup)
        ("parent_member_set_inconsistent:" ++ version)
      return (memberIds, row.createdAt)

def proveUnion (now : ℤ) (proven : List (List UUID × ℤ)) : Except Exn (List UUID) := do
  let union := proven.flatMap Prod.fst
  require union.Nodup "duplicate_member_across_parents"
  require ((proven.map Prod.snd).max?.any fun latest => decide (latest ≤ now))
    "composition_clock_precedes_parent_seal"
  return sortBy id union

def proveParents (now : ℤ) : Except Exn (List UUID) := do
  let proven ← request.parents.mapM (proveParent texts db request)
  proveUnion now proven

def combinedRequest : HistoricalAcquisitionRequest :=
  acquisitionRequest texts request (composedDatasetVersion texts request) request.start request.stop

def composedMatches (stored : DatasetRow) (unionIds : List UUID) : Bool :=
  sealedDatasetMatchesRequest (db.view stored) (combinedRequest texts request) &&
    decide ((datasetMemberIds stored).toFinset = unionIds.toFinset ∧
      (datasetMemberIds stored).length = unionIds.length)

end Proofs

/-! ## Features -/

section Features

variable {P : Type} {env : RawCapture.Env P} (features : FeatureRun)
  (request : DatasetCompositionRequest)

/-- `_expected_feature_event_ats`: how many events each calculator covers. -/
def featureEvents : ℕ × ℕ :=
  let kinds := request.observationKinds
  (if .markPrice ∈ kinds ∧ .indexPrice ∈ kinds then
      (expectedEventAts .markPrice request.start.wall request.stop.wall).length
    else 0,
   if .openInterest ∈ kinds then
      (expectedEventAts .openInterest request.start.wall request.stop.wall).length
    else 0)

def expectedFeatureCounts : ℕ × ℕ := ((featureEvents request).1, (featureEvents request).2 - 1)

def resolveFeature (events : ℕ) (resolved : Except String UUID) : Except Exn (Option UUID) :=
  if events = 0 then .ok none
  else
    match resolved with
    | .error message => refuse ("feature_identity_failed:" ++ message)
    | .ok id => .ok (some id)

def countsOf (db : Database env) (datasetVersionId : UUID) (features : Option UUID × Option UUID) :
    ℕ × ℕ :=
  (features.1.elim 0 (db.featureCounts datasetVersionId),
    features.2.elim 0 (db.featureCounts datasetVersionId))

def resolveFeatures : Except Exn (Option UUID × Option UUID) := do
  let basis ← resolveFeature (featureEvents request).1 features.basisFeatureId
  let openInterest ← resolveFeature (featureEvents request).2 features.openInterestFeatureId
  return (basis, openInterest)

def fillFeatures (db : Database env) (datasetVersionId : UUID)
    (resolved : Option UUID × Option UUID) : Except Exn (ℕ × ℕ) × Database env :=
  let expected := expectedFeatureCounts request
  let filled := { db with featureCounts := features.counts db.featureCounts }
  match features.materialized with
  | .error message => (refuse ("feature_materialization_failed:" ++ message), filled)
  | .ok _ =>
      let found := countsOf filled datasetVersionId resolved
      if found ≠ expected then
        (refuse (s!"feature_materialization_incomplete:basis={found.1}/{expected.1}," ++
          s!"open_interest_change={found.2}/{expected.2}"), filled)
      else (.ok found, filled)

/-- `_ensure_features`, with the feature tables that it leaves. -/
def ensureFeatures (db : Database env) (datasetVersionId : UUID) :
    Except Exn (ℕ × ℕ) × Database env :=
  let expected := expectedFeatureCounts request
  match resolveFeatures features request with
  | .error error => (.error error, db)
  | .ok resolved =>
      let existing := countsOf db datasetVersionId resolved
      if expected.1 < existing.1 ∨ expected.2 < existing.2 then
        (refuse (s!"existing_feature_count_exceeds_expected:basis={existing.1}/{expected.1}," ++
          s!"open_interest_change={existing.2}/{expected.2}"), db)
      else if existing = expected then (.ok existing, db)
      else fillFeatures features request db datasetVersionId resolved

end Features

/-! ## `compose` -/

structure DatasetCompositionResult where
  compositionIdentityHash : String
  datasetVersion : Text
  datasetVersionId : UUID
  datasetContentHash : String
  alreadyCompleted : Bool
  memberCountByKind : ObservationKind → ℕ
  parentDatasetVersionIds : List UUID
  featureCounts : Option (ℕ × ℕ)

/-- What the collaborators of a call answer: the source and its symbol, the clock where the parents
are proven and where the union is sealed, the `uuid4` of the dataset, and the calculators. -/
structure Answers where
  profile : Option SourceProfile
  resolved : List String
  provenAt : ℤ
  sealedAt : ℤ
  datasetVersionId : UUID
  features : FeatureRun

/-- How far a call is: its parents are proven; there was no dataset of the version; the union is
sealed, or the seal was refused; the dataset is there; it has ended. -/
inductive Phase where
  | begun
  | proven (unionIds : List UUID)
  | absent (unionIds : List UUID)
  | stored (unionIds : List UUID)
  | refused (unionIds : List UUID) (message : String)
  | found (row : DatasetRow) (alreadyCompleted : Bool)
  | returned (result : DatasetCompositionResult)
  | raised (error : Exn)

section Compose

variable {P : Type} {env : RawCapture.Env P}
variable (texts : ScheduledAcquisition.Env) (request : DatasetCompositionRequest)
  (answers : Answers)

def proofs (db : Database env) : Except Exn (List UUID) := do
  validateCompositionRequest request
  validateIdentity request answers.profile answers.resolved
  proveParents texts db request answers.provenAt

def sealUnion (db : Database env) (unionIds : List UUID) : Except Exn (DatasetRow × Database env) :=
  sealDataset texts db answers.datasetVersionId request.sourceId
    (composedDatasetVersion texts request) request.normalizationVersion unionIds answers.sealedAt

def matching (db : Database env) (unionIds : List UUID) : Option DatasetRow :=
  (existingSealedDataset db request (composedDatasetVersion texts request)).filter
    fun row => composedMatches texts db request row unionIds

def resultOf (db : Database env) (row : DatasetRow) (alreadyCompleted : Bool)
    (featureCounts : Option (ℕ × ℕ)) : DatasetCompositionResult where
  compositionIdentityHash := compositionIdentityHash texts request
  datasetVersion := composedDatasetVersion texts request
  datasetVersionId := row.datasetVersionId
  datasetContentHash := row.contentHash
  alreadyCompleted := alreadyCompleted
  memberCountByKind := (db.view row).memberCountByKind
  parentDatasetVersionIds := request.parents.map CompositionParent.datasetVersionId
  featureCounts := featureCounts

def Phase.next (db : Database env) : Phase → Database env × Phase
  | .begun =>
      match proofs texts request answers db with
      | .error error => (db, .raised error)
      | .ok unionIds => (db, .proven unionIds)
  | .proven unionIds =>
      match existingSealedDataset db request (composedDatasetVersion texts request) with
      | none => (db, .absent unionIds)
      | some row =>
          if composedMatches texts db request row unionIds = false then
            (db, .raised (.datasetCompositionError
              "composition_version_conflict:existing_dataset_semantics_differ"))
          else (db, .found row true)
  | .absent unionIds =>
      match sealUnion texts request answers db unionIds with
      | .ok (_, db) => (db, .stored unionIds)
      | .error (.historicalMarketDataError message) => (db, .refused unionIds message)
      | .error error => (db, .raised error)
  | .stored unionIds =>
      match matching texts request db unionIds with
      | none => (db, .raised (.datasetCompositionError "post_seal_identity_proof_failed"))
      | some row => (db, .found row false)
  | .refused unionIds message =>
      match matching texts request db unionIds with
      | none => (db, .raised (.datasetCompositionError ("composition_seal_failed:" ++ message)))
      | some row => (db, .found row true)
  | .found row alreadyCompleted =>
      if request.materializeFeatures = false then
        (db, .returned (resultOf texts request db row alreadyCompleted none))
      else
        match ensureFeatures answers.features request db row.datasetVersionId with
        | (.error error, db) => (db, .raised error)
        | (.ok counts, db) =>
            (db, .returned (resultOf texts request db row alreadyCompleted (some counts)))
  | .returned result => (db, .returned result)
  | .raised error => (db, .raised error)

end Compose

end TradePlatform.Composition
