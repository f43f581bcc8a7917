/-
# `TradePlatform.CryptoBasisFeatures` — the mark/index basis, event by event and streamed

`crypto_mark_index_basis` of `crypto_derivatives_features.py`.  For one event the calculator
looks up the mark and the index of a sealed dataset, and writes the materialization that it
builds from them; for many it reads the evidence in one ranked stream, group by group, along
the events that are asked for.  The three-clock stream reads the same pairs and takes its
knowledge time from the evidence-tier verdict of the dataset.

What a generator yields is a list, with the exception that ended it where one did.  Instants
are aware (`_aware` refuses the others), and those of the database compare as instants: its
session runs in UTC, where no hour is repeated.
-/
import TradePlatform.KnowledgeTime
import TradePlatform.RawHistoricalCapture
import TradePlatform.Lib.GroupMerge

namespace TradePlatform.CryptoBasis

open KnowledgeTime (ClaimCeilingV1 Digests EvidenceTierVerdictV1 FeatureFacts ObservationFacts
  ObservationKnowledgeV1)
open RawCapture (ObservationKind)

def refuse {α : Type} (message : String) : Except Exn α :=
  .error (.cryptoDerivativesFeatureError message)

def authorityError {α : Type} (message : String) : Except Exn α :=
  .error (.featureAuthorityError message)

/-! ## Evidence -/

/-- A member of a sealed dataset: a normalized observation, with its raw observation and the
reference price. -/
structure ReferencePriceRow where
  observationKind : ObservationKind
  normalizedObservationId : UUID
  rawObservationId : UUID
  instrumentId : String
  providerIdentifier : String
  eventAt : ℤ
  effectiveAt : ℤ
  ingestedAt : ℤ
  revision : ℤ
  normalizedAt : ℤ
  /-- `quality_status='VALIDATED'`. -/
  validated : Bool
  price : Decimal
  priceAsset : String
deriving DecidableEq

structure DatasetRow where
  status : String
  createdAt : ℤ
  contentHash : String
  sourceId : UUID

structure DatasetInfo where
  datasetVersionId : UUID
  contentHash : String
  sourceId : UUID
  createdAt : ℤ

inductive ReferencePriceRequirement where
  | none | indexOnly | markAndIndex
deriving DecidableEq, Repr

/-- The rows that a query selects and ranks first in their partition, by the revision and then
by the time of ingestion. -/
def ranked {π : Type} [DecidableEq π] (selected : ReferencePriceRow → Bool)
    (partition : ReferencePriceRow → π) (rows : List ReferencePriceRow) :
    List ReferencePriceRow :=
  rows.filter fun row => selected row && decide (∀ other ∈ rows, selected other = true →
    partition other = partition row →
      toLex (other.revision, other.ingestedAt) ≤ toLex (row.revision, row.ingestedAt))

def visible (instrumentId : String) (decisionAt : ℤ) (row : ReferencePriceRow) : Bool :=
  decide (row.instrumentId = instrumentId ∧ row.validated = true ∧
    row.normalizedAt ≤ decisionAt ∧ row.ingestedAt ≤ decisionAt)

/-! ## Materializations -/

inductive FeatureSubjectType where
  | instrument | futuresSeries
deriving DecidableEq, Repr

inductive FeatureQualityStatus where
  | validated | degraded | rejected
deriving DecidableEq, Repr

/-- What the content hash of a `FeatureMaterializationV2` covers. -/
structure MaterializationFactsV2 where
  featureId : UUID
  subjectType : FeatureSubjectType
  subjectId : String
  datasetVersion : String
  eventAt : ℤ
  effectiveAt : ℤ
  knowledgeAt : ℤ
  computedAt : ℤ
  sourceObservationManifest : List String
  value : Option Decimal
  qualityStatus : FeatureQualityStatus
deriving DecidableEq

structure FeatureMaterializationV2 extends MaterializationFactsV2 where
  contentHash : String
deriving DecidableEq

/-- What the content hash of a `FeatureMaterializationV3` covers. -/
structure MaterializationFactsV3 where
  featureId : UUID
  subjectType : FeatureSubjectType
  subjectId : String
  datasetVersion : String
  eventAt : ℤ
  effectiveAt : ℤ
  marketKnowledgeAt : Option ℤ
  claimCeiling : ClaimCeilingV1
  featureKnowledgeHash : String
  sourceObservationManifest : List String
  value : Option Decimal
  qualityStatus : FeatureQualityStatus
deriving DecidableEq

structure FeatureMaterializationV3 extends MaterializationFactsV3 where
  platformRecordedAt : ℤ
  computedAt : ℤ
  featureKnowledge : FeatureFacts
  knowledgeInputs : List (ObservationFacts × ℤ)
  contentHash : String
deriving DecidableEq

/-- The code outside the module: the text of an identifier, of an instant as the session of the
database renders it and in UTC, the content hashes, and those of the doctrine. -/
structure Texts where
  uuid : UUID → String
  isoformat : ℤ → String
  utc : ℤ → String
  hashV2 : MaterializationFactsV2 → String
  hashV3 : MaterializationFactsV3 → String
  digests : Digests

/-- `FeatureMaterializationV2.create`, without the identifier that `uuid4` draws. -/
def FeatureMaterializationV2.create (texts : Texts) (facts : MaterializationFactsV2) :
    FeatureMaterializationV2 where
  toMaterializationFactsV2 := facts
  contentHash := texts.hashV2 facts

/-- `FeatureMaterializationV2.validate`, of aware timestamps. -/
def FeatureMaterializationV2.validate (m : FeatureMaterializationV2) : Except Exn Unit :=
  if blank m.subjectId = true ∨ blank m.datasetVersion = true then
    authorityError "feature_materialization_identity_missing"
  else if m.contentHash.length ≠ 64 ∨ m.sourceObservationManifest = [] then
    authorityError "feature_materialization_provenance_missing"
  else if m.effectiveAt < m.eventAt ∨ m.knowledgeAt < m.effectiveAt then
    authorityError "feature_materialization_invalid_temporal_order"
  else if m.computedAt < m.knowledgeAt then authorityError "feature_computed_before_knowledge"
  else if m.qualityStatus = .validated ∧ m.value = none then
    authorityError "validated_feature_requires_value"
  else .ok ()

/-- `except KnowledgeTimeDoctrineError`, in `FeatureMaterializationV3.create`. -/
def knowledgeInvalid {α : Type} : Except Exn α → Except Exn α
  | .error (.knowledgeTimeDoctrineError message) =>
      authorityError s!"feature_knowledge_invalid:{message}"
  | result => result

def persistedObservationKnowledgeV1 (d : Digests) (item : ObservationKnowledgeV1) :
    Except Exn (ObservationFacts × ℤ) :=
  if item.integrityVerified d = false then
    KnowledgeTime.refuse "persisted_observation_knowledge_integrity_failed"
  else .ok (item.toObservationFacts, item.platformRecordedAt)

/-- `FeatureMaterializationV3.create`; what of the facts follows from the inputs is derived. -/
def FeatureMaterializationV3.create (texts : Texts) (featureId : UUID) (subjectId : String)
    (datasetVersion : String) (eventAt effectiveAt : ℤ) (inputs : List ObservationKnowledgeV1)
    (computedAt : ℤ) (sourceObservationManifest : List String) (value : Option Decimal) :
    Except Exn FeatureMaterializationV3 := do
  let knowledge ← knowledgeInvalid
    (KnowledgeTime.propagateFeatureKnowledgeV1 texts.digests inputs (.aware eventAt))
  let persisted ← knowledgeInvalid (inputs.mapM (persistedObservationKnowledgeV1 texts.digests))
  let facts : MaterializationFactsV3 :=
    { featureId
      subjectType := .instrument
      subjectId, datasetVersion, eventAt, effectiveAt
      marketKnowledgeAt := knowledge.marketKnowledgeAt
      claimCeiling := knowledge.claimCeiling
      featureKnowledgeHash := knowledge.marketContentHash
      sourceObservationManifest, value
      qualityStatus := .validated }
  return {
    toMaterializationFactsV3 := facts
    platformRecordedAt := knowledge.platformRecordedAt
    computedAt
    featureKnowledge := knowledge.toFeatureFacts
    knowledgeInputs := sortBy (fun item => texts.digests.observation item.1) persisted
    contentHash := texts.hashV3 facts }

/-! ## The store of materializations -/

/-- A row of `feature_materializations`, as `materialize_subject` reads it. -/
structure MaterializationRow where
  materialization : FeatureMaterializationV2

structure SubjectNaturalKey where
  featureId : UUID
  subjectType : FeatureSubjectType
  subjectId : String
  datasetVersion : String
  eventAt : ℤ
  effectiveAt : ℤ
  knowledgeAt : ℤ
deriving DecidableEq

def MaterializationRow.key (row : MaterializationRow) : SubjectNaturalKey :=
  let m := row.materialization
  ⟨m.featureId, m.subjectType, m.subjectId, m.datasetVersion, m.eventAt, m.effectiveAt,
    m.knowledgeAt⟩

abbrev FeatureStore := Table MaterializationRow.key

/-- `materialize_subject`; `admits` is what the references and the triggers of the table ask
of a row that is inserted. -/
def materializeSubject (admits : FeatureMaterializationV2 → Bool) (store : FeatureStore)
    (m : FeatureMaterializationV2) : Except Exn FeatureStore := do
  m.validate
  match store.find? (MaterializationRow.key ⟨m⟩) with
  | some existing =>
      if existing.materialization.contentHash ≠ m.contentHash then
        authorityError "feature_materialization_conflict"
      else return store
  | none =>
      if admits m = true then return store.put ⟨m⟩
      else authorityError "feature_materialization_failed"

/-! ## The calculator -/

/-- What a calculator reads: the datasets and their members, the reference prices that the
specification of an instrument asks for (`none` where there is none at that time), and the
order in which the database gives the rows of a query that does not order them. -/
structure Calculator where
  texts : Texts
  datasets : UUID → Option DatasetRow
  members : UUID → List ReferencePriceRow
  specificationOrNone : String → ℤ → Except Exn (Option ReferencePriceRequirement)
  arrange : List ReferencePriceRow → List ReferencePriceRow
  perm : ∀ rows, (arrange rows).Perm rows

structure BasisCall where
  featureId : UUID
  instrumentId : String
  datasetVersionId : UUID
  decisionAt : ℤ
  computedAt : Option ℤ

def selectSingleIdentity (rows : List ReferencePriceRow) (ambiguousMessage : String) :
    Except Exn (Option ReferencePriceRow) :=
  if rows = [] then .ok none
  else if (rows.map ReferencePriceRow.providerIdentifier).dedup.length > 1 then
    refuse ambiguousMessage
  else .ok rows.head?

def basisValue (mark index : Decimal) : Except Exn Decimal :=
  if index = 0 then .error .arithmeticError
  else
    let arithmetic := Decimal.Arithmetic.default
    ((arithmetic.quantize 12 (arithmetic.div (arithmetic.sub mark index) index)).elim
      (.error .arithmeticError) .ok)

namespace Calculator

variable (c : Calculator) (call : BasisCall)

def loadDataset : Except Exn DatasetInfo :=
  match c.datasets call.datasetVersionId with
  | none => refuse "dataset_not_found"
  | some row =>
      if row.status ≠ "SEALED" then refuse "dataset_not_sealed"
      else if row.createdAt > call.decisionAt then refuse "dataset_not_knowable_at_decision_at"
      else .ok ⟨call.datasetVersionId, row.contentHash, row.sourceId, row.createdAt⟩

def manifestTokens (dataset : DatasetInfo) (mark index : ReferencePriceRow) : List String :=
  [s!"historical_dataset_version_id:{c.texts.uuid dataset.datasetVersionId}",
    s!"historical_dataset_content_hash:{dataset.contentHash}",
    s!"source_id:{c.texts.uuid dataset.sourceId}",
    s!"instrument_id:{call.instrumentId}",
    s!"mark_normalized_observation_id:{c.texts.uuid mark.normalizedObservationId}",
    s!"mark_raw_observation_id:{c.texts.uuid mark.rawObservationId}",
    s!"mark_event_at:{c.texts.isoformat mark.eventAt}",
    s!"mark_revision:{mark.revision}",
    s!"mark_ingested_at:{c.texts.isoformat mark.ingestedAt}",
    s!"index_normalized_observation_id:{c.texts.uuid index.normalizedObservationId}",
    s!"index_raw_observation_id:{c.texts.uuid index.rawObservationId}",
    s!"index_event_at:{c.texts.isoformat index.eventAt}",
    s!"index_revision:{index.revision}",
    s!"index_ingested_at:{c.texts.isoformat index.ingestedAt}",
    s!"price_asset:{mark.priceAsset}"]

def manifestTokensV3 (evidenceTier : EvidenceTierVerdictV1) (dataset : DatasetInfo)
    (mark index : ReferencePriceRow) : List String :=
  [s!"historical_dataset_version_id:{c.texts.uuid dataset.datasetVersionId}",
    s!"historical_dataset_content_hash:{dataset.contentHash}",
    s!"source_id:{c.texts.uuid dataset.sourceId}",
    s!"evidence_tier_verdict_id:{c.texts.uuid evidenceTier.evidenceId}",
    s!"instrument_id:{call.instrumentId}",
    s!"mark_normalized_observation_id:{c.texts.uuid mark.normalizedObservationId}",
    s!"mark_raw_observation_id:{c.texts.uuid mark.rawObservationId}",
    s!"mark_event_at:{c.texts.utc mark.eventAt}",
    s!"mark_revision:{mark.revision}",
    s!"index_normalized_observation_id:{c.texts.uuid index.normalizedObservationId}",
    s!"index_raw_observation_id:{c.texts.uuid index.rawObservationId}",
    s!"index_event_at:{c.texts.utc index.eventAt}",
    s!"index_revision:{index.revision}",
    s!"price_asset:{mark.priceAsset}"]

def coherent (mark index : ReferencePriceRow) : Except Exn Bool :=
  if mark.priceAsset ≠ index.priceAsset then .ok false
  else do
    let requirement ← c.specificationOrNone call.instrumentId call.decisionAt
    return decide (requirement = some .markAndIndex)

def basisFromPair (dataset : DatasetInfo) (eventAt : ℤ) (mark index : ReferencePriceRow) :
    Except Exn (Option FeatureMaterializationV2) := do
  if (← c.coherent call mark index) = false then return none
  else
    let knowledgeAt := max (max mark.normalizedAt index.normalizedAt) dataset.createdAt
    if knowledgeAt > call.decisionAt then refuse "knowledge_at_exceeds_decision_at"
    else
      let value ← basisValue mark.price index.price
      return some (.create c.texts {
        featureId := call.featureId
        subjectType := .instrument
        subjectId := call.instrumentId
        datasetVersion := c.texts.uuid dataset.datasetVersionId
        eventAt
        effectiveAt := max mark.effectiveAt index.effectiveAt
        knowledgeAt
        computedAt := call.computedAt.getD knowledgeAt
        sourceObservationManifest := c.manifestTokens call dataset mark index
        value := some value
        qualityStatus := .validated })

/-- `_basis_v3_from_pair`; `platform_as_of` is the decision time of the call. -/
def basisV3FromPair (evidenceTier : EvidenceTierVerdictV1) (dataset : DatasetInfo)
    (eventAt : ℤ) (mark index : ReferencePriceRow) :
    Except Exn (Option FeatureMaterializationV3) := do
  if (← c.coherent call mark index) = false then return none
  else
    let observed := fun observation : ReferencePriceRow =>
      KnowledgeTime.deriveObservationKnowledgeV1 c.texts.digests {
        verdict := evidenceTier
        datasetVersionId := dataset.datasetVersionId
        datasetContentHash := dataset.contentHash
        observationReference :=
          s!"historical_normalized_observation:{c.texts.uuid observation.normalizedObservationId}"
        eventAt := .aware observation.effectiveAt
        platformRecordedAt := .aware (max observation.normalizedAt dataset.createdAt)
        publicationAt := none
        arrivalAt := none
        arrivalClockBound := none }
    let markKnowledge ← observed mark
    let indexKnowledge ← observed index
    let platformRecordedAt := max markKnowledge.platformRecordedAt indexKnowledge.platformRecordedAt
    if platformRecordedAt > call.decisionAt then
      refuse "platform_recorded_at_exceeds_platform_as_of"
    else
      let value ← basisValue mark.price index.price
      let materialization ← FeatureMaterializationV3.create c.texts call.featureId
        call.instrumentId (c.texts.uuid dataset.datasetVersionId) eventAt
        (max mark.effectiveAt index.effectiveAt) [markKnowledge, indexKnowledge]
        (call.computedAt.getD platformRecordedAt)
        (c.manifestTokensV3 call evidenceTier dataset mark index) (some value)
      return some materialization

/-! ## One event -/

def referencePriceRows (kind : ObservationKind) (eventAt : ℤ) : List ReferencePriceRow :=
  c.arrange (ranked
    (fun row => visible call.instrumentId call.decisionAt row &&
      decide (row.observationKind = kind ∧ row.eventAt = eventAt))
    (fun row => (row.providerIdentifier, row.eventAt)) (c.members call.datasetVersionId))

/-- What `materialize_crypto_mark_index_basis` builds for an event. -/
def buildCryptoMarkIndexBasis (eventAt : ℤ) : Except Exn (Option FeatureMaterializationV2) := do
  let dataset ← c.loadDataset call
  match ← selectSingleIdentity (c.referencePriceRows call .markPrice eventAt)
      "ambiguous_mark_observation_identity" with
  | none => return none
  | some mark =>
      match ← selectSingleIdentity (c.referencePriceRows call .indexPrice eventAt)
          "ambiguous_index_observation_identity" with
      | none => return none
      | some index => c.basisFromPair call dataset eventAt mark index

/-- `materialize_crypto_mark_index_basis`, with the store that it writes to. -/
def materializeCryptoMarkIndexBasis (admits : FeatureMaterializationV2 → Bool)
    (store : FeatureStore) (eventAt : ℤ) :
    Except Exn (Option FeatureMaterializationV2 × FeatureStore) := do
  match ← c.buildCryptoMarkIndexBasis call eventAt with
  | none => return (none, store)
  | some materialization =>
      let store ← materializeSubject admits store materialization
      return (some materialization, store)

end Calculator

abbrev Yielded (α : Type) := List α × Option Exn

def Yielded.cons {α : Type} (a : α) (rest : Yielded α) : Yielded α := (a :: rest.1, rest.2)

namespace Calculator

variable (c : Calculator) (call : BasisCall)

/-- The calls for the events in order, up to the first that raises, and what they leave in the
store. -/
def materializeEach (admits : FeatureMaterializationV2 → Bool) :
    FeatureStore → List ℤ → Yielded FeatureMaterializationV2 × FeatureStore
  | store, [] => (([], none), store)
  | store, eventAt :: eventAts =>
      match c.materializeCryptoMarkIndexBasis call admits store eventAt with
      | .error error => (([], some error), store)
      | .ok (none, store) => materializeEach admits store eventAts
      | .ok (some materialization, store) =>
          let rest := materializeEach admits store eventAts
          (rest.1.cons materialization, rest.2)

/-! ## The stream -/

def streamRows (first last : ℤ) : List ReferencePriceRow :=
  sortBy ReferencePriceRow.eventAt (c.arrange (ranked
    (fun row => visible call.instrumentId call.decisionAt row &&
      decide ((row.observationKind = .markPrice ∨ row.observationKind = .indexPrice) ∧
        first ≤ row.eventAt ∧ row.eventAt ≤ last))
    (fun row => (row.observationKind, row.providerIdentifier, row.eventAt))
    (c.members call.datasetVersionId)))

def selectPair (marks indexes : List ReferencePriceRow) :
    Except Exn (Option (ReferencePriceRow × ReferencePriceRow)) := do
  match ← selectSingleIdentity marks "ambiguous_mark_observation_identity" with
  | none => return none
  | some mark =>
      match ← selectSingleIdentity indexes "ambiguous_index_observation_identity" with
      | none => return none
      | some index => return some (mark, index)

def pairOf (rows : List ReferencePriceRow) :
    Except Exn (Option (ReferencePriceRow × ReferencePriceRow)) :=
  selectPair (rows.filter fun row => decide (row.observationKind = .markPrice))
    (rows.filter fun row => !decide (row.observationKind = .markPrice))

/-- The loops of `_iter_mark_index_pairs` and of the generator that reads its pairs: `build`
is what that makes of a pair. -/
def iterPairs {α : Type} (build : ℤ → ReferencePriceRow → ReferencePriceRow →
    Except Exn (Option α)) : List (ℤ × List ReferencePriceRow) → List ℤ → Yielded α
  | _, [] => ([], none)
  | groups, eventAt :: eventAts =>
      let read := GroupMerge.advance eventAt groups
      match pairOf read.1 with
      | .error error => ([], some error)
      | .ok none => iterPairs build read.2 eventAts
      | .ok (some (mark, index)) =>
          match build eventAt mark index with
          | .error error => ([], some error)
          | .ok none => iterPairs build read.2 eventAts
          | .ok (some a) => (iterPairs build read.2 eventAts).cons a

def strictlyIncreasing (eventAts : List ℤ) : Except Exn Unit :=
  if eventAts.IsChain (· < ·) then .ok () else refuse "event_ats_must_be_strictly_increasing"

def iterWith {α : Type}
    (build : DatasetInfo → ℤ → ReferencePriceRow → ReferencePriceRow → Except Exn (Option α))
    (eventAts : List ℤ) : Yielded α :=
  match strictlyIncreasing eventAts with
  | .error error => ([], some error)
  | .ok _ =>
      match eventAts with
      | [] => ([], none)
      | first :: rest =>
          match c.loadDataset call with
          | .error error => ([], some error)
          | .ok dataset =>
              let last := (first :: rest).getLast (List.cons_ne_nil _ _)
              iterPairs (build dataset)
                (GroupMerge.groups ReferencePriceRow.eventAt (c.streamRows call first last))
                (first :: rest)

def iterCryptoMarkIndexBasis (eventAts : List ℤ) : Yielded FeatureMaterializationV2 :=
  c.iterWith call (c.basisFromPair call) eventAts

def iterCryptoMarkIndexBasisV3 (evidenceTier : EvidenceTierVerdictV1) (eventAts : List ℤ) :
    Yielded FeatureMaterializationV3 :=
  if evidenceTier.datasetVersionId ≠ call.datasetVersionId then
    ([], some (.cryptoDerivativesFeatureError "evidence_tier_verdict_dataset_mismatch"))
  else c.iterWith call (c.basisV3FromPair call evidenceTier) eventAts

end Calculator

end TradePlatform.CryptoBasis
