/-
# `TradePlatform.KnowledgeTimePersistence` — what a reader makes of a stored clock

A durable row keeps the payloads that the market hashes of its inputs and of its feature are
over.  `rederive_observation_knowledge_v1` derives an input again from the sealed clocks;
`restore_persisted_feature_knowledge_v1` reads a feature's payload, checks what it read, and
hashes the payload of that.  The values are decoded JSON.
-/
import TradePlatform.KnowledgeTimeDecisions
import TradePlatform.Lib.JsonCanonical

namespace TradePlatform.KnowledgeTime

/-! ## Payloads -/

/-- `str(uuid)` and `UUID(text)`, the text of an instant in UTC and `datetime.fromisoformat`,
`int(text)`, and `str(value)` of a value that has no text of its own.  `none` is a
`ValueError`. -/
structure Texts where
  uuidText : UUID → String
  uuid : String → Option UUID
  isoUtc : ℤ → String
  fromisoformat : String → Option DateTime
  intText : String → Option ℤ
  valueText : Json → String

structure Texts.Lawful (texts : Texts) : Prop where
  uuid : ∀ id, texts.uuid (texts.uuidText id) = some id
  instant : ∀ t, texts.fromisoformat (texts.isoUtc t) = some (.aware t)

namespace ClaimCeilingV1

def name : ClaimCeilingV1 → String
  | none => "NONE"
  | descriptive => "DESCRIPTIVE"
  | conditional => "CONDITIONAL"
  | professional => "PROFESSIONAL"

def all : List ClaimCeilingV1 := [none, descriptive, conditional, professional]

def ofName? (text : String) : Option ClaimCeilingV1 := all.find? fun claim => claim.name = text

theorem ofName?_eq_some {text : String} {claim : ClaimCeilingV1} :
    ofName? text = some claim ↔ text = claim.name := by
  constructor
  · intro h
    have hname := List.find?_some h
    exact (of_decide_eq_true hname).symm
  · rintro rfl
    cases claim <;> rfl

end ClaimCeilingV1

section Payloads

variable (texts : Texts)

def textJson : Option String → Json
  | none => .null
  | some text => .str text

def isoJson (instant : Option ℤ) : Json := textJson (instant.map texts.isoUtc)

def intJson : Option ℤ → Json
  | none => .null
  | some n => .int n

def HostClockBoundV1.json : Option HostClockBoundV1 → Json
  | none => .null
  | some bound =>
      .obj [("venue_minus_host_upper_bound_nanos", .int bound.venueMinusHostUpperBoundNanos),
        ("evidence_reference", .str bound.evidenceReference)]

def ObservationFacts.payload (facts : ObservationFacts) : List (String × Json) :=
  [("schema_version", .str facts.schemaVersion),
    ("observation_reference", .str facts.observationReference),
    ("verdict_evidence_id", .str (texts.uuidText facts.verdictEvidenceId)),
    ("verdict_content_hash", .str facts.verdictContentHash),
    ("dataset_version_id", .str (texts.uuidText facts.datasetVersionId)),
    ("dataset_content_hash", .str facts.datasetContentHash),
    ("tier", .str facts.tier),
    ("event_at", isoJson texts (some facts.eventAt)),
    ("publication_at", isoJson texts facts.publicationAt),
    ("arrival_at", isoJson texts facts.arrivalAt),
    ("arrival_clock_bound", HostClockBoundV1.json facts.arrivalClockBound),
    ("market_knowledge_at", isoJson texts facts.marketKnowledgeAt),
    ("claim_ceiling", .str facts.claimCeiling.name),
    ("knowledge_basis", .str facts.knowledgeBasis),
    ("publication_lag_nanos", intJson facts.publicationLagNanos),
    ("publication_lag_reference", textJson facts.publicationLagReference),
    ("reasons", .arr (facts.reasons.map .str))]

def PublicationLagBindingV1.payload (binding : PublicationLagBindingV1) : List (String × Json) :=
  [("verdict_evidence_id", .str (texts.uuidText binding.verdictEvidenceId)),
    ("publication_lag_nanos", .int binding.publicationLagNanos),
    ("publication_lag_reference", .str binding.publicationLagReference)]

def FeatureFacts.payload (facts : FeatureFacts) : List (String × Json) :=
  [("schema_version", .str facts.schemaVersion),
    ("input_knowledge_hashes", .arr (facts.inputKnowledgeHashes.map .str)),
    ("event_at", isoJson texts (some facts.eventAt)),
    ("market_knowledge_at", isoJson texts facts.marketKnowledgeAt),
    ("claim_ceiling", .str facts.claimCeiling.name),
    ("publication_lag_bindings",
      .arr (facts.publicationLagBindings.map fun binding => .obj (binding.payload texts))),
    ("reasons", .arr (facts.reasons.map .str))]

variable (sha256 : Json → String)

def payloadHash (payload : List (String × Json)) : String :=
  sha256 (Json.canonical (.obj payload))

def digestsOf (base : Digests) : Digests :=
  { base with
    observation := fun facts => payloadHash sha256 (facts.payload texts)
    feature := fun facts => payloadHash sha256 (facts.payload texts) }

end Payloads

/-! ## What a reader reads -/

section Reading

variable (texts : Texts)

def item (fields : List (String × Json)) (key : String) : Except Exn Json :=
  match fields.lookup key with
  | none => .error (.keyError key)
  | some value => .ok value

def subscript (value : Json) (key : String) : Except Exn Json :=
  match value with
  | .obj fields => item fields key
  | _ => .error .typeError

def strOf : Json → String
  | .str text => text
  | value => texts.valueText value

/-- `int(value)`.  A float that is no number fails as an infinity does. -/
def intOf : Json → Except Exn ℤ
  | .int n => .ok n
  | .bool b => .ok (if b then 1 else 0)
  | .float (some x) => .ok (if 0 ≤ x then ⌊x⌋ else ⌈x⌉)
  | .float none => .error .arithmeticError
  | .str text =>
      match texts.intText text with
      | none => .error (.valueError "invalid literal for int() with base 10")
      | some n => .ok n
  | .null | .arr _ | .obj _ => .error .typeError

def uuidOf (value : Json) : Except Exn UUID :=
  match texts.uuid (strOf texts value) with
  | none => .error (.valueError "badly formed hexadecimal UUID string")
  | some id => .ok id

def iterate : Json → Except Exn (List Json)
  | .arr items => .ok items
  | .str text => .ok (text.toList.map fun ch => .str (String.singleton ch))
  | .obj fields => .ok (fields.map fun field => .str field.1)
  | _ => .error .typeError

def parseInstant (value : Json) (name : String) : Except Exn (Option ℤ) :=
  match value with
  | .null => .ok none
  | .str text =>
      match texts.fromisoformat text with
      | none => refuse ("persisted_" ++ name ++ "_malformed")
      | some parsed => do return some (← requireAware parsed ("persisted_" ++ name))
  | _ => refuse ("persisted_" ++ name ++ "_must_be_iso_text")

end Reading

/-! ## Observations -/

/-- `SealedObservationClocksV1`: the clocks of an observation as the sealed evidence records
them. -/
structure SealedObservationClocksV1 where
  eventAt : DateTime
  platformRecordedAt : DateTime
  publicationAt : Option DateTime
  arrivalAt : Option DateTime
  arrivalClockBound : Option HostClockBoundV1

def ObservationInput.clocks (input : ObservationInput) : SealedObservationClocksV1 where
  eventAt := input.eventAt
  platformRecordedAt := input.platformRecordedAt
  publicationAt := input.publicationAt
  arrivalAt := input.arrivalAt
  arrivalClockBound := input.arrivalClockBound

section Rederiving

variable (texts : Texts) (sha256 : Json → String) (base : Digests)

def persistedObservationKnowledgeV1 (observation : ObservationKnowledgeV1) :
    Except Exn (List (String × Json)) :=
  if observation.integrityVerified (digestsOf texts sha256 base) then
    .ok [("market", .obj (observation.payload texts)),
      ("platform_recorded_at", isoJson texts (some observation.platformRecordedAt))]
  else refuse "persisted_observation_knowledge_integrity_failed"

def rederived (verdict : EvidenceTierVerdictV1) (market : List (String × Json))
    (clocks : SealedObservationClocksV1) : Except Exn ObservationKnowledgeV1 := do
  let evidenceId ← item market "verdict_evidence_id"
  let evidenceId ← uuidOf texts evidenceId
  if evidenceId ≠ verdict.evidenceId then
    refuse "persisted_observation_knowledge_verdict_mismatch"
  else
    let versionId ← item market "dataset_version_id"
    let versionId ← uuidOf texts versionId
    let contentHash ← item market "dataset_content_hash"
    let reference ← item market "observation_reference"
    deriveObservationKnowledgeV1 (digestsOf texts sha256 base)
      { verdict := verdict
        datasetVersionId := versionId
        datasetContentHash := strOf texts contentHash
        observationReference := strOf texts reference
        eventAt := clocks.eventAt
        platformRecordedAt := clocks.platformRecordedAt
        publicationAt := clocks.publicationAt
        arrivalAt := clocks.arrivalAt
        arrivalClockBound := clocks.arrivalClockBound }

/-- The handlers of `rederive_observation_knowledge_v1`: the doctrine's own errors pass. -/
def onUnreadable {α : Type} : Except Exn α → Except Exn α
  | .ok a => .ok a
  | .error (.knowledgeTimeDoctrineError message) => refuse message
  | .error (.keyError _) | .error .typeError | .error (.attributeError _) =>
      refuse "persisted_observation_knowledge_malformed"
  | .error e =>
      if e.isValueError then refuse "persisted_observation_knowledge_malformed" else .error e

def rederiveObservationKnowledgeV1 (verdict : EvidenceTierVerdictV1)
    (persisted : List (String × Json)) (clocks : SealedObservationClocksV1) :
    Except Exn ObservationKnowledgeV1 :=
  match Json.get persisted "market" with
  | .obj market => do
      let observation ← onUnreadable (rederived texts sha256 base verdict market clocks)
      if observation.marketContentHash ≠ payloadHash sha256 market then
        refuse "persisted_observation_knowledge_not_derivable_from_evidence"
      else return observation
  | _ => refuse "persisted_observation_knowledge_malformed"

end Rederiving

/-! ## Features -/

structure RestoredFeatureKnowledgeV1 where
  inputKnowledgeHashes : List String
  eventAt : ℤ
  marketKnowledgeAt : Option ℤ
  claimCeiling : ClaimCeilingV1
  marketContentHash : String
deriving DecidableEq

/-- What is read of a feature's payload; its event may be `None`. -/
structure ReadFeature where
  hashes : List String
  eventAt : Option ℤ
  marketKnowledgeAt : Option ℤ
  claim : ClaimCeilingV1
  bindings : List PublicationLagBindingV1
  reasons : List String

section Restoring

variable (texts : Texts)

def readTexts (payload : List (String × Json)) (key : String) : Except Exn (List String) := do
  let value ← item payload key
  let items ← iterate value
  return items.map (strOf texts)

def readInstant (payload : List (String × Json)) (key : String) : Except Exn (Option ℤ) := do
  let value ← item payload key
  parseInstant texts value key

def readClaim (payload : List (String × Json)) : Except Exn ClaimCeilingV1 := do
  let value ← item payload "claim_ceiling"
  match ClaimCeilingV1.ofName? (strOf texts value) with
  | none => .error (.keyError (strOf texts value))
  | some claim => .ok claim

def readBinding (value : Json) : Except Exn PublicationLagBindingV1 := do
  let evidenceId ← subscript value "verdict_evidence_id"
  let evidenceId ← uuidOf texts evidenceId
  let nanos ← subscript value "publication_lag_nanos"
  let nanos ← intOf texts nanos
  let reference ← subscript value "publication_lag_reference"
  return ⟨evidenceId, nanos, strOf texts reference⟩

def readBindings (payload : List (String × Json)) :
    Except Exn (List PublicationLagBindingV1) := do
  let value ← item payload "publication_lag_bindings"
  let items ← iterate value
  items.mapM (readBinding texts)

def readFeature (payload : List (String × Json)) : Except Exn ReadFeature := do
  let hashes ← readTexts texts payload "input_knowledge_hashes"
  let eventAt ← readInstant texts payload "event_at"
  let marketKnowledgeAt ← readInstant texts payload "market_knowledge_at"
  let claim ← readClaim texts payload
  let bindings ← readBindings texts payload
  let reasons ← readTexts texts payload "reasons"
  return ⟨hashes, eventAt, marketKnowledgeAt, claim, bindings, reasons⟩

def onMalformed {α : Type} : Except Exn α → Except Exn α
  | .ok a => .ok a
  | .error (.keyError _) | .error .typeError => refuse "persisted_feature_knowledge_malformed"
  | .error e =>
      if e.isValueError then refuse "persisted_feature_knowledge_malformed" else .error e

def ReadFeature.facts (read : ReadFeature) : Except Exn FeatureFacts :=
  match read.eventAt with
  | none => refuse "persisted_feature_knowledge_malformed"
  | some eventAt =>
      if read.hashes = [] then refuse "persisted_feature_knowledge_malformed"
      else
        .ok ⟨schemaVersionV1, read.hashes, eventAt, read.marketKnowledgeAt, read.claim,
          read.bindings, read.reasons⟩

def readFacts (payload : List (String × Json)) : Except Exn FeatureFacts := do
  let read ← onMalformed (readFeature texts payload)
  read.facts

/-- A defined knowledge time has no reasons against it and at least a conditional claim, an
undefined one a reason and at most a descriptive claim. -/
def checkClocks (facts : FeatureFacts) : Except Exn Unit :=
  match facts.marketKnowledgeAt with
  | none =>
      if facts.reasons = [] ∨ .descriptive < facts.claimCeiling then
        refuse "persisted_feature_knowledge_incoherent"
      else .ok ()
  | some knownAt =>
      if facts.reasons ≠ [] ∨ facts.claimCeiling < .conditional ∨ knownAt < facts.eventAt then
        refuse "persisted_feature_knowledge_incoherent"
      else .ok ()

def checkBindings (facts : FeatureFacts) : Except Exn Unit :=
  if facts.claimCeiling = .conditional ∧ facts.marketKnowledgeAt ≠ none ∧
      facts.publicationLagBindings = [] then
    refuse "persisted_feature_knowledge_incoherent"
  else if facts.claimCeiling = .professional ∧ facts.publicationLagBindings ≠ [] then
    refuse "persisted_feature_knowledge_incoherent"
  else .ok ()

def checkPersisted (facts : FeatureFacts) : Except Exn Unit :=
  if facts.inputKnowledgeHashes ≠ sortedSet id facts.inputKnowledgeHashes then
    refuse "persisted_feature_knowledge_inputs_not_canonical"
  else if facts.reasons ≠ orderedReasons facts.reasons ∨
      facts.publicationLagBindings ≠ sortedBindings facts.publicationLagBindings then
    refuse "persisted_feature_knowledge_not_canonical"
  else do
    checkClocks facts
    checkBindings facts

def restorePersistedFeatureKnowledgeV1 (sha256 : Json → String) (payload : List (String × Json))
    (platformRecordedAt : DateTime) (expectedMarketContentHash : String) :
    Except Exn RestoredFeatureKnowledgeV1 := do
  let _ ← requireAware platformRecordedAt "platform_recorded_at"
  if (Json.get payload "schema_version").str? ≠ some schemaVersionV1 then
    refuse "persisted_feature_knowledge_schema_version_mismatch"
  else
    let facts ← readFacts texts payload
    checkPersisted facts
    -- the hash is over the payload of what was read, not over the payload that was given
    if payloadHash sha256 (facts.payload texts) ≠ expectedMarketContentHash then
      refuse "persisted_feature_knowledge_hash_mismatch"
    else
      return ⟨facts.inputKnowledgeHashes, facts.eventAt, facts.marketKnowledgeAt,
        facts.claimCeiling, payloadHash sha256 (facts.payload texts)⟩

end Restoring

end TradePlatform.KnowledgeTime
