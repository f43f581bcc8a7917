/-
# `TradePlatform.KnowledgeTime` — when a decision could have known its inputs

`knowledge_time_doctrine_v1.py`: an observation's market knowledge time follows from the
evidence-tier verdict of its dataset, a feature's is the latest of its inputs, a decision's
the latest of its features, and the claim goes the other way: each level may claim no more
than the least of what it is made of.

Each issued object has the facts its market identity is hashed over and, beside them, the
platform's own clock, which is in the audit hash alone.  So the records come in two parts
(`ObservationFacts` and `ObservationKnowledgeV1`, and so on): what a later level reads is in
the first.
-/
import TradePlatform.Domain
import TradePlatform.Lib.JsonLines
import TradePlatform.Lib.Replay
import TradePlatform.Lib.SortBy

namespace TradePlatform.KnowledgeTime

def refuse {α : Type} (message : String) : Except Exn α :=
  .error (.knowledgeTimeDoctrineError message)

def stripped (text : String) : String := String.ofList (JsonLines.strip isSpace text.toList)

def schemaVersionV1 : String := "knowledge-time-doctrine-v1"

/-! ## Claims -/

inductive ClaimCeilingV1 where
  | none | descriptive | conditional | professional
deriving DecidableEq

namespace ClaimCeilingV1

def value : ClaimCeilingV1 → ℕ
  | none => 0
  | descriptive => 1
  | conditional => 2
  | professional => 3

def lowerName : ClaimCeilingV1 → String
  | none => "none"
  | descriptive => "descriptive"
  | conditional => "conditional"
  | professional => "professional"

theorem value_injective : Function.Injective value := by
  intro a b h
  cases a <;> cases b <;> first | rfl | cases h

instance linearOrder : LinearOrder ClaimCeilingV1 := LinearOrder.lift' value value_injective

theorem le_professional (claim : ClaimCeilingV1) : claim ≤ professional := by
  cases claim <;> decide

def least (claims : List ClaimCeilingV1) : ClaimCeilingV1 := claims.foldr min professional

theorem least_le {claims : List ClaimCeilingV1} {claim : ClaimCeilingV1} (h : claim ∈ claims) :
    least claims ≤ claim := by
  induction claims with
  | nil => cases h
  | cons head claims ih =>
      rcases List.mem_cons.mp h with rfl | h
      · exact min_le_left _ _
      · exact (min_le_right _ _).trans (ih h)

theorem least_perm {claims claims' : List ClaimCeilingV1} (h : claims.Perm claims') :
    least claims = least claims' :=
  h.foldr_eq' (fun x _ y _ z => min_left_comm y x z) professional

end ClaimCeilingV1

/-! ## The verdict of a dataset -/

inductive EvidenceTierV1 where
  | t0Synthetic | t1Retrospective | t2EventTime | t3PublicationTime | t4FirstPartyCapture
deriving DecidableEq

namespace EvidenceTierV1

def value : EvidenceTierV1 → String
  | t0Synthetic => "T0_SYNTHETIC"
  | t1Retrospective => "T1_RETROSPECTIVE"
  | t2EventTime => "T2_EVENT_TIME"
  | t3PublicationTime => "T3_PUBLICATION_TIME"
  | t4FirstPartyCapture => "T4_FIRST_PARTY_CAPTURE"

def all : List EvidenceTierV1 :=
  [t0Synthetic, t1Retrospective, t2EventTime, t3PublicationTime, t4FirstPartyCapture]

def ofValue? (text : String) : Option EvidenceTierV1 := all.find? fun tier => tier.value = text

end EvidenceTierV1

structure VerdictFacts where
  schemaVersion : String
  tier : String
  reasons : List String
  datasetVersionId : UUID
  datasetContentHash : Option String
  sourceId : Option UUID
  timingAuthority : String
  timingContractContentHash : Option String
  provenanceEvidenceId : Option UUID
  provenanceProvenReal : Bool
  professionalEvidenceEligible : Bool
  conditionalResearchEligible : Bool
  descriptiveResearchEligible : Bool
  declaredPublicationLagNanos : Option ℤ
  publicationLagAssumptionReference : Option String
deriving DecidableEq

structure EvidenceTierVerdictV1 extends VerdictFacts where
  contentHash : String
  evidenceId : UUID
deriving DecidableEq

/-! ## The payloads that are hashed -/

/-- `HostClockBoundV1`: how far a host clock ran behind the venue's, at most. -/
structure HostClockBoundV1 where
  venueMinusHostUpperBoundNanos : ℤ
  evidenceReference : String
deriving DecidableEq

structure DeclaredComputeLatencyV1 where
  latencyNanos : ℤ
  reference : String
deriving DecidableEq

structure PublicationLagBindingV1 where
  verdictEvidenceId : UUID
  publicationLagNanos : ℤ
  publicationLagReference : String
deriving DecidableEq

/-- The market identity of an observation.  Times are instants: the payload writes them in
UTC. -/
structure ObservationFacts where
  schemaVersion : String
  observationReference : String
  verdictEvidenceId : UUID
  verdictContentHash : String
  datasetVersionId : UUID
  datasetContentHash : String
  tier : String
  eventAt : ℤ
  publicationAt : Option ℤ
  arrivalAt : Option ℤ
  arrivalClockBound : Option HostClockBoundV1
  marketKnowledgeAt : Option ℤ
  claimCeiling : ClaimCeilingV1
  knowledgeBasis : String
  publicationLagNanos : Option ℤ
  publicationLagReference : Option String
  reasons : List String
deriving DecidableEq

structure FeatureFacts where
  schemaVersion : String
  inputKnowledgeHashes : List String
  eventAt : ℤ
  marketKnowledgeAt : Option ℤ
  claimCeiling : ClaimCeilingV1
  publicationLagBindings : List PublicationLagBindingV1
  reasons : List String
deriving DecidableEq

inductive DecisionModeV1 where
  | historicalReplay | live
deriving DecidableEq

structure DecisionFacts where
  schemaVersion : String
  mode : DecisionModeV1
  featureKnowledgeHashes : List String
  marketKnowledgeAt : Option ℤ
  computeLatency : Option DeclaredComputeLatencyV1
  computedAt : Option ℤ
  computedAtClockBound : Option HostClockBoundV1
  decisionAt : Option ℤ
  claimCeiling : ClaimCeilingV1
  publicationLagBindings : List PublicationLagBindingV1
  reasons : List String
deriving DecidableEq

/-- `_sha256` of the payloads, and `uuid5` in the module's namespace. -/
structure Digests where
  verdict : VerdictFacts → String
  verdictId : String → UUID
  observation : ObservationFacts → String
  feature : FeatureFacts → String
  audit : String → ℤ → String
  decision : DecisionFacts → String
  uuid5 : String → UUID

namespace EvidenceTierVerdictV1

variable (verdict : EvidenceTierVerdictV1) (d : Digests)

def schemaVersionCurrent : String := "evidence-tier-authority-v1"

def integrityVerified : Bool :=
  decide (verdict.contentHash = d.verdict verdict.toVerdictFacts ∧
    verdict.evidenceId = d.verdictId ("evidence-tier:" ++ verdict.contentHash))

def isProfessionalEvidence : Bool :=
  verdict.integrityVerified d && decide (verdict.schemaVersion = schemaVersionCurrent) &&
    verdict.professionalEvidenceEligible && verdict.reasons.isEmpty &&
    decide (verdict.tier ∈ [EvidenceTierV1.t3PublicationTime.value,
      EvidenceTierV1.t4FirstPartyCapture.value]) &&
    verdict.provenanceProvenReal && verdict.datasetContentHash.isSome &&
    verdict.timingContractContentHash.isSome

def isConditionalResearchEvidence : Bool :=
  verdict.integrityVerified d && decide (verdict.schemaVersion = schemaVersionCurrent) &&
    verdict.conditionalResearchEligible && !verdict.professionalEvidenceEligible &&
    decide (verdict.tier = EvidenceTierV1.t2EventTime.value) &&
    verdict.declaredPublicationLagNanos.isSome &&
    verdict.publicationLagAssumptionReference.any fun reference => !reference.isEmpty

/-- `_claim_from_verdict`: the most a single input under the verdict can support. -/
def claim : ClaimCeilingV1 :=
  if verdict.isProfessionalEvidence d then .professional
  else if verdict.isConditionalResearchEvidence d then .conditional
  else if verdict.integrityVerified d && verdict.descriptiveResearchEligible &&
      verdict.reasons.isEmpty && decide (verdict.tier ≠ EvidenceTierV1.t0Synthetic.value) then
    .descriptive
  else .none

def intact : Bool :=
  verdict.integrityVerified d && decide (verdict.schemaVersion = schemaVersionCurrent)

end EvidenceTierVerdictV1

/-! ## Observations -/

/-- `_plus_nanos_rounded_up`: to the next microsecond, never down. -/
def plusNanosRoundedUp (instant nanos : ℤ) : Except Exn ℤ :=
  if nanos < 0 then refuse "knowledge_offset_nanos_must_be_non_negative_integer"
  else .ok (instant + -(-nanos / 1000))

def requireAware (value : DateTime) (name : String) : Except Exn ℤ :=
  match value with
  | .aware instant => .ok instant
  | .naive _ => refuse (name ++ "_must_be_timezone_aware")

def requireAware? (value : Option DateTime) (name : String) : Except Exn (Option ℤ) :=
  match value with
  | none => .ok none
  | some value => return some (← requireAware value name)

namespace HostClockBoundV1

variable (bound : HostClockBoundV1)

def validate : Except Exn Unit :=
  if blank bound.evidenceReference then refuse "host_clock_bound_requires_evidence_reference"
  else .ok ()

def payload : HostClockBoundV1 :=
  ⟨bound.venueMinusHostUpperBoundNanos, stripped bound.evidenceReference⟩

def venueUpperBound (hostReading : ℤ) : Except Exn ℤ :=
  plusNanosRoundedUp hostReading (max 0 bound.venueMinusHostUpperBoundNanos)

end HostClockBoundV1

/-- `if arrival_clock_bound is not None: arrival_clock_bound.validate()`. -/
def validateBound? : Option HostClockBoundV1 → Except Exn Unit
  | none => .ok ()
  | some bound => bound.validate

structure ObservationInput where
  verdict : EvidenceTierVerdictV1
  datasetVersionId : UUID
  datasetContentHash : String
  observationReference : String
  eventAt : DateTime
  platformRecordedAt : DateTime
  publicationAt : Option DateTime
  arrivalAt : Option DateTime
  arrivalClockBound : Option HostClockBoundV1
deriving DecidableEq

structure TierClock where
  marketKnowledgeAt : ℤ
  basis : String
  lagNanos : Option ℤ
  lagReference : Option String

def tierClock (verdict : EvidenceTierVerdictV1) (claim : ClaimCeilingV1)
    (eventAt platformRecordedAt : ℤ) (publicationAt arrivalAt : Option ℤ)
    (arrivalClockBound : Option HostClockBoundV1) : Except Exn (String ⊕ TierClock) :=
  match EvidenceTierV1.ofValue? verdict.tier with
  | some .t0Synthetic => .ok (.inl "knowledge_time_undefined_for_synthetic_evidence")
  | some .t1Retrospective => .ok (.inl "knowledge_time_undefined_for_retrospective_evidence")
  | some .t2EventTime =>
      if claim ≠ .conditional then
        .ok (.inl "knowledge_time_t2_requires_a_bound_publication_lag_verdict")
      else
        match verdict.declaredPublicationLagNanos with
        | none => .ok (.inl "knowledge_time_t2_publication_lag_must_be_non_negative_integer")
        | some lag =>
            if lag < 0 then
              .ok (.inl "knowledge_time_t2_publication_lag_must_be_non_negative_integer")
            else do
              let knownAt ← plusNanosRoundedUp eventAt lag
              return .inr ⟨knownAt, "event_at_plus_declared_publication_lag", some lag,
                verdict.publicationLagAssumptionReference⟩
  | some .t3PublicationTime =>
      if claim ≠ .professional then .ok (.inl "knowledge_time_t3_requires_a_professional_verdict")
      else
        match publicationAt with
        | none => .ok (.inl "knowledge_time_t3_requires_publisher_publication_time")
        | some publicationAt =>
            .ok (.inr ⟨publicationAt, "publisher_publication_time", none, none⟩)
  | some .t4FirstPartyCapture =>
      if claim ≠ .professional then .ok (.inl "knowledge_time_t4_requires_a_professional_verdict")
      else
        match arrivalAt, arrivalClockBound with
        | none, _ => .ok (.inl "knowledge_time_t4_requires_recorder_arrival")
        | some _, none => .ok (.inl "knowledge_time_t4_arrival_clock_offset_unbounded")
        | some arrivalAt, some bound =>
            -- both are readings of the recorder's own clock
            if platformRecordedAt < arrivalAt then
              .ok (.inl "knowledge_time_platform_recorded_before_arrival")
            else do
              let knownAt ← bound.venueUpperBound arrivalAt
              return .inr ⟨knownAt, "recorder_arrival_plus_venue_clock_bound", none, none⟩
  | none => .ok (.inl "knowledge_time_unknown_evidence_tier")

def datasetMismatch : String := "knowledge_time_verdict_dataset_mismatch"

def contentHashMismatch : String := "knowledge_time_verdict_content_hash_mismatch"

def bindingReasons (d : Digests) (input : ObservationInput) : List String :=
  let tier := input.verdict.tier
  (if input.verdict.intact d then []
    else ["knowledge_time_evidence_tier_verdict_integrity_failed"]) ++
  (if input.verdict.datasetVersionId = input.datasetVersionId then [] else [datasetMismatch]) ++
  (if input.verdict.datasetContentHash = some (stripped input.datasetContentHash) then []
    else [contentHashMismatch]) ++
  (if input.publicationAt.isSome ∧ tier ≠ EvidenceTierV1.t3PublicationTime.value then
      ["knowledge_time_publication_at_supplied_for_a_non_publication_tier"]
    else []) ++
  (if (input.arrivalAt.isSome ∨ input.arrivalClockBound.isSome) ∧
      tier ≠ EvidenceTierV1.t4FirstPartyCapture.value then
      ["knowledge_time_arrival_clock_supplied_for_a_non_capture_tier"]
    else [])

def clockReasons (eventAt : ℤ) : String ⊕ TierClock → List String
  | .inl reason => [reason]
  | .inr clock =>
      if clock.marketKnowledgeAt < eventAt then ["knowledge_time_market_knowledge_precedes_event"]
      else []

def orderedReasons (reasons : List String) : List String := sortedSet id reasons

/-- The facts of an observation, from its verdict, its clocks and the reasons against it. -/
def observationFacts (input : ObservationInput) (claim : ClaimCeilingV1) (eventAt : ℤ)
    (publicationAt arrivalAt : Option ℤ) (clock : Option TierClock) (reasons : List String) :
    ObservationFacts where
  schemaVersion := schemaVersionV1
  observationReference := stripped input.observationReference
  verdictEvidenceId := input.verdict.evidenceId
  verdictContentHash := input.verdict.contentHash
  datasetVersionId := input.datasetVersionId
  datasetContentHash := stripped input.datasetContentHash
  tier := input.verdict.tier
  eventAt := eventAt
  publicationAt := publicationAt
  arrivalAt := arrivalAt
  arrivalClockBound := input.arrivalClockBound.map HostClockBoundV1.payload
  marketKnowledgeAt := if reasons = [] then clock.map TierClock.marketKnowledgeAt else none
  claimCeiling :=
    if reasons = [] then claim
    else min (if datasetMismatch ∈ reasons ∨ contentHashMismatch ∈ reasons then .none else claim)
      .descriptive
  knowledgeBasis := if reasons = [] then (clock.map TierClock.basis).getD "undefined"
    else "undefined"
  publicationLagNanos := if reasons = [] then clock.bind TierClock.lagNanos else none
  publicationLagReference := if reasons = [] then clock.bind TierClock.lagReference else none
  reasons := orderedReasons reasons

structure ObservationMarket extends ObservationFacts where
  marketContentHash : String
deriving DecidableEq

structure ObservationKnowledgeV1 extends ObservationMarket where
  platformRecordedAt : ℤ
  contentHash : String
  knowledgeId : UUID
deriving DecidableEq

def issueObservation (d : Digests) (facts : ObservationFacts) (platformRecordedAt : ℤ) :
    ObservationKnowledgeV1 where
  toObservationFacts := facts
  marketContentHash := d.observation facts
  platformRecordedAt := platformRecordedAt
  contentHash := d.audit (d.observation facts) platformRecordedAt
  knowledgeId := d.uuid5 ("observation-knowledge:" ++ d.observation facts)

def ObservationKnowledgeV1.integrityVerified (d : Digests) (item : ObservationKnowledgeV1) : Bool :=
  decide (item.schemaVersion = schemaVersionV1 ∧
    item.marketContentHash = d.observation item.toObservationFacts ∧
    item.contentHash = d.audit (d.observation item.toObservationFacts) item.platformRecordedAt ∧
    item.knowledgeId = d.uuid5 ("observation-knowledge:" ++ item.marketContentHash))

def deriveObservationKnowledgeV1 (d : Digests) (input : ObservationInput) :
    Except Exn ObservationKnowledgeV1 := do
  if blank input.observationReference then refuse "observation_reference_required"
  else if blank input.datasetContentHash then refuse "dataset_content_hash_required"
  else
    let eventAt ← requireAware input.eventAt "event_at"
    let platformRecordedAt ← requireAware input.platformRecordedAt "platform_recorded_at"
    let publicationAt ← requireAware? input.publicationAt "publication_at"
    let arrivalAt ← requireAware? input.arrivalAt "arrival_at"
    validateBound? input.arrivalClockBound
    let claim := if input.verdict.intact d then input.verdict.claim d else .none
    let reading ← tierClock input.verdict claim eventAt platformRecordedAt publicationAt arrivalAt
      input.arrivalClockBound
    return issueObservation d
      (observationFacts input claim eventAt publicationAt arrivalAt reading.getRight?
        (bindingReasons d input ++ clockReasons eventAt reading))
      platformRecordedAt

/-! ## Features -/

/-- `_sorted_bindings`: a set, in the order of the verdict, the lag and its reference. -/
def sortedBindings (bindings : List PublicationLagBindingV1) : List PublicationLagBindingV1 :=
  sortedSet (fun binding => toLex (binding.verdictEvidenceId,
    toLex (binding.publicationLagNanos, binding.publicationLagReference))) bindings

def ObservationMarket.lagBinding (item : ObservationMarket) : Option PublicationLagBindingV1 :=
  match item.publicationLagNanos, item.publicationLagReference with
  | some nanos, some reference => some ⟨item.verdictEvidenceId, nanos, reference⟩
  | _, _ => none

def featureReasons (inputs : List ObservationMarket) (eventAt : ℤ) : List String :=
  let undefined := inputs.filter fun item => item.marketKnowledgeAt.isNone
  (if (sortedSet id (inputs.map ObservationMarket.marketContentHash)).length ≠ inputs.length then
      ["feature_knowledge_duplicate_input"]
    else []) ++
  (if undefined ≠ [] then
      (undefined.flatMap fun item => item.reasons.map fun reason => "input:" ++ reason) ++
        ["feature_knowledge_input_market_knowledge_undefined"]
    else if (inputs.filterMap fun item => item.marketKnowledgeAt).max?.any
        fun knownAt => decide (knownAt < eventAt) then
      ["feature_knowledge_market_knowledge_precedes_feature_event"]
    else [])

def featureFacts (inputs : List ObservationMarket) (eventAt : ℤ) : FeatureFacts :=
  let reasons := featureReasons inputs eventAt
  let claim := ClaimCeilingV1.least (inputs.map fun item => item.claimCeiling)
  { schemaVersion := schemaVersionV1
    inputKnowledgeHashes := sortedSet id (inputs.map ObservationMarket.marketContentHash)
    eventAt := eventAt
    marketKnowledgeAt :=
      if reasons = [] then (inputs.filterMap fun item => item.marketKnowledgeAt).max? else none
    claimCeiling := if reasons = [] then claim else min claim .descriptive
    publicationLagBindings := sortedBindings (inputs.filterMap ObservationMarket.lagBinding)
    reasons := orderedReasons reasons }

structure FeatureMarket extends FeatureFacts where
  marketContentHash : String
deriving DecidableEq

structure FeatureKnowledgeV1 extends FeatureMarket where
  platformRecordedAt : ℤ
  contentHash : String
  knowledgeId : UUID
deriving DecidableEq

def issueFeature (d : Digests) (facts : FeatureFacts) (platformRecordedAt : ℤ) :
    FeatureKnowledgeV1 where
  toFeatureFacts := facts
  marketContentHash := d.feature facts
  platformRecordedAt := platformRecordedAt
  contentHash := d.audit (d.feature facts) platformRecordedAt
  knowledgeId := d.uuid5 ("feature-knowledge:" ++ d.feature facts)

def FeatureKnowledgeV1.integrityVerified (d : Digests) (item : FeatureKnowledgeV1) : Bool :=
  decide (item.schemaVersion = schemaVersionV1 ∧
    item.marketContentHash = d.feature item.toFeatureFacts ∧
    item.contentHash = d.audit (d.feature item.toFeatureFacts) item.platformRecordedAt ∧
    item.knowledgeId = d.uuid5 ("feature-knowledge:" ++ item.marketContentHash))

def propagateFeatureKnowledgeV1 (d : Digests) (inputs : List ObservationKnowledgeV1)
    (eventAt : DateTime) : Except Exn FeatureKnowledgeV1 := do
  let eventAt ← requireAware eventAt "event_at"
  match (inputs.map ObservationKnowledgeV1.platformRecordedAt).max? with
  | none => refuse "feature_knowledge_requires_inputs"
  | some platformRecordedAt =>
      if inputs.any fun item => !item.integrityVerified d then
        refuse "feature_knowledge_input_integrity_failed"
      else
        return issueFeature d
          (featureFacts (inputs.map ObservationKnowledgeV1.toObservationMarket) eventAt)
          platformRecordedAt

/-! ## Decisions -/

namespace DeclaredComputeLatencyV1

variable (latency : DeclaredComputeLatencyV1)

def validate : Except Exn Unit :=
  if latency.latencyNanos < 0 then refuse "compute_latency_must_be_non_negative"
  else if blank latency.reference then refuse "compute_latency_requires_reference"
  else .ok ()

def payload : DeclaredComputeLatencyV1 := ⟨latency.latencyNanos, stripped latency.reference⟩

end DeclaredComputeLatencyV1

structure DecisionTimeV1 extends DecisionFacts where
  contentHash : String
  decisionTimeId : UUID
deriving DecidableEq

namespace DecisionTimeV1

variable (d : Digests) (decision : DecisionTimeV1)

def integrityVerified : Bool :=
  decide (decision.schemaVersion = schemaVersionV1 ∧
    decision.contentHash = d.decision decision.toDecisionFacts ∧
    decision.decisionTimeId = d.uuid5 ("decision-time:" ++ decision.contentHash))

def isAdmissible : Bool :=
  decision.integrityVerified d && decision.decisionAt.isSome && decision.reasons.isEmpty &&
    decide (.conditional ≤ decision.claimCeiling)

end DecisionTimeV1

def checkFeatures (d : Digests) (features : List FeatureKnowledgeV1) : Except Exn Unit :=
  if features = [] then refuse "decision_time_requires_feature_knowledge"
  else if features.any fun item => !item.integrityVerified d then
    refuse "decision_time_feature_knowledge_integrity_failed"
  else .ok ()

def decisionInstant (mode : DecisionModeV1) (computeLatency : Option DeclaredComputeLatencyV1)
    (computedAt : Option ℤ) (computedAtClockBound : Option HostClockBoundV1)
    (marketKnowledgeAt : ℤ) : Except Exn (ℤ × List String) :=
  match mode, computeLatency, computedAt, computedAtClockBound with
  | .historicalReplay, some latency, _, _ => do
      return (← plusNanosRoundedUp marketKnowledgeAt latency.latencyNanos, [])
  | .live, _, some computedAt, some bound => do
      let computedVenue ← bound.venueUpperBound computedAt
      return (max marketKnowledgeAt computedVenue,
        if computedVenue < marketKnowledgeAt then ["live_computed_before_market_knowledge"] else [])
  | _, _, _, _ => refuse "decision_time_mode_inputs_incoherent"

def decisionInstant? (mode : DecisionModeV1) (computeLatency : Option DeclaredComputeLatencyV1)
    (computedAt : Option ℤ) (computedAtClockBound : Option HostClockBoundV1) :
    Option ℤ → Except Exn (Option (ℤ × List String))
  | none => .ok none
  | some marketKnowledgeAt => do
      return some (← decisionInstant mode computeLatency computedAt computedAtClockBound
        marketKnowledgeAt)

def decisionMarketKnowledgeAt (features : List FeatureMarket) : Option ℤ :=
  if features.any fun item => item.marketKnowledgeAt.isNone then none
  else (features.filterMap fun item => item.marketKnowledgeAt).max?

def decisionReasons (features : List FeatureMarket) : List String :=
  let undefined := features.filter fun item => item.marketKnowledgeAt.isNone
  let claim := ClaimCeilingV1.least (features.map fun item => item.claimCeiling)
  (if (features.map FeatureMarket.marketContentHash).Nodup then []
    else ["decision_duplicate_feature_input"]) ++
  (if undefined ≠ [] then
      (undefined.flatMap fun item => item.reasons) ++
        ["decision_input_has_no_market_knowledge_time"]
    else []) ++
  (if claim < .conditional then ["decision_claim_ceiling_is_" ++ claim.lowerName] else [])

def decisionFacts (mode : DecisionModeV1) (features : List FeatureMarket)
    (computeLatency : Option DeclaredComputeLatencyV1) (computedAt : Option ℤ)
    (computedAtClockBound : Option HostClockBoundV1) (instant : Option (ℤ × List String)) :
    DecisionFacts :=
  let reasons := decisionReasons features ++ (instant.map Prod.snd).getD []
  { schemaVersion := schemaVersionV1
    mode := mode
    featureKnowledgeHashes := sortBy id (features.map FeatureMarket.marketContentHash)
    marketKnowledgeAt := decisionMarketKnowledgeAt features
    computeLatency := computeLatency.map DeclaredComputeLatencyV1.payload
    computedAt := computedAt
    computedAtClockBound := computedAtClockBound.map HostClockBoundV1.payload
    decisionAt := if reasons = [] then instant.map Prod.fst else none
    claimCeiling := .least (features.map fun item => item.claimCeiling)
    publicationLagBindings :=
      sortedBindings (features.flatMap fun item => item.publicationLagBindings)
    reasons := orderedReasons reasons }

def issueDecision (d : Digests) (mode : DecisionModeV1) (features : List FeatureMarket)
    (computeLatency : Option DeclaredComputeLatencyV1) (computedAt : Option ℤ)
    (computedAtClockBound : Option HostClockBoundV1) : Except Exn DecisionTimeV1 := do
  let instant ← decisionInstant? mode computeLatency computedAt computedAtClockBound
    (decisionMarketKnowledgeAt features)
  let facts := decisionFacts mode features computeLatency computedAt computedAtClockBound instant
  return ⟨facts, d.decision facts, d.uuid5 ("decision-time:" ++ d.decision facts)⟩

def historicalDecisionTimeV1 (d : Digests) (features : List FeatureKnowledgeV1)
    (computeLatency : DeclaredComputeLatencyV1) : Except Exn DecisionTimeV1 := do
  checkFeatures d features
  computeLatency.validate
  issueDecision d .historicalReplay (features.map FeatureKnowledgeV1.toFeatureMarket)
    (some computeLatency) none none

def liveDecisionTimeV1 (d : Digests) (features : List FeatureKnowledgeV1) (computedAt : DateTime)
    (computedAtClockBound : HostClockBoundV1) : Except Exn DecisionTimeV1 := do
  checkFeatures d features
  let computedAt ← requireAware computedAt "computed_at"
  computedAtClockBound.validate
  issueDecision d .live (features.map FeatureKnowledgeV1.toFeatureMarket) none (some computedAt)
    (some computedAtClockBound)

end TradePlatform.KnowledgeTime
