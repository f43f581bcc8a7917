/-
# `TradePlatform.ScheduledAcquisition` — windows, plans and invocations of scheduled acquisition

`scheduled_historical_acquisition_v1.py`, with the replay identity proof of
`historical_acquisition.py` that it trusts.  A window is a slot of the schedule; a dataset
that is sealed under its version, and is exactly its acquisition, proves it complete.  An
invocation reads this evidence once, plans the oldest missing windows, and works through the
plan, one lock and one call of `acquire` at a time.  Any number of invocations run over one
set of sealed datasets; each of their reads, claims, calls and releases is a step.
-/
import TradePlatform.OperationalJobs
import TradePlatform.RawHistoricalCapture
import TradePlatform.Lib.JsonLines
import TradePlatform.Lib.SessionLocks
import TradePlatform.Lib.Strptime

namespace TradePlatform.ScheduledAcquisition

open RawCapture (ObservationKind)

abbrev Text := List Char

def refuse {α : Type} (message : String) : Except Exn α :=
  .error (.scheduledAcquisitionConfigurationError message)

/-! ## The authorization -/

/-- A `datetime`: its wall clock, in microseconds, and `utcoffset()`. -/
structure ClockTime where
  wall : ℤ
  utcoffset : Option ℤ
deriving DecidableEq

/-- `_require_utc`, with the instant, which is what the wall clock shows. -/
def requireUtc (value : ClockTime) (name : String) : Except Exn ℤ :=
  match value.utcoffset with
  | none => refuse s!"{name}_must_be_timezone_aware"
  | some offset => if offset ≠ 0 then refuse s!"{name}_must_be_utc" else .ok value.wall

def oneMinute : ℤ := 60 * 10 ^ 6

def openInterestGrid : ℤ := 5 * oneMinute

def bybitProviderName : String := "bybit"
def bybitInstrumentId : String := "CRYPTO:BYBIT:BTCUSDT:PERP"
def bybitSymbol : String := "BTCUSDT"
def bybitKlinePageLimit : ℤ := 1000
def bybitOpenInterestPageLimit : ℤ := 200

def scheduledObservationKinds : Finset ObservationKind :=
  {.ohlcv, .markPrice, .indexPrice, .openInterest}

def fundingKinds : Finset ObservationKind := {.fundingRateRealized, .fundingRateIndicative}

def acquisitionKindOrder : List ObservationKind := [.ohlcv, .markPrice, .indexPrice, .openInterest]

structure ScheduledHistoricalAcquisitionAuthorizationV1 where
  authorizationVersion : String
  jobName : String
  jobPolicyVersion : String
  provider : String
  sourceId : UUID
  instrumentId : String
  providerSymbol : String
  observationKinds : Finset ObservationKind
  normalizationVersion : String
  materializeFeatures : Bool
  windowSize : ℤ
  scheduleAnchor : ClockTime
  finalityLag : ℤ
  maximumPagesPerKind : ℤ
  maximumCatchupWindowsPerInvocation : ℤ
  minimumRequestInterval : ℤ
  authorizedBy : String
  authorizationReference : String
  authorizedAt : ClockTime

def requireTrimmed (value name : String) : Except Exn Unit :=
  if blank value ∨ JsonLines.strip isSpace value.toList ≠ value.toList then
    refuse s!"invalid_{name}"
  else .ok ()

namespace ScheduledHistoricalAcquisitionAuthorizationV1

variable (a : ScheduledHistoricalAcquisitionAuthorizationV1)

def minimumRequiredPagesPerKind : ℤ :=
  max (max (-(-(a.windowSize / oneMinute) / bybitKlinePageLimit))
    (-(-(a.windowSize / openInterestGrid) / bybitOpenInterestPageLimit))) 1

def validate : Except Exn Unit := do
  requireTrimmed a.authorizationVersion "authorization_version"
  requireTrimmed a.jobName "job_name"
  requireTrimmed a.jobPolicyVersion "job_policy_version"
  requireTrimmed a.normalizationVersion "normalization_version"
  requireTrimmed a.authorizedBy "authorized_by"
  requireTrimmed a.authorizationReference "authorization_reference"
  if a.provider ≠ bybitProviderName then refuse "unsupported_provider"
  else if a.instrumentId ≠ bybitInstrumentId then refuse "unsupported_instrument"
  else if a.providerSymbol ≠ bybitSymbol then refuse "unsupported_provider_symbol"
  else if a.observationKinds ∩ fundingKinds ≠ ∅ then refuse "funding_not_supported"
  else if a.observationKinds ≠ scheduledObservationKinds then
    refuse "observation_kinds_must_be_exactly_ohlcv_mark_index_open_interest"
  else do
    let anchor ← requireUtc a.scheduleAnchor "schedule_anchor"
    let _ ← requireUtc a.authorizedAt "authorized_at"
    if anchor % oneMinute ≠ 0 then refuse "schedule_anchor_not_minute_aligned"
    else if anchor / oneMinute % 60 % 5 ≠ 0 then refuse "schedule_anchor_not_open_interest_aligned"
    else if a.windowSize ≤ 0 ∨ a.windowSize % oneMinute ≠ 0 then
      refuse "window_size_must_be_whole_minutes"
    else if a.windowSize % openInterestGrid ≠ 0 then refuse "window_size_not_open_interest_aligned"
    else if a.finalityLag ≤ 0 then refuse "finality_lag_must_be_positive"
    else if a.minimumRequestInterval ≤ 0 then refuse "minimum_request_interval_must_be_positive"
    else if a.maximumCatchupWindowsPerInvocation < 1 then
      refuse "maximum_catchup_windows_per_invocation_must_be_positive"
    else if a.maximumPagesPerKind < a.minimumRequiredPagesPerKind then
      refuse "maximum_pages_per_kind_cannot_cover_one_window"
    else pure ()

end ScheduledHistoricalAcquisitionAuthorizationV1

structure IdentityFields where
  authorizationVersion : String
  provider : String
  sourceId : UUID
  instrumentId : String
  providerSymbol : String
  observationKinds : Finset ObservationKind
  normalizationVersion : String
  windowSizeSeconds : ℤ
  scheduleAnchor : ℤ

/-- SHA-256, the hash of the JSON of the identity fields, and `str(uuid)`. -/
structure Env where
  sha256 : String → String
  identityHash : IdentityFields → String
  uuidText : UUID → String

/-! ## Windows and versions -/

structure Window where
  index : ℕ
  start : ℤ
  stop : ℤ
deriving DecidableEq

/-- `datetime + timedelta`, which stays in the years 1 to 9999. -/
def plus (instant span : ℤ) : Except Exn ℤ :=
  if (IsoText.Stamp.utc? (instant + span)).isSome then .ok (instant + span)
  else .error .arithmeticError

def windowStamp (instant : ℤ) : Text :=
  ((IsoText.Stamp.utc? instant).map Strptime.strftime).getD []

section Windows

variable (env : Env) (a : ScheduledHistoricalAcquisitionAuthorizationV1)

def identityHash : String :=
  env.identityHash
    { authorizationVersion := a.authorizationVersion
      provider := a.provider
      sourceId := a.sourceId
      instrumentId := a.instrumentId
      providerSymbol := a.providerSymbol
      observationKinds := a.observationKinds
      normalizationVersion := a.normalizationVersion
      windowSizeSeconds := a.windowSize / 10 ^ 6
      scheduleAnchor := a.scheduleAnchor.wall }

def window (index : ℕ) : Except Exn Window := do
  let start ← plus a.scheduleAnchor.wall (index * a.windowSize)
  let stop ← plus start a.windowSize
  pure ⟨index, start, stop⟩

def scheduledDatasetVersionPrefix : Text :=
  "bybit-sched-v1:".toList ++ ((identityHash env a).toList.take 32 ++ [':'])

def scheduledDatasetVersion (w : Window) : Text :=
  scheduledDatasetVersionPrefix env a ++ (windowStamp w.start ++ ':' :: windowStamp w.stop)

def windowIndexForVersion (version : Text) : Except Exn (Option ℕ) :=
  if (scheduledDatasetVersionPrefix env a).isPrefixOf version then
    let suffix := version.drop (scheduledDatasetVersionPrefix env a).length
    match Strptime.strptime (suffix.takeWhile (· ≠ ':')) with
    | none => .ok none
    | some start =>
        let offset := start.instant - a.scheduleAnchor.wall
        if offset < 0 ∨ offset % a.windowSize ≠ 0 then .ok none
        else do
          let w ← window a (offset / a.windowSize).toNat
          pure (if scheduledDatasetVersion env a w ≠ version then none else some w.index)
  else .ok none

def windowLockKey (w : Window) : String :=
  s!"trade_platform:scheduled_historical_acquisition_v1:{identityHash env a}:" ++
    s!"{IsoText.Stamp.utcText w.start}:{IsoText.Stamp.utcText w.stop}"

end Windows

/-! ## Requests, and the proof that a dataset is one's acquisition -/

structure HistoricalAcquisitionRequest where
  sourceId : UUID
  instrumentId : String
  provider : String
  providerSymbol : String
  start : ℤ
  stop : ℤ
  observationKinds : Finset ObservationKind
  normalizationVersion : String
  datasetVersion : Text
  maximumPagesPerKind : ℤ
  materializeFeatures : Bool
  idempotencyKey : String

def allKinds : List ObservationKind :=
  [.ohlcv, .dividend, .split, .symbolChange, .delisting, .settlementPrice, .openInterest,
    .fundingRateRealized, .fundingRateIndicative, .markPrice, .indexPrice]

namespace HistoricalAcquisitionRequest

variable (request : HistoricalAcquisitionRequest)

def orderedKinds : List ObservationKind :=
  acquisitionKindOrder.filter fun kind => decide (kind ∈ request.observationKinds)

def acquisitionFingerprint (env : Env) : String :=
  let kinds := ((allKinds.filter fun kind => decide (kind ∈ request.observationKinds)).map
    ObservationKind.value).mergeSort
  env.sha256 ("|".intercalate
    ["trade_platform.historical_acquisition.v1", request.provider, env.uuidText request.sourceId,
      request.instrumentId, request.providerSymbol, IsoText.Stamp.utcText request.start,
      IsoText.Stamp.utcText request.stop, ",".intercalate kinds, request.normalizationVersion,
      String.ofList request.datasetVersion])

end HistoricalAcquisitionRequest

def buildScheduledRequest (env : Env) (a : ScheduledHistoricalAcquisitionAuthorizationV1)
    (w : Window) : HistoricalAcquisitionRequest :=
  let request : HistoricalAcquisitionRequest :=
    { sourceId := a.sourceId
      instrumentId := a.instrumentId
      provider := a.provider
      providerSymbol := a.providerSymbol
      start := w.start
      stop := w.stop
      observationKinds := a.observationKinds
      normalizationVersion := a.normalizationVersion
      datasetVersion := scheduledDatasetVersion env a w
      maximumPagesPerKind := a.maximumPagesPerKind
      materializeFeatures := a.materializeFeatures
      idempotencyKey := "" }
  { request with idempotencyKey := request.acquisitionFingerprint env }

/-- `_expected_event_ats`: the bars by their opens, the prices by their closes, and the open
interest on its own grid. -/
def expectedEventAts (kind : ObservationKind) (start stop : ℤ) : List ℤ :=
  let minutes := ((stop - start) / oneMinute).toNat
  match kind with
  | .openInterest =>
      (List.range ((stop - start + openInterestGrid - 1) / openInterestGrid).toNat).map
        fun (i : ℕ) => start + i * openInterestGrid
  | .ohlcv => (List.range minutes).map fun (i : ℕ) => start + i * oneMinute
  | _ => (List.range minutes).map fun (i : ℕ) => start + (i + 1) * oneMinute

structure SealedDatasetView where
  datasetVersionId : UUID
  normalizationVersion : String
  instrumentIds : Finset String
  providerIdentifiers : Finset String
  providerSymbols : Finset String
  eventAtsByKind : ObservationKind → Option (Finset ℤ)
  memberCountByKind : ObservationKind → ℕ

def expectedEventsByKind (request : HistoricalAcquisitionRequest) (kind : ObservationKind) :
    Option (Finset ℤ) :=
  if kind ∈ request.orderedKinds then
    some (expectedEventAts kind request.start request.stop).toFinset
  else none

def sealedDatasetMatchesRequest (existing : SealedDatasetView)
    (request : HistoricalAcquisitionRequest) : Bool :=
  decide (existing.normalizationVersion = request.normalizationVersion ∧
    existing.instrumentIds = {request.instrumentId} ∧
    existing.providerIdentifiers = {request.providerSymbol} ∧
    existing.providerSymbols = {request.providerSymbol} ∧
    (∀ kind ∈ allKinds, existing.eventAtsByKind kind = expectedEventsByKind request kind) ∧
    ∀ kind ∈ request.orderedKinds, existing.memberCountByKind kind =
      (expectedEventAts kind request.start request.stop).toFinset.card)

/-! ## The evidence and the plan -/

/-- A sealed row of `historical_dataset_versions` with its members. -/
structure SealedDataset where
  sourceId : UUID
  version : Text
  view : SealedDatasetView

def SealedDataset.key (row : SealedDataset) : UUID × Text := (row.sourceId, row.version)

structure ScheduledWindowPlan where
  asOf : ℤ
  eligibleCutoff : ℤ
  windowsEligible : ℕ
  windowsCompleted : ℕ
  missingWindows : ℤ
  pending : List Window

section Plan

variable (env : Env) (a : ScheduledHistoricalAcquisitionAuthorizationV1)

def sealedDatasets (rows : List SealedDataset) : List SealedDataset :=
  rows.filter fun row => decide (row.sourceId = a.sourceId) &&
    (scheduledDatasetVersionPrefix env a).isPrefixOf row.version

/-- One dataset of the loop of `_completed_versions`: the matching versions with their
datasets, and the number of conflicting ones. -/
def matchDataset (found : List (Text × UUID) × ℕ) (row : SealedDataset) :
    Except Exn (List (Text × UUID) × ℕ) := do
  match ← windowIndexForVersion env a row.version with
  | none => pure found
  | some index => do
      let w ← window a index
      if sealedDatasetMatchesRequest row.view (buildScheduledRequest env a w) then
        pure (found.1 ++ [(row.version, row.view.datasetVersionId)], found.2)
      else pure (found.1, found.2 + 1)

def featureComplete (found : List (Text × UUID)) (counts : UUID → UUID → ℕ)
    (basisId openInterestId : UUID) : List Text :=
  (found.filter fun x => decide ((counts x.2 basisId : ℤ) = a.windowSize / oneMinute ∧
    (counts x.2 openInterestId : ℤ) = a.windowSize / openInterestGrid - 1)).map Prod.fst

def completedIndices (windowsEligible : ℕ) (completed : List Text) : Except Exn (List ℕ) := do
  let indices ← completed.mapM (windowIndexForVersion env a)
  pure ((indices.filterMap id).filter (fun index => decide (index < windowsEligible))).dedup

def planScheduledWindows (asOf : ℤ) (completed : List Text) : Except Exn ScheduledWindowPlan := do
  let cutoff ← plus asOf (-a.finalityLag)
  let offset := cutoff - a.scheduleAnchor.wall
  let windowsEligible := if offset < 0 then 0 else (offset / a.windowSize).toNat
  let done ← completedIndices env a windowsEligible completed
  let missing := (List.range windowsEligible).filter fun index => decide (index ∉ done)
  let pending ← (missing.take a.maximumCatchupWindowsPerInvocation.toNat).mapM (window a)
  pure ⟨asOf, cutoff, windowsEligible, done.length, windowsEligible - done.length, pending⟩

end Plan

/-! ## One call of `acquire` -/

inductive AcquisitionStatus where
  | succeeded | preconditionFailed | providerFailed | paginationFailed | normalizationFailed
  | qualityFailed | coverageFailed | sealFailed | featureFailed
deriving DecidableEq, Repr

def AcquisitionStatus.value : AcquisitionStatus → String
  | .succeeded => "SUCCEEDED"
  | .preconditionFailed => "PRECONDITION_FAILED"
  | .providerFailed => "PROVIDER_FAILED"
  | .paginationFailed => "PAGINATION_FAILED"
  | .normalizationFailed => "NORMALIZATION_FAILED"
  | .qualityFailed => "QUALITY_FAILED"
  | .coverageFailed => "COVERAGE_FAILED"
  | .sealFailed => "SEAL_FAILED"
  | .featureFailed => "FEATURE_FAILED"

structure HistoricalAcquisitionResult where
  status : AcquisitionStatus
  idempotencyKey : String
  datasetVersion : Text
  alreadyCompleted : Bool
  datasetVersionId : Option UUID
  datasetContentHash : Option String
  providerHealthStatus : Option String
  featureCounts : Option (ℤ × ℤ)
  failureCode : Option String
deriving DecidableEq

structure ScheduledWindowOutcome where
  window : Window
  datasetVersion : Text
  acquisitionFingerprint : String
  status : AcquisitionStatus
  alreadyCompleted : Bool
  datasetVersionId : Option UUID
  datasetContentHash : Option String
  providerHealthStatus : Option String
  featureCounts : Option (ℤ × ℤ)
  failureCode : Option String
deriving DecidableEq

/-- `_acquire_window`, for what `acquire` returned, or the name of the exception's class. -/
def acquireWindow (env : Env) (a : ScheduledHistoricalAcquisitionAuthorizationV1) (w : Window)
    (returned : Except String HistoricalAcquisitionResult) : ScheduledWindowOutcome :=
  let request := buildScheduledRequest env a w
  match returned with
  | .error name =>
      { window := w
        datasetVersion := request.datasetVersion
        acquisitionFingerprint := request.idempotencyKey
        status := .preconditionFailed
        alreadyCompleted := false
        datasetVersionId := none
        datasetContentHash := none
        providerHealthStatus := none
        featureCounts := none
        failureCode := some s!"unexpected_acquisition_error:{name}" }
  | .ok result =>
      let unbound := decide (result.status = .succeeded ∧
        (result.datasetVersion ≠ request.datasetVersion ∨
          result.idempotencyKey ≠ request.idempotencyKey ∨ result.datasetVersionId = none ∨
          a.materializeFeatures = true ∧ result.featureCounts = none))
      { window := w
        datasetVersion := request.datasetVersion
        acquisitionFingerprint := request.idempotencyKey
        status := if unbound then .sealFailed else result.status
        alreadyCompleted := result.alreadyCompleted
        datasetVersionId := result.datasetVersionId
        datasetContentHash := result.datasetContentHash
        providerHealthStatus := result.providerHealthStatus
        featureCounts := result.featureCounts
        failureCode := if unbound then some "acquisition_result_does_not_bind_scheduled_window"
          else result.failureCode }

/-! ## Runners -/

structure ProviderConfiguration where
  provider : String
  baseUrl : String
  termsAccepted : Bool
  secretReference : Option String
  requestTimeoutSeconds : ℚ
  minimumRequestInterval : ℤ

/-- `_validate_configuration`, with the `validate` of the configuration. -/
def validateConfiguration (a : ScheduledHistoricalAcquisitionAuthorizationV1)
    (configuration : ProviderConfiguration) : Except Exn Unit :=
  if configuration.provider = "" ∨ ¬ "https://".isPrefixOf configuration.baseUrl then
    refuse "provider_requires_https_base_url"
  else if configuration.requestTimeoutSeconds ≤ 0 ∨ configuration.minimumRequestInterval < 0 then
    refuse "invalid_provider_configuration"
  else if configuration.provider ≠ a.provider then refuse "configuration_provider_mismatch"
  else if configuration.termsAccepted = false then refuse "provider_terms_not_accepted"
  else if configuration.secretReference ≠ none then refuse "public_bybit_v1_requires_no_secret"
  else if configuration.minimumRequestInterval ≠ a.minimumRequestInterval then
    refuse "configuration_minimum_request_interval_not_authorized"
  else .ok ()

def policyFailure (a : ScheduledHistoricalAcquisitionAuthorizationV1)
    (policy : OperationalJobPolicy) : Option String :=
  if policy.jobName ≠ a.jobName then some "operational_job_policy_job_name_mismatch"
  else if policy.enabled = false then some "operational_job_policy_disabled"
  else if policy.version ≠ a.jobPolicyVersion then
    some "operational_job_policy_version_not_authorized"
  else none

/-- A runner.  Its constructor has checked the authorization and the configuration, so
neither check can fail in `run`. -/
structure ScheduledHistoricalAcquisitionRunnerV1 where
  authorization : ScheduledHistoricalAcquisitionAuthorizationV1
  configuration : ProviderConfiguration
  retryAttempts : ℕ
  authorized : authorization.validate = .ok ()
  configured : validateConfiguration authorization configuration = .ok ()

inductive ScheduledAcquisitionOutcome where
  | upToDate | backlogRemains | windowContended | windowFailed | notAuthorized
deriving DecidableEq, Repr

structure ScheduledInvocationResult where
  outcome : ScheduledAcquisitionOutcome
  jobPolicyId : Option UUID
  asOf : ℤ
  eligibleCutoff : ℤ
  windowsEligible : ℕ
  windowsCompletedBefore : ℕ
  windowsConsidered : List Window
  windowOutcomes : List ScheduledWindowOutcome
  backlogRemaining : ℤ
  contendedWindow : Option Window
  failureCode : Option String
  windowsFeatureIncomplete : ℕ
  windowsSealedConflicting : ℕ
  worstCaseProviderRequests : ℤ
deriving DecidableEq

/-- The loop of an invocation: the evidence, the plan made of it, the windows still to come
and the outcomes so far. -/
structure Loop where
  policyId : UUID
  completed : List Text
  plan : ScheduledWindowPlan
  featureIncomplete : ℕ
  sealedConflicting : ℕ
  rest : List Window
  outcomes : List ScheduledWindowOutcome

inductive Phase where
  | idle
  /-- It has passed its gates. -/
  | reading (policyId : UUID)
  /-- It has read the sealed datasets, and not yet the feature counts. -/
  | counting (policyId : UUID) (found : List (Text × UUID)) (conflicting : ℕ)
  | looping (loop : Loop)
  | claimed (loop : Loop) (w : Window)
  /-- `acquire` has been called for the window. -/
  | acquiring (loop : Loop) (w : Window)
  | releasing (loop : Loop) (outcome : ScheduledWindowOutcome)
  | returned (result : ScheduledInvocationResult)
  | raised

structure Invocation where
  runner : ScheduledHistoricalAcquisitionRunnerV1
  asOf : ClockTime
  phase : Phase

/-- The window that an invocation has called `acquire` for. -/
def Invocation.acquiring (invocation : Invocation) : Option Window :=
  match invocation.phase with
  | .acquiring _ w => some w
  | _ => none

namespace ScheduledHistoricalAcquisitionRunnerV1

variable (env : Env) (runner : ScheduledHistoricalAcquisitionRunnerV1)

def notAuthorized (policyId : Option UUID) (asOf cutoff : ℤ) (code : String) :
    ScheduledInvocationResult where
  outcome := .notAuthorized
  jobPolicyId := policyId
  asOf := asOf
  eligibleCutoff := cutoff
  windowsEligible := 0
  windowsCompletedBefore := 0
  windowsConsidered := []
  windowOutcomes := []
  backlogRemaining := 0
  contendedWindow := none
  failureCode := some code
  windowsFeatureIncomplete := 0
  windowsSealedConflicting := 0
  worstCaseProviderRequests := 0

def gate (asOf : ClockTime) (policy : Option OperationalJobPolicy) : Except Exn Phase := do
  let instant ← requireUtc asOf "as_of"
  let cutoff ← plus instant (-runner.authorization.finalityLag)
  if instant < runner.authorization.authorizedAt.wall then
    pure (.returned (notAuthorized none instant cutoff "authorization_not_yet_effective"))
  else
    match policy with
    | none => pure (.returned (notAuthorized none instant cutoff "operational_job_policy_missing"))
    | some policy =>
        match policyFailure runner.authorization policy with
        | some code => pure (.returned (notAuthorized (some policy.policyId) instant cutoff code))
        | none => pure (.reading policy.policyId)

def plan (policyId : UUID) (asOf : ℤ) (completed : List Text) (featureIncomplete conflicting : ℕ) :
    Except Exn Phase := do
  let plan ← planScheduledWindows env runner.authorization asOf completed
  pure (.looping ⟨policyId, completed, plan, featureIncomplete, conflicting, plan.pending, []⟩)

/-- The first read of `_completed_versions`; without features, or without a match, it is the
only one. -/
def readSealed (policyId : UUID) (asOf : ℤ) (rows : List SealedDataset) : Except Exn Phase := do
  let a := runner.authorization
  let (found, conflicting) ← Replay.replay (matchDataset env a) ([], 0) (sealedDatasets env a rows)
  if a.materializeFeatures = false ∨ found = [] then
    runner.plan env policyId asOf (found.map Prod.fst) 0 conflicting
  else pure (.counting policyId found conflicting)

def readCounts (policyId : UUID) (asOf : ℤ) (found : List (Text × UUID)) (conflicting : ℕ)
    (counts : UUID → UUID → ℕ) (basisId openInterestId : UUID) : Except Exn Phase :=
  let complete := featureComplete runner.authorization found counts basisId openInterestId
  runner.plan env policyId asOf complete (found.length - complete.length) conflicting

def result (loop : Loop) (contended : Option Window) (failureCode : Option String) :
    ScheduledInvocationResult :=
  let acquired := loop.outcomes.countP fun outcome => decide (outcome.status = .succeeded)
  let backlog := loop.plan.missingWindows - acquired
  { outcome :=
      if failureCode.isSome then .windowFailed
      else if contended.isSome then .windowContended
      else if backlog ≠ 0 then .backlogRemains
      else .upToDate
    jobPolicyId := some loop.policyId
    asOf := loop.plan.asOf
    eligibleCutoff := loop.plan.eligibleCutoff
    windowsEligible := loop.plan.windowsEligible
    windowsCompletedBefore := loop.plan.windowsCompleted
    windowsConsidered := loop.plan.pending
    windowOutcomes := loop.outcomes
    backlogRemaining := backlog
    contendedWindow := contended
    failureCode := failureCode
    windowsFeatureIncomplete := loop.featureIncomplete
    windowsSealedConflicting := loop.sealedConflicting
    worstCaseProviderRequests := loop.plan.pending.length *
      runner.authorization.observationKinds.card * runner.authorization.maximumPagesPerKind *
        runner.retryAttempts }

def resume (loop : Loop) (outcome : ScheduledWindowOutcome) : Phase :=
  let loop := { loop with outcomes := loop.outcomes ++ [outcome] }
  if outcome.status = .succeeded then .looping loop
  else .returned (runner.result loop none (some (outcome.failureCode.getD outcome.status.value)))

end ScheduledHistoricalAcquisitionRunnerV1

/-- `try`, of a part of `run`: an exception ends the invocation. -/
def phaseOf : Except Exn Phase → Phase
  | .ok phase => phase
  | .error _ => .raised

/-! ## Invocations that share the evidence -/

def SealedExactly (env : Env) (rows : List SealedDataset)
    (a : ScheduledHistoricalAcquisitionAuthorizationV1) (w : Window) : Prop :=
  ∃ row ∈ rows, row.sourceId = a.sourceId ∧ row.version = scheduledDatasetVersion env a w ∧
    sealedDatasetMatchesRequest row.view (buildScheduledRequest env a w) = true

instance (env : Env) (rows : List SealedDataset)
    (a : ScheduledHistoricalAcquisitionAuthorizationV1) (w : Window) :
    Decidable (SealedExactly env rows a w) :=
  inferInstanceAs (Decidable (∃ row ∈ rows, _))

structure Database where
  sealedRows : Table SealedDataset.key
  counts : UUID → UUID → ℕ
  locks : SessionLocks String ℕ
  invocations : ℕ → Option Invocation

inductive Action where
  /-- An invocation begins, under the policy that its gate reads. -/
  | run (i : ℕ) (runner : ScheduledHistoricalAcquisitionRunnerV1) (asOf : ClockTime)
      (policy : Option OperationalJobPolicy)
  | readSealed (i : ℕ)
  | readCounts (i : ℕ) (basisId openInterestId : UUID)
  /-- The next window of the loop, up to the claim of its lock. -/
  | claim (i : ℕ)
  | acquire (i : ℕ)
  /-- `acquire` returns or raises. -/
  | acquired (i : ℕ) (returned : Except String HistoricalAcquisitionResult)
  | release (i : ℕ) (released : Bool)
  /-- An exception that the invocation does not catch, or the end of its process. -/
  | abort (i : ℕ) (disconnected : Bool)
  /-- Anyone seals a dataset, or writes features. -/
  | seal (row : SealedDataset)
  | materialize (counts : UUID → UUID → ℕ)

namespace Database

variable (env : Env) (σ : Database)

def empty : Database := ⟨.empty _, fun _ _ => 0, .empty, fun _ => none⟩

def set (i : ℕ) (invocation : Invocation) (phase : Phase) : Database :=
  { σ with invocations := Function.update σ.invocations i (some { invocation with phase }) }

variable (i : ℕ) (invocation : Invocation)

def readSealed : Database :=
  match invocation.phase with
  | .reading policyId =>
      σ.set i invocation (phaseOf (invocation.runner.readSealed env policyId
        invocation.asOf.wall σ.sealedRows.rows))
  | _ => σ

def readCounts (basisId openInterestId : UUID) : Database :=
  match invocation.phase with
  | .counting policyId found conflicting =>
      σ.set i invocation (phaseOf (invocation.runner.readCounts env policyId
        invocation.asOf.wall found conflicting σ.counts basisId openInterestId))
  | _ => σ

def claim : Database :=
  match invocation.phase with
  | .looping loop =>
      match loop.rest with
      | [] => σ.set i invocation (.returned (invocation.runner.result loop none none))
      | w :: rest =>
          match σ.locks.tryLock (windowLockKey env invocation.runner.authorization w) i with
          | some locks => { σ with locks }.set i invocation (.claimed { loop with rest } w)
          | none => σ.set i invocation (.returned (invocation.runner.result loop (some w) none))
  | _ => σ

def acquire : Database :=
  match invocation.phase with
  | .claimed loop w => σ.set i invocation (.acquiring loop w)
  | _ => σ

def acquired (returned : Except String HistoricalAcquisitionResult) : Database :=
  match invocation.phase with
  | .acquiring loop w =>
      σ.set i invocation
        (.releasing loop (acquireWindow env invocation.runner.authorization w returned))
  | _ => σ

/-- The `finally` of a window; when it raises, so does the invocation. -/
def release (released : Bool) : Database :=
  match invocation.phase with
  | .releasing loop outcome =>
      if released = true then
        let key := windowLockKey env invocation.runner.authorization outcome.window
        { σ with locks := σ.locks.unlock key i }.set i invocation
          (invocation.runner.resume loop outcome)
      else σ.set i invocation .raised
  | _ => σ

def abort (disconnected : Bool) : Database :=
  { σ with locks := if disconnected = true then σ.locks.disconnect i else σ.locks }.set i
    invocation .raised

def onInvocation (i : ℕ) (f : Invocation → Database) : Database :=
  match σ.invocations i with
  | some invocation => f invocation
  | none => σ

def step : Action → Database
  | .run i runner asOf policy =>
      match σ.invocations i with
      | none => σ.set i ⟨runner, asOf, .idle⟩ (phaseOf (runner.gate asOf policy))
      | some _ => σ
  | .readSealed i => σ.onInvocation i (σ.readSealed env i)
  | .readCounts i basisId openInterestId =>
      σ.onInvocation i fun invocation => σ.readCounts env i invocation basisId openInterestId
  | .claim i => σ.onInvocation i (σ.claim env i)
  | .acquire i => σ.onInvocation i (σ.acquire i)
  | .acquired i returned =>
      σ.onInvocation i fun invocation => σ.acquired env i invocation returned
  | .release i released => σ.onInvocation i fun invocation => σ.release env i invocation released
  | .abort i disconnected => σ.onInvocation i fun invocation => σ.abort i invocation disconnected
  | .seal row =>
      match σ.sealedRows.find? row.key with
      | none => { σ with sealedRows := σ.sealedRows.put row }
      | some _ => σ
  | .materialize counts => { σ with counts }

/-- `acquire` succeeds only if it sealed the exact window, or found it sealed. -/
def AcquireHonest : Action → Prop
  | .acquired i (.ok result) => ∀ invocation ∈ σ.invocations i, ∀ w ∈ invocation.acquiring,
      result.status = .succeeded →
        SealedExactly env σ.sealedRows.rows invocation.runner.authorization w
  | _ => True

instance : DecidablePred (σ.AcquireHonest env)
  | .acquired i (.ok _) => inferInstanceAs (Decidable (∀ invocation ∈ σ.invocations i, _))
  | .acquired _ (.error _) | .run _ _ _ _ | .readSealed _ | .readCounts _ _ _ | .claim _
  | .acquire _ | .release _ _ | .abort _ _ | .seal _ | .materialize _ => .isTrue trivial

end Database

end TradePlatform.ScheduledAcquisition
