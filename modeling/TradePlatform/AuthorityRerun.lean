/-
# `TradePlatform.AuthorityRerun` — frozen candidates and their rerun in the authoritative tier

A finished study's manifest lists every result of the search tier.  A candidate set freezes
the first `top_k` of it by a rule; the rerun set adds what lies in the error band of the
cutoff and what the search flagged; each of these is recomputed, and the rule is applied
again to the recomputed metrics.  The recomputation of one candidate is the parameter
`rerunOne`; everything that decides which candidates are recomputed, and what is concluded
from them, is here as the code has it, with the rounding of the interpreter's default
context wherever the code computes with a decimal.
-/
import TradePlatform.Domain
import TradePlatform.Lib.DecimalOrder
import TradePlatform.Lib.Dict
import TradePlatform.Lib.Replay
import TradePlatform.Lib.SortBy

namespace TradePlatform.StrategyLab

open Decimal

/-! ## The manifest -/

/-- A number of the search tier.  The text of a double has twelve significant digits and a
count is exact, so the context of the arithmetic holds either. -/
structure SearchNumber where
  value : Decimal
  represented : Context.default.Represents value

/-- A metric of the search tier, a text as `Decimal` reads it. -/
inductive SearchMetric where
  | absent
  | flag (value : Bool)
  | number (number : SearchNumber)
  | nonFinite
  | malformed

inductive TrialOutcomeV1 where
  | evaluated | inadmissibleParameters
deriving DecidableEq, Repr

structure ResultRow where
  ordinal : ℕ
  trialId : String
  trialContentHash : String
  resultContentHash : String
  outcome : TrialOutcomeV1
  metrics : String → SearchMetric
  /-- `int(metrics.get("near_tie_decisions") or 0)`. -/
  nearTieDecisions : ℤ

/-- The manifest of a finished study.  Its rows are joined from tables with one row a trial
and one trial a content hash. -/
structure StudyManifestV1 where
  studyId : String
  studyContentHash : String
  plannedTrialCount : ℕ
  results : List ResultRow
  authorityReasons : List String
  manifestHash : String
  trialIds_nodup : (results.map ResultRow.trialId).Nodup
  trialContentHashes_nodup : (results.map ResultRow.trialContentHash).Nodup

/-! ## Frozen candidates -/

inductive RankDirectionV1 where
  | higherIsBetter | lowerIsBetter
deriving DecidableEq, Repr

def RankDirectionV1.sign : RankDirectionV1 → Decimal
  | .higherIsBetter => -1
  | .lowerIsBetter => 1

structure CandidateSelectionRuleV1 where
  metric : String
  direction : RankDirectionV1
  topK : ℕ
  topK_pos : 0 < topK

structure Entry where
  value : Decimal
  trialId : String
  trialContentHash : String
deriving DecidableEq

/-- `(sign * value, trial_content_hash)`; the product is rounded as any other. -/
def rankKey (direction : RankDirectionV1) (entry : Entry) : Decimal ×ₗ String :=
  toLex (Context.default.mul direction.sign entry.value, entry.trialContentHash)

structure FrozenCandidate where
  rank : ℕ
  trialId : String
  trialContentHash : String
  resultContentHash : String
  metricValue : Decimal

structure CandidateSetV1 where
  studyId : String
  manifestHash : String
  rule : CandidateSelectionRuleV1
  candidates : List FrozenCandidate
  eligibleCount : ℕ
  ineligibleCount : ℕ
  cutoffTie : Bool
  multipleTestingTrialCount : ℕ
  authoritativeRerun : String

def metricValue : SearchMetric → Option Decimal
  | .number number => some number.value
  | _ => none

def ResultRow.entry (row : ResultRow) (value : Decimal) : Entry :=
  ⟨value, row.trialId, row.trialContentHash⟩

def eligible (manifest : StudyManifestV1) (metric : String) : List (Entry × ResultRow) :=
  manifest.results.filterMap fun row =>
    if row.outcome = .evaluated then
      (metricValue (row.metrics metric)).map fun value => (row.entry value, row)
    else none

def rerunMarker (manifest : StudyManifestV1) : String :=
  if "SEARCH_TIER_RESULTS_REQUIRE_A_DECIMAL_AUTHORITY_RERUN" ∈ manifest.authorityReasons then
    "REQUIRED_DECIMAL_RERUN_OR_3"
  else "PENDING_OWNER_DECISION_OR_3"

def freezeCandidatesV1 (manifest : StudyManifestV1) (rule : CandidateSelectionRuleV1) :
    Except Exn CandidateSetV1 :=
  let found := eligible manifest rule.metric
  if found.length < rule.topK then
    .error (.strategyLabManifestError "fewer_eligible_results_than_top_k")
  else
    let ranked := sortBy (fun item => rankKey rule.direction item.1) found
    .ok {
      studyId := manifest.studyId
      manifestHash := manifest.manifestHash
      rule := rule
      candidates := ((ranked.take rule.topK).zipIdx 1).map fun item =>
        ⟨item.2, item.1.1.trialId, item.1.1.trialContentHash, item.1.2.resultContentHash,
          -- the text of the normalized number
          Context.default.round item.1.1.value⟩
      eligibleCount := found.length
      ineligibleCount := manifest.results.length - found.length
      cutoffTie := decide (rule.topK < found.length ∧
        (ranked[rule.topK - 1]?).map (·.1.value) = (ranked[rule.topK]?).map (·.1.value))
      multipleTestingTrialCount := manifest.plannedTrialCount
      authoritativeRerun := rerunMarker manifest }

/-! ## The rerun set -/

inductive RerunReason where
  | frozenCandidate | insideSelectionCutoffErrorBand | nearTieFlagged
deriving DecidableEq, Repr

def RerunReason.value : RerunReason → String
  | .frozenCandidate => "FROZEN_CANDIDATE"
  | .insideSelectionCutoffErrorBand => "INSIDE_SELECTION_CUTOFF_ERROR_BAND"
  | .nearTieFlagged => "NEAR_TIE_FLAGGED"

def selectionCutoffErrorBandRelativeV1 : Decimal := 1 / 10 ^ 6

/-- `_metric`: a text that is no number is an invalid operation here. -/
def metric : SearchMetric → Except Exn (Option Decimal)
  | .absent | .flag _ | .nonFinite => .ok none
  | .number number => .ok (some number.value)
  | .malformed => .error .arithmeticError

abbrev Reasons := Dict String (List RerunReason)

def Reasons.append (reasons : Reasons) (trial : String) (reason : RerunReason) : Reasons :=
  Dict.set reasons trial (Dict.getD reasons trial [] ++ [reason])

/-- One row of the manifest, in the loop of `rerun_set_v1`. -/
def addReasons (metricName : String) (cutoff tolerance : Decimal) (reasons : Reasons)
    (row : ResultRow) : Except Exn Reasons :=
  if row.outcome ≠ .evaluated then .ok reasons
  else do
    let value ← metric (row.metrics metricName)
    let inBand := value.any fun v =>
      Context.default.abs (Context.default.sub v cutoff) ≤ tolerance
    let reasons :=
      if inBand then reasons.append row.trialId .insideSelectionCutoffErrorBand else reasons
    .ok (if 0 < row.nearTieDecisions then reasons.append row.trialId .nearTieFlagged else reasons)

def frozenReasons (frozen : List String) : Reasons :=
  frozen.foldl (fun reasons trial => Dict.set reasons trial [.frozenCandidate]) Dict.empty

def lastCandidate (candidates : CandidateSetV1) : Except Exn FrozenCandidate :=
  candidates.candidates.getLast?.elim (.error .indexError) .ok

def rerunSetV1 (manifest : StudyManifestV1) (candidates : CandidateSetV1) :
    Except Exn Reasons :=
  if candidates.manifestHash ≠ manifest.manifestHash then
    .error (.authorityRerunError "candidate_set_is_not_from_this_manifest")
  else do
    let last ← lastCandidate candidates
    let tolerance := Context.default.mul (Context.default.abs last.metricValue)
      selectionCutoffErrorBandRelativeV1
    manifest.results.foldlM (addReasons candidates.rule.metric last.metricValue tolerance)
      (frozenReasons (candidates.candidates.map FrozenCandidate.trialId))

def Reasons.items (reasons : Reasons) : List (String × List RerunReason) :=
  (sortBy Prod.fst reasons.rows).map fun item => (item.1, sortedSet RerunReason.value item.2)

/-! ## The rerun -/

/-- A metric of `decimal_metrics_v1`: undefined, a number of eighteen fractional digits (a
count is one of them), or a label. -/
inductive DecimalMetric where
  | undefined
  | number (ticks : ℤ)
  | label (text : String)

structure Recomputed where
  reconciled : Bool
  heldDivergenceBars : ℕ
  tradeCountDivergence : ℕ
  floatNearTieDecisions : ℕ
  metrics : String → DecimalMetric

structure TrialV1 where
  parameters : List (String × String)
  contentHash : String

structure Job where
  trialId : String
  parameters : List (String × String)
  lagMicros : ℕ

structure StudySpecV1 where
  contentHash : String
  /-- The study carries the owner's policies, at the numeric slot of the third of them. -/
  boundToNumericPolicy : Bool
  /-- The baseline lag, in microseconds. -/
  timingLag : Option ℕ
  trials : Dict String TrialV1

structure RerunResult where
  trialId : String
  lagMicros : ℕ
  recomputed : Recomputed
  trialContentHash : String
  searchResultContentHash : String
  reasons : List RerunReason

def sweepLagsMicros : List ℕ := [5000000, 30000000, 60000000]

inductive SelectionStatus where
  | established | failClosed
deriving DecidableEq, Repr

structure Selected where
  rank : ℕ
  trialId : String
  metricValue : Decimal
deriving DecidableEq

/-- What a selection says where the Decimal metrics reach the rule's `top_k`. -/
structure SelectionFindings where
  rule : CandidateSelectionRuleV1
  decimalCutoff : Decimal
  bestUnrecomputedFloatMetric : Option Decimal
  cutoffTie : Bool
  changedVersusSearchSelection : Bool

structure AuthoritativeSelection where
  status : SelectionStatus
  reason : Option String
  selected : List Selected
  findings : Option SelectionFindings
  undefinedMetricTrials : List String

/-- `Decimal(str(raw))`, or nothing where the metric is undefined. -/
def decimalValue : DecimalMetric → Except Exn (Option Decimal)
  | .undefined => .ok none
  | .number ticks => .ok (some (ticks / 10 ^ 18))
  | .label _ => .error .arithmeticError

/-- `_q` of a finite number: the text of the number in eighteen fractional digits, one text
a value.  It is an invalid operation where the context has too few digits for it. -/
def quantized (value : Decimal) : Except Exn Decimal :=
  (Arithmetic.default.quantize 18 value).elim (.error .arithmeticError) .ok

def StudyManifestV1.hashOf (manifest : StudyManifestV1) (trial : String) : Except Exn String :=
  (manifest.results.find? fun row => row.trialId = trial).elim (.error (.keyError trial))
    fun row => .ok row.trialContentHash

def outsideRows (manifest : StudyManifestV1) (reasons : Reasons) : List ResultRow :=
  manifest.results.filter fun row =>
    row.outcome = .evaluated ∧ (Dict.get? reasons row.trialId).isNone

def reaches (direction : RankDirectionV1) (cutoff band : Decimal) (outside : List Decimal) :
    Bool :=
  match direction with
  | .higherIsBetter => outside.max?.any fun best => Context.default.sub cutoff band ≤ best
  | .lowerIsBetter => outside.min?.any fun best => best ≤ Context.default.add cutoff band

def bestOutside (direction : RankDirectionV1) (outside : List Decimal) : Option Decimal :=
  match direction with
  | .higherIsBetter => outside.max?
  | .lowerIsBetter => outside.min?

def baselineMetrics (metricName : String) (baselineLag : ℕ) (results : List RerunResult) :
    Except Exn (List (Option Decimal × String)) :=
  (results.filter fun item => item.lagMicros = baselineLag).mapM fun item =>
    (decimalValue (item.recomputed.metrics metricName)).map fun value => (value, item.trialId)

def exactEntries (manifest : StudyManifestV1) (metrics : List (Option Decimal × String)) :
    Except Exn (List Entry) :=
  (metrics.filterMap fun pair => pair.1.map fun value => (value, pair.2)).mapM fun pair =>
    (manifest.hashOf pair.2).map fun hash => ⟨pair.1, pair.2, hash⟩

def selectedRow (item : Entry × ℕ) : Except Exn Selected :=
  (quantized item.1.value).map fun value => ⟨item.2, item.1.trialId, value⟩

def quantizedBest : Option Decimal → Except Exn (Option Decimal)
  | none => .ok none
  | some best => (quantized best).map some

/-- `_authoritative_selection`, once the candidates are ranked. -/
def conclude (manifest : StudyManifestV1) (candidates : CandidateSetV1) (reasons : Reasons)
    (undefined : List String) (exact : List Entry) : Except Exn AuthoritativeSelection :=
  let rule := candidates.rule
  if exact.length < rule.topK then
    .ok ⟨.failClosed, some "fewer_defined_decimal_metrics_than_top_k", [], none, undefined⟩
  else do
    let ranked := sortBy (rankKey rule.direction) exact
    let selected := ranked.take rule.topK
    let last ← selected.getLast?.elim (.error Exn.indexError) .ok
    let band := Context.default.mul (Context.default.abs last.value)
      selectionCutoffErrorBandRelativeV1
    let values ← (outsideRows manifest reasons).mapM fun row => metric (row.metrics rule.metric)
    let outside := values.filterMap id
    let reached := reaches rule.direction last.value band outside
    let selectedRows ← (selected.zipIdx 1).mapM selectedRow
    let cutoff ← quantized last.value
    let best ← quantizedBest (bestOutside rule.direction outside)
    .ok {
      status := if reached then .failClosed else .established
      reason := if reached then
        some "an_unrecomputed_candidate_can_reach_the_decimal_cutoff" else none
      selected := selectedRows
      findings := some {
        rule := rule
        decimalCutoff := cutoff
        bestUnrecomputedFloatMetric := best
        cutoffTie := decide ((ranked[rule.topK]?).map Entry.value = some last.value)
        changedVersusSearchSelection := decide (sortBy id (selected.map Entry.trialId) ≠
          sortBy id (candidates.candidates.map FrozenCandidate.trialId)) }
      undefinedMetricTrials := undefined }

def authoritativeSelection (manifest : StudyManifestV1) (candidates : CandidateSetV1)
    (results : List RerunResult) (reasons : Reasons) (baselineLag : ℕ) :
    Except Exn AuthoritativeSelection := do
  let metrics ← baselineMetrics candidates.rule.metric baselineLag results
  let undefined := sortBy id ((metrics.filter fun pair => pair.1.isNone).map Prod.snd)
  let exact ← exactEntries manifest metrics
  conclude manifest candidates reasons undefined exact

structure AuthorityRerunV1 where
  studyContentHash : String
  manifestHash : String
  baselineLagMicros : ℕ
  rerunCount : ℕ
  results : List RerunResult
  selection : AuthoritativeSelection

section Rerun

-- `_rerun_one`: the complete path of one candidate in Decimal at one lag.
variable (rerunOne : Job → Except Exn Recomputed)

/-- `_Job(data_root, study, trial, trials[trial].parameters, lag)`. -/
def jobOf (study : StudySpecV1) (item : String × ℕ) : Except Exn Job :=
  (Dict.get? study.trials item.1).elim (.error (.keyError item.1))
    fun trial => .ok ⟨item.1, trial.parameters, item.2⟩

def rerunResult (study : StudySpecV1) (manifest : StudyManifestV1) (reasons : Reasons)
    (job : Job) : Except Exn RerunResult := do
  let recomputed ← rerunOne job
  let trial ← (Dict.get? study.trials job.trialId).elim (.error (.keyError job.trialId)) .ok
  let row ← (manifest.results.find? fun row => row.trialId = job.trialId).elim
    (.error (.keyError job.trialId)) .ok
  .ok ⟨job.trialId, job.lagMicros, recomputed, trial.contentHash, row.resultContentHash,
    sortedSet RerunReason.value (Dict.getD reasons job.trialId [.frozenCandidate])⟩

/-- What is rerun: the rerun set at the baseline lag, the frozen candidates at each sweep lag. -/
def rerunPlan (candidates : CandidateSetV1) (reasons : Reasons) (baseline : ℕ) :
    List (String × ℕ) :=
  reasons.items.map (fun item => (item.1, baseline)) ++
    candidates.candidates.flatMap fun item => sweepLagsMicros.map fun lag => (item.trialId, lag)

def rerunAt (study : StudySpecV1) (manifest : StudyManifestV1) (candidates : CandidateSetV1)
    (baseline : ℕ) : Except Exn AuthorityRerunV1 := do
  let reasons ← rerunSetV1 manifest candidates
  let jobs ← (rerunPlan candidates reasons baseline).mapM (jobOf study)
  let outputs ← jobs.mapM (rerunResult rerunOne study manifest reasons)
  let results := sortBy (fun item => toLex (item.trialId, item.lagMicros)) outputs
  let selection ← authoritativeSelection manifest candidates results reasons baseline
  .ok ⟨study.contentHash, manifest.manifestHash, baseline, reasons.rows.length, results, selection⟩

def runAuthorityRerunV1 (study : StudySpecV1) (manifest : StudyManifestV1)
    (candidates : CandidateSetV1) : Except Exn AuthorityRerunV1 :=
  if ¬ study.boundToNumericPolicy then
    .error (.authorityRerunError "authority_rerun_requires_an_or_3_bound_study")
  else if manifest.studyContentHash ≠ study.contentHash then
    .error (.authorityRerunError "manifest_is_not_from_this_study")
  else study.timingLag.elim
    (.error (.authorityRerunError "t2_study_without_the_or_5_timing_policy"))
    (rerunAt rerunOne study manifest candidates)

end Rerun

end TradePlatform.StrategyLab
