/-
# `TradePlatform.StrategyLabStudy` — studies and the trials they plan

`strategy_lab_study_v1.py`: a study is hashed over its strategy, its parameter space, its data and
its search, and plans one trial for each index of an exhaustive search or of a seeded sample.  The
trials are told apart by their parameters, which a trial's identity binds, so that the planned
count is the number of different trials (`trials_complete`).
-/
import TradePlatform.ParameterSpaces
import TradePlatform.KnowledgeTime
import TradePlatform.Lib.JsonDump
import TradePlatform.Lib.UuidText

namespace TradePlatform

namespace StrategyLabStudy

open KnowledgeTime (EvidenceTierV1)

/-! ## Identities -/

mutual

/-- `_check_identity_value`; a key of a decoded value is a text. -/
def checkIdentityValue : Json → String → Except Exn Unit
  | .float _, path => refuse ("identity_value_type_refused:" ++ path ++ ":float")
  | .arr items, path => checkIdentityItems items path 0
  | .obj fields, path => checkIdentityFields fields path
  | _, _ => .ok ()

def checkIdentityItems : List Json → String → ℕ → Except Exn Unit
  | [], _, _ => .ok ()
  | item :: items, path, i => do
      checkIdentityValue item (path ++ "[" ++ toString i ++ "]")
      checkIdentityItems items path (i + 1)

def checkIdentityFields : List (String × Json) → String → Except Exn Unit
  | [], _ => .ok ()
  | field :: fields, path => do
      checkIdentityField field path
      checkIdentityFields fields path

def checkIdentityField : String × Json → String → Except Exn Unit
  | (key, value), path => checkIdentityValue value (path ++ "." ++ key)

end

/-- `canonical_identity_json_v1`: a float has been refused before it would be written. -/
def canonicalIdentityJson (payload : Json) : Except Exn String := do
  checkIdentityValue payload "$"
  return String.ofList (payload.dumps fun _ => [])

/-- `hashlib.sha256(..).hexdigest()` of a text, `uuid5` in the module's namespace, the value of a
decimal digit of any script, and the comparison of `_bind_policies` with the owner's policies,
which takes the payloads, whether the study uses data of the tier `T2`, and the slots. -/
structure Env where
  sha256 : String → String
  uuid5 : String → UUID
  digit : Char → Option (Fin 10)
  ownerPolicies : List (String × Json) → Bool → String → String → Except Exn Unit

variable (env : Env)

def identityHash (payload : Json) : Except Exn String :=
  (canonicalIdentityJson payload).map env.sha256

def instantText (x : IsoText.Stamp) : String :=
  open IsoText in String.ofList (digits 4 x.year ++ '-' :: (digits 2 x.month ++ '-' ::
    (digits 2 x.day ++ 'T' :: (digits 2 x.hour ++ ':' :: (digits 2 x.minute ++ ':' ::
      (digits 2 x.second ++ '.' :: (digits 6 x.micro ++ "+00:00".toList)))))))

/-! ## Strategies, data and searches -/

structure InputRoleV1 where
  role : String
  admissibleTiers : List EvidenceTierV1

def InputRoleV1.payload (role : InputRoleV1) : Json :=
  .obj [("role", .str role.role), ("admissible_tiers", .arr
    ((sortedSet id (role.admissibleTiers.map EvidenceTierV1.value)).map .str))]

structure StrategySpecV1 where
  family : String
  version : String
  implementationSha256 : String
  executionConvention : String
  inputRoles : List InputRoleV1
  /-- By name, in order. -/
  parameterSchema : List (String × ParameterKindV1)

def StrategySpecV1.payload (strategy : StrategySpecV1) : Json :=
  .obj [("family", .str strategy.family), ("version", .str strategy.version),
    ("implementation_sha256", .str strategy.implementationSha256),
    ("execution_convention", .str strategy.executionConvention),
    ("input_roles", .arr (strategy.inputRoles.map InputRoleV1.payload)),
    ("parameter_schema", .obj (strategy.parameterSchema.map fun x => (x.1, .str x.2.value)))]

structure DatasetBindingV1 where
  role : String
  datasetVersionId : UUID
  contentHash : String
  evidenceTier : EvidenceTierV1
  knowledgeUpperBoundExclusive : IsoText.Stamp

def DatasetBindingV1.payload (binding : DatasetBindingV1) : Json :=
  .obj [("role", .str binding.role),
    ("dataset_version_id", .str (String.ofList (UuidText.text binding.datasetVersionId))),
    ("content_hash", .str binding.contentHash), ("evidence_tier", .str binding.evidenceTier.value),
    ("knowledge_upper_bound_exclusive", .str (instantText binding.knowledgeUpperBoundExclusive))]

variable {digit : Char → Option (Fin 10)}

def ParameterDomainV1.payload (domain : ParameterDomainV1 digit) : Json :=
  .obj [("name", .str domain.name), ("kind", .str domain.kind.value),
    ("values", .arr (domain.values.map .str))]

inductive SearchModeV1 where
  | exhaustive | seededSample
deriving DecidableEq

def SearchModeV1.value : SearchModeV1 → String
  | exhaustive => "EXHAUSTIVE"
  | seededSample => "SEEDED_SAMPLE"

def checkSearch (mode : SearchModeV1) (maxTrials : ℤ) (seed : Option ℤ) : Except Exn Unit :=
  if maxTrials ≤ 0 then refuse "search_budget_must_be_a_positive_int"
  else if mode = .exhaustive ∧ seed ≠ none then refuse "exhaustive_search_takes_no_seed"
  else if mode = .seededSample ∧ seed.all (· < 0) then
    refuse "seeded_sample_needs_a_nonnegative_int_seed"
  else .ok ()

structure SearchPlanV1 where
  mode : SearchModeV1
  maxTrials : ℤ
  seed : Option ℤ
  valid : checkSearch mode maxTrials seed = .ok ()

def SearchPlanV1.payload (search : SearchPlanV1) : Json :=
  .obj [("mode", .str search.mode.value), ("max_trials", .int search.maxTrials),
    ("seed", search.seed.elim .null .int)]

/-! ## The seeded sample -/

def maxSampledSpace : ℕ := 10000000

/-- `seeded_sample_indices_v1`.  The hexadecimal digits of two digests are in the order of their
bytes, and `heapq.nsmallest(n, l, key)` is `sorted(l, key=key)[:n]`. -/
def seededSampleIndices (seed population count : ℤ) : Except Exn (List ℕ) :=
  if ¬ (0 < count ∧ count ≤ population) then refuse "sample_count_out_of_range"
  else if (maxSampledSpace : ℤ) < population then refuse "sampled_space_too_large"
  else
    let rank (i : ℕ) := env.sha256 (toString seed ++ ":" ++ toString i)
    .ok (sortBy id ((sortBy rank (List.range population.toNat)).take count.toNat))

/-! ## Studies -/

def untouchedHoldoutBoundary : IsoText.Stamp := .ofShown 2026 8 20 0 0 0 0 0

def numericPolicyUnset : String := "UNSET_PENDING_OWNER_DECISION_OR_3"

def costPolicyUnset : String := "UNSET_PENDING_OWNER_DECISION_OR_6"

/-- What a study declares, with the bounds in UTC and the slots as the policies give them. -/
structure StudyDeclaration (digit : Char → Option (Fin 10)) where
  strategy : StrategySpecV1
  parameterSpace : ParameterSpaceV1 digit
  datasets : List DatasetBindingV1
  search : SearchPlanV1
  evaluationUpperBoundExclusive : IsoText.Stamp
  numericPolicySlot : String
  costPolicySlot : String
  policies : Option (List (String × Json))

def checkDatasets (roles : List InputRoleV1) (bound : IsoText.Stamp) :
    List DatasetBindingV1 → Except Exn Unit
  | [] => .ok ()
  | binding :: bindings =>
      let tiers := (roles.filter (·.role = binding.role)).getLast?.map InputRoleV1.admissibleTiers
      if binding.evidenceTier ∉ tiers.getD [] then
        refuse ("dataset_tier_not_admissible_for_role:" ++ binding.role)
      else if bound.instant < binding.knowledgeUpperBoundExclusive.instant then
        refuse ("dataset_knowledge_extends_past_the_evaluation_bound:" ++ binding.role)
      else checkDatasets roles bound bindings

def checkBudget (search : SearchPlanV1) (cardinality : ℕ) : Except Exn Unit :=
  if search.mode = .exhaustive ∧ search.maxTrials < cardinality then
    refuse "exhaustive_budget_smaller_than_the_space"
  else if search.mode = .seededSample ∧ (cardinality : ℤ) ≤ search.maxTrials then
    refuse "seeded_sample_budget_covers_the_space_use_exhaustive"
  else if search.mode = .seededSample ∧ maxSampledSpace < cardinality then
    refuse "sampled_space_too_large"
  else .ok ()

def bindPolicies (study : StudyDeclaration env.digit) (policies : List (String × Json)) :
    Except Exn Unit := do
  if ¬ (policies.map Prod.fst).Perm ["numeric", "timing", "cost"] then
    refuse "policies_must_name_numeric_timing_and_cost"
  else
    let _ ← canonicalIdentityJson (.obj policies)
    env.ownerPolicies policies (study.datasets.any (·.evidenceTier = .t2EventTime))
      study.numericPolicySlot study.costPolicySlot

def checkPolicies (study : StudyDeclaration env.digit) : Except Exn Unit :=
  match study.policies with
  | none =>
      if study.numericPolicySlot ≠ numericPolicyUnset then
        refuse "numeric_policy_slot_requires_bound_owner_policies"
      else if study.costPolicySlot ≠ costPolicyUnset then
        refuse "cost_policy_slot_requires_bound_owner_policies"
      else .ok ()
  | some policies => bindPolicies env study policies

def checkRoles (study : StudyDeclaration digit) : Except Exn Unit :=
  let roles := study.datasets.map DatasetBindingV1.role
  let declared := study.strategy.inputRoles.map InputRoleV1.role
  if study.parameterSpace.domains.map (fun domain => (domain.name, domain.kind)) ≠
      study.strategy.parameterSchema then
    refuse "parameter_space_does_not_match_the_strategy_schema"
  else if roles ≠ sortBy id roles ∨ ¬ roles.Nodup then
    refuse "dataset_roles_must_be_unique_and_sorted"
  else if ¬ (roles ⊆ declared ∧ declared ⊆ roles) then
    refuse "dataset_roles_must_match_the_strategy_input_roles"
  else .ok ()

def checkStudy (study : StudyDeclaration env.digit) : Except Exn Unit :=
  let bound := study.evaluationUpperBoundExclusive
  if untouchedHoldoutBoundary.instant < bound.instant then
    refuse "evaluation_bound_crosses_the_untouched_holdout"
  else do
    checkPolicies env study
    checkRoles study
    checkDatasets study.strategy.inputRoles bound study.datasets
    checkBudget study.search study.parameterSpace.cardinality

structure StudySpecV1 extends StudyDeclaration env.digit where
  valid : checkStudy env toStudyDeclaration = .ok ()

structure TrialV1 where
  studyId : UUID
  ordinal : ℤ
  spaceIndex : ℕ
  parameters : Point
  contentHash : String
  trialId : UUID

namespace StudySpecV1

variable {env} (study : StudySpecV1 env)

def identity : Json :=
  .obj ([("schema_version", .str "strategy-lab-study-v1"),
    ("strategy", study.strategy.payload),
    ("parameter_space", .arr (study.parameterSpace.domains.map ParameterDomainV1.payload)),
    ("datasets", .arr (study.datasets.map DatasetBindingV1.payload)),
    ("search", study.search.payload),
    ("evaluation_upper_bound_exclusive", .str (instantText study.evaluationUpperBoundExclusive)),
    ("numeric_policy_slot", .str study.numericPolicySlot),
    ("cost_policy_slot", .str study.costPolicySlot)] ++
    study.policies.elim [] fun policies => [("policies", .obj policies)])

def contentHash : Except Exn String := identityHash env study.identity

def studyId : Except Exn UUID := study.contentHash.map fun hash => env.uuid5 ("study:" ++ hash)

def plannedTrialCount : ℤ :=
  match study.search.mode with
  | .exhaustive => study.parameterSpace.cardinality
  | .seededSample => study.search.maxTrials

def indices : Except Exn (List ℕ) :=
  match study.search.mode, study.search.seed with
  | .exhaustive, _ => .ok (List.range study.parameterSpace.cardinality)
  | .seededSample, none => refuse "seeded_sample_needs_a_nonnegative_int_seed"
  | .seededSample, some seed =>
      seededSampleIndices env seed study.parameterSpace.cardinality study.search.maxTrials

def trialPayload (hash : String) (parameters : Point) : Json :=
  .obj [("schema_version", .str "strategy-lab-trial-v1"), ("study_content_hash", .str hash),
    ("parameters", .texts parameters.rows)]

def trialFor (point : Point) (ordinal : ℤ) : Except Exn TrialV1 := do
  let spaceIndex ← study.parameterSpace.indexOf point
  let parameters ← study.parameterSpace.pointAt spaceIndex
  let contentHash ← identityHash env (trialPayload (← study.contentHash) parameters)
  return {
    studyId := ← study.studyId
    ordinal
    spaceIndex
    parameters
    contentHash
    trialId := env.uuid5 ("trial:" ++ contentHash) }

def trials : Except Exn (List TrialV1) := do
  (← study.indices).zipIdx.mapM fun (index, ordinal) => do
    study.trialFor (← study.parameterSpace.pointAt index) ordinal

end StudySpecV1

end StrategyLabStudy

end TradePlatform
