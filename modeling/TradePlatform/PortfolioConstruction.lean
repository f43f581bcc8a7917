/-
# `TradePlatform.PortfolioConstruction` — target weights of several strategies

`construct_multi_strategy_portfolio` of `portfolio_construction_v2.py`, with the risk gate of
`portfolio_risk.py` that it asks at the end, over exact arithmetic with exact roots.  Capped
risk weights are reduced by the regime and the capacity, by the target volatility under stressed
correlations, and by one scale that is bisected against the aggregate limits, each on top of
pending and fx weights that no stage scales.
-/
import TradePlatform.Domain
import TradePlatform.Lib.Dict
import TradePlatform.Lib.Replay
import TradePlatform.Lib.Volatility

namespace TradePlatform.PortfolioConstruction

def refuse {α : Type} (message : String) : Except Exn α :=
  .error (.portfolioConstructionError message)

/-! ## The inputs -/

def groupNames : List String :=
  ["asset_class", "sector", "country", "currency", "broker", "exchange", "correlation_cluster"]

def partition (text : String) : String × String × String :=
  match text.toList.dropWhile (· ≠ ':') with
  | [] => (text, "", "")
  | _ :: tail => (String.ofList (text.toList.takeWhile (· ≠ ':')), ":", String.ofList tail)

variable (K : Type) [Field K] [LinearOrder K]

structure PortfolioConstructionPolicyV2 where
  version : String
  implementationVersion : String
  equity : K
  targetVolatility : K
  maximumGrossLeverage : K
  maximumNetLeverage : K
  maximumSleeveWeight : K
  maximumStressLossWeight : K
  minimumLiquidityScore : K
  maximumDrawdown : K
  minimumDecayScore : K
  covarianceUncertainty : K
  correlationStress : K
  stressShock : K
  groupWeightLimits : List (String × K)
  factorExposureLimits : List (String × K)
  createdAt : DateTime
  created_aware : createdAt.isAware = true
  version_text : blank version = false ∧ blank implementationVersion = false
  equity_pos : 0 < equity
  targetVolatility_pos : 0 < targetVolatility
  grossLeverage_pos : 0 < maximumGrossLeverage
  netLeverage_nonneg : 0 ≤ maximumNetLeverage
  sleeveWeight_range : 0 < maximumSleeveWeight ∧ maximumSleeveWeight ≤ 1
  stressLoss_range : 0 ≤ maximumStressLossWeight ∧ maximumStressLossWeight ≤ 1
  liquidity_range : 0 ≤ minimumLiquidityScore ∧ minimumLiquidityScore ≤ 1
  drawdown_range : 0 ≤ maximumDrawdown ∧ maximumDrawdown ≤ 1
  decay_range : 0 ≤ minimumDecayScore ∧ minimumDecayScore ≤ 1
  uncertainty_range : 0 ≤ covarianceUncertainty ∧ covarianceUncertainty ≤ 1
  correlationStress_range : 0 ≤ correlationStress ∧ correlationStress ≤ 1
  shock_range : -1 ≤ stressShock ∧ stressShock ≤ 0
  group_nodup : (groupWeightLimits.map Prod.fst).Nodup
  factor_nodup : (factorExposureLimits.map Prod.fst).Nodup
  group_limits : ∀ x ∈ groupWeightLimits,
    (partition x.1).1 ∈ groupNames ∧ (partition x.1).2.2 ≠ "" ∧ 0 ≤ x.2
  factor_limits : ∀ x ∈ factorExposureLimits, blank x.1 = false ∧ 0 ≤ x.2

inductive ConstructionStatus where
  | blocked | reviewRequired
deriving DecidableEq, Repr

structure StrategySleeveInputV2 where
  sleeveInputId : UUID
  strategyKey : String
  normalizedSignal : K
  standaloneVolatility : K
  riskBudget : K
  capacityWeight : K
  liquidityScore : K
  drawdown : K
  decayScore : K
  regimeCurrentMultiplier : K
  regimeProposedMultiplier : K
  deltaAdjustedMultiplier : K
  pendingOrderWeight : K
  fxWeight : K
  groups : List (String × String)
  factorLoadings : List (String × K)
  scorecardStatus : ConstructionStatus
  validationIntegrity : String
  regimeStatus : ConstructionStatus
  key_text : blank strategyKey = false
  signal_range : -1 ≤ normalizedSignal ∧ normalizedSignal ≤ 1
  volatility_pos : 0 < standaloneVolatility
  budget_pos : 0 < riskBudget
  capacity_range : 0 ≤ capacityWeight ∧ capacityWeight ≤ 1
  liquidity_range : 0 ≤ liquidityScore ∧ liquidityScore ≤ 1
  drawdown_range : 0 ≤ drawdown ∧ drawdown ≤ 1
  decay_range : 0 ≤ decayScore ∧ decayScore ≤ 1
  current_pos : 0 < regimeCurrentMultiplier
  proposed_nonneg : 0 ≤ regimeProposedMultiplier
  delta_pos : 0 < deltaAdjustedMultiplier
  group_nodup : (groups.map Prod.fst).Nodup
  factor_nodup : (factorLoadings.map Prod.fst).Nodup
  group_text : ∀ x ∈ groups, x.1 ∈ groupNames ∧ blank x.2 = false
  factor_text : ∀ x ∈ factorLoadings, blank x.1 = false

variable {K}

structure CovarianceEstimateV2 (root : ExactSqrt K) where
  strategyKeys : List String
  matrix : Matrix (Fin strategyKeys.length) (Fin strategyKeys.length) K
  asOf : ℤ
  keys_pos : strategyKeys ≠ []
  keys_sorted : strategyKeys.Pairwise (· < ·)
  keys_text : ∀ key ∈ strategyKeys, blank key = false
  diagonal_pos : ∀ i, 0 < matrix i i
  symmetric : ∀ i j, matrix i j = matrix j i
  correlation : ∀ i j, |matrix i j| ≤ root.sqrt (matrix i i * matrix j j)

section Covariance

variable (policy : PortfolioConstructionPolicyV2 K) {root : ExactSqrt K}
  (covariance : CovarianceEstimateV2 root)

def CovarianceEstimateV2.stressed :
    Matrix (Fin covariance.strategyKeys.length) (Fin covariance.strategyKeys.length) K :=
  fun i j =>
    if i = j then covariance.matrix i j
    else
      let stress := max policy.covarianceUncertainty policy.correlationStress
      let scale := root.sqrt (covariance.matrix i i * covariance.matrix j j)
      let correlation := covariance.matrix i j / scale
      (correlation + stress * (1 - correlation)) * scale

end Covariance

/-! ## Weights -/

/-- A dictionary by strategy key, set at the keys of `items`. -/
def setAll (result : String → K) (items : List (String × K)) (value : String × K → K) :
    String → K :=
  fun key => match items.find? fun x => decide (x.1 = key) with
    | some x => value x
    | none => result key

def exceeds (maximum remaining : K) (active : List (String × K)) (x : String × K) : Bool :=
  decide (maximum < remaining * x.2 / (active.map Prod.snd).sum)

def exceeding (maximum remaining : K) (active : List (String × K)) : List (String × K) :=
  active.filter (exceeds maximum remaining active)

def within (maximum remaining : K) (active : List (String × K)) : List (String × K) :=
  active.filter fun x => !exceeds maximum remaining active x

theorem length_within_lt {maximum remaining : K} {active : List (String × K)}
    (h : exceeding maximum remaining active ≠ []) :
    (within maximum remaining active).length < active.length := by
  obtain ⟨x, hx⟩ := List.exists_mem_of_ne_nil _ h
  obtain ⟨hmem, hexceeds⟩ := List.mem_filter.mp hx
  refine List.length_filter_lt_length_iff_exists.mpr ⟨x, hmem, ?_⟩
  rw [hexceeds]
  decide

/-- The loop of `_capped_risk_weights`: the scores that would exceed the maximum get it, and the
others share what remains. -/
def capLoop (maximum : K) (result : String → K) (remaining : K) (active : List (String × K)) :
    String → K :=
  if active = [] ∨ remaining ≤ 0 then result
  else if exceeding maximum remaining active = [] then
    setAll result active fun x => remaining * x.2 / (active.map Prod.snd).sum
  else
    capLoop maximum (setAll result (exceeding maximum remaining active) fun _ => maximum)
      (remaining - (exceeding maximum remaining active).length * maximum)
      (within maximum remaining active)
termination_by active.length
decreasing_by exact length_within_lt (by assumption)

def cappedRiskWeights (sleeves : List (StrategySleeveInputV2 K)) (maximumWeight : K) :
    String → K :=
  let scores := (sleeves.filter fun item => decide (item.normalizedSignal ≠ 0)).map fun item =>
    (item.strategyKey, item.riskBudget / item.standaloneVolatility * |item.normalizedSignal|)
  capLoop maximumWeight (fun _ => 0) 1 scores

def portfolioVolatility (root : ExactSqrt K) {n : ℕ} (weights : Fin n → K)
    (matrix : Matrix (Fin n) (Fin n) K) : Except Exn K :=
  if Volatility.form weights matrix < -(10 ^ 12)⁻¹ then
    refuse "covariance_not_positive_semidefinite_for_weights"
  else .ok (Volatility.volatility root weights matrix)

section Aggregate

variable (policy : PortfolioConstructionPolicyV2 K) (sleeves : List (StrategySleeveInputV2 K))

def effectiveWeight (target scale : K) (item : StrategySleeveInputV2 K) : K :=
  target * scale * item.deltaAdjustedMultiplier + item.pendingOrderWeight + item.fxWeight

def effectiveWeights (targets : String → K) (scale : K) : List (StrategySleeveInputV2 K × K) :=
  sleeves.map fun item => (item, effectiveWeight (targets item.strategyKey) scale item)

/-- `totals[key] = totals.get(key, 0) + value`, over the items. -/
def totals (items : List (String × K)) : Dict String K :=
  items.foldl (fun acc x => acc.set x.1 (acc.getD x.1 0 + x.2)) .empty

def groupItems (effective : List (StrategySleeveInputV2 K × K)) : List (String × K) :=
  effective.flatMap fun x => x.1.groups.map fun group => (group.1 ++ ":" ++ group.2, x.2)

def factorItems (effective : List (StrategySleeveInputV2 K × K)) : List (String × K) :=
  effective.flatMap fun x => x.1.factorLoadings.map fun loading => (loading.1, x.2 * loading.2)

def aggregateConstraintsSatisfied (effective : List (StrategySleeveInputV2 K × K)) : Bool :=
  let gross := (effective.map fun x => |x.2|).sum
  let net := (effective.map Prod.snd).sum
  if policy.maximumGrossLeverage < gross ∨ policy.maximumNetLeverage < |net| then false
  else
    let groups := totals (groupItems effective)
    let factors := totals (factorItems effective)
    (policy.groupWeightLimits.all fun x => decide (|groups.getD x.1 0| ≤ x.2)) &&
      policy.factorExposureLimits.all fun x => decide (|factors.getD x.1 0| ≤ x.2)

/-- The bisection: `n` halvings of the interval from `low` to `high`. -/
def bisectScale (feasible : K → Bool) : ℕ → K → K → K
  | 0, low, _ => low
  | n + 1, low, high =>
      let midpoint := (low + high) / 2
      if feasible midpoint then bisectScale feasible n midpoint high
      else bisectScale feasible n low midpoint

def feasibleAt (targets : String → K) (scale : K) : Bool :=
  aggregateConstraintsSatisfied policy (effectiveWeights sleeves targets scale)

def maximumSafeScale (targets : String → K) : K × Bool :=
  if feasibleAt policy sleeves targets 0 = false then (0, false)
  else if feasibleAt policy sleeves targets 1 = true then (1, true)
  else (bisectScale (feasibleAt policy sleeves targets) 64 0 1, true)

end Aggregate

/-! ## The independent risk gate -/

structure PortfolioExposure (K : Type) where
  instrumentId : String
  notional : K
  assetClass : String
  sector : String
  country : String
  currency : String
  broker : String
  exchange : String
  correlationCluster : String
  factors : List (String × K)

structure StressScenario (K : Type) where
  name : String
  shocks : List (String × K)

structure StressResult (K : Type) where
  scenario : String
  loss : K
  contributions : List (String × K)

/-- The limits of `portfolio_risk.py` that a construction sets. -/
structure PortfolioRiskPolicy (K : Type) where
  maximumGrossNotional : K
  maximumSingleWeight : K
  maximumScenarioLoss : K
  maximumNetNotional : K
  maximumGroupNotionals : List (String × K)
  maximumFactorNotionals : List (String × K)

structure PortfolioRiskDecision (K : Type) where
  approved : Bool
  reasons : List String
  gross : K
  net : K
  stressLoss : K
  stressResult : StressResult K

section RiskGate

variable (exposures : List (PortfolioExposure K))

def stress (scenario : StressScenario K) : StressResult K :=
  let contributions := exposures.map fun item =>
    (item.instrumentId, item.notional *
      (((scenario.shocks.lookup item.instrumentId) <|> scenario.shocks.lookup item.assetClass).getD
        0))
  ⟨scenario.name, (contributions.map Prod.snd).sum, contributions⟩

def concentrationBreaches (equity maximumSingleWeight : K) : Except Exn (List String) :=
  if equity ≤ 0 ∨ maximumSingleWeight ≤ 0 then .error (.valueError "invalid_concentration_limits")
  else
    .ok ((exposures.filter fun item =>
      decide (maximumSingleWeight < |item.notional| / equity)).map PortfolioExposure.instrumentId)

def PortfolioExposure.group (item : PortfolioExposure K) (group : String) : Option String :=
  [("asset_class", item.assetClass), ("sector", item.sector), ("country", item.country),
    ("currency", item.currency), ("broker", item.broker), ("exchange", item.exchange),
    ("correlation_cluster", item.correlationCluster)].lookup group

def groupedExposures (group : String) : Except Exn (Dict String K) :=
  if group ∉ groupNames then .error (.valueError "unsupported_exposure_group")
  else
    .ok (totals ((exposures.map fun item =>
      ((item.group group).getD "", item.notional)).filter fun x => decide (x.1 ≠ "")))

def factorExposures : Dict String K :=
  totals (exposures.flatMap fun item => item.factors.map fun x => (x.1, item.notional * x.2))

def groupReason (x : String × K) : Except Exn (List String) :=
  let (group, separator, name) := partition x.1
  if separator ≠ ":" ∨ name = "" ∨ x.2 < 0 then
    .error (.valueError "invalid_group_exposure_limit")
  else do
    let grouped ← groupedExposures exposures group
    pure (if x.2 < |grouped.getD name 0| then [s!"group_exposure_limit:{x.1}"] else [])

def factorReason (x : String × K) : Except Exn (List String) :=
  if x.2 < 0 then .error (.valueError "invalid_factor_exposure_limit")
  else
    .ok (if x.2 < |(factorExposures exposures).getD x.1 0| then
      [s!"factor_exposure_limit:{x.1}"] else [])

/-- `evaluate_portfolio`, for one scenario and no return history. -/
def evaluatePortfolio (equity : K) (scenario : StressScenario K) (policy : PortfolioRiskPolicy K) :
    Except Exn (PortfolioRiskDecision K) :=
  if equity ≤ 0 then .error (.valueError "portfolio_equity_must_be_positive")
  else if blank scenario.name then .error (.valueError "invalid_stress_scenarios")
  else do
    let gross := (exposures.map fun item => |item.notional|).sum
    let net := (exposures.map PortfolioExposure.notional).sum
    let result := stress exposures scenario
    let breaches ← concentrationBreaches exposures equity policy.maximumSingleWeight
    let groups ← policy.maximumGroupNotionals.mapM (groupReason exposures)
    let factors ← policy.maximumFactorNotionals.mapM (factorReason exposures)
    let reasons :=
      (if policy.maximumGrossNotional < gross then ["gross_exposure_limit"] else []) ++
      breaches.map ("concentration:" ++ ·) ++
      (if policy.maximumNetNotional < |net| then ["net_exposure_limit"] else []) ++
      groups.flatten ++ factors.flatten ++
      (if result.loss < -policy.maximumScenarioLoss then
        [s!"scenario_loss_limit:{result.scenario}"] else [])
    pure ⟨reasons.isEmpty, reasons.eraseDups, gross, net, result.loss, result⟩

end RiskGate

/-! ## The construction -/

inductive ConstraintState where
  | satisfied | reduced | blocked
deriving DecidableEq, Repr

structure ConstraintEvaluationV2 (K : Type) where
  name : String
  state : ConstraintState
  observed : Option K
  limit : Option K
  reasons : List String

structure TargetSleeveWeightV2 (K : Type) where
  sleeveInputId : UUID
  strategyKey : String
  targetWeight : K
  effectiveNotional : K
  marginalRisk : K
  componentRisk : K
  adjustmentReasons : List String

structure PortfolioTargetCandidateV2 (K : Type) where
  status : ConstructionStatus
  cashWeight : K
  grossWeight : K
  netWeight : K
  portfolioVolatility : K
  stressedVolatility : K
  createdAt : ℤ
  sleeves : List (TargetSleeveWeightV2 K)

structure PortfolioConstructionRunV2 (K : Type) [Field K] [LinearOrder K] where
  sleeves : List (StrategySleeveInputV2 K)
  status : ConstructionStatus
  reasons : List String
  constraints : List (ConstraintEvaluationV2 K)
  target : PortfolioTargetCandidateV2 K
  riskGate : PortfolioRiskDecision K

section Sleeve

variable (policy : PortfolioConstructionPolicyV2 K) (item : StrategySleeveInputV2 K)

def eligibilityReasons : List String :=
  (if item.scorecardStatus ≠ .reviewRequired then ["scorecard_not_review_eligible"] else []) ++
  (if item.validationIntegrity ≠ "VERIFIED" then ["validation_package_not_verified"] else []) ++
  (if item.regimeStatus ≠ .reviewRequired then ["regime_candidate_blocked"] else []) ++
  (if item.regimeCurrentMultiplier < item.regimeProposedMultiplier then
    ["regime_risk_increase_prohibited"] else [])

def eligibility : ConstraintEvaluationV2 K where
  name := s!"eligibility:{item.strategyKey}"
  state := if eligibilityReasons item = [] then .satisfied else .blocked
  observed := none
  limit := none
  reasons := eligibilityReasons item

def direction : K :=
  if 0 < item.normalizedSignal then 1 else if item.normalizedSignal < 0 then -1 else 0

def regimeMultiplier : K := min 1 (item.regimeProposedMultiplier / item.regimeCurrentMultiplier)

def disabled : Bool :=
  decide (item.liquidityScore < policy.minimumLiquidityScore ∨
    policy.maximumDrawdown < item.drawdown ∨ item.decayScore < policy.minimumDecayScore)

def baseTarget (magnitude : K) : K :=
  direction item * if disabled policy item then 0
    else magnitude * regimeMultiplier item * item.capacityWeight

def adjustmentReasons (volatilityScale aggregateScale : K) : List String :=
  (if regimeMultiplier item < 1 then ["regime_reduction"] else []) ++
  (if item.capacityWeight < 1 then ["capacity_reduction"] else []) ++
  (if item.liquidityScore < policy.minimumLiquidityScore then ["liquidity_disabled"] else []) ++
  (if policy.maximumDrawdown < item.drawdown then ["drawdown_disabled"] else []) ++
  (if item.decayScore < policy.minimumDecayScore then ["signal_decay_disabled"] else []) ++
  (if volatilityScale < 1 then ["target_volatility_reduction"] else []) ++
  (if aggregateScale < 1 then ["aggregate_constraint_reduction"] else [])

def exposure (effective : K) : PortfolioExposure K where
  instrumentId := s!"SLEEVE:{item.strategyKey}"
  notional := effective * policy.equity
  assetClass := (item.groups.lookup "asset_class").getD "UNAVAILABLE"
  sector := (item.groups.lookup "sector").getD "UNAVAILABLE"
  country := (item.groups.lookup "country").getD ""
  currency := (item.groups.lookup "currency").getD ""
  broker := (item.groups.lookup "broker").getD ""
  exchange := (item.groups.lookup "exchange").getD ""
  correlationCluster := (item.groups.lookup "correlation_cluster").getD ""
  factors := item.factorLoadings

end Sleeve

/-- `targets[key] *= scale`, which is done for a scale below one only. -/
def scaled (targets : String → K) (scale : K) : String → K :=
  if scale < 1 then fun key => targets key * scale else targets

def tupleToDictScaled (items : List (String × K)) (scale : K) : List (String × K) :=
  items.map fun x => (x.1, x.2 * scale)

section Construction

variable (policy : PortfolioConstructionPolicyV2 K) {root : ExactSqrt K}
  (covariance : CovarianceEstimateV2 root) (ordered : List (StrategySleeveInputV2 K))

def inputReasons (dataHealthStatus : String) : List String :=
  (if dataHealthStatus ∈ ["BLOCKED", "UNAVAILABLE"] then ["portfolio_data_health_blocked"]
    else []) ++
  ordered.flatMap fun item => (eligibilityReasons item).map fun reason =>
    s!"{item.strategyKey}:{reason}"

def baseTargets (blocked : Bool) : String → K :=
  let magnitudes := if blocked then fun _ => 0
    else cappedRiskWeights ordered policy.maximumSleeveWeight
  fun key => match ordered.find? fun item => decide (item.strategyKey = key) with
    | some item => baseTarget policy item (magnitudes key)
    | none => 0

/-- `tuple(targets[key] for key in covariance.strategy_keys)`. -/
def vector (targets : String → K) : Fin covariance.strategyKeys.length → K :=
  fun i => targets (covariance.strategyKeys.get i)

def volatilityScale (stressedVolatility : K) : K :=
  min 1 (if 0 < stressedVolatility then policy.targetVolatility / stressedVolatility else 1)

def gate (effective : List (StrategySleeveInputV2 K × K)) : Except Exn (PortfolioRiskDecision K) :=
  let exposures := effective.map fun x => exposure policy x.1 x.2
  evaluatePortfolio exposures policy.equity
    ⟨"portfolio-construction-policy-stress",
      exposures.map fun item => (item.instrumentId, policy.stressShock)⟩
    { maximumGrossNotional := policy.equity * policy.maximumGrossLeverage
      maximumSingleWeight := policy.maximumSleeveWeight
      maximumScenarioLoss := policy.equity * policy.maximumStressLossWeight
      maximumNetNotional := policy.equity * policy.maximumNetLeverage
      maximumGroupNotionals := tupleToDictScaled policy.groupWeightLimits policy.equity
      maximumFactorNotionals := tupleToDictScaled policy.factorExposureLimits policy.equity }

def targetSleeves (targets : String → K) (stressedVolatility volatilityScale aggregateScale : K) :
    List (TargetSleeveWeightV2 K) :=
  (ordered.zip (List.finRange covariance.strategyKeys.length)).map fun (item, i) =>
    let marginal := if 0 < stressedVolatility then
      Volatility.product (vector covariance targets) (covariance.stressed policy) i /
        stressedVolatility else 0
    { sleeveInputId := item.sleeveInputId
      strategyKey := item.strategyKey
      targetWeight := targets item.strategyKey
      effectiveNotional := effectiveWeight (targets item.strategyKey) 1 item * policy.equity
      marginalRisk := marginal
      componentRisk := vector covariance targets i * marginal
      adjustmentReasons := adjustmentReasons policy item volatilityScale aggregateScale }

def weightReasons (baseFeasible aggregateOk : Bool) : List String :=
  (if baseFeasible = false then ["pending_or_fx_hidden_leverage_exceeds_policy"] else []) ++
  (if aggregateOk = false then ["aggregate_constraints_not_satisfied"] else [])

def gateReasons (decision : PortfolioRiskDecision K) : List String :=
  if decision.approved = false then decision.reasons.map ("independent_risk_gate" ++ ":" ++ ·)
  else []

def construct (dataHealthStatus : String) (constructedAt : ℤ) :
    Except Exn (PortfolioConstructionRunV2 K) := do
  let inputs := inputReasons ordered dataHealthStatus
  let targets := baseTargets policy ordered (!inputs.isEmpty)
  let stressed := covariance.stressed policy
  let stressedVolatility ← portfolioVolatility root (vector covariance targets) stressed
  let volScale := volatilityScale policy stressedVolatility
  let targets := scaled targets volScale
  let safe := maximumSafeScale policy ordered targets
  let targets := scaled targets safe.1
  let effective := effectiveWeights ordered targets 1
  let aggregateOk := aggregateConstraintsSatisfied policy effective
  let blocking := inputs ++ weightReasons safe.2 aggregateOk
  let finalRaw ← portfolioVolatility root (vector covariance targets) covariance.matrix
  let finalStressed ← portfolioVolatility root (vector covariance targets) stressed
  let decision ← gate policy effective
  let reasons := blocking ++ gateReasons decision
  let status := if reasons = [] then ConstructionStatus.reviewRequired else .blocked
  let gross := (effective.map fun x => |x.2|).sum
  let net := (effective.map Prod.snd).sum
  let health := if dataHealthStatus ∈ ["BLOCKED", "UNAVAILABLE"] then
    ⟨"data_health", .blocked, none, none, ["portfolio_data_health_blocked"]⟩
    else ⟨"data_health", .satisfied, none, none, []⟩
  let constraints := health :: ordered.map eligibility ++
    [⟨"stressed_target_volatility", if volScale < 1 then .reduced else .satisfied,
        some stressedVolatility, some policy.targetVolatility,
        if volScale < 1 then ["correlation_uncertainty_can_only_reduce"] else []⟩,
      ⟨"aggregate_exposure_limits",
        if aggregateOk = false then .blocked else if safe.1 < 1 then .reduced else .satisfied,
        some gross, some policy.maximumGrossLeverage,
        blocking.filter fun reason => reason.contains "aggregate" || reason.contains "hidden"⟩,
      ⟨"independent_portfolio_risk_gate",
        if decision.approved then .satisfied else .blocked,
        some (decision.gross / policy.equity), some policy.maximumGrossLeverage,
        decision.reasons⟩]
  pure
    { sleeves := ordered
      status := status
      reasons := reasons.eraseDups
      constraints := constraints
      target :=
        { status := status
          cashWeight := 1 - net
          grossWeight := gross
          netWeight := net
          portfolioVolatility := finalRaw
          stressedVolatility := finalStressed
          createdAt := constructedAt
          sleeves := targetSleeves policy covariance ordered targets finalStressed volScale safe.1 }
      riskGate := decision }

def constructMultiStrategyPortfolio (regimeContentHash : String)
    (sleeves : List (StrategySleeveInputV2 K)) (dataHealthStatus : String)
    (dataHealthAssessmentIds : List UUID) (constructedAt : DateTime) :
    Except Exn (PortfolioConstructionRunV2 K) :=
  match constructedAt with
  | .naive _ => refuse "portfolio_constructed_at_must_be_timezone_aware"
  | .aware instant =>
      let ordered := sleeves.mergeSort fun x y => decide (x.strategyKey ≤ y.strategyKey)
      if ordered = [] ∨ ¬ (ordered.map StrategySleeveInputV2.strategyKey).Nodup then
        refuse "missing_or_duplicate_strategy_sleeve"
      else if ordered.map StrategySleeveInputV2.strategyKey ≠ covariance.strategyKeys then
        refuse "covariance_strategy_binding_mismatch"
      else if instant < covariance.asOf then refuse "future_covariance_rejected"
      else if regimeContentHash.length ≠ 64 ∨ dataHealthAssessmentIds = [] then
        refuse "missing_portfolio_authority_binding"
      else construct policy covariance ordered dataHealthStatus instant

end Construction

end TradePlatform.PortfolioConstruction
