/-
# `TradePlatform.PortfolioLimits` — what the limits of a policy are worth after every stage

Each stage after the capped weights multiplies all targets by one number between zero and one,
so bounds on single targets and their signs survive (`SoundTargets.scaled`), and the volatility
scales along.  The aggregate limits hold at the scale that the bisection returns because they
hold at every lower end it has had (`bisectScale_spec`); no convexity is needed.
-/
import TradePlatform.PortfolioConstruction

namespace TradePlatform.PortfolioConstruction

variable {K : Type} [Field K] [LinearOrder K]

/-! ## The aggregate limits -/

def sumOf (items : List (String × K)) (key : String) : K :=
  ((items.filter fun x => decide (x.1 = key)).map Prod.snd).sum

/-- The limits of a policy on effective weights: gross and net leverage, and the weight of every
group and factor that has a limit. -/
structure LimitsHold (policy : PortfolioConstructionPolicyV2 K)
    (effective : List (StrategySleeveInputV2 K × K)) : Prop where
  gross : (effective.map fun x => |x.2|).sum ≤ policy.maximumGrossLeverage
  net : |(effective.map Prod.snd).sum| ≤ policy.maximumNetLeverage
  groups : ∀ x ∈ policy.groupWeightLimits, |sumOf (groupItems effective) x.1| ≤ x.2
  factors : ∀ x ∈ policy.factorExposureLimits, |sumOf (factorItems effective) x.1| ≤ x.2

omit [LinearOrder K] in
theorem sumOf_cons (x : String × K) (items : List (String × K)) (key : String) :
    sumOf (x :: items) key = (if x.1 = key then x.2 else 0) + sumOf items key := by
  by_cases h : x.1 = key
  · simp [sumOf, h]
  · simp [sumOf, h]

omit [LinearOrder K] in
theorem getD_foldl_totals (items : List (String × K)) (acc : Dict String K) (key : String) :
    (items.foldl (fun acc x => acc.set x.1 (acc.getD x.1 0 + x.2)) acc).getD key 0 =
      acc.getD key 0 + sumOf items key := by
  induction items generalizing acc with
  | nil => simp [sumOf]
  | cons x items ih =>
      rw [List.foldl_cons, ih, sumOf_cons]
      by_cases h : x.1 = key
      · subst h
        rw [if_pos rfl, Dict.getD, Dict.get?_set_self, Option.getD_some, add_assoc]
      · rw [if_neg h, zero_add, Dict.getD, Dict.get?_set_of_ne h, Dict.getD]

omit [LinearOrder K] in
theorem getD_totals (items : List (String × K)) (key : String) :
    (totals items).getD key 0 = sumOf items key := by
  rw [totals, getD_foldl_totals, Dict.getD, Dict.get?_empty, Option.getD_none, zero_add]

theorem aggregateConstraintsSatisfied_iff {policy : PortfolioConstructionPolicyV2 K}
    {effective : List (StrategySleeveInputV2 K × K)} :
    aggregateConstraintsSatisfied policy effective = true ↔ LimitsHold policy effective := by
  unfold aggregateConstraintsSatisfied
  dsimp only
  split
  · rename_i h
    refine iff_of_false Bool.false_ne_true fun hlimits => ?_
    rcases h with h | h
    · exact absurd hlimits.gross (not_le.mpr h)
    · exact absurd hlimits.net (not_le.mpr h)
  · rename_i h
    obtain ⟨hgross, hnet⟩ := not_or.mp h
    simp only [Bool.and_eq_true, List.all_eq_true, decide_eq_true_eq, getD_totals]
    constructor
    · rintro ⟨hgroups, hfactors⟩
      exact ⟨not_lt.mp hgross, not_lt.mp hnet, hgroups, hfactors⟩
    · intro hlimits
      exact ⟨hlimits.groups, hlimits.factors⟩

variable [IsStrictOrderedRing K]

/-! ## The bisected scale -/

theorem bisectScale_spec {feasible : K → Bool} (n : ℕ) {low high : K} (h : low ≤ high)
    (hlow : feasible low = true) :
    low ≤ bisectScale feasible n low high ∧ bisectScale feasible n low high ≤ high ∧
      feasible (bisectScale feasible n low high) = true := by
  induction n generalizing low high with
  | zero => exact ⟨le_rfl, h, hlow⟩
  | succ n ih =>
      have hleft : low ≤ (low + high) / 2 := by linarith
      have hright : (low + high) / 2 ≤ high := by linarith
      rw [bisectScale]
      split
      · rename_i hmid
        obtain ⟨h₁, h₂, h₃⟩ := ih hright hmid
        exact ⟨hleft.trans h₁, h₂, h₃⟩
      · obtain ⟨h₁, h₂, h₃⟩ := ih hleft hlow
        exact ⟨h₁, h₂.trans hright, h₃⟩

section Scale

variable {policy : PortfolioConstructionPolicyV2 K} {ordered : List (StrategySleeveInputV2 K)}
  {targets : String → K}

theorem maximumSafeScale_range : 0 ≤ (maximumSafeScale policy ordered targets).1 ∧
    (maximumSafeScale policy ordered targets).1 ≤ 1 := by
  unfold maximumSafeScale
  split
  · exact ⟨le_rfl, zero_le_one⟩
  · rename_i hzero
    split
    · exact ⟨zero_le_one, le_rfl⟩
    · obtain ⟨h₁, h₂, -⟩ := bisectScale_spec 64 zero_le_one (Bool.not_eq_false _ ▸ hzero)
      exact ⟨h₁, h₂⟩

theorem maximumSafeScale_feasible
    (h : LimitsHold policy (effectiveWeights ordered targets 0)) :
    LimitsHold policy
      (effectiveWeights ordered targets (maximumSafeScale policy ordered targets).1) := by
  have hzero : feasibleAt policy ordered targets 0 = true :=
    aggregateConstraintsSatisfied_iff.mpr h
  refine aggregateConstraintsSatisfied_iff.mp ?_
  show feasibleAt policy ordered targets (maximumSafeScale policy ordered targets).1 = true
  unfold maximumSafeScale
  rw [if_neg (by rw [hzero]; decide)]
  split
  · rename_i hone
    exact hone
  · exact (bisectScale_spec 64 zero_le_one hzero).2.2

end Scale

/-! ## The capped weights -/

def Capped (maximum : K) (result : String → K) : Prop :=
  ∀ key, 0 ≤ result key ∧ result key ≤ maximum

omit [IsStrictOrderedRing K] in
theorem Capped.setAll {maximum : K} {result : String → K} (h : Capped maximum result)
    {items : List (String × K)} {value : String × K → K}
    (hvalue : ∀ x ∈ items, 0 ≤ value x ∧ value x ≤ maximum) :
    Capped maximum (setAll result items value) := by
  intro key
  unfold PortfolioConstruction.setAll
  split
  · rename_i x hx
    exact hvalue x (List.mem_of_find?_eq_some hx)
  · exact h key

theorem capped_capLoop {maximum remaining : K} {result : String → K}
    {active : List (String × K)} (hmax : 0 ≤ maximum) (h : Capped maximum result)
    (hpos : ∀ x ∈ active, 0 < x.2) : Capped maximum (capLoop maximum result remaining active) := by
  induction result, remaining, active using capLoop.induct maximum with
  | case1 result remaining active hdone =>
      rw [capLoop, if_pos hdone]
      exact h
  | case2 result remaining active hgo hnone =>
      rw [capLoop, if_neg hgo, if_pos hnone]
      have hremaining : 0 < remaining := not_le.mp (not_or.mp hgo).2
      have htotal : 0 ≤ (active.map Prod.snd).sum := by
        refine List.sum_nonneg fun y hy => ?_
        obtain ⟨x, hx, rfl⟩ := List.mem_map.mp hy
        exact (hpos x hx).le
      refine h.setAll fun x hx => ⟨?_, ?_⟩
      · exact div_nonneg (mul_nonneg hremaining.le (hpos x hx).le) htotal
      · -- no score exceeds the maximum
        by_contra hlt
        have hmem : x ∈ exceeding maximum remaining active :=
          List.mem_filter.mpr ⟨hx, decide_eq_true (not_le.mp hlt)⟩
        rw [hnone] at hmem
        exact absurd hmem List.not_mem_nil
  | case3 result remaining active hgo hsome ih =>
      rw [capLoop, if_neg hgo, if_neg hsome]
      refine ih (h.setAll fun _ _ => ⟨hmax, le_rfl⟩) fun x hx => ?_
      exact hpos x (List.mem_filter.mp hx).1

theorem capped_cappedRiskWeights (ordered : List (StrategySleeveInputV2 K)) {maximum : K}
    (hmax : 0 ≤ maximum) : Capped maximum (cappedRiskWeights ordered maximum) := by
  refine capped_capLoop hmax (fun _ => ⟨le_rfl, hmax⟩) fun x hx => ?_
  obtain ⟨item, hitem, rfl⟩ := List.mem_map.mp hx
  have hsignal : item.normalizedSignal ≠ 0 := of_decide_eq_true (List.mem_filter.mp hitem).2
  exact mul_pos (div_pos item.budget_pos item.volatility_pos) (abs_pos.mpr hsignal)

/-! ## Targets -/

def SoundTargets (policy : PortfolioConstructionPolicyV2 K)
    (ordered : List (StrategySleeveInputV2 K)) (targets : String → K) : Prop :=
  ∀ item ∈ ordered, |targets item.strategyKey| ≤ policy.maximumSleeveWeight ∧
    0 ≤ targets item.strategyKey * item.normalizedSignal

section Targets

variable {policy : PortfolioConstructionPolicyV2 K} {ordered : List (StrategySleeveInputV2 K)}
  {targets : String → K} {scale : K}

theorem SoundTargets.scaled (h : SoundTargets policy ordered targets) (hpos : 0 ≤ scale) :
    SoundTargets policy ordered (scaled targets scale) := by
  unfold PortfolioConstruction.scaled
  split
  · rename_i hlt
    intro item hitem
    obtain ⟨hbound, hsign⟩ := h item hitem
    constructor
    · calc |targets item.strategyKey * scale| = |targets item.strategyKey| * scale := by
            rw [abs_mul, abs_of_nonneg hpos]
        _ ≤ |targets item.strategyKey| := mul_le_of_le_one_right (abs_nonneg _) hlt.le
        _ ≤ policy.maximumSleeveWeight := hbound
    · calc 0 ≤ targets item.strategyKey * item.normalizedSignal * scale := mul_nonneg hsign hpos
        _ = targets item.strategyKey * scale * item.normalizedSignal := by ring
  · exact h

theorem regimeMultiplier_range (item : StrategySleeveInputV2 K) :
    0 ≤ regimeMultiplier item ∧ regimeMultiplier item ≤ 1 :=
  ⟨le_min zero_le_one (div_nonneg item.proposed_nonneg item.current_pos.le), min_le_left _ _⟩

theorem abs_direction_le (item : StrategySleeveInputV2 K) : |direction item| ≤ 1 := by
  unfold direction
  split_ifs <;> simp

theorem direction_mul_signal (item : StrategySleeveInputV2 K) :
    0 ≤ direction item * item.normalizedSignal := by
  unfold direction
  split_ifs with hpos hneg
  · rw [one_mul]
    exact hpos.le
  · rw [neg_one_mul]
    exact neg_nonneg.mpr hneg.le
  · rw [zero_mul]

theorem baseTarget_sound (policy : PortfolioConstructionPolicyV2 K)
    (item : StrategySleeveInputV2 K) {magnitude maximum : K} (hpos : 0 ≤ magnitude)
    (hle : magnitude ≤ maximum) : |baseTarget policy item magnitude| ≤ maximum ∧
      0 ≤ baseTarget policy item magnitude * item.normalizedSignal := by
  obtain ⟨hregime, hregime'⟩ := regimeMultiplier_range item
  obtain ⟨hcapacity, hcapacity'⟩ := item.capacity_range
  -- what the direction is multiplied by
  have hfactor : ∃ m, baseTarget policy item magnitude = direction item * m ∧ 0 ≤ m ∧
      m ≤ maximum := by
    unfold baseTarget
    split
    · exact ⟨0, rfl, le_rfl, hpos.trans hle⟩
    · refine ⟨_, rfl, mul_nonneg (mul_nonneg hpos hregime) hcapacity, ?_⟩
      calc magnitude * regimeMultiplier item * item.capacityWeight
          ≤ magnitude * regimeMultiplier item :=
            mul_le_of_le_one_right (mul_nonneg hpos hregime) hcapacity'
        _ ≤ magnitude := mul_le_of_le_one_right hpos hregime'
        _ ≤ maximum := hle
  obtain ⟨m, hm, hm₀, hm₁⟩ := hfactor
  rw [hm]
  constructor
  · calc |direction item * m| = |direction item| * m := by rw [abs_mul, abs_of_nonneg hm₀]
      _ ≤ m := mul_le_of_le_one_left hm₀ (abs_direction_le item)
      _ ≤ maximum := hm₁
  · calc 0 ≤ direction item * item.normalizedSignal * m :=
          mul_nonneg (direction_mul_signal item) hm₀
      _ = direction item * m * item.normalizedSignal := by ring

theorem baseTargets_sound (hnodup : (ordered.map StrategySleeveInputV2.strategyKey).Nodup)
    (blocked : Bool) : SoundTargets policy ordered (baseTargets policy ordered blocked) := by
  have hmax := policy.sleeveWeight_range.1.le
  have hcapped : Capped policy.maximumSleeveWeight
      (if blocked then fun _ => 0 else cappedRiskWeights ordered policy.maximumSleeveWeight) := by
    cases blocked with
    | true => exact fun _ => ⟨le_rfl, hmax⟩
    | false => exact capped_cappedRiskWeights ordered hmax
  intro item hitem
  have hfind : (ordered.find? fun x => decide (x.strategyKey = item.strategyKey)) = some item :=
    Table.find?_key (t := ⟨ordered, hnodup⟩) hitem
  obtain ⟨hpos, hle⟩ := hcapped item.strategyKey
  unfold baseTargets
  simp only [hfind]
  exact baseTarget_sound policy item hpos hle

end Targets

/-! ## The vector of targets -/

section Vector

variable {policy : PortfolioConstructionPolicyV2 K} {root : ExactSqrt K}
  {covariance : CovarianceEstimateV2 root} {ordered : List (StrategySleeveInputV2 K)}
  {targets : String → K} {scale : K}

omit [IsStrictOrderedRing K] in
theorem scaled_apply (h : scale ≤ 1) (targets : String → K) (key : String) :
    scaled targets scale key = targets key * scale := by
  unfold scaled
  split
  · rfl
  · rename_i hlt
    rw [le_antisymm h (not_lt.mp hlt), mul_one]

omit [IsStrictOrderedRing K] in
theorem vector_scaled (h : scale ≤ 1) (covariance : CovarianceEstimateV2 root)
    (targets : String → K) :
    vector covariance (scaled targets scale) = fun i => vector covariance targets i * scale :=
  funext fun _ => scaled_apply h targets _

theorem volatility_scaled_le {aggregate : K} (hpos : 0 ≤ aggregate) (hle : aggregate ≤ 1)
    (hscale : scale = volatilityScale policy (Volatility.volatility root (vector covariance targets)
      (covariance.stressed policy))) :
    Volatility.volatility root (vector covariance (scaled (scaled targets scale) aggregate))
      (covariance.stressed policy) ≤ policy.targetVolatility := by
  obtain ⟨hscale₀, hscale₁, htarget⟩ :=
    Volatility.volatility_le_of_scale root policy.targetVolatility_pos hscale
  have hnonneg := mul_nonneg hscale₀ (Volatility.volatility_nonneg root
    (vector covariance targets) (covariance.stressed policy))
  rw [vector_scaled hle, Volatility.volatility_scale root hpos, vector_scaled hscale₁,
    Volatility.volatility_scale root hscale₀]
  exact (mul_le_of_le_one_left hnonneg hle).trans htarget

theorem sum_componentRisk
    (hlength : ordered.length = covariance.strategyKeys.length) (volScale aggScale : K) :
    ((targetSleeves policy covariance ordered targets
      (Volatility.volatility root (vector covariance targets) (covariance.stressed policy))
      volScale aggScale).map TargetSleeveWeightV2.componentRisk).sum =
      Volatility.volatility root (vector covariance targets) (covariance.stressed policy) := by
  have hsnd : (ordered.zip (List.finRange covariance.strategyKeys.length)).map Prod.snd =
      List.finRange covariance.strategyKeys.length :=
    List.map_snd_zip (by rw [List.length_finRange, hlength])
  have hmap : (targetSleeves policy covariance ordered targets
      (Volatility.volatility root (vector covariance targets) (covariance.stressed policy))
      volScale aggScale).map TargetSleeveWeightV2.componentRisk =
      (List.finRange covariance.strategyKeys.length).map (Volatility.component root
        (vector covariance targets) (covariance.stressed policy)) := by
    conv_rhs => rw [← hsnd, List.map_map]
    rw [targetSleeves, List.map_map]
    rfl
  rw [hmap, ← Fin.sum_univ_def, Volatility.sum_component]

omit [IsStrictOrderedRing K] in
theorem mem_targetSleeves {stressedVolatility volScale aggScale : K}
    {sleeve : TargetSleeveWeightV2 K}
    (h : sleeve ∈ targetSleeves policy covariance ordered targets stressedVolatility volScale
      aggScale) :
    ∃ item ∈ ordered, sleeve.strategyKey = item.strategyKey ∧
      sleeve.targetWeight = targets item.strategyKey := by
  obtain ⟨⟨item, i⟩, hzip, rfl⟩ := List.mem_map.mp h
  exact ⟨item, (List.of_mem_zip hzip).1, rfl, rfl⟩

omit [IsStrictOrderedRing K] in
theorem exists_targetSleeve (hlength : ordered.length = covariance.strategyKeys.length)
    {stressedVolatility volScale aggScale : K} {item : StrategySleeveInputV2 K}
    (hitem : item ∈ ordered) :
    ∃ sleeve ∈ targetSleeves policy covariance ordered targets stressedVolatility volScale
      aggScale, sleeve.strategyKey = item.strategyKey := by
  have hfst : (ordered.zip (List.finRange covariance.strategyKeys.length)).map Prod.fst = ordered :=
    List.map_fst_zip (by rw [List.length_finRange, hlength])
  rw [← hfst] at hitem
  obtain ⟨x, hx, rfl⟩ := List.mem_map.mp hitem
  exact ⟨_, List.mem_map_of_mem hx, rfl⟩

end Vector

/-! ## The run -/

def PortfolioConstructionRunV2.targetOf (run : PortfolioConstructionRunV2 K) (key : String) : K :=
  ((run.target.sleeves.find? fun sleeve => decide (sleeve.strategyKey = key)).map
    TargetSleeveWeightV2.targetWeight).getD 0

def PortfolioConstructionRunV2.effective (run : PortfolioConstructionRunV2 K) :
    List (StrategySleeveInputV2 K × K) :=
  effectiveWeights run.sleeves run.targetOf 1

def PortfolioConstructionRunV2.unscaled (run : PortfolioConstructionRunV2 K) :
    List (StrategySleeveInputV2 K × K) :=
  run.sleeves.map fun item => (item, item.pendingOrderWeight + item.fxWeight)

structure Stages (policy : PortfolioConstructionPolicyV2 K) {root : ExactSqrt K}
    (covariance : CovarianceEstimateV2 root) (ordered : List (StrategySleeveInputV2 K))
    (base targets : String → K) (volScale aggScale : K) : Prop where
  volatility : volScale = volatilityScale policy (Volatility.volatility root
    (vector covariance base) (covariance.stressed policy))
  aggregate : aggScale = (maximumSafeScale policy ordered (scaled base volScale)).1
  targets_eq : targets = scaled (scaled base volScale) aggScale

structure Reports (policy : PortfolioConstructionPolicyV2 K) {root : ExactSqrt K}
    (covariance : CovarianceEstimateV2 root) (ordered : List (StrategySleeveInputV2 K))
    (targets : String → K) (volScale aggScale : K) (run : PortfolioConstructionRunV2 K) : Prop where
  sleeves : run.sleeves = ordered
  stressed : run.target.stressedVolatility = Volatility.volatility root
    (vector covariance targets) (covariance.stressed policy)
  target : run.target.sleeves = targetSleeves policy covariance ordered targets
    (Volatility.volatility root (vector covariance targets) (covariance.stressed policy))
    volScale aggScale
  review : run.status = .reviewRequired → LimitsHold policy (effectiveWeights ordered targets 1)
  unsatisfied : "aggregate_constraints_not_satisfied" ∈ run.reasons →
    ¬ LimitsHold policy (effectiveWeights ordered targets 1)

section Run

variable {policy : PortfolioConstructionPolicyV2 K} {root : ExactSqrt K}
  {covariance : CovarianceEstimateV2 root} {ordered : List (StrategySleeveInputV2 K)}
  {run : PortfolioConstructionRunV2 K} {health : String}

omit [IsStrictOrderedRing K] in
theorem portfolioVolatility_eq_ok {n : ℕ} {weights : Fin n → K} {matrix : Matrix (Fin n) (Fin n) K}
    {v : K} (h : portfolioVolatility root weights matrix = .ok v) :
    v = Volatility.volatility root weights matrix := by
  unfold portfolioVolatility at h
  split at h
  · cases h
  · exact (Except.ok.inj h).symm

theorem ne_of_colon (a b : String) : a ++ ":" ++ b ≠ "aggregate_constraints_not_satisfied" := by
  intro h
  have hmem : ':' ∈ (a ++ ":" ++ b).toList := by
    rw [String.toList_append, String.toList_append]
    exact List.mem_append_left _ (List.mem_append_right _ (by decide))
  rw [h] at hmem
  exact absurd hmem (by decide)

omit [IsStrictOrderedRing K] in
theorem notMem_inputReasons :
    "aggregate_constraints_not_satisfied" ∉ inputReasons ordered health := by
  intro h
  rcases List.mem_append.mp h with h | h
  · split at h
    · exact absurd (List.mem_singleton.mp h) (by decide)
    · exact absurd h List.not_mem_nil
  · obtain ⟨item, -, h⟩ := List.mem_flatMap.mp h
    obtain ⟨reason, -, h⟩ := List.mem_map.mp h
    exact ne_of_colon item.strategyKey reason h

omit [Field K] [LinearOrder K] [IsStrictOrderedRing K] in
theorem notMem_gateReasons (decision : PortfolioRiskDecision K) :
    "aggregate_constraints_not_satisfied" ∉ gateReasons decision := by
  intro h
  unfold gateReasons at h
  split at h
  · obtain ⟨reason, -, h⟩ := List.mem_map.mp h
    exact ne_of_colon _ reason h
  · exact absurd h List.not_mem_nil

theorem mem_weightReasons {feasible ok : Bool} :
    "aggregate_constraints_not_satisfied" ∈ weightReasons feasible ok ↔ ok = false := by
  cases feasible <;> cases ok <;> decide

omit [IsStrictOrderedRing K] in
theorem construct_eq_ok {at' : ℤ} (h : construct policy covariance ordered health at' = .ok run) :
    ∃ blocked targets volScale aggScale,
      Stages policy covariance ordered (baseTargets policy ordered blocked) targets volScale
        aggScale ∧ Reports policy covariance ordered targets volScale aggScale run := by
  unfold construct at h
  dsimp only at h
  obtain ⟨stressed, hstressed, h⟩ := Except.bind_eq_ok.mp h
  cases portfolioVolatility_eq_ok hstressed
  obtain ⟨raw, -, h⟩ := Except.bind_eq_ok.mp h
  obtain ⟨final, hfinal, h⟩ := Except.bind_eq_ok.mp h
  cases portfolioVolatility_eq_ok hfinal
  obtain ⟨decision, -, h⟩ := Except.bind_eq_ok.mp h
  have h := Except.pure_eq_ok.mp h
  refine ⟨!(inputReasons ordered health).isEmpty, _, _, _, ⟨rfl, rfl, rfl⟩, ?_⟩
  rw [← h]
  refine ⟨rfl, rfl, rfl, fun hreview => ?_, fun hreason hlimits => ?_⟩
  · -- without a reason, the weights are not blamed
    refine aggregateConstraintsSatisfied_iff.mp (Bool.not_eq_false _ ▸ fun hfalse => ?_)
    dsimp only at hreview
    split at hreview
    · rename_i hnone
      have hweights := (List.append_eq_nil_iff.mp (List.append_eq_nil_iff.mp hnone).1).2
      exact absurd (hweights ▸ mem_weightReasons.mpr hfalse) List.not_mem_nil
    · cases hreview
  · have hok := aggregateConstraintsSatisfied_iff.mpr hlimits
    rcases List.mem_append.mp (List.mem_eraseDups.mp hreason) with hmem | hmem
    · rcases List.mem_append.mp hmem with hmem | hmem
      · exact notMem_inputReasons hmem
      · rw [mem_weightReasons, hok] at hmem
        cases hmem
    · exact notMem_gateReasons decision hmem

omit [IsStrictOrderedRing K] in
theorem constructMultiStrategyPortfolio_eq_ok {hash : String}
    {sleeves : List (StrategySleeveInputV2 K)} {ids : List UUID} {constructedAt : DateTime}
    (h : constructMultiStrategyPortfolio policy covariance hash sleeves health ids constructedAt =
      .ok run) :
    ∃ ordered instant, construct policy covariance ordered health instant = .ok run ∧
      ordered.map StrategySleeveInputV2.strategyKey = covariance.strategyKeys ∧
      (ordered.map StrategySleeveInputV2.strategyKey).Nodup := by
  unfold constructMultiStrategyPortfolio at h
  cases constructedAt with
  | naive _ => cases h
  | aware instant =>
      dsimp only at h
      obtain ⟨hdistinct, h⟩ := Except.of_ite_error h
      obtain ⟨hkeys, h⟩ := Except.of_ite_error h
      obtain ⟨-, h⟩ := Except.of_ite_error h
      obtain ⟨-, h⟩ := Except.of_ite_error h
      exact ⟨_, instant, h, not_not.mp hkeys, not_not.mp (not_or.mp hdistinct).2⟩

omit [IsStrictOrderedRing K] in
theorem Reports.targetOf_eq {targets : String → K} {volScale aggScale : K}
    (h : Reports policy covariance ordered targets volScale aggScale run)
    (hlength : ordered.length = covariance.strategyKeys.length)
    {item : StrategySleeveInputV2 K} (hitem : item ∈ ordered) :
    run.targetOf item.strategyKey = targets item.strategyKey := by
  unfold PortfolioConstructionRunV2.targetOf
  rw [h.target]
  cases hfind : (targetSleeves policy covariance ordered targets
      (Volatility.volatility root (vector covariance targets) (covariance.stressed policy))
      volScale aggScale).find? fun sleeve => decide (sleeve.strategyKey = item.strategyKey) with
  | none =>
      obtain ⟨sleeve, hsleeve, hkey⟩ := exists_targetSleeve hlength hitem
      exact absurd (decide_eq_true hkey) (List.find?_eq_none.mp hfind sleeve hsleeve)
  | some sleeve =>
      have hfound := List.find?_some hfind
      have hkey : sleeve.strategyKey = item.strategyKey := of_decide_eq_true hfound
      obtain ⟨item', -, hkey', htarget⟩ := mem_targetSleeves (List.mem_of_find?_eq_some hfind)
      rw [Option.map_some, Option.getD_some, htarget, ← hkey', hkey]

omit [IsStrictOrderedRing K] in
theorem effectiveWeights_congr {targets targets' : String → K}
    (h : ∀ item ∈ ordered, targets item.strategyKey = targets' item.strategyKey) (scale : K) :
    effectiveWeights ordered targets scale = effectiveWeights ordered targets' scale :=
  List.map_congr_left fun item hitem => by rw [h item hitem]

omit [IsStrictOrderedRing K] in
theorem effectiveWeights_scaled {scale : K} (h : scale ≤ 1) (targets : String → K) :
    effectiveWeights ordered (scaled targets scale) 1 = effectiveWeights ordered targets scale :=
  List.map_congr_left fun item _ => by
    rw [scaled_apply h, effectiveWeight, effectiveWeight, mul_one]

omit [IsStrictOrderedRing K] in
theorem effectiveWeights_zero (targets : String → K) :
    effectiveWeights ordered targets 0 =
      ordered.map fun item => (item, item.pendingOrderWeight + item.fxWeight) :=
  List.map_congr_left fun item _ => by
    rw [effectiveWeight, mul_zero, zero_mul, zero_add]

section Stages

variable {blocked : Bool} {targets : String → K} {volScale aggScale : K}

theorem Stages.range (h : Stages policy covariance ordered (baseTargets policy ordered blocked)
    targets volScale aggScale) :
    (0 ≤ volScale ∧ volScale ≤ 1) ∧ 0 ≤ aggScale ∧ aggScale ≤ 1 := by
  obtain ⟨h₀, h₁, -⟩ :=
    Volatility.volatility_le_of_scale root policy.targetVolatility_pos h.volatility
  exact ⟨⟨h₀, h₁⟩, h.aggregate ▸ maximumSafeScale_range⟩

theorem Stages.sound (h : Stages policy covariance ordered (baseTargets policy ordered blocked)
    targets volScale aggScale)
    (hnodup : (ordered.map StrategySleeveInputV2.strategyKey).Nodup) :
    SoundTargets policy ordered targets := by
  obtain ⟨hvol, hagg⟩ := h.range
  rw [h.targets_eq]
  exact ((baseTargets_sound hnodup blocked).scaled hvol.1).scaled hagg.1

theorem Stages.volatility_le (h : Stages policy covariance ordered
    (baseTargets policy ordered blocked) targets volScale aggScale) :
    Volatility.volatility root (vector covariance targets) (covariance.stressed policy) ≤
      policy.targetVolatility := by
  obtain ⟨-, hagg⟩ := h.range
  rw [h.targets_eq]
  exact volatility_scaled_le hagg.1 hagg.2 h.volatility

theorem Stages.limits (h : Stages policy covariance ordered (baseTargets policy ordered blocked)
    targets volScale aggScale)
    (hunscaled : LimitsHold policy
      (ordered.map fun item => (item, item.pendingOrderWeight + item.fxWeight))) :
    LimitsHold policy (effectiveWeights ordered targets 1) := by
  obtain ⟨-, hagg⟩ := h.range
  rw [← effectiveWeights_zero (scaled (baseTargets policy ordered blocked) volScale)] at hunscaled
  rw [h.targets_eq, effectiveWeights_scaled hagg.2, h.aggregate]
  exact maximumSafeScale_feasible hunscaled

end Stages

end Run

/-! ## One sleeve, capped at one half -/

noncomputable def samplePolicy : PortfolioConstructionPolicyV2 ℝ where
  version := "v1"
  implementationVersion := "v1"
  equity := 1
  targetVolatility := 1
  maximumGrossLeverage := 1
  maximumNetLeverage := 1
  maximumSleeveWeight := (1 + 1)⁻¹
  maximumStressLossWeight := 1
  minimumLiquidityScore := 0
  maximumDrawdown := 1
  minimumDecayScore := 0
  covarianceUncertainty := 0
  correlationStress := 0
  stressShock := -1
  groupWeightLimits := []
  factorExposureLimits := []
  createdAt := .aware 0
  created_aware := rfl
  version_text := ⟨by decide, by decide⟩
  equity_pos := by norm_num
  targetVolatility_pos := one_pos
  grossLeverage_pos := one_pos
  netLeverage_nonneg := zero_le_one
  sleeveWeight_range := by norm_num
  stressLoss_range := by norm_num
  liquidity_range := by norm_num
  drawdown_range := by norm_num
  decay_range := by norm_num
  uncertainty_range := by norm_num
  correlationStress_range := by norm_num
  shock_range := by norm_num
  group_nodup := List.nodup_nil
  factor_nodup := List.nodup_nil
  group_limits := nofun
  factor_limits := nofun

noncomputable def sampleSleeve : StrategySleeveInputV2 ℝ where
  sleeveInputId := 1
  strategyKey := "trend"
  normalizedSignal := 1
  standaloneVolatility := 1
  riskBudget := 1
  capacityWeight := 1
  liquidityScore := 1
  drawdown := 0
  decayScore := 1
  regimeCurrentMultiplier := 1
  regimeProposedMultiplier := 1
  deltaAdjustedMultiplier := 1
  pendingOrderWeight := 0
  fxWeight := 0
  groups := []
  factorLoadings := []
  scorecardStatus := .reviewRequired
  validationIntegrity := "VERIFIED"
  regimeStatus := .reviewRequired
  key_text := by decide
  signal_range := by norm_num
  volatility_pos := one_pos
  budget_pos := one_pos
  capacity_range := by norm_num
  liquidity_range := by norm_num
  drawdown_range := by norm_num
  decay_range := by norm_num
  current_pos := one_pos
  proposed_nonneg := zero_le_one
  delta_pos := one_pos
  group_nodup := List.nodup_nil
  factor_nodup := List.nodup_nil
  group_text := nofun
  factor_text := nofun

noncomputable def sampleCovariance : CovarianceEstimateV2 ExactSqrt.real where
  strategyKeys := ["trend"]
  matrix := fun _ _ => 1 / 4
  asOf := 0
  keys_pos := List.cons_ne_nil _ _
  keys_sorted := List.pairwise_singleton _ _
  keys_text := by decide
  diagonal_pos := by norm_num
  symmetric := fun _ _ => rfl
  correlation := by
    intro _ _
    have hroot : ExactSqrt.real.sqrt (1 / 4 * (1 / 4)) = 1 / 4 :=
      ExactSqrt.sqrt_eq _ (by norm_num) rfl
    rw [hroot, abs_of_pos (by norm_num)]

theorem sample_capped : cappedRiskWeights [sampleSleeve] (1 / 2) "trend" = 1 / 2 := by
  have hscores : (([sampleSleeve].filter fun item => decide (item.normalizedSignal ≠ 0)).map
      fun item => (item.strategyKey,
        item.riskBudget / item.standaloneVolatility * |item.normalizedSignal|)) =
      [("trend", 1)] := by
    simp [sampleSleeve]
  have hexceeds : exceeds (1 / 2 : ℝ) 1 [("trend", 1)] ("trend", 1) = true := by
    norm_num [exceeds]
  have hexceeding : exceeding (1 / 2 : ℝ) 1 [("trend", 1)] = [("trend", 1)] := by
    rw [exceeding, List.filter_cons_of_pos hexceeds, List.filter_nil]
  have hwithin : within (1 / 2 : ℝ) 1 [("trend", 1)] = [] := by
    rw [within, List.filter_cons_of_neg (by rw [hexceeds]; decide), List.filter_nil]
  rw [cappedRiskWeights, hscores, capLoop, if_neg (by norm_num), hexceeding,
    if_neg (List.cons_ne_nil _ _), hwithin, capLoop, if_pos (Or.inl rfl)]
  rfl

theorem sample_base : baseTargets samplePolicy [sampleSleeve] false "trend" = 1 / 2 := by
  have hregime : regimeMultiplier sampleSleeve = 1 := by
    simp [regimeMultiplier, sampleSleeve]
  have hdisabled : disabled samplePolicy sampleSleeve = false := by
    norm_num [disabled, sampleSleeve, samplePolicy]
  have hdirection : direction sampleSleeve = 1 := by
    simp [direction, sampleSleeve]
  have hmaximum : samplePolicy.maximumSleeveWeight = 1 / 2 := by
    norm_num [samplePolicy]
  show baseTarget samplePolicy sampleSleeve
    (cappedRiskWeights [sampleSleeve] samplePolicy.maximumSleeveWeight "trend") = 1 / 2
  rw [hmaximum, sample_capped, baseTarget, hdisabled, hregime, hdirection]
  simp [sampleSleeve]

theorem sample_volatility {targets : String → ℝ} (h : targets "trend" = 1 / 2)
    {matrix : Matrix (Fin sampleCovariance.strategyKeys.length)
      (Fin sampleCovariance.strategyKeys.length) ℝ} (hmatrix : ∀ i, matrix i i = 1 / 4) :
    portfolioVolatility ExactSqrt.real (vector sampleCovariance targets) matrix = .ok (1 / 4) := by
  have hform : Volatility.form (vector sampleCovariance targets) matrix = 1 / 16 := by
    have hweight : vector sampleCovariance targets (0 : Fin 1) = 1 / 2 := h
    have hcell : matrix (0 : Fin 1) (0 : Fin 1) = 1 / 4 := hmatrix _
    show ∑ i : Fin 1, ∑ j : Fin 1, vector sampleCovariance targets i *
      vector sampleCovariance targets j * matrix i j = 1 / 16
    rw [Fin.sum_univ_one, Fin.sum_univ_one, hweight, hcell]
    norm_num
  have hroot : ExactSqrt.real.sqrt (1 / 16) = 1 / 4 :=
    ExactSqrt.sqrt_eq _ (by norm_num) (by norm_num)
  rw [portfolioVolatility, hform, if_neg (by norm_num), Volatility.volatility, hform,
    max_eq_left (by norm_num), hroot]

theorem sample_construct : ∃ run,
    construct samplePolicy sampleCovariance [sampleSleeve] "HEALTHY" 0 = .ok run ∧
      run.sleeves = [sampleSleeve] ∧ run.status = .reviewRequired := by
  have hinputs : inputReasons [sampleSleeve] "HEALTHY" = [] := by
    simp [inputReasons, eligibilityReasons, sampleSleeve]
  have hscale : volatilityScale samplePolicy (1 / 4) = 1 := by
    norm_num [volatilityScale, samplePolicy]
  have hscaled : ∀ targets : String → ℝ, scaled targets 1 = targets :=
    fun _ => if_neg (lt_irrefl 1)
  have heffective : ∀ scale, effectiveWeights [sampleSleeve]
      (baseTargets samplePolicy [sampleSleeve] false) scale = [(sampleSleeve, 1 / 2 * scale)] := by
    intro scale
    show [(sampleSleeve, effectiveWeight (baseTargets samplePolicy [sampleSleeve] false "trend")
      scale sampleSleeve)] = _
    rw [sample_base, effectiveWeight]
    simp [sampleSleeve]
  have hok : ∀ scale, 0 ≤ scale → scale ≤ 1 →
      aggregateConstraintsSatisfied samplePolicy [(sampleSleeve, 1 / 2 * scale)] = true := by
    intro scale hpos hle
    have hle' : |scale| / 2 ≤ 1 := by rw [abs_of_nonneg hpos]; linarith
    refine aggregateConstraintsSatisfied_iff.mpr ⟨?_, ?_, nofun, nofun⟩
    · simpa [samplePolicy, abs_mul, div_eq_inv_mul] using hle'
    · simpa [samplePolicy, abs_mul, div_eq_inv_mul] using hle'
  have hsafe : maximumSafeScale samplePolicy [sampleSleeve]
      (baseTargets samplePolicy [sampleSleeve] false) = (1, true) := by
    have hfeasible : ∀ scale, 0 ≤ scale → scale ≤ 1 → feasibleAt samplePolicy [sampleSleeve]
        (baseTargets samplePolicy [sampleSleeve] false) scale = true := by
      intro scale hpos hle
      rw [feasibleAt, heffective]
      exact hok scale hpos hle
    rw [maximumSafeScale, hfeasible 0 le_rfl zero_le_one, hfeasible 1 zero_le_one le_rfl]
    rfl
  obtain ⟨decision, hgate, happroved⟩ : ∃ decision, gate samplePolicy [(sampleSleeve, 1 / 2 * 1)] =
      .ok decision ∧ decision.approved = true := by
    have hname : blank "portfolio-construction-policy-stress" = false := by decide
    norm_num [gate, evaluatePortfolio, hname, samplePolicy, sampleSleeve, exposure, stress,
      concentrationBreaches, tupleToDictScaled, Except.bind, bind, pure, Except.pure]
  have hdiagonal : ∀ i, sampleCovariance.stressed samplePolicy i i = 1 / 4 := fun _ => if_pos rfl
  unfold construct
  dsimp only
  rw [hinputs]
  simp only [List.isEmpty_nil, Bool.not_true, sample_volatility sample_base hdiagonal,
    Except.ok_bind, hscale, hscaled, hsafe, heffective]
  rw [sample_volatility sample_base fun _ => rfl, Except.ok_bind, hgate, Except.ok_bind]
  refine ⟨_, rfl, rfl, if_pos ?_⟩
  rw [hok 1 zero_le_one le_rfl]
  simp [weightReasons, gateReasons, happroved]

/-! ## The limits of a run -/

/-- A run for review keeps all limits of the policy, and the aggregate limits fail in a run only
where the pending and the fx weights break them alone. -/
theorem construct_limits {policy : PortfolioConstructionPolicyV2 K} {root : ExactSqrt K}
    {covariance : CovarianceEstimateV2 root} {run : PortfolioConstructionRunV2 K}
    {health hash : String}
    {sleeves : List (StrategySleeveInputV2 K)}
    {ids : List UUID} {constructedAt : DateTime}
    (h : constructMultiStrategyPortfolio policy covariance hash sleeves health ids constructedAt =
      .ok run) :
    (run.status = .reviewRequired →
      LimitsHold policy run.effective ∧
      (∀ sleeve ∈ run.target.sleeves, |sleeve.targetWeight| ≤ policy.maximumSleeveWeight) ∧
      run.target.stressedVolatility = Volatility.volatility root
        (vector covariance run.targetOf) (covariance.stressed policy) ∧
      run.target.stressedVolatility ≤ policy.targetVolatility ∧
      (run.target.sleeves.map TargetSleeveWeightV2.componentRisk).sum =
        run.target.stressedVolatility ∧
      ∀ item ∈ run.sleeves, 0 ≤ run.targetOf item.strategyKey * item.normalizedSignal) ∧
    (LimitsHold policy run.unscaled →
      LimitsHold policy run.effective ∧
      "aggregate_constraints_not_satisfied" ∉ run.reasons) := by
  obtain ⟨ordered, instant, hrun, hkeys, hnodup⟩ := constructMultiStrategyPortfolio_eq_ok h
  obtain ⟨blocked, targets, volScale, aggScale, hstages, hreports⟩ := construct_eq_ok hrun
  have hlength : ordered.length = covariance.strategyKeys.length := by
    rw [← hkeys, List.length_map]
  have htarget := fun item hitem => hreports.targetOf_eq hlength (show item ∈ ordered from hitem)
  have heffective : run.effective = effectiveWeights ordered targets 1 := by
    rw [PortfolioConstructionRunV2.effective, hreports.sleeves]
    exact effectiveWeights_congr htarget 1
  have hvector : vector covariance run.targetOf = vector covariance targets := by
    funext i
    have hmem : covariance.strategyKeys.get i ∈ ordered.map StrategySleeveInputV2.strategyKey := by
      rw [hkeys]
      exact List.get_mem covariance.strategyKeys i
    obtain ⟨item, hitem, hkey⟩ := List.mem_map.mp hmem
    exact (congrArg run.targetOf hkey).symm.trans ((htarget item hitem).trans
      (congrArg targets hkey))
  constructor
  · intro hreview
    refine ⟨heffective ▸ hreports.review hreview, fun sleeve hsleeve => ?_, ?_, ?_, ?_, ?_⟩
    · rw [hreports.target] at hsleeve
      obtain ⟨item, hitem, -, hweight⟩ := mem_targetSleeves hsleeve
      rw [hweight]
      exact (hstages.sound hnodup item hitem).1
    · rw [hreports.stressed, hvector]
    · rw [hreports.stressed]
      exact hstages.volatility_le
    · rw [hreports.stressed, hreports.target]
      exact sum_componentRisk hlength volScale aggScale
    · intro item hitem
      rw [hreports.sleeves] at hitem
      rw [htarget item hitem]
      exact (hstages.sound hnodup item hitem).2
  · intro hunscaled
    rw [PortfolioConstructionRunV2.unscaled, hreports.sleeves] at hunscaled
    have hlimits := hstages.limits hunscaled
    exact ⟨heffective ▸ hlimits, fun hreason => hreports.unsatisfied hreason hlimits⟩

theorem construct_limits_sample : ∃ run,
    constructMultiStrategyPortfolio samplePolicy sampleCovariance
      (String.ofList (List.replicate 64 'a')) [sampleSleeve] "HEALTHY" [1] (.aware 0) = .ok run ∧
    run.status = .reviewRequired ∧ run.target.stressedVolatility ≤ 1 ∧
    LimitsHold samplePolicy run.effective := by
  obtain ⟨run, hrun, hsleeves, hstatus⟩ := sample_construct
  have hsort : [sampleSleeve].mergeSort (fun x y => decide (x.strategyKey ≤ y.strategyKey)) =
      [sampleSleeve] := List.mergeSort_singleton _
  have h : constructMultiStrategyPortfolio samplePolicy sampleCovariance
      (String.ofList (List.replicate 64 'a')) [sampleSleeve] "HEALTHY" [1] (.aware 0) =
      .ok run := by
    rw [← hrun, constructMultiStrategyPortfolio]
    rw [hsort, if_neg, if_neg, if_neg, if_neg]
    · rw [String.length_ofList, List.length_replicate]
      exact not_or.mpr ⟨not_not.mpr rfl, List.cons_ne_nil _ _⟩
    · exact lt_irrefl 0
    · simp [sampleSleeve, sampleCovariance]
    · simp
  have hunscaled : LimitsHold samplePolicy run.unscaled := by
    rw [PortfolioConstructionRunV2.unscaled, hsleeves]
    refine ⟨?_, ?_, nofun, nofun⟩
    · simp [samplePolicy, sampleSleeve]
    · simp [samplePolicy, sampleSleeve]
  obtain ⟨hreview, hfeasible⟩ := construct_limits h
  obtain ⟨-, -, -, hvolatility, -, -⟩ := hreview hstatus
  exact ⟨run, h, hstatus, hvolatility, (hfeasible hunscaled).1⟩

end TradePlatform.PortfolioConstruction
