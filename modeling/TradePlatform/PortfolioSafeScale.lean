/-
# `TradePlatform.PortfolioSafeScale` — the safe scale is next to the greatest feasible one

The effective weights are affine in the scale, on top of pending and fx weights that it does not
touch.  Every aggregate limit bounds an affine term, or a sum of absolute values of affine terms,
from above; so where the weights at scale zero are feasible, the feasible scales are those up to
one value, and the bisection closes in on it from below.
-/
import TradePlatform.PortfolioLimits
import TradePlatform.Lib.UpTo

namespace TradePlatform.PortfolioConstruction

variable {K : Type} [Field K] [LinearOrder K]

/-! ## What is affine in the scale -/

def IsAffine (f : K → K) : Prop := ∃ a, ∀ s, f s = a * s + f 0

section Affine

variable {policy : PortfolioConstructionPolicyV2 K} {sleeves : List (StrategySleeveInputV2 K)}
  {targets : String → K} {key : String} {f g : K → K}

omit [LinearOrder K] in
theorem isAffine_zero : IsAffine fun _ : K => (0 : K) := ⟨0, fun s => by simp⟩

omit [LinearOrder K] in
theorem IsAffine.add (hf : IsAffine f) (hg : IsAffine g) : IsAffine fun s => f s + g s := by
  obtain ⟨a, ha⟩ := hf
  obtain ⟨b, hb⟩ := hg
  refine ⟨a + b, fun s => ?_⟩
  dsimp only
  rw [ha s, hb s]
  ring

omit [LinearOrder K] in
theorem IsAffine.mul_right (hf : IsAffine f) (c : K) : IsAffine fun s => f s * c := by
  obtain ⟨a, ha⟩ := hf
  refine ⟨a * c, fun s => ?_⟩
  dsimp only
  rw [ha s]
  ring

theorem isAffine_effectiveWeight (target : K) (item : StrategySleeveInputV2 K) :
    IsAffine fun s => effectiveWeight target s item := by
  refine ⟨target * item.deltaAdjustedMultiplier, fun s => ?_⟩
  unfold effectiveWeight
  ring

theorem isAffine_net : IsAffine fun s => ((effectiveWeights sleeves targets s).map Prod.snd).sum := by
  induction sleeves with
  | nil => exact isAffine_zero
  | cons item sleeves ih =>
      exact (isAffine_effectiveWeight (targets item.strategyKey) item).add ih

omit [LinearOrder K] in
theorem isAffine_sumOf {α : Type} (l : List α) (keyOf : α → String) (value : α → K → K)
    (h : ∀ a ∈ l, IsAffine (value a)) :
    IsAffine fun s => sumOf (l.map fun a => (keyOf a, value a s)) key := by
  induction l with
  | nil => exact isAffine_zero
  | cons a l ih =>
      have hrest := ih fun b hb => h b (List.mem_cons_of_mem _ hb)
      simp only [List.map_cons, sumOf_cons]
      split
      · exact (h a List.mem_cons_self).add hrest
      · exact isAffine_zero.add hrest

theorem isAffine_groups :
    IsAffine fun s => sumOf (groupItems (effectiveWeights sleeves targets s)) key := by
  have hitems : ∀ s, groupItems (effectiveWeights sleeves targets s) =
      (sleeves.flatMap fun item => item.groups.map fun group => (item, group)).map
        fun x => (x.2.1 ++ ":" ++ x.2.2, effectiveWeight (targets x.1.strategyKey) s x.1) := by
    intro s
    rw [groupItems, effectiveWeights, List.flatMap_map, List.map_flatMap]
    refine List.flatMap_congr fun item _ => ?_
    rw [List.map_map]
    rfl
  simp only [hitems]
  exact isAffine_sumOf _
    (fun x : StrategySleeveInputV2 K × String × String => x.2.1 ++ ":" ++ x.2.2)
    (fun x s => effectiveWeight (targets x.1.strategyKey) s x.1)
    fun x _ => isAffine_effectiveWeight _ x.1

theorem isAffine_factors :
    IsAffine fun s => sumOf (factorItems (effectiveWeights sleeves targets s)) key := by
  have hitems : ∀ s, factorItems (effectiveWeights sleeves targets s) =
      (sleeves.flatMap fun item => item.factorLoadings.map fun loading => (item, loading)).map
        fun x => (x.2.1, effectiveWeight (targets x.1.strategyKey) s x.1 * x.2.2) := by
    intro s
    rw [factorItems, effectiveWeights, List.flatMap_map, List.map_flatMap]
    refine List.flatMap_congr fun item _ => ?_
    rw [List.map_map]
    rfl
  simp only [hitems]
  exact isAffine_sumOf _ (fun x : StrategySleeveInputV2 K × String × K => x.2.1)
    (fun x s => effectiveWeight (targets x.1.strategyKey) s x.1 * x.2.2)
    fun x _ => (isAffine_effectiveWeight _ x.1).mul_right x.2.2

end Affine

/-! ## The feasible scales -/

variable [IsStrictOrderedRing K] {policy : PortfolioConstructionPolicyV2 K}
  {sleeves : List (StrategySleeveInputV2 K)} {targets : String → K} {f : K → K} {limit m : K}

theorem IsAffine.exists_upTo (hf : IsAffine f) (hzero : |f 0| ≤ limit) :
    ∃ m, HoldsUpTo (fun s => |f s| ≤ limit) m := by
  obtain ⟨a, ha⟩ := hf
  obtain ⟨m, hm⟩ := @exists_upTo_abs K _ _ _ a (f 0) limit hzero
  exact ⟨m, hm.congr fun s => by rw [ha s]⟩

theorem exists_upTo_gross
    (hzero : ((effectiveWeights sleeves targets 0).map fun x => |x.2|).sum ≤ limit) :
    ∃ m, HoldsUpTo
      (fun s => ((effectiveWeights sleeves targets s).map fun x => |x.2|).sum ≤ limit) m := by
  let terms := sleeves.map fun item =>
    (targets item.strategyKey * item.deltaAdjustedMultiplier, item.pendingOrderWeight + item.fxWeight)
  have hterms : ∀ s, ((effectiveWeights sleeves targets s).map fun x => |x.2|) =
      terms.map fun x => |x.1 * s + x.2| := by
    intro s
    rw [effectiveWeights, List.map_map, List.map_map]
    refine List.map_congr_left fun item _ => ?_
    dsimp only [Function.comp_apply, effectiveWeight]
    ring_nf
  have hstart : (terms.map fun x => |x.2|).sum + 0 ≤ limit := by
    have heq : (terms.map fun x => |x.1 * 0 + x.2|) = terms.map fun x => |x.2| := by simp
    rw [add_zero, ← heq, ← hterms]
    exact hzero
  obtain ⟨m, hm⟩ := @exists_upTo_sum_abs K _ _ _ limit terms 0 0 hstart
  exact ⟨m, hm.congr fun s => by rw [hterms, zero_mul, add_zero, add_zero]⟩

theorem exists_upTo_feasible (h : LimitsHold policy (effectiveWeights sleeves targets 0)) :
    ∃ m, HoldsUpTo (fun s => feasibleAt policy sleeves targets s = true) m := by
  obtain ⟨gross, hgross⟩ := exists_upTo_gross h.gross
  obtain ⟨net, hnet⟩ := (@isAffine_net K _ _ sleeves targets).exists_upTo h.net
  obtain ⟨groups, hgroups⟩ := HoldsUpTo.all fun x hx =>
    (@isAffine_groups K _ _ sleeves targets x.1).exists_upTo (h.groups x hx)
  obtain ⟨factors, hfactors⟩ := HoldsUpTo.all fun x hx =>
    (@isAffine_factors K _ _ sleeves targets x.1).exists_upTo (h.factors x hx)
  refine ⟨_, ((hgross.and hnet).and (hgroups.and hfactors)).congr fun s => ?_⟩
  refine aggregateConstraintsSatisfied_iff.trans ⟨fun hs => ?_, fun hs => ?_⟩
  · exact ⟨⟨hs.gross, hs.net⟩, hs.groups, hs.factors⟩
  · exact ⟨hs.1.1, hs.1.2, hs.2.1, hs.2.2⟩

/-! ## The bisection -/

/-- The bisection ends below the greatest feasible value, by less than what is left of its
interval. -/
theorem bisectScale_near {feasible : K → Bool} (hm : HoldsUpTo (fun s => feasible s = true) m)
    (n : ℕ) {low high : K} (hnonneg : 0 ≤ low) (hlow : low ≤ m) (hhigh : m < high)
    (hone : high ≤ 1) :
    bisectScale feasible n low high ≤ m ∧
      m < bisectScale feasible n low high + (high - low) / 2 ^ n := by
  induction n generalizing low high with
  | zero =>
      rw [bisectScale, pow_zero, div_one, add_sub_cancel]
      exact ⟨hlow, hhigh⟩
  | succ n ih =>
      have hmid := hm.iff_le ((low + high) / 2) (by linarith) (by linarith)
      rw [bisectScale]
      split
      · rename_i hfeasible
        obtain ⟨hle, hlt⟩ := ih (by linarith) (hmid.mp hfeasible) hhigh hone
        refine ⟨hle, ?_⟩
        have hhalf : (high - (low + high) / 2) / 2 ^ n = (high - low) / 2 ^ (n + 1) := by
          rw [pow_succ]
          field_simp
          ring
        rw [← hhalf]
        exact hlt
      · rename_i hinfeasible
        have hlt' : m < (low + high) / 2 := not_le.mp fun hle => hinfeasible (hmid.mpr hle)
        obtain ⟨hle, hlt⟩ := ih hnonneg hlow hlt' (by linarith)
        refine ⟨hle, ?_⟩
        have hhalf : ((low + high) / 2 - low) / 2 ^ n = (high - low) / 2 ^ (n + 1) := by
          rw [pow_succ]
          field_simp
          ring
        rw [← hhalf]
        exact hlt

/-- The safe scale, where the pending and fx weights are feasible: the feasible scales are those
up to a greatest one; the safe scale is one of them, it is one if that is feasible, and else it
is less than `2⁻⁶³` below the greatest. -/
theorem maximumSafeScale_near_greatest
    (h : LimitsHold policy (effectiveWeights sleeves targets 0)) :
    ∃ greatest,
      IsGreatest {s | 0 ≤ s ∧ s ≤ 1 ∧ feasibleAt policy sleeves targets s = true} greatest ∧
      (∀ s, 0 ≤ s → s ≤ greatest → feasibleAt policy sleeves targets s = true) ∧
      feasibleAt policy sleeves targets (maximumSafeScale policy sleeves targets).1 = true ∧
      (maximumSafeScale policy sleeves targets).2 = true ∧
      if feasibleAt policy sleeves targets 1 = true then
        (maximumSafeScale policy sleeves targets).1 = 1
      else (maximumSafeScale policy sleeves targets).1 ≤ greatest ∧
        greatest - (maximumSafeScale policy sleeves targets).1 < 1 / 2 ^ 63 := by
  obtain ⟨m, hm⟩ := exists_upTo_feasible h
  have hzero : feasibleAt policy sleeves targets 0 = true :=
    aggregateConstraintsSatisfied_iff.mpr h
  have hsafe := aggregateConstraintsSatisfied_iff.mpr (maximumSafeScale_feasible h)
  refine ⟨m, hm.isGreatest, fun s hs hle => (hm.iff_le s hs (hle.trans hm.le_one)).mpr hle,
    hsafe, ?_⟩
  unfold maximumSafeScale
  rw [if_neg (by rw [hzero]; decide)]
  split
  · exact ⟨rfl, rfl⟩
  · rename_i hone
    have hlt : m < 1 := not_le.mp fun hle => hone ((hm.iff_le 1 zero_le_one le_rfl).mpr hle)
    obtain ⟨hle, hnear⟩ := bisectScale_near hm 64 le_rfl hm.nonneg hlt le_rfl
    refine ⟨rfl, hle, ?_⟩
    have hhalf : (1 - 0 : K) / 2 ^ 64 ≤ 1 / 2 ^ 63 := by
      rw [sub_zero]
      exact one_div_le_one_div_of_le (by positivity) (pow_le_pow_right₀ one_le_two (by norm_num))
    linarith

/-- A target of two, under a gross leverage of one. -/
theorem maximumSafeScale_near_greatest_sample : ∃ greatest,
    IsGreatest {s | 0 ≤ s ∧ s ≤ 1 ∧ feasibleAt samplePolicy [sampleSleeve] (fun _ => 2) s = true}
      greatest ∧
    feasibleAt samplePolicy [sampleSleeve] (fun _ => 2)
      (maximumSafeScale samplePolicy [sampleSleeve] fun _ => 2).1 = true := by
  have hzero : LimitsHold samplePolicy (effectiveWeights [sampleSleeve] (fun _ => 2) 0) := by
    refine ⟨?_, ?_, nofun, nofun⟩
    · simp [effectiveWeights, effectiveWeight, sampleSleeve, samplePolicy]
    · simp [effectiveWeights, effectiveWeight, sampleSleeve, samplePolicy]
  obtain ⟨greatest, hgreatest, -, hsafe, -⟩ := maximumSafeScale_near_greatest hzero
  exact ⟨greatest, hgreatest, hsafe⟩

end TradePlatform.PortfolioConstruction
