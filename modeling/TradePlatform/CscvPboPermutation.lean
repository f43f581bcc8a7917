/-
# `TradePlatform.CscvPboPermutation` — the evidence does not depend on the order of the trials

What `evaluate_canonical_cscv_pbo_v1` returns, read off its trials: the reasons before the splits,
the splits that are valid, and those whose winner ranks low are all facts about the trials as a
collection.  So status, probability and tie count are the same for every order in which the trials
are listed with their identities.
-/
import TradePlatform.CscvPbo

namespace TradePlatform

namespace OpenToOpen

namespace Cscv

open Midrank

variable {Return V : Type} {env : Env Return V} {trials trials' : List (Trial Return)}

/-! ## The reasons before the splits -/

theorem reasonIf_congr {p q : Prop} [Decidable p] [Decidable q] (h : p ↔ q) (reason : String) :
    reasonIf p reason = reasonIf q reason := by
  by_cases hp : p
  · rw [reasonIf, reasonIf, if_pos hp, if_pos (h.mp hp)]
  · rw [reasonIf, reasonIf, if_neg hp, if_neg (hp ∘ h.mpr)]

theorem reasonIf_eq_nil {p : Prop} [Decidable p] {reason : String} :
    reasonIf p reason = [] ↔ ¬ p := by
  by_cases hp : p <;> simp [reasonIf, hp]

theorem blockReasons_congr {blocks blocks' : List (List (List Return))} (h : blocks.Perm blocks') :
    blockReasons env blocks = blockReasons env blocks' := by
  have hlengths : ∀ i, (blocks.map fun b => (b.getD i []).length).dedup.length =
      (blocks'.map fun b => (b.getD i []).length).dedup.length :=
    fun i => (h.map _).dedup.length_eq
  have hsome : ∀ p : List (List Return) → Prop, (∃ b ∈ blocks, p b) ↔ ∃ b ∈ blocks', p b := by
    intro p
    simp only [h.mem_iff]
  have hall : (∀ b ∈ blocks, b.length = cscvBlocks) ↔ ∀ b ∈ blocks', b.length = cscvBlocks := by
    simp only [h.mem_iff]
  unfold blockReasons
  simp only [hlengths]
  rw [reasonIf_congr (hsome fun b => ∃ block ∈ b, block.length < cscvMinimumObservationsPerBlock),
    reasonIf_congr (hsome fun b => ∃ block ∈ b, ∃ value ∈ block, env.finite value = false)]
  by_cases h8 : ∀ b ∈ blocks, b.length = cscvBlocks
  · rw [if_neg (not_not.mpr h8), if_neg (not_not.mpr (hall.mp h8))]
  · rw [if_pos h8, if_pos (h8 ∘ hall.mpr)]

variable (env) in
def reasonsOf (trials : List (Trial Return)) : List String :=
  unavailableReasons env (trials.map Trial.blocks) (trials.map Trial.identity)

theorem reasonsOf_congr (h : trials.Perm trials') : reasonsOf env trials = reasonsOf env trials' := by
  have hidentities : (trials.map Trial.identity).dedup.length =
      (trials'.map Trial.identity).dedup.length := (h.map _).dedup.length_eq
  simp only [reasonsOf, unavailableReasons, hidentities, List.length_map, h.length_eq,
    blockReasons_congr (h.map Trial.blocks)]

theorem distinct_of_reasonsOf (h : reasonsOf env trials = []) :
    (trials.map Trial.identity).Nodup ∧ trials ≠ [] := by
  simp only [reasonsOf, unavailableReasons, List.append_eq_nil_iff, reasonIf_eq_nil, not_not,
    List.length_map] at h
  obtain ⟨⟨hlength, hminimum⟩, -⟩ := h
  constructor
  · rw [← List.dedup_eq_self]
    exact (List.dedup_sublist _).eq_of_length (hlength.trans (List.length_map _).symm)
  · rintro rfl
    exact hminimum (by simp [cscvMinimumTrials])

/-! ## The splits -/

section Order

variable [LinearOrder V] {selected : List ℕ}

omit [LinearOrder V] in
theorem defined_congr (h : trials.Perm trials') :
    Defined env selected trials ↔ Defined env selected trials' := by
  simp only [Defined, h.mem_iff]

theorem winner_congr (h : trials.Perm trials') {trial : Trial Return}
    (hwinner : Winner env selected trials trial) : Winner env selected trials' trial where
  mem := h.mem_iff.mp hwinner.mem
  best := by
    obtain ⟨v, hv, hbest⟩ := hwinner.best
    exact ⟨v, hv, fun other hother => hbest other (h.mem_iff.mpr hother)⟩

theorem lowerHalf_congr (h : trials.Perm trials') (hlow : LowerHalf env selected trials) :
    LowerHalf env selected trials' := by
  obtain ⟨trial, v, hwinner, hv, hle⟩ := hlow
  refine ⟨trial, v, winner_congr h hwinner, hv, ?_⟩
  rwa [← h.length_eq, afterValues, ← midrank_congr (h.filterMap _)]

theorem tied_congr (h : trials.Perm trials') (htied : Tied env selected trials) :
    Tied env selected trials' := by
  obtain ⟨best, hbest, hcount⟩ := htied
  refine ⟨best, fun other hother => hbest other (h.mem_iff.mpr hother), ?_⟩
  rwa [← (h.filterMap _).countP_eq]

theorem countSplits_congr_mem {p q : List ℕ → Prop} {among : List (List ℕ)}
    (h : ∀ selected ∈ among, (p selected ↔ q selected)) :
    countSplits p among = countSplits q among :=
  List.countP_congr fun selected hmem => by simp [h selected hmem]

theorem countSplits_congr {p q : List ℕ → Prop} (h : ∀ selected, p selected ↔ q selected)
    (among : List (List ℕ)) : countSplits p among = countSplits q among := by
  rw [funext fun selected => propext (h selected)]

/-! ## The evidence -/

variable (env) in
open Classical in
noncomputable def summaryOf (c : Decimal.Context) (trials : List (Trial Return)) :
    String × Option Decimal × ℕ :=
  if reasonsOf env trials ≠ [] then (statusUnavailable, none, 0)
  else if ∀ selected ∈ splits, Defined env selected trials then
    (statusAvailable,
      some (c.div (countSplits (LowerHalf env · trials) splits) splits.length),
      countSplits (ValidTied env trials) splits)
  else (statusUnavailable, none, countSplits (ValidTied env trials) splits)

theorem summaryOf_congr (c : Decimal.Context) (h : trials.Perm trials') :
    summaryOf env c trials = summaryOf env c trials' := by
  have hlow : countSplits (LowerHalf env · trials) splits =
      countSplits (LowerHalf env · trials') splits :=
    countSplits_congr (fun _ => ⟨lowerHalf_congr h, lowerHalf_congr h.symm⟩) _
  have htied : countSplits (ValidTied env trials) splits =
      countSplits (ValidTied env trials') splits :=
    countSplits_congr (fun _ => and_congr (defined_congr h)
      ⟨tied_congr h, tied_congr h.symm⟩) _
  have hall : (∀ selected ∈ splits, Defined env selected trials) ↔
      ∀ selected ∈ splits, Defined env selected trials' := by
    simp only [defined_congr h]
  rw [summaryOf, summaryOf, reasonsOf_congr h, hlow, htied]
  refine if_congr Iff.rfl rfl ?_
  by_cases hdefined : ∀ selected ∈ splits, Defined env selected trials
  · rw [if_pos hdefined, if_pos (hall.mp hdefined)]
  · rw [if_neg hdefined, if_neg (hdefined ∘ hall.mpr)]

def CanonicalCscvPboEvidenceV1.summary (evidence : CanonicalCscvPboEvidenceV1) :
    String × Option Decimal × ℕ :=
  (evidence.status, evidence.pbo, evidence.isTieCount)

theorem statuses_ne : statusAvailable ≠ statusUnavailable := by decide

theorem splits_length : splits.length = cscvSplitCount := by decide

theorem concludeSplits_summary {c : Decimal.Context} {counts : Counts}
    (hreasons : reasonsOf env trials = [])
    (hvalid : counts.validSplits = countSplits (fun s => Defined env s trials) splits)
    (hlambda : counts.lambdaLeZero = countSplits (ValidLow env trials) splits)
    (hties : counts.isTieCount = countSplits (ValidTied env trials) splits) :
    (concludeSplits env c (trials.map Trial.blocks) (trials.map Trial.identity) counts).summary =
      summaryOf env c trials := by
  rw [summaryOf, if_neg (not_not.mpr hreasons), concludeSplits, hvalid, ← splits_length]
  by_cases hdefined : ∀ selected ∈ splits, Defined env selected trials
  · have hlow : countSplits (ValidLow env trials) splits =
        countSplits (LowerHalf env · trials) splits :=
      countSplits_congr_mem fun selected hmem => and_iff_right (hdefined selected hmem)
    rw [if_pos hdefined, if_neg (not_not.mpr (countSplits_eq_length.mpr hdefined)), hlambda, hlow,
      hties]
    rfl
  · rw [if_neg hdefined, if_pos (hdefined ∘ countSplits_eq_length.mp), hties]
    rfl

theorem evaluate_trials (c : Decimal.Context)
    (hcanonical : ∀ trial ∈ trials, CanonicalSha256Hex trial.identity) :
    ∃ evidence, evaluateCanonicalCscvPboV1 env c (trials.map Trial.blocks)
        (trials.map Trial.identity) = .ok evidence ∧
      evidence.summary = summaryOf env c trials := by
  have hidentities : ∀ identity ∈ trials.map Trial.identity, CanonicalSha256Hex identity := by
    intro identity hmem
    obtain ⟨trial, htrial, rfl⟩ := List.mem_map.mp hmem
    exact hcanonical trial htrial
  have hlength : (trials.map Trial.blocks).length = (trials.map Trial.identity).length := by
    rw [List.length_map, List.length_map]
  rw [evaluateCanonicalCscvPboV1, if_neg (not_not.mpr hlength), if_neg (not_not.mpr hidentities)]
  change ∃ evidence, (if reasonsOf env trials ≠ [] then _ else _) = _ ∧ _
  by_cases hreasons : reasonsOf env trials = []
  · obtain ⟨hdistinct, hne⟩ := distinct_of_reasonsOf hreasons
    obtain ⟨counts, hfold, hvalid, hlambda, hties⟩ :=
      @foldlM_splitStep Return V env trials _ hne hdistinct splits ⟨0, 0, 0, []⟩
    rw [Nat.zero_add] at hvalid hlambda hties
    rw [if_neg (not_not.mpr hreasons), hfold]
    exact ⟨_, rfl, concludeSplits_summary hreasons hvalid hlambda hties⟩
  · rw [if_pos hreasons, summaryOf, if_pos hreasons]
    exact ⟨_, rfl, rfl⟩

theorem exists_trials {c : Decimal.Context} {trialBlocks : List (List (List Return))}
    {identities : List String} {evidence : CanonicalCscvPboEvidenceV1}
    (h : evaluateCanonicalCscvPboV1 env c trialBlocks identities = .ok evidence) :
    trialBlocks.length = identities.length ∧
      ∀ identity ∈ identities, CanonicalSha256Hex identity := by
  obtain ⟨hlength, h⟩ := Except.of_ite_error h
  obtain ⟨hcanonical, -⟩ := Except.of_ite_error h
  exact ⟨not_not.mp hlength, not_not.mp hcanonical⟩

def trialsOf (trialBlocks : List (List (List Return))) (identities : List String) :
    List (Trial Return) :=
  List.zipWith Trial.mk trialBlocks identities

theorem map_trialsOf {trialBlocks : List (List (List Return))} {identities : List String}
    (h : trialBlocks.length = identities.length) :
    (trialsOf trialBlocks identities).map Trial.blocks = trialBlocks ∧
      (trialsOf trialBlocks identities).map Trial.identity = identities := by
  induction trialBlocks generalizing identities with
  | nil =>
      obtain rfl := List.length_eq_zero_iff.mp h.symm
      exact ⟨rfl, rfl⟩
  | cons blocks trialBlocks ih =>
      cases identities with
      | nil => cases h
      | cons identity identities =>
          obtain ⟨hblocks, hidentities⟩ := ih (Nat.succ.inj h)
          simp only [trialsOf] at hblocks hidentities
          simp only [trialsOf, List.zipWith_cons_cons, List.map_cons, hblocks, hidentities,
            and_self]

/-- An available probability is the fraction of the splits whose winner in sample has a midrank out
of sample in the lower half, every midrank is strictly inside, and neither it nor status and tie
count depend on the order of the trials. -/
theorem pbo_order_statistic {c : Decimal.Context} {trialBlocks : List (List (List Return))}
    {identities : List String} {evidence : CanonicalCscvPboEvidenceV1}
    (h : evaluateCanonicalCscvPboV1 env c trialBlocks identities = .ok evidence) :
    (evidence.status = statusAvailable →
      evidence.pbo = some (c.div
        (countSplits (LowerHalf env · (trialsOf trialBlocks identities)) splits) splits.length) ∧
      ∀ selected ∈ splits,
        (∃! trial, Winner env selected (trialsOf trialBlocks identities) trial) ∧
        ∀ trial ∈ trialsOf trialBlocks identities, ∃ v,
          trial.afterSample env selected = some v ∧
          0 < midrank (afterValues env selected (trialsOf trialBlocks identities)) v ∧
          midrank (afterValues env selected (trialsOf trialBlocks identities)) v <
            trialBlocks.length + 1) ∧
    ∀ (trialBlocks' : List (List (List Return))) (identities' : List String),
      trialBlocks'.length = identities'.length →
      (trialsOf trialBlocks' identities').Perm (trialsOf trialBlocks identities) →
      ∃ evidence', evaluateCanonicalCscvPboV1 env c trialBlocks' identities' = .ok evidence' ∧
        evidence'.summary = evidence.summary := by
  obtain ⟨hlength, hcanonical⟩ := exists_trials h
  obtain ⟨hblocks, hidentities⟩ := map_trialsOf hlength
  let trials := trialsOf trialBlocks identities
  have hcanonicals : ∀ trial ∈ trials, CanonicalSha256Hex trial.identity := by
    intro trial hmem
    exact hcanonical _ (hidentities ▸ List.mem_map_of_mem hmem)
  obtain ⟨evidence', hevaluate, hsummary⟩ :=
    @evaluate_trials Return V env trials _ c hcanonicals
  rw [hblocks, hidentities, h] at hevaluate
  cases hevaluate
  constructor
  · intro havailable
    have hreasons : reasonsOf env trials = [] := by
      by_contra hne
      rw [summaryOf, if_pos hne] at hsummary
      exact statuses_ne (havailable.symm.trans (congrArg Prod.fst hsummary))
    obtain ⟨hdistinct, hne⟩ := distinct_of_reasonsOf hreasons
    have hdefined : ∀ selected ∈ splits, Defined env selected trials := by
      by_contra hnot
      rw [summaryOf, if_neg (not_not.mpr hreasons), if_neg hnot] at hsummary
      exact statuses_ne (havailable.symm.trans (congrArg Prod.fst hsummary))
    rw [summaryOf, if_neg (not_not.mpr hreasons), if_pos hdefined] at hsummary
    refine ⟨congrArg (fun summary => summary.2.1) hsummary, fun selected hmem => ⟨?_, ?_⟩⟩
    · obtain ⟨-, -, winner, -, -, -, hwinner, -⟩ := exists_winner (hdefined selected hmem) hne
      exact ⟨winner, hwinner, fun other hother => winner_unique hdistinct hother hwinner⟩
    · intro trial htrial
      obtain ⟨v, hv⟩ := Option.isSome_iff_exists.mp (hdefined selected hmem trial htrial).2
      have hinside := midrank_inside (hdefined selected hmem) htrial hv
      rw [← List.length_map Trial.blocks, hblocks] at hinside
      exact ⟨v, hv, hinside⟩
  · intro trialBlocks' identities' hlength' hperm
    obtain ⟨hblocks', hidentities'⟩ := map_trialsOf hlength'
    obtain ⟨evidence', hevaluate', hsummary'⟩ := @evaluate_trials Return V env
      (trialsOf trialBlocks' identities') _ c fun trial hmem =>
        hcanonicals trial (hperm.mem_iff.mp hmem)
    rw [hblocks', hidentities'] at hevaluate'
    exact ⟨evidence', hevaluate', hsummary'.trans ((summaryOf_congr c hperm).trans hsummary.symm)⟩

end Order

/-! ### Six trials -/

def sumEnv : Env ℤ ℤ where
  finite := fun _ => true
  sharpe := fun returns => some returns.sum
  contentHash := fun _ => ""
  identity := fun _ => 0

def sixBlocks : List (List (List ℤ)) :=
  [0, 1, 2, 3, 4, 5].map fun i => List.replicate 8 (List.replicate 5 i)

def sixIdentities : List String :=
  ['0', '1', '2', '3', '4', '5'].map fun c => String.ofList (List.replicate 64 c)

theorem sixIdentities_canonical : ∀ identity ∈ sixIdentities, CanonicalSha256Hex identity := by
  have hdigits : ∀ c ∈ ['0', '1', '2', '3', '4', '5'], c ∈ "0123456789abcdef".toList := by simp
  intro identity hmem
  obtain ⟨c, hc, rfl⟩ := List.mem_map.mp hmem
  refine ⟨by simp, fun d hd => ?_⟩
  rw [String.toList_ofList] at hd
  rw [List.eq_of_mem_replicate hd]
  exact hdigits c hc

theorem sixBlocks_reasons : unavailableReasons sumEnv sixBlocks sixIdentities = [] := by
  decide +kernel

theorem pbo_order_statistic_six :
    ∃ evidence, evaluateCanonicalCscvPboV1 sumEnv .exact sixBlocks sixIdentities = .ok evidence ∧
      evidence.pbo = some (Decimal.Context.exact.div
        (countSplits (LowerHalf sumEnv · (trialsOf sixBlocks sixIdentities)) splits)
        splits.length) := by
  have hmap : (trialsOf sixBlocks sixIdentities).map Trial.blocks = sixBlocks ∧
      (trialsOf sixBlocks sixIdentities).map Trial.identity = sixIdentities := map_trialsOf rfl
  obtain ⟨evidence, hevaluate, hsummary⟩ := @evaluate_trials ℤ ℤ sumEnv
    (trialsOf sixBlocks sixIdentities) _ .exact fun trial hmem =>
      sixIdentities_canonical _ (hmap.2 ▸ List.mem_map_of_mem hmem)
  rw [hmap.1, hmap.2] at hevaluate
  refine ⟨evidence, hevaluate, ((pbo_order_statistic hevaluate).1 ?_).1⟩
  have hreasons : reasonsOf sumEnv (trialsOf sixBlocks sixIdentities) = [] := by
    rw [reasonsOf, hmap.1, hmap.2, sixBlocks_reasons]
  have hdefined : ∀ selected ∈ splits,
      Defined sumEnv selected (trialsOf sixBlocks sixIdentities) := fun _ _ _ _ => ⟨rfl, rfl⟩
  rw [summaryOf, if_neg (not_not.mpr hreasons), if_pos hdefined] at hsummary
  exact congrArg Prod.fst hsummary

end Cscv

end OpenToOpen

end TradePlatform
