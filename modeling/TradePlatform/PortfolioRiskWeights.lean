/-
# `TradePlatform.PortfolioRiskWeights` — the capped risk weights are a water filling

`_capped_risk_weights` caps, batch after batch, the scores whose share of what remains exceeds
the maximum, and shares the rest.  No batch uses up what remains and none lowers the level, so
that a weight that is capped once is capped at the final level too: every weight is the score
at one level, cut off at the maximum.  One total has one such allocation, so the order of the
sleeves does not matter.
-/
import TradePlatform.PortfolioLimits
import TradePlatform.Lib.WaterFilling

namespace TradePlatform.PortfolioConstruction

open WaterFilling

variable {K : Type} [Field K] [LinearOrder K]

/-! ## Setting the weights of some keys -/

section SetAll

variable {result : String → K} {items : List (String × K)} {value : String × K → K}
  {x : String × K} {key : String}

omit [Field K] [LinearOrder K] in
theorem setAll_of_mem (hnodup : (items.map Prod.fst).Nodup) (hx : x ∈ items) :
    setAll result items value x.1 = value x := by
  have hfind : items.find? (fun y => decide (y.1 = x.1)) = some x := by
    induction items with
    | nil => cases hx
    | cons y items ih =>
        obtain ⟨hy, hrest⟩ := List.nodup_cons.mp hnodup
        rcases List.mem_cons.mp hx with rfl | hx
        · rw [List.find?_cons_of_pos (by simp)]
        · have hne : y.1 ≠ x.1 := fun heq => hy (heq ▸ List.mem_map_of_mem hx)
          rw [List.find?_cons_of_neg (by simpa using hne)]
          exact ih hrest hx
  unfold setAll
  rw [hfind]

omit [Field K] [LinearOrder K] in
theorem setAll_of_notMem (h : key ∉ items.map Prod.fst) :
    setAll result items value key = result key := by
  have hfind : items.find? (fun y => decide (y.1 = key)) = none := by
    refine List.find?_eq_none.mpr fun y hy => ?_
    have hne : y.1 ≠ key := fun heq => h (heq ▸ List.mem_map_of_mem hy)
    simpa using hne
  unfold setAll
  rw [hfind]

end SetAll

/-! ## A batch -/

section Batch

variable {maximum remaining : K} {active : List (String × K)}

def scoresOf (active : List (String × K)) : List K := active.map Prod.snd

theorem exceeding_perm : (exceeding maximum remaining active ++
    within maximum remaining active).Perm active :=
  List.filter_append_perm _ active

theorem sum_scores : (scoresOf (exceeding maximum remaining active)).sum +
    (scoresOf (within maximum remaining active)).sum = (scoresOf active).sum := by
  have hperm := (@exceeding_perm K _ _ maximum remaining active).map Prod.snd
  rw [List.map_append] at hperm
  rw [← List.sum_append]
  exact hperm.sum_eq

theorem length_exceeding : (exceeding maximum remaining active).length +
    (within maximum remaining active).length = active.length := by
  rw [← List.length_append]
  exact exceeding_perm.length_eq

theorem lt_of_mem_exceeding {s : K} (h : s ∈ scoresOf (exceeding maximum remaining active)) :
    maximum < remaining / ((scoresOf (exceeding maximum remaining active)).sum +
      (scoresOf (within maximum remaining active)).sum) * s := by
  obtain ⟨x, hx, rfl⟩ := List.mem_map.mp h
  have hexceeds := of_decide_eq_true (List.mem_filter.mp hx).2
  rw [sum_scores, div_mul_eq_mul_div]
  exact hexceeds

theorem le_of_exceeding_nil (h : exceeding maximum remaining active = []) {x : String × K}
    (hx : x ∈ active) : remaining / (scoresOf active).sum * x.2 ≤ maximum := by
  refine not_lt.mp fun hlt => ?_
  have hmem : x ∈ exceeding maximum remaining active := by
    refine List.mem_filter.mpr ⟨hx, decide_eq_true ?_⟩
    rw [← div_mul_eq_mul_div]
    exact hlt
  rw [h] at hmem
  exact absurd hmem List.not_mem_nil

end Batch

/-! ## The loop -/

variable [IsStrictOrderedRing K] {maximum remaining level : K} {result : String → K}
  {active : List (String × K)} {key : String}

structure FilledTo (maximum remaining level : K) (active : List (String × K))
    (weight : String → K) : Prop where
  share_le : active ≠ [] → remaining / (scoresOf active).sum ≤ level
  weight_eq : ∀ x ∈ active, weight x.1 = fill maximum level x.2
  sum_eq : ((scoresOf active).map (fill maximum level)).sum =
    min remaining (active.length * maximum)

theorem sum_scores_pos (hpos : ∀ x ∈ active, 0 < x.2) (hne : active ≠ []) :
    0 < (scoresOf active).sum := by
  refine List.sum_pos _ (fun s hs => ?_) (by simpa [scoresOf] using hne)
  obtain ⟨x, hx, rfl⟩ := List.mem_map.mp hs
  exact hpos x hx

theorem filledTo_share (hnodup : (active.map Prod.fst).Nodup) (hpos : ∀ x ∈ active, 0 < x.2)
    (hne : active ≠ []) (hnone : exceeding maximum remaining active = []) :
    FilledTo maximum remaining (remaining / (scoresOf active).sum) active
      (setAll result active fun x => remaining * x.2 / (active.map Prod.snd).sum) where
  share_le _ := le_rfl
  weight_eq x hx := by
    rw [setAll_of_mem hnodup hx, fill_eq_share (le_of_exceeding_nil hnone hx),
      div_mul_eq_mul_div]
    rfl
  sum_eq := by
    have htotal := sum_scores_pos hpos hne
    have hfill : (scoresOf active).map (fill maximum (remaining / (scoresOf active).sum)) =
        (scoresOf active).map fun s => remaining / (scoresOf active).sum * s := by
      refine List.map_congr_left fun s hs => ?_
      obtain ⟨x, hx, rfl⟩ := List.mem_map.mp hs
      exact fill_eq_share (le_of_exceeding_nil hnone hx)
    have hsum : ((scoresOf active).map fun s => remaining / (scoresOf active).sum * s).sum =
        remaining := by
      rw [List.sum_map_mul_left, List.map_id', div_mul_cancel₀ _ htotal.ne']
    have hle : remaining ≤ active.length * maximum := by
      calc remaining = ((scoresOf active).map fun s =>
            remaining / (scoresOf active).sum * s).sum := hsum.symm
        _ ≤ ((scoresOf active).map fun _ => maximum).sum := by
            refine List.sum_le_sum fun s hs => ?_
            obtain ⟨x, hx, rfl⟩ := List.mem_map.mp hs
            exact le_of_exceeding_nil hnone hx
        _ = active.length * maximum := by
            rw [List.map_const', List.sum_replicate, nsmul_eq_mul, scoresOf, List.length_map]
    rw [hfill, hsum, min_eq_left hle]

theorem sum_fill_exceeding
    (hlevel : remaining / (scoresOf active).sum ≤ level) (hpos : ∀ x ∈ active, 0 < x.2) :
    (∀ x ∈ exceeding maximum remaining active, fill maximum level x.2 = maximum) ∧
      ((scoresOf (exceeding maximum remaining active)).map (fill maximum level)).sum =
        (exceeding maximum remaining active).length * maximum := by
  have hall : ∀ x ∈ exceeding maximum remaining active, fill maximum level x.2 = maximum := by
    intro x hx
    have hlt := lt_of_mem_exceeding (List.mem_map_of_mem hx)
    rw [sum_scores] at hlt
    have hscore : 0 ≤ x.2 := (hpos x (List.mem_filter.mp hx).1).le
    exact fill_eq_cap (hlt.le.trans (mul_le_mul_of_nonneg_right hlevel hscore))
  have hmap : (scoresOf (exceeding maximum remaining active)).map (fill maximum level) =
      (scoresOf (exceeding maximum remaining active)).map fun _ => maximum := by
    refine List.map_congr_left fun s hs => ?_
    obtain ⟨x, hx, rfl⟩ := List.mem_map.mp hs
    exact hall x hx
  refine ⟨hall, ?_⟩
  rw [hmap, List.map_const', List.sum_replicate, nsmul_eq_mul, scoresOf, List.length_map]

theorem FilledTo.batch {weight : String → K} (hpos : ∀ x ∈ active, 0 < x.2)
    (hlevel : remaining / (scoresOf active).sum ≤ level)
    (hcapped : ∀ x ∈ exceeding maximum remaining active, weight x.1 = maximum)
    (hrest : ∀ x ∈ within maximum remaining active, weight x.1 = fill maximum level x.2)
    (hsum : ((scoresOf (within maximum remaining active)).map (fill maximum level)).sum =
      min (remaining - (exceeding maximum remaining active).length * maximum)
        ((within maximum remaining active).length * maximum)) :
    FilledTo maximum remaining level active weight where
  share_le _ := hlevel
  weight_eq x hx := by
    rcases List.mem_append.mp ((@exceeding_perm K _ _ maximum remaining active).mem_iff.mpr hx)
      with hx | hx
    · rw [hcapped x hx, (sum_fill_exceeding hlevel hpos).1 x hx]
    · exact hrest x hx
  sum_eq := by
    have hperm := ((@exceeding_perm K _ _ maximum remaining active).map Prod.snd).map
      (fill maximum level)
    rw [List.map_append, List.map_append] at hperm
    have hlength := @length_exceeding K _ _ maximum remaining active
    calc ((scoresOf active).map (fill maximum level)).sum
        = ((scoresOf (exceeding maximum remaining active)).map (fill maximum level)).sum +
          ((scoresOf (within maximum remaining active)).map (fill maximum level)).sum := by
          rw [← List.sum_append]
          exact hperm.sum_eq.symm
      _ = (exceeding maximum remaining active).length * maximum +
          min (remaining - (exceeding maximum remaining active).length * maximum)
            ((within maximum remaining active).length * maximum) := by
          rw [(sum_fill_exceeding hlevel hpos).2, hsum]
      _ = min remaining (active.length * maximum) := by
          rw [← hlength, ← min_add_add_left, Nat.cast_add, add_mul, add_sub_cancel]

theorem filledTo_capLoop (hremaining : 0 < remaining) (hnodup : (active.map Prod.fst).Nodup)
    (hpos : ∀ x ∈ active, 0 < x.2) :
    (∃ level, FilledTo maximum remaining level active (capLoop maximum result remaining active)) ∧
      ∀ key ∉ active.map Prod.fst, capLoop maximum result remaining active key = result key := by
  induction result, remaining, active using capLoop.induct maximum with
  | case1 result remaining active hdone =>
      have hnil : active = [] := hdone.resolve_right (not_le.mpr hremaining)
      subst hnil
      rw [capLoop, if_pos hdone]
      refine ⟨⟨0, fun h => absurd rfl h, fun x hx => absurd hx List.not_mem_nil, ?_⟩,
        fun _ _ => rfl⟩
      simp [scoresOf, hremaining.le]
  | case2 result remaining active hgo hnone =>
      rw [capLoop, if_neg hgo, if_pos hnone]
      have hne : active ≠ [] := (not_or.mp hgo).1
      exact ⟨⟨_, filledTo_share hnodup hpos hne hnone⟩, fun key hkey => setAll_of_notMem hkey⟩
  | case3 result remaining active hgo hsome ih =>
      rw [capLoop, if_neg hgo, if_neg hsome]
      have hin : ∀ x ∈ within maximum remaining active, x ∈ active :=
        fun x hx => (List.mem_filter.mp hx).1
      have hposWithin : ∀ x ∈ within maximum remaining active, 0 < x.2 :=
        fun x hx => hpos x (hin x hx)
      have hposExceeding : ∀ x ∈ exceeding maximum remaining active, 0 < x.2 :=
        fun x hx => hpos x (List.mem_filter.mp hx).1
      have hkeys := ((@exceeding_perm K _ _ maximum remaining active).map Prod.fst).nodup_iff.mpr
        hnodup
      rw [List.map_append] at hkeys
      obtain ⟨hkeysExceeding, hkeysWithin, hapart⟩ := List.nodup_append.mp hkeys
      have hsumExceeding := sum_scores_pos hposExceeding hsome
      have hsumWithin : 0 ≤ (scoresOf (within maximum remaining active)).sum := by
        refine List.sum_nonneg fun s hs => ?_
        obtain ⟨x, hx, rfl⟩ := List.mem_map.mp hs
        exact (hposWithin x hx).le
      have hne : scoresOf (exceeding maximum remaining active) ≠ [] := by
        simpa [scoresOf] using hsome
      have hlengths : (scoresOf (exceeding maximum remaining active)).length =
          (exceeding maximum remaining active).length := List.length_map _
      have hleft : 0 < remaining - (exceeding maximum remaining active).length * maximum := by
        have hlt := batch_lt hremaining hsumWithin hsumExceeding hne fun _ => lt_of_mem_exceeding
        rw [hlengths] at hlt
        linarith
      obtain ⟨⟨level, hlevel⟩, hothers⟩ := ih hleft hkeysWithin hposWithin
      -- the batch keeps the maximum it was set to
      have hcapped : ∀ x ∈ exceeding maximum remaining active,
          capLoop maximum (setAll result (exceeding maximum remaining active) fun _ => maximum)
            (remaining - (exceeding maximum remaining active).length * maximum)
            (within maximum remaining active) x.1 = maximum := by
        intro x hx
        have hkey : x.1 ∉ (within maximum remaining active).map Prod.fst := fun hmem =>
          hapart x.1 (List.mem_map_of_mem hx) x.1 hmem rfl
        rw [hothers x.1 hkey, setAll_of_mem hkeysExceeding hx]
      constructor
      · rcases eq_or_ne (within maximum remaining active) [] with hnil | hwithin
        · refine ⟨remaining / (scoresOf active).sum, .batch hpos le_rfl hcapped ?_ ?_⟩
          · intro x hx
            rw [hnil] at hx
            cases hx
          · rw [hnil]
            simp [scoresOf, hleft.le]
        · have hshare := level_le_batch (sum_scores_pos hposWithin hwithin) hsumExceeding hne
            fun _ => lt_of_mem_exceeding
          rw [sum_scores, hlengths] at hshare
          exact ⟨level, .batch hpos (hshare.trans (hlevel.share_le hwithin)) hcapped
            hlevel.weight_eq hlevel.sum_eq⟩
      · intro key hkey
        have hperm := (@exceeding_perm K _ _ maximum remaining active).map Prod.fst
        rw [List.map_append] at hperm
        have hboth : key ∉ (exceeding maximum remaining active).map Prod.fst ∧
            key ∉ (within maximum remaining active).map Prod.fst := by
          rw [← hperm.mem_iff, List.mem_append, not_or] at hkey
          exact hkey
        rw [hothers key hboth.2, setAll_of_notMem hboth.1]

/-! ## The weights of the sleeves -/

section Sleeves

variable {sleeves sleeves' : List (StrategySleeveInputV2 K)} {item : StrategySleeveInputV2 K}

def score (item : StrategySleeveInputV2 K) : K :=
  item.riskBudget / item.standaloneVolatility * |item.normalizedSignal|

def signalled (sleeves : List (StrategySleeveInputV2 K)) : List (StrategySleeveInputV2 K) :=
  sleeves.filter fun item => decide (item.normalizedSignal ≠ 0)

def keyedScores (sleeves : List (StrategySleeveInputV2 K)) : List (String × K) :=
  (signalled sleeves).map fun item => (item.strategyKey, score item)

theorem keyedScores_pos : ∀ x ∈ keyedScores sleeves, 0 < x.2 := by
  intro x hx
  obtain ⟨item, hitem, rfl⟩ := List.mem_map.mp hx
  have hsignal : item.normalizedSignal ≠ 0 := of_decide_eq_true (List.mem_filter.mp hitem).2
  exact mul_pos (div_pos item.budget_pos item.volatility_pos) (abs_pos.mpr hsignal)

omit [IsStrictOrderedRing K] in
theorem keys_keyedScores : (keyedScores sleeves).map Prod.fst =
    (signalled sleeves).map StrategySleeveInputV2.strategyKey := by
  rw [keyedScores, List.map_map]
  rfl

omit [IsStrictOrderedRing K] in
theorem keyedScores_nodup (hnodup : (sleeves.map StrategySleeveInputV2.strategyKey).Nodup) :
    ((keyedScores sleeves).map Prod.fst).Nodup := by
  rw [keys_keyedScores]
  exact hnodup.sublist (List.filter_sublist.map _)

theorem filledTo_cappedRiskWeights
    (hnodup : (sleeves.map StrategySleeveInputV2.strategyKey).Nodup) (maximum : K) :
    (∃ level, FilledTo maximum 1 level (keyedScores sleeves) (cappedRiskWeights sleeves maximum)) ∧
      ∀ key ∉ (keyedScores sleeves).map Prod.fst, cappedRiskWeights sleeves maximum key = 0 :=
  filledTo_capLoop one_pos (keyedScores_nodup hnodup) keyedScores_pos

theorem cappedRiskWeights_of_no_signal
    (hnodup : (sleeves.map StrategySleeveInputV2.strategyKey).Nodup) (hitem : item ∈ sleeves)
    (hsignal : item.normalizedSignal = 0) :
    cappedRiskWeights sleeves maximum item.strategyKey = 0 := by
  refine (filledTo_cappedRiskWeights hnodup maximum).2 _ fun hmem => ?_
  rw [keys_keyedScores] at hmem
  obtain ⟨other, hother, hkey⟩ := List.mem_map.mp hmem
  obtain ⟨hin, hsome⟩ := List.mem_filter.mp hother
  have hsame : other = item := List.inj_on_of_nodup_map hnodup hin hitem hkey
  rw [hsame] at hsome
  exact of_decide_eq_true hsome hsignal

omit [IsStrictOrderedRing K] in
theorem sum_signalled {weight : String → K} {l : List (StrategySleeveInputV2 K)}
    (h : ∀ item ∈ l, item.normalizedSignal = 0 → weight item.strategyKey = 0) :
    (l.map fun item => weight item.strategyKey).sum =
      ((signalled l).map fun item => weight item.strategyKey).sum := by
  induction l with
  | nil => rfl
  | cons item l ih =>
      have hrest := ih fun other hother => h other (List.mem_cons_of_mem _ hother)
      rw [List.map_cons, List.sum_cons, hrest]
      unfold signalled
      rw [List.filter_cons]
      split
      · rw [List.map_cons, List.sum_cons]
      · rename_i hno
        have hzero : item.normalizedSignal = 0 := by simpa using hno
        rw [h item List.mem_cons_self hzero, zero_add]

theorem cappedRiskWeights_perm (hperm : sleeves'.Perm sleeves)
    (hnodup : (sleeves.map StrategySleeveInputV2.strategyKey).Nodup) (maximum : K) :
    cappedRiskWeights sleeves' maximum = cappedRiskWeights sleeves maximum := by
  have hnodup' : (sleeves'.map StrategySleeveInputV2.strategyKey).Nodup :=
    (hperm.map _).nodup_iff.mpr hnodup
  have hscores : (keyedScores sleeves').Perm (keyedScores sleeves) := (hperm.filter _).map _
  obtain ⟨⟨level, hfilled⟩, hothers⟩ := filledTo_cappedRiskWeights hnodup maximum
  obtain ⟨⟨level', hfilled'⟩, hothers'⟩ := filledTo_cappedRiskWeights hnodup' maximum
  have hsum : ((scoresOf (keyedScores sleeves)).map (fill maximum level')).sum =
      ((scoresOf (keyedScores sleeves)).map (fill maximum level)).sum := by
    have hsame := ((hscores.map Prod.snd).map (fill maximum level')).sum_eq
    have htotal := hfilled'.sum_eq
    rw [hscores.length_eq, ← hfilled.sum_eq] at htotal
    exact hsame.symm.trans htotal
  have hpos : ∀ s ∈ scoresOf (keyedScores sleeves), 0 ≤ s := by
    intro s hs
    obtain ⟨x, hx, rfl⟩ := List.mem_map.mp hs
    exact (keyedScores_pos x hx).le
  funext key
  by_cases hkey : key ∈ (keyedScores sleeves).map Prod.fst
  · obtain ⟨x, hx, rfl⟩ := List.mem_map.mp hkey
    rw [hfilled.weight_eq x hx, hfilled'.weight_eq x (hscores.mem_iff.mpr hx)]
    exact fill_eq_of_sum_eq hpos hsum x.2 (List.mem_map_of_mem hx)
  · have hkey' : key ∉ (keyedScores sleeves').map Prod.fst := fun hmem =>
      hkey ((hscores.map Prod.fst).mem_iff.mp hmem)
    rw [hothers key hkey, hothers' key hkey']

/-- The weights are the water filling of the scores: none without a signal, and the others the
score at one level, up to the maximum. -/
theorem cappedRiskWeights_waterFilling
    (hnodup : (sleeves.map StrategySleeveInputV2.strategyKey).Nodup) (maximum : K) :
    (∃ level, ∀ item ∈ sleeves, cappedRiskWeights sleeves maximum item.strategyKey =
      if item.normalizedSignal = 0 then 0 else min maximum (level * score item)) ∧
    (sleeves.map fun item => cappedRiskWeights sleeves maximum item.strategyKey).sum =
      min 1 (maximum * (signalled sleeves).length) ∧
    ∀ sleeves' : List (StrategySleeveInputV2 K), sleeves'.Perm sleeves →
      cappedRiskWeights sleeves' maximum = cappedRiskWeights sleeves maximum := by
  obtain ⟨⟨level, hfilled⟩, -⟩ := filledTo_cappedRiskWeights hnodup maximum
  have hzero : ∀ item ∈ sleeves, item.normalizedSignal = 0 →
      cappedRiskWeights sleeves maximum item.strategyKey = 0 :=
    fun item hitem hsignal => cappedRiskWeights_of_no_signal hnodup hitem hsignal
  have hfill : ∀ item ∈ signalled sleeves, cappedRiskWeights sleeves maximum item.strategyKey =
      fill maximum level (score item) :=
    fun item hitem => hfilled.weight_eq (item.strategyKey, score item) (List.mem_map_of_mem hitem)
  refine ⟨⟨level, fun item hitem => ?_⟩, ?_, fun sleeves' hperm =>
    cappedRiskWeights_perm hperm hnodup maximum⟩
  · split
    · rename_i hsignal
      exact hzero item hitem hsignal
    · rename_i hsignal
      exact hfill item (List.mem_filter.mpr ⟨hitem, decide_eq_true hsignal⟩)
  · rw [sum_signalled hzero, List.map_congr_left hfill]
    have hsum := hfilled.sum_eq
    rw [scoresOf, keyedScores, List.map_map, List.map_map, List.length_map, mul_comm] at hsum
    exact hsum

end Sleeves

theorem carry_volatility_pos : (0 : ℝ) < 1 + 1 := by norm_num

noncomputable def carrySleeve : StrategySleeveInputV2 ℝ :=
  { sampleSleeve with
    strategyKey := "carry"
    standaloneVolatility := 1 + 1
    key_text := by decide
    volatility_pos := carry_volatility_pos }

theorem cappedRiskWeights_waterFilling_sample :
    (∃ level, ∀ item ∈ [carrySleeve, sampleSleeve],
      cappedRiskWeights [carrySleeve, sampleSleeve] (1 / 2) item.strategyKey =
        if item.normalizedSignal = 0 then 0 else min (1 / 2) (level * score item)) ∧
    ([carrySleeve, sampleSleeve].map fun item =>
      cappedRiskWeights [carrySleeve, sampleSleeve] (1 / 2) item.strategyKey).sum =
        min 1 ((1 / 2 : ℝ) * (signalled [carrySleeve, sampleSleeve]).length) ∧
    ∀ sleeves' : List (StrategySleeveInputV2 ℝ), sleeves'.Perm [carrySleeve, sampleSleeve] →
      cappedRiskWeights sleeves' (1 / 2) = cappedRiskWeights [carrySleeve, sampleSleeve] (1 / 2) :=
  @cappedRiskWeights_waterFilling ℝ _ _ _ [carrySleeve, sampleSleeve]
    (by simp [carrySleeve, sampleSleeve]) (1 / 2)

end TradePlatform.PortfolioConstruction
