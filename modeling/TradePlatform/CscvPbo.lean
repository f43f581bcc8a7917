/-
# `TradePlatform.CscvPbo` — the probability of backtest overfitting over all splits

`evaluate_canonical_cscv_pbo_v1` of `open_to_open_validation_v1.py`: every trial's returns come in
eight blocks, each choice of four of them is a split, and a split counts when the trial that was
best in sample ranks in the lower half out of sample.  The daily Sharpe is a parameter with values
in any linear order.
-/
import TradePlatform.Lib.Midrank
import TradePlatform.Lib.SortBy
import TradePlatform.OpenToOpenReturns

namespace TradePlatform

namespace OpenToOpen

namespace Cscv

/-! ## Order statistics -/

section Statistics

variable {V : Type} [LinearOrder V]

/-- The loop of `_midranks_ascending` from `position`, with what is left of `order`: a run of equal
values, up to its `end`, takes one average rank.  `fuel` bounds the runs. -/
def assignRanks (values : List V) : ℕ → ℕ → List (Fin values.length) → List ℚ → List ℚ
  | 0, _, _, ranks | _ + 1, _, [], ranks => ranks
  | fuel + 1, position, i :: order, ranks =>
      let ties := order.takeWhile fun j => decide (values.get j = values.get i)
      let last := position + ties.length
      let averageRank : ℚ := (position + 1 + last + 1) / 2
      assignRanks values fuel (last + 1) (order.drop ties.length)
        ((i :: ties).foldl (fun ranks j => ranks.set j.val averageRank) ranks)

def midranksAscending (values : List V) : List ℚ :=
  let order := sortBy values.get (List.finRange values.length)
  assignRanks values order.length 0 order (List.replicate values.length 0)

def maxOf (values : List V) : Except Exn V :=
  match maxBy id values with
  | none => .error (.valueError "max() arg is an empty sequence")
  | some best => .ok best

def selectIsWinner (isValues : List V) (identities : List String) : Except Exn ℕ := do
  let best ← maxOf isValues
  let winners := (List.range isValues.length).filter fun i => decide (isValues[i]? = some best)
  match minBy (fun i => identities.getD i "") winners with
  | none => .error (.valueError "min() arg is an empty sequence")
  | some winner => .ok winner

end Statistics

/-- `log(omega / (1 - omega)) <= 0`, in exact arithmetic: a quotient by zero and the logarithm of a
number that is not positive raise, and a logarithm is at most zero up to one. -/
def logitNonpositive (omega : ℚ) : Except Exn Bool :=
  if 1 - omega = 0 then .error .arithmeticError
  else if omega / (1 - omega) ≤ 0 then .error (.valueError "math domain error")
  else .ok (decide (omega / (1 - omega) ≤ 1))

/-! ## The evaluation -/

def cscvBlocks : ℕ := 8

def cscvSplitCount : ℕ := Nat.choose 8 4

def cscvMinimumObservationsPerBlock : ℕ := 5

def cscvMinimumTrials : ℕ := 6

def combinations {α : Type} : ℕ → List α → List (List α)
  | 0, _ => [[]]
  | _ + 1, [] => []
  | size + 1, a :: values =>
      (combinations size values).map (a :: ·) ++ combinations (size + 1) values

def splits : List (List ℕ) := combinations 4 (List.range cscvBlocks)

def CanonicalSha256Hex (value : String) : Prop :=
  value.toList.length = 64 ∧ ∀ c ∈ value.toList, c ∈ "0123456789abcdef".toList

instance : DecidablePred CanonicalSha256Hex := fun _ => inferInstanceAs (Decidable (_ ∧ _))

def concatenateBlocks {Return : Type} (blocks : List (List Return)) (selected : List ℕ) :
    List Return :=
  selected.flatMap fun i => blocks.getD i []

structure CscvPayload (Return : Type) where
  status : String
  unavailableReasons : List String
  trialCount : ℕ
  numberOfValidSplits : ℕ
  isTieCount : ℕ
  invalidSplitReasons : List String
  pbo : Option Decimal
  trialIdentities : List String
  trialBlocks : List (List (List Return))

structure CanonicalCscvPboEvidenceV1 where
  status : String
  unavailableReasons : List String
  trialCount : ℕ
  numberOfValidSplits : ℕ
  isTieCount : ℕ
  invalidSplitReasons : List String
  pbo : Option Decimal
  trialIdentities : List String
  contentHash : String
  evidenceId : UUID

/-- What the evaluation takes from elsewhere: the finiteness of a return, the daily Sharpe, the
hash of a payload and the id of a hash. -/
structure Env (Return V : Type) where
  finite : Return → Bool
  sharpe : List Return → Option V
  contentHash : CscvPayload Return → String
  identity : String → UUID

def statusAvailable : String := "AVAILABLE"

def statusUnavailable : String := "UNAVAILABLE"

section Evaluate

variable {Return V : Type} (env : Env Return V)

def cscvEvidence (payload : CscvPayload Return) : CanonicalCscvPboEvidenceV1 where
  status := payload.status
  unavailableReasons := payload.unavailableReasons
  trialCount := payload.trialCount
  numberOfValidSplits := payload.numberOfValidSplits
  isTieCount := payload.isTieCount
  invalidSplitReasons := payload.invalidSplitReasons
  pbo := payload.pbo
  trialIdentities := payload.trialIdentities
  contentHash := env.contentHash payload
  evidenceId := env.identity ("canonical-cscv-pbo-v1:" ++ env.contentHash payload)

def reasonIf (p : Prop) [Decidable p] (reason : String) : List String := if p then [reason] else []

def blockReasons (trialBlocks : List (List (List Return))) : List String :=
  if ¬ ∀ blocks ∈ trialBlocks, blocks.length = cscvBlocks then ["trial_block_count_not_eight"]
  else
    reasonIf (∃ i ∈ List.range cscvBlocks,
        1 < (trialBlocks.map fun blocks => (blocks.getD i []).length).dedup.length)
      "block_observation_count_misaligned_across_trials" ++
    reasonIf (∃ blocks ∈ trialBlocks, ∃ block ∈ blocks,
        block.length < cscvMinimumObservationsPerBlock)
      "block_below_minimum_observations" ++
    reasonIf (∃ blocks ∈ trialBlocks, ∃ block ∈ blocks, ∃ value ∈ block, env.finite value = false)
      "non_finite_daily_return"

def unavailableReasons (trialBlocks : List (List (List Return))) (identities : List String) :
    List String :=
  reasonIf (identities.dedup.length ≠ trialBlocks.length) "duplicate_trial_identity" ++
    reasonIf (identities.dedup.length < cscvMinimumTrials) "insufficient_distinct_trials" ++
    blockReasons env trialBlocks

structure Counts where
  validSplits : ℕ
  lambdaLeZero : ℕ
  isTieCount : ℕ
  invalidReasons : List String

/-- One more valid split: whether its best value is shared, and whether its logit is at most zero. -/
def Counts.add (counts : Counts) (judged : Bool × Bool) : Counts where
  validSplits := counts.validSplits + 1
  lambdaLeZero := counts.lambdaLeZero + judged.2.toNat
  isTieCount := counts.isTieCount + judged.1.toNat
  invalidReasons := counts.invalidReasons

def Counts.skip (counts : Counts) : Counts :=
  { counts with invalidReasons := counts.invalidReasons ++ ["undefined_sharpe"] }

def outOfSample (selected : List ℕ) : List ℕ :=
  (List.range cscvBlocks).filter fun i => decide (i ∉ selected)

variable [LinearOrder V]

/-- A split whose values are all defined: whether the best value is shared, and whether the logit of
its winner is at most zero. -/
def rankSplit (trialCount : ℕ) (identities : List String) (isValues oosValues : List V) :
    Except Exn (Bool × Bool) := do
  let bestIs ← maxOf isValues
  let winner ← selectIsWinner isValues identities
  match (midranksAscending oosValues)[winner]? with
  | none => .error .indexError
  | some rank =>
      let low ← logitNonpositive (rank / (trialCount + 1))
      .ok (decide (1 < isValues.countP fun value => decide (value = bestIs)), low)

def splitStep (trialBlocks : List (List (List Return))) (identities : List String)
    (counts : Counts) (selected : List ℕ) : Except Exn Counts :=
  let isSharpes := trialBlocks.map fun blocks => env.sharpe (concatenateBlocks blocks selected)
  let oosSharpes := trialBlocks.map fun blocks =>
    env.sharpe (concatenateBlocks blocks (outOfSample selected))
  if none ∈ isSharpes ∨ none ∈ oosSharpes then .ok counts.skip
  else do
    let judged ← rankSplit trialBlocks.length identities isSharpes.reduceOption
      oosSharpes.reduceOption
    .ok (counts.add judged)

def concludeSplits (c : Decimal.Context) (trialBlocks : List (List (List Return)))
    (trialIdentities : List String) (counts : Counts) : CanonicalCscvPboEvidenceV1 :=
  if counts.validSplits ≠ cscvSplitCount then
    cscvEvidence env ⟨statusUnavailable, ["invalid_splits_present"], trialBlocks.length,
      counts.validSplits, counts.isTieCount, counts.invalidReasons, none, trialIdentities,
      trialBlocks⟩
  else
    cscvEvidence env ⟨statusAvailable, [], trialBlocks.length, counts.validSplits,
      counts.isTieCount, [], some (c.div counts.lambdaLeZero cscvSplitCount), trialIdentities,
      trialBlocks⟩

def evaluateCanonicalCscvPboV1 (c : Decimal.Context) (trialBlocks : List (List (List Return)))
    (trialIdentities : List String) : Except Exn CanonicalCscvPboEvidenceV1 :=
  if trialBlocks.length ≠ trialIdentities.length then
    refuse "cscv_trial_identity_count_mismatch"
  else if ¬ ∀ identity ∈ trialIdentities, CanonicalSha256Hex identity then
    refuse "cscv_trial_identity_not_canonical_hash"
  else
    let reasons := unavailableReasons env trialBlocks trialIdentities
    if reasons ≠ [] then
      .ok (cscvEvidence env ⟨statusUnavailable, reasons, trialBlocks.length, 0, 0, [], none,
        trialIdentities, trialBlocks⟩)
    else do
      let counts ← splits.foldlM (splitStep env trialBlocks trialIdentities) ⟨0, 0, 0, []⟩
      .ok (concludeSplits env c trialBlocks trialIdentities counts)

end Evaluate

/-! ## The ranks -/

section Ranks

open Midrank

variable {V : Type} [LinearOrder V] {values : List V}

omit [LinearOrder V] in
theorem length_foldl_set (ties : List (Fin values.length)) (a : ℚ) (ranks : List ℚ) :
    (ties.foldl (fun ranks j => ranks.set j.val a) ranks).length = ranks.length := by
  induction ties generalizing ranks with
  | nil => rfl
  | cons j ties ih => rw [List.foldl_cons, ih, List.length_set]

omit [LinearOrder V] in
theorem getElem?_foldl_set (ties : List (Fin values.length)) (a : ℚ) {ranks : List ℚ}
    (hlength : ranks.length = values.length) (i : Fin values.length) :
    (ties.foldl (fun ranks j => ranks.set j.val a) ranks)[(i : ℕ)]? =
      if i ∈ ties then some a else ranks[(i : ℕ)]? := by
  induction ties generalizing ranks with
  | nil => simp
  | cons j ties ih =>
      rw [List.foldl_cons, ih (by rw [List.length_set, hlength])]
      by_cases hij : i = j
      · subst hij
        simp [hlength]
      · have hne : (j : ℕ) ≠ i := fun h => hij (Fin.ext h.symm)
        simp [hij, List.getElem?_set_ne hne]

theorem lt_of_mem_dropWhile {i : Fin values.length} {order : List (Fin values.length)}
    (hsorted : (i :: order).Pairwise fun j k => values.get j ≤ values.get k) :
    ∀ j ∈ order.dropWhile fun j => decide (values.get j = values.get i),
      values.get i < values.get j := by
  rw [List.pairwise_cons] at hsorted
  obtain ⟨hfirst, hsorted⟩ := hsorted
  induction order with
  | nil => simp
  | cons k order ih =>
      rw [List.pairwise_cons] at hsorted
      intro j hj
      by_cases hk : values.get k = values.get i
      · rw [List.dropWhile_cons_of_pos (by simpa using hk)] at hj
        exact ih (fun l hl => hfirst l (List.mem_cons_of_mem _ hl)) hsorted.2 j hj
      · rw [List.dropWhile_cons_of_neg (by simpa using hk)] at hj
        have hlt : values.get i < values.get k :=
          lt_of_le_of_ne (hfirst k List.mem_cons_self) (Ne.symm hk)
        rcases List.mem_cons.mp hj with rfl | hj
        · exact hlt
        · exact hlt.trans_le (hsorted.1 j hj)

/-- What the loop has assigned when it ends: each index that was left has the midrank of its value
among those, behind the places that were taken. -/
theorem assignRanks_spec {fuel position : ℕ} {order : List (Fin values.length)} {ranks : List ℚ}
    (hfuel : order.length ≤ fuel)
    (hsorted : order.Pairwise fun j k => values.get j ≤ values.get k) (hnodup : order.Nodup)
    (hlength : ranks.length = values.length) :
    (assignRanks values fuel position order ranks).length = values.length ∧
      ∀ i : Fin values.length, (assignRanks values fuel position order ranks)[(i : ℕ)]? =
        if i ∈ order then some (position + midrank (order.map values.get) (values.get i))
        else ranks[(i : ℕ)]? := by
  induction fuel generalizing position order ranks with
  | zero =>
      obtain rfl : order = [] := List.length_eq_zero_iff.mp (Nat.le_zero.mp hfuel)
      exact ⟨hlength, fun i => by simp [assignRanks]⟩
  | succ fuel ih =>
      cases order with
      | nil => exact ⟨hlength, fun i => by simp [assignRanks]⟩
      | cons i order =>
          let ties := order.takeWhile fun j => decide (values.get j = values.get i)
          let rest := order.dropWhile fun j => decide (values.get j = values.get i)
          have hsplit : ties ++ rest = order := List.takeWhile_append_dropWhile
          have hdrop : order.drop ties.length = rest := by
            conv_lhs => rw [← hsplit]
            rw [List.drop_left]
          have hties : ∀ j ∈ ties, values.get j = values.get i := fun j hj => by
            simpa using List.mem_takeWhile_imp hj
          have hrest := lt_of_mem_dropWhile hsorted
          have hsub : rest.Sublist (i :: order) :=
            (List.dropWhile_sublist _).trans (List.sublist_cons_self _ _)
          have hrun : ∀ w ∈ (i :: ties).map values.get, w = values.get i := by
            intro w hw
            obtain ⟨j, hj, rfl⟩ := List.mem_map.mp hw
            rcases List.mem_cons.mp hj with rfl | hj
            · rfl
            · exact hties j hj
          have hmap : (i :: order).map values.get =
              (i :: ties).map values.get ++ rest.map values.get := by
            rw [← List.map_append, List.cons_append, hsplit]
          have hlengths : rest.length ≤ fuel := by
            have := (List.dropWhile_sublist (l := order)
              fun j => decide (values.get j = values.get i)).length_le
            rw [List.length_cons] at hfuel
            exact this.trans (Nat.le_of_succ_le_succ hfuel)
          let average : ℚ := (position + 1 + (position + ties.length : ℕ) + 1) / 2
          let written := (i :: ties).foldl (fun ranks j => ranks.set j.val average) ranks
          have hwritten : written.length = values.length :=
            (length_foldl_set (i :: ties) average ranks).trans hlength
          have hstep : assignRanks values (fuel + 1) position (i :: order) ranks =
              assignRanks values fuel (position + ties.length + 1) (order.drop ties.length)
                written := rfl
          obtain ⟨hout, hget⟩ := @ih (position + ties.length + 1) rest written hlengths
            (hsorted.sublist hsub) (hnodup.sublist hsub) hwritten
          rw [hstep, hdrop]
          refine ⟨hout, fun j => ?_⟩
          have hmem : j ∈ i :: order ↔ j ∈ i :: ties ∨ j ∈ rest := by
            rw [← hsplit, ← List.cons_append, List.mem_append]
          rw [hget, hmap]
          by_cases hj : j ∈ rest
          · rw [if_pos hj, if_pos (hmem.mpr (.inr hj)), midrank_rest hrun (hrest j hj)]
            simp only [List.length_map, List.length_cons]
            push_cast
            congr 1
            ring
          · rw [if_neg hj, getElem?_foldl_set (i :: ties) average hlength]
            by_cases hfront : j ∈ i :: ties
            · have hvalue : values.get j = values.get i := hrun _ (List.mem_map_of_mem hfront)
              rw [if_pos hfront, if_pos (hmem.mpr (.inl hfront)), hvalue,
                midrank_run hrun fun w hw => ?_]
              · simp only [average, List.length_map, List.length_cons]
                push_cast
                congr 1
                ring
              · obtain ⟨k, hk, rfl⟩ := List.mem_map.mp hw
                exact hrest k hk
            · rw [if_neg hfront, if_neg fun h => (hmem.mp h).elim hfront hj]

theorem midranksAscending_eq (values : List V) :
    midranksAscending values = values.map (midrank values) := by
  let order := sortBy values.get (List.finRange values.length)
  have hperm : order.Perm (List.finRange values.length) := sortBy_perm _ _
  obtain ⟨hlength, hget⟩ := @assignRanks_spec V _ values order.length 0 order
    (List.replicate values.length 0) le_rfl (sortBy_pairwise values.get _)
    (hperm.nodup_iff.mpr (List.nodup_finRange _)) List.length_replicate
  have hvalues : (order.map values.get).Perm values := by
    refine (hperm.map _).trans (.of_eq ?_)
    exact List.map_get_finRange values
  refine List.ext_getElem? fun i => ?_
  by_cases hi : i < values.length
  · have hmem : (⟨i, hi⟩ : Fin values.length) ∈ order := hperm.mem_iff.mpr (List.mem_finRange _)
    have hrank := hget ⟨i, hi⟩
    rw [if_pos hmem, midrank_congr hvalues, Nat.cast_zero, zero_add] at hrank
    rw [midranksAscending]
    refine hrank.trans ?_
    rw [List.getElem?_map, List.getElem?_eq_getElem hi]
    rfl
  · rw [List.getElem?_eq_none (by rw [midranksAscending]; exact hlength.trans_le (not_lt.mp hi)),
      List.getElem?_eq_none (by rw [List.length_map]; exact not_lt.mp hi)]

end Ranks

/-! ## The winner and the logit -/

section Winner

variable {V : Type} [LinearOrder V] {values : List V}

theorem maxOf_ok (h : values ≠ []) :
    ∃ best ∈ values, maxOf values = .ok best ∧ ∀ v ∈ values, v ≤ best := by
  have hdual : maxBy id values = minBy OrderDual.toDual values := maxBy_eq_minBy id values
  cases hmin : minBy OrderDual.toDual values with
  | none => exact absurd (minBy_eq_none.mp hmin) h
  | some best =>
      obtain ⟨hmem, hle⟩ := minBy_eq_some hmin
      exact ⟨best, hmem, by rw [maxOf, hdual, hmin], hle⟩

theorem maxOf_le {best : V} (h : maxOf values = .ok best) : ∀ v ∈ values, v ≤ best := by
  have hne : values ≠ [] := by
    rintro rfl
    cases h
  obtain ⟨best', -, hmax, hle⟩ := maxOf_ok hne
  rw [hmax] at h
  cases h
  exact hle

theorem selectIsWinner_ok {best : V} {identities : List String} (hmem : best ∈ values)
    (hmax : maxOf values = .ok best) :
    ∃ winner, selectIsWinner values identities = .ok winner ∧ values[winner]? = some best ∧
      ∀ i, values[i]? = some best → identities.getD winner "" ≤ identities.getD i "" := by
  let winners := (List.range values.length).filter fun i => decide (values[i]? = some best)
  have hwinners : ∀ {i : ℕ}, i ∈ winners ↔ values[i]? = some best := by
    intro i
    rw [List.mem_filter, List.mem_range, decide_eq_true_eq]
    exact ⟨fun h => h.2, fun h => ⟨(List.getElem?_eq_some_iff.mp h).1, h⟩⟩
  cases hmin : minBy (fun i => identities.getD i "") winners with
  | none =>
      obtain ⟨i, hi⟩ := List.mem_iff_getElem?.mp hmem
      have hnone := minBy_eq_none.mp hmin ▸ hwinners.mpr hi
      cases hnone
  | some winner =>
      obtain ⟨hwinner, hle⟩ := minBy_eq_some hmin
      refine ⟨winner, ?_, hwinners.mp hwinner, fun i hi => hle i (hwinners.mpr hi)⟩
      simp only [selectIsWinner, hmax, Except.ok_bind]
      rw [show minBy _ _ = some winner from hmin]

end Winner

section Logit

variable {omega : ℚ}

theorem logitNonpositive_ok (hpos : 0 < omega) (hlt : omega < 1) :
    logitNonpositive omega = .ok (decide (omega ≤ 1 / 2)) := by
  have hrest : 0 < 1 - omega := by linarith
  have hquotient : 0 < omega / (1 - omega) := div_pos hpos hrest
  rw [logitNonpositive, if_neg hrest.ne', if_neg hquotient.not_ge]
  congr 2
  rw [div_le_one hrest, eq_iff_iff]
  constructor <;> intro h <;> linarith

end Logit

/-! ## A split as an order statistic -/

section Split

open Midrank

structure Trial (Return : Type) where
  blocks : List (List Return)
  identity : String

variable {Return V : Type} (env : Env Return V) (selected : List ℕ)

namespace Trial

variable (trial : Trial Return)

def inSample : Option V := env.sharpe (concatenateBlocks trial.blocks selected)

def afterSample : Option V := env.sharpe (concatenateBlocks trial.blocks (outOfSample selected))

end Trial

variable (trials : List (Trial Return))

def Defined : Prop :=
  ∀ trial ∈ trials, (trial.inSample env selected).isSome ∧ (trial.afterSample env selected).isSome

variable [LinearOrder V]

structure Winner (trial : Trial Return) : Prop where
  mem : trial ∈ trials
  best : ∃ v, trial.inSample env selected = some v ∧
    ∀ other ∈ trials, ∀ w, other.inSample env selected = some w →
      w ≤ v ∧ (w = v → trial.identity ≤ other.identity)

def afterValues : List V := trials.filterMap (Trial.afterSample env selected)

def LowerHalf : Prop :=
  ∃ trial v, Winner env selected trials trial ∧ trial.afterSample env selected = some v ∧
    midrank (afterValues env selected trials) v ≤ (trials.length + 1) / 2

def Tied : Prop :=
  ∃ best, (∀ trial ∈ trials, ∀ w, trial.inSample env selected = some w → w ≤ best) ∧
    1 < (trials.filterMap (Trial.inSample env selected)).countP fun w => decide (w = best)

variable {env selected trials}

omit [LinearOrder V] in
theorem getElem?_filterMap {f : Trial Return → Option V}
    (h : ∀ trial ∈ trials, (f trial).isSome) (i : ℕ) :
    (trials.filterMap f)[i]? = trials[i]?.bind f := by
  induction trials generalizing i with
  | nil => simp
  | cons trial trials ih =>
      rw [List.forall_mem_cons] at h
      obtain ⟨v, hv⟩ := Option.isSome_iff_exists.mp h.1
      rw [List.filterMap_cons_some hv]
      cases i with
      | zero => simp [hv]
      | succ i => simpa using ih h.2 i

omit [LinearOrder V] in
theorem length_filterMap {f : Trial Return → Option V}
    (h : ∀ trial ∈ trials, (f trial).isSome) : (trials.filterMap f).length = trials.length := by
  induction trials with
  | nil => rfl
  | cons trial trials ih =>
      rw [List.forall_mem_cons] at h
      obtain ⟨v, hv⟩ := Option.isSome_iff_exists.mp h.1
      rw [List.filterMap_cons_some hv, List.length_cons, List.length_cons, ih h.2]

theorem winner_unique (hdistinct : (trials.map Trial.identity).Nodup) {a b : Trial Return}
    (ha : Winner env selected trials a) (hb : Winner env selected trials b) : a = b := by
  obtain ⟨v, hv, hbestv⟩ := ha.best
  obtain ⟨w, hw, hbestw⟩ := hb.best
  have hle := hbestv b hb.mem w hw
  have hge := hbestw a ha.mem v hv
  have heq : w = v := le_antisymm hle.1 hge.1
  have hidentity := le_antisymm (hle.2 heq) (hge.2 heq.symm)
  exact List.inj_on_of_nodup_map hdistinct ha.mem hb.mem hidentity

theorem exists_winner (hdefined : Defined env selected trials) (hne : trials ≠ []) :
    ∃ best winner trial,
      maxOf (trials.filterMap (Trial.inSample env selected)) = .ok best ∧
        selectIsWinner (trials.filterMap (Trial.inSample env selected))
          (trials.map Trial.identity) = .ok winner ∧
        trials[winner]? = some trial ∧ Winner env selected trials trial ∧
        trial.inSample env selected = some best := by
  have hsome := fun trial h => (hdefined trial h).1
  have hvalues : trials.filterMap (Trial.inSample env selected) ≠ [] := by
    intro hnil
    have hlength := length_filterMap hsome
    rw [hnil] at hlength
    exact hne (List.length_eq_zero_iff.mp hlength.symm)
  obtain ⟨best, hmem, hmax, hbest⟩ := maxOf_ok hvalues
  obtain ⟨winner, hselect, hwinner, hsmallest⟩ :=
    @selectIsWinner_ok V _ _ best (trials.map Trial.identity) hmem hmax
  rw [getElem?_filterMap hsome, Option.bind_eq_some_iff] at hwinner
  obtain ⟨trial, htrial, hvalue⟩ := hwinner
  refine ⟨best, winner, trial, hmax, hselect, htrial, ⟨List.mem_of_getElem? htrial, best, hvalue,
    fun other hother w hw => ⟨hbest w (List.mem_filterMap.mpr ⟨other, hother, hw⟩), ?_⟩⟩, hvalue⟩
  rintro rfl
  obtain ⟨i, hi⟩ := List.mem_iff_getElem?.mp hother
  have hle := hsmallest i (by rw [getElem?_filterMap hsome, hi, Option.bind_some, hw])
  rwa [List.getD_eq_getElem?_getD, List.getD_eq_getElem?_getD, List.getElem?_map,
    List.getElem?_map, htrial, hi] at hle

theorem midrank_inside {trial : Trial Return} {v : V} (hdefined : Defined env selected trials)
    (hmem : trial ∈ trials) (hv : trial.afterSample env selected = some v) :
    0 < midrank (afterValues env selected trials) v ∧
      midrank (afterValues env selected trials) v < trials.length + 1 := by
  have hlt := midrank_lt (List.mem_filterMap.mpr ⟨trial, hmem, hv⟩)
  rw [length_filterMap fun trial h => (hdefined trial h).2] at hlt
  exact ⟨midrank_pos, hlt⟩

theorem rankSplit_ok (hdefined : Defined env selected trials) (hne : trials ≠ [])
    (hdistinct : (trials.map Trial.identity).Nodup) :
    ∃ tie low, rankSplit trials.length (trials.map Trial.identity)
        (trials.filterMap (Trial.inSample env selected)) (afterValues env selected trials) =
          .ok (tie, low) ∧
      (tie = true ↔ Tied env selected trials) ∧
      (low = true ↔ LowerHalf env selected trials) := by
  obtain ⟨best, winner, trial, hmax, hselect, htrial, hwinner, hvalue⟩ :=
    exists_winner hdefined hne
  obtain ⟨v, hv⟩ := Option.isSome_iff_exists.mp (hdefined trial hwinner.mem).2
  obtain ⟨hpos, hlt⟩ := midrank_inside hdefined hwinner.mem hv
  have hcount : (0 : ℚ) < trials.length + 1 := by positivity
  have hrank : (midranksAscending (afterValues env selected trials))[winner]? =
      some (midrank (afterValues env selected trials) v) := by
    rw [midranksAscending_eq, List.getElem?_map, afterValues,
      getElem?_filterMap fun trial h => (hdefined trial h).2, htrial, Option.bind_some, hv]
    rfl
  have hlogit := logitNonpositive_ok (div_pos hpos hcount) ((div_lt_one hcount).mpr hlt)
  have hrun : rankSplit trials.length (trials.map Trial.identity)
      (trials.filterMap (Trial.inSample env selected)) (afterValues env selected trials) =
        .ok (decide (1 < (trials.filterMap (Trial.inSample env selected)).countP fun w =>
            decide (w = best)),
          decide (midrank (afterValues env selected trials) v / (trials.length + 1) ≤ 1 / 2)) := by
    simp only [rankSplit, hmax, hselect, hrank, hlogit, Except.ok_bind]
  refine ⟨_, _, hrun, ?_, ?_⟩
  · rw [decide_eq_true_eq]
    have hbest := maxOf_le hmax
    constructor
    · intro h
      exact ⟨best, fun other hother w hw =>
        hbest w (List.mem_filterMap.mpr ⟨other, hother, hw⟩), h⟩
    · rintro ⟨best', hle, h⟩
      have hpositive := List.countP_pos_iff.mp (Nat.zero_lt_of_lt h)
      obtain ⟨w, hw, heq⟩ := hpositive
      obtain rfl := of_decide_eq_true heq
      have hequal : w = best := le_antisymm (hbest w hw) (hle trial hwinner.mem best hvalue)
      rwa [hequal] at h
  · rw [decide_eq_true_eq, div_le_iff₀ hcount]
    constructor
    · intro h
      exact ⟨trial, v, hwinner, hv, by linarith⟩
    · rintro ⟨other, w, hother, hw, h⟩
      obtain rfl := winner_unique hdistinct hwinner hother
      rw [hv] at hw
      cases hw
      linarith

/-! ## The loop over the splits -/

section Loop

open Classical in
noncomputable def countSplits (p : List ℕ → Prop) (among : List (List ℕ)) : ℕ :=
  among.countP fun selected => decide (p selected)

theorem countSplits_cons_of_pos {p : List ℕ → Prop} {among : List (List ℕ)} (h : p selected) :
    countSplits p (selected :: among) = countSplits p among + 1 := by
  simp [countSplits, h]

theorem countSplits_cons_of_neg {p : List ℕ → Prop} {among : List (List ℕ)} (h : ¬ p selected) :
    countSplits p (selected :: among) = countSplits p among := by
  simp [countSplits, h]

theorem countSplits_eq_length {p : List ℕ → Prop} {among : List (List ℕ)} :
    countSplits p among = among.length ↔ ∀ selected ∈ among, p selected := by
  simp [countSplits, List.countP_eq_length]

variable (env trials) in
def ValidLow (selected : List ℕ) : Prop :=
  Defined env selected trials ∧ LowerHalf env selected trials

variable (env trials) in
def ValidTied (selected : List ℕ) : Prop :=
  Defined env selected trials ∧ Tied env selected trials

omit [LinearOrder V] in
theorem none_mem_iff : (none ∈ trials.map (Trial.inSample env selected) ∨
    none ∈ trials.map (Trial.afterSample env selected)) ↔ ¬ Defined env selected trials := by
  simp only [Defined, List.mem_map, not_forall, not_and_or, Option.not_isSome_iff_eq_none]
  constructor
  · rintro (⟨trial, hmem, h⟩ | ⟨trial, hmem, h⟩)
    · exact ⟨trial, hmem, .inl h⟩
    · exact ⟨trial, hmem, .inr h⟩
  · rintro ⟨trial, hmem, h | h⟩
    · exact .inl ⟨trial, hmem, h⟩
    · exact .inr ⟨trial, hmem, h⟩

theorem splitStep_eq (counts : Counts) :
    splitStep env (trials.map Trial.blocks) (trials.map Trial.identity) counts selected =
      if none ∈ trials.map (Trial.inSample env selected) ∨
          none ∈ trials.map (Trial.afterSample env selected) then .ok counts.skip
      else
        rankSplit trials.length (trials.map Trial.identity)
          (trials.filterMap (Trial.inSample env selected)) (afterValues env selected trials) >>=
            fun judged => .ok (counts.add judged) := by
  have hreduce : ∀ f : Trial Return → Option V, (trials.map f).reduceOption = trials.filterMap f :=
    fun f => List.filterMap_map
  rw [afterValues, ← hreduce, ← hreduce]
  simp only [splitStep, List.map_map, List.length_map]
  rfl

theorem foldlM_splitStep (hne : trials ≠ []) (hdistinct : (trials.map Trial.identity).Nodup)
    (among : List (List ℕ)) (counts : Counts) :
    ∃ counts', among.foldlM
        (splitStep env (trials.map Trial.blocks) (trials.map Trial.identity)) counts = .ok counts' ∧
      counts'.validSplits =
        counts.validSplits + countSplits (fun s => Defined env s trials) among ∧
      counts'.lambdaLeZero = counts.lambdaLeZero + countSplits (ValidLow env trials) among ∧
      counts'.isTieCount = counts.isTieCount + countSplits (ValidTied env trials) among := by
  induction among generalizing counts with
  | nil => exact ⟨counts, rfl, rfl, rfl, rfl⟩
  | cons selected among ih =>
      rw [List.foldlM_cons, splitStep_eq]
      by_cases hdefined : Defined env selected trials
      · rw [if_neg (not_not.mpr hdefined ∘ none_mem_iff.mp)]
        obtain ⟨tie, low, hrun, htie, hlow⟩ := rankSplit_ok hdefined hne hdistinct
        rw [hrun, Except.ok_bind, Except.ok_bind]
        obtain ⟨counts', hfold, hvalid, hlambda, hties⟩ := ih (counts.add (tie, low))
        refine ⟨counts', hfold, ?_, ?_, ?_⟩
        · rw [hvalid, countSplits_cons_of_pos hdefined, Counts.add]
          ring
        · rw [hlambda, Counts.add]
          by_cases h : LowerHalf env selected trials
          · rw [countSplits_cons_of_pos ⟨hdefined, h⟩, hlow.mpr h, Bool.toNat_true]
            ring
          · rw [countSplits_cons_of_neg fun hboth => h hboth.2,
              Bool.eq_false_iff.mpr (h ∘ hlow.mp), Bool.toNat_false, add_zero]
        · rw [hties, Counts.add]
          by_cases h : Tied env selected trials
          · rw [countSplits_cons_of_pos ⟨hdefined, h⟩, htie.mpr h, Bool.toNat_true]
            ring
          · rw [countSplits_cons_of_neg fun hboth => h hboth.2,
              Bool.eq_false_iff.mpr (h ∘ htie.mp), Bool.toNat_false, add_zero]
      · rw [if_pos (none_mem_iff.mpr hdefined)]
        rw [Except.ok_bind]
        obtain ⟨counts', hfold, hvalid, hlambda, hties⟩ := ih counts.skip
        refine ⟨counts', hfold, ?_, ?_, ?_⟩
        · rw [hvalid, countSplits_cons_of_neg hdefined, Counts.skip]
        · rw [hlambda, countSplits_cons_of_neg fun hboth => hdefined hboth.1, Counts.skip]
        · rw [hties, countSplits_cons_of_neg fun hboth => hdefined hboth.1, Counts.skip]

end Loop

end Split

end Cscv

end OpenToOpen

end TradePlatform
