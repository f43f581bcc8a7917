/-
# `TradePlatform.AuthorityRerunSelection` — an established selection is the selection of all

Only part of the trials is recomputed.  Four facts make the selection one of all of them.
The rerun set holds evaluated trials only, each once, and the sweep lags do not reach the
baseline results.  A number that can be reported in eighteen digits is not rounded by the
arithmetic, so the sort among the recomputed ones is that of the exact metrics.  A float
metric that does not reach the cutoff within its band lies outside the exact band, because
rounding is monotone.  And the band is of the cutoff, the error of the Decimal metric: since
`x + b * |x|` is monotone, a trial outside the band is behind the cutoff whatever the signs.
-/
import TradePlatform.AuthorityRerun

namespace TradePlatform.StrategyLab

open Decimal

/-! ## The rerun set -/

def RerunsEvaluated (manifest : StudyManifestV1) (reasons : Reasons) : Prop :=
  ∀ trial, (Dict.get? reasons trial).isSome →
    ∃ row ∈ manifest.results, row.outcome = .evaluated ∧ row.trialId = trial

theorem RerunsEvaluated.set {manifest : StudyManifestV1} {reasons : Reasons} {trial : String}
    {items : List RerunReason} (h : RerunsEvaluated manifest reasons)
    (htrial : ∃ row ∈ manifest.results, row.outcome = .evaluated ∧ row.trialId = trial) :
    RerunsEvaluated manifest (Dict.set reasons trial items) := by
  intro other hother
  rw [Dict.get?_set] at hother
  split at hother
  · rename_i heq
    exact heq ▸ htrial
  · exact h other hother

theorem RerunsEvaluated.addReasons {manifest : StudyManifestV1} {reasons reasons' : Reasons}
    {row : ResultRow} {metricName : String} {cutoff tolerance : Decimal}
    (h : RerunsEvaluated manifest reasons) (hrow : row ∈ manifest.results)
    (hstep : addReasons metricName cutoff tolerance reasons row = .ok reasons') :
    RerunsEvaluated manifest reasons' := by
  unfold StrategyLab.addReasons at hstep
  split at hstep
  · cases hstep
    exact h
  · rename_i hout
    have htrial : ∃ row' ∈ manifest.results, row'.outcome = .evaluated ∧
        row'.trialId = row.trialId := ⟨row, hrow, not_not.mp hout, rfl⟩
    obtain ⟨value, -, hstep⟩ := Except.bind_eq_ok.mp hstep
    dsimp only at hstep
    obtain rfl := Except.ok.inj hstep
    split <;> split <;> first | exact h | exact h.set htrial | exact (h.set htrial).set htrial

theorem RerunsEvaluated.frozenReasons {manifest : StudyManifestV1} {frozen : List String}
    (h : ∀ trial ∈ frozen,
      ∃ row ∈ manifest.results, row.outcome = .evaluated ∧ row.trialId = trial) :
    RerunsEvaluated manifest (frozenReasons frozen) := by
  have hfold : ∀ reasons : Reasons, RerunsEvaluated manifest reasons →
      RerunsEvaluated manifest
        (frozen.foldl (fun reasons trial => Dict.set reasons trial [.frozenCandidate]) reasons) := by
    induction frozen with
    | nil => exact fun _ h => h
    | cons trial frozen ih =>
        intro reasons hreasons
        exact ih (fun t ht => h t (List.mem_cons_of_mem _ ht)) _
          (hreasons.set (h trial List.mem_cons_self))
  exact hfold _ fun trial htrial => by simp at htrial

theorem freezeCandidatesV1_ok {manifest : StudyManifestV1} {rule : CandidateSelectionRuleV1}
    {candidates : CandidateSetV1} (h : freezeCandidatesV1 manifest rule = .ok candidates) :
    candidates.rule = rule ∧ ∀ trial ∈ candidates.candidates.map FrozenCandidate.trialId,
      ∃ row ∈ manifest.results, row.outcome = .evaluated ∧ row.trialId = trial := by
  obtain ⟨-, h⟩ := Except.of_ite_error h
  obtain rfl := Except.ok.inj h
  refine ⟨rfl, fun trial htrial => ?_⟩
  obtain ⟨candidate, hcandidate, rfl⟩ := List.mem_map.mp htrial
  obtain ⟨item, hitem, rfl⟩ := List.mem_map.mp hcandidate
  have hfound := mem_sortBy.mp (List.mem_of_mem_take (List.fst_mem_of_mem_zipIdx hitem))
  obtain ⟨row, hrow, hentry⟩ := List.mem_filterMap.mp hfound
  split at hentry
  · rename_i hout
    obtain ⟨value, -, heq⟩ := Option.map_eq_some_iff.mp hentry
    refine ⟨row, hrow, hout, ?_⟩
    rw [← heq]
    rfl
  · cases hentry

theorem RerunsEvaluated.foldlM {manifest : StudyManifestV1} {metricName : String}
    {cutoff tolerance : Decimal} {rows : List ResultRow} {reasons reasons' : Reasons}
    (h : RerunsEvaluated manifest reasons) (hrows : ∀ row ∈ rows, row ∈ manifest.results)
    (hfold : rows.foldlM (StrategyLab.addReasons metricName cutoff tolerance) reasons =
      .ok reasons') : RerunsEvaluated manifest reasons' := by
  induction rows generalizing reasons with
  | nil =>
      cases hfold
      exact h
  | cons row rows ih =>
      rw [List.foldlM_cons] at hfold
      obtain ⟨next, hstep, hfold⟩ := Except.bind_eq_ok.mp hfold
      have hnext := h.addReasons (hrows row List.mem_cons_self) hstep
      exact ih hnext (fun r hr => hrows r (List.mem_cons_of_mem _ hr)) hfold

theorem rerunSetV1_evaluated {manifest : StudyManifestV1} {candidates : CandidateSetV1}
    {reasons : Reasons}
    (hfrozen : ∀ trial ∈ candidates.candidates.map FrozenCandidate.trialId,
      ∃ row ∈ manifest.results, row.outcome = .evaluated ∧ row.trialId = trial)
    (h : rerunSetV1 manifest candidates = .ok reasons) : RerunsEvaluated manifest reasons := by
  obtain ⟨-, h⟩ := Except.of_ite_error h
  obtain ⟨last, -, h⟩ := Except.bind_eq_ok.mp h
  exact (RerunsEvaluated.frozenReasons hfrozen).foldlM (fun _ hrow => hrow) h

/-! ## The order of the recomputed metrics -/

def InTicks (value : Decimal) : Prop := ∃ ticks : ℤ, value = ticks / 10 ^ 18

theorem quantized_inTicks {value text : Decimal} (hticks : InTicks value)
    (h : quantized value = .ok text) : text = value ∧ Fits 18 (10 ^ 28 - 1) value := by
  obtain ⟨ticks, rfl⟩ := hticks
  unfold quantized Arithmetic.quantize Arithmetic.scaled at h
  have hround : roundHalfEven ((ticks : ℚ) / 10 ^ 18 * 10 ^ 18) = ticks := by
    rw [div_mul_cancel₀ _ (by norm_num), roundHalfEven_intCast]
  rw [hround] at h
  split at h
  · rename_i hdigits
    refine ⟨(Except.ok.inj h).symm, ticks, rfl, ?_⟩
    have hlt : ticks.natAbs < 10 ^ 28 := by
      simpa [Arithmetic.default] using hdigits
    rw [← Int.natCast_natAbs]
    omega
  · cases h

theorem round_of_fits {value : Decimal} (h : Fits 18 (10 ^ 28 - 1) value) :
    Context.default.round value = value :=
  h.roundSig_eq (by norm_num)

theorem round_mono {x y : ℚ} (h : x ≤ y) : Context.default.round x ≤ Context.default.round y :=
  roundSig_mono (by norm_num) h

def exactKey (direction : RankDirectionV1) (entry : Entry) : Decimal ×ₗ String :=
  toLex (direction.sign * entry.value, entry.trialContentHash)

theorem sign_mul_neg (direction : RankDirectionV1) (value : Decimal) :
    direction.sign * value = value ∨ direction.sign * value = -value := by
  cases direction with
  | higherIsBetter => exact .inr (by simp [RankDirectionV1.sign])
  | lowerIsBetter => exact .inl (by simp [RankDirectionV1.sign])

theorem abs_sign_mul (direction : RankDirectionV1) (value : Decimal) :
    |direction.sign * value| = |value| := by
  rcases sign_mul_neg direction value with h | h
  · rw [h]
  · rw [h, abs_neg]

theorem fits_sign_mul {value : Decimal} (direction : RankDirectionV1)
    (h : Fits 18 (10 ^ 28 - 1) value) : Fits 18 (10 ^ 28 - 1) (direction.sign * value) := by
  rcases sign_mul_neg direction value with heq | heq
  · rwa [heq]
  · rw [heq]
    exact h.neg

theorem abs_lt_of_fits {value : Decimal} (h : Fits 18 (10 ^ 28 - 1) value) :
    |value| < 10 ^ 10 := by
  obtain ⟨ticks, rfl, hticks⟩ := h
  have hcast : |(ticks : ℚ)| ≤ 10 ^ 28 - 1 := by exact_mod_cast hticks
  rw [abs_div, abs_of_pos (show (0 : ℚ) < 10 ^ 18 by norm_num), div_lt_iff₀ (by norm_num)]
  linarith

theorem fits_of_abs_lt {value : Decimal} (hticks : InTicks value) (h : |value| < 10 ^ 10) :
    Fits 18 (10 ^ 28 - 1) value := by
  obtain ⟨ticks, rfl⟩ := hticks
  refine ⟨ticks, rfl, ?_⟩
  rw [abs_div, abs_of_pos (show (0 : ℚ) < 10 ^ 18 by norm_num), div_lt_iff₀ (by norm_num)] at h
  have hlt : |ticks| < 10 ^ 28 := by
    have hcast : |(ticks : ℚ)| < 10 ^ 28 := by linarith
    exact_mod_cast hcast
  omega

theorem eq_of_round_eq {value other : Decimal} (hticks : InTicks other)
    (hvalue : Fits 18 (10 ^ 28 - 1) value) (h : Context.default.round other = value) :
    other = value := by
  have hbound := abs_lt.mp (abs_lt_of_fits hvalue)
  have hten : Context.default.round (10 ^ 10) = 10 ^ 10 :=
    (show Fits 0 (10 ^ 10) (10 ^ 10) from ⟨10 ^ 10, by norm_num, by norm_num⟩).roundSig_eq
      (by norm_num)
  have hten' : Context.default.round (-10 ^ 10) = -10 ^ 10 :=
    (show Fits 0 (10 ^ 10) (-10 ^ 10) from ⟨-10 ^ 10, by norm_num, by norm_num⟩).roundSig_eq
      (by norm_num)
  have habs : |other| < 10 ^ 10 := by
    refine abs_lt.mpr ⟨?_, ?_⟩ <;> by_contra hge
    · have hmono := round_mono (not_lt.mp hge)
      rw [hten', h] at hmono
      linarith
    · have hmono := round_mono (not_lt.mp hge)
      rw [hten, h] at hmono
      linarith
  rw [← h, round_of_fits (fits_of_abs_lt hticks habs)]

/-- An entry that fits and comes before another by the rounded keys comes before it by the
exact ones. -/
theorem exactKey_le {direction : RankDirectionV1} {first other : Entry}
    (hfirst : Fits 18 (10 ^ 28 - 1) first.value) (hother : InTicks other.value)
    (h : rankKey direction first ≤ rankKey direction other) :
    exactKey direction first ≤ exactKey direction other := by
  have hround : Context.default.mul direction.sign first.value = direction.sign * first.value :=
    round_of_fits (fits_sign_mul direction hfirst)
  unfold rankKey at h
  rw [hround, Prod.Lex.toLex_le_toLex] at h
  unfold exactKey
  rw [Prod.Lex.toLex_le_toLex]
  rcases h with hlt | ⟨heq, hhash⟩
  · refine .inl ?_
    by_contra hge
    have hmono := round_mono (not_lt.mp hge)
    rw [round_of_fits (fits_sign_mul direction hfirst)] at hmono
    exact absurd hlt (not_lt.mpr hmono)
  · refine .inr ⟨?_, hhash⟩
    have hticks : InTicks (direction.sign * other.value) := by
      obtain ⟨ticks, hvalue⟩ := hother
      rcases sign_mul_neg direction other.value with hs | hs
      · exact ⟨ticks, by rw [hs, hvalue]⟩
      · exact ⟨-ticks, by rw [hs, hvalue]; push_cast; ring⟩
    exact (eq_of_round_eq hticks (fits_sign_mul direction hfirst) heq.symm).symm

/-- Where the recomputed entries lead, and the others are behind the last of them that is taken,
the sort by rounded keys takes what the sort of all by exact keys takes. -/
theorem take_exactKey {direction : RankDirectionV1} {k : ℕ} {all exact others : List Entry}
    {last : Entry} (hkey : KeyTells (exactKey direction) all) (hperm : all.Perm (exact ++ others))
    (hk : k ≤ exact.length) (hticks : ∀ entry ∈ exact, InTicks entry.value)
    (hfits : ∀ entry ∈ (sortBy (rankKey direction) exact).take k,
      Fits 18 (10 ^ 28 - 1) entry.value)
    (hlast : ((sortBy (rankKey direction) exact).take k).getLast? = some last)
    (hbehind : ∀ entry ∈ others, direction.sign * last.value < direction.sign * entry.value) :
    (sortBy (exactKey direction) all).take k = (sortBy (rankKey direction) exact).take k := by
  have hranked : ∀ entry ∈ sortBy (rankKey direction) exact, InTicks entry.value :=
    fun entry hentry => hticks entry (mem_sortBy.mp hentry)
  have hsorted := sortBy_pairwise (rankKey direction) exact
  have hsplit := List.take_append_drop k (sortBy (rankKey direction) exact)
  have hlength : ((sortBy (rankKey direction) exact).take k).length = k := by
    rw [List.length_take, (sortBy_perm _ _).length_eq, min_eq_left hk]
  have hall : all.Perm ((sortBy (rankKey direction) exact).take k ++
      ((sortBy (rankKey direction) exact).drop k ++ others)) := by
    rw [← List.append_assoc, hsplit]
    exact hperm.trans ((sortBy_perm _ _).symm.append_right _)
  rw [← hsplit] at hsorted hranked
  generalize (sortBy (rankKey direction) exact).take k = first at *
  generalize (sortBy (rankKey direction) exact).drop k = rest at *
  obtain ⟨hfirst, -, hcross⟩ := List.pairwise_append.mp hsorted
  have hpairwise : first.Pairwise fun a b => exactKey direction a ≤ exactKey direction b :=
    hfirst.imp_of_mem fun ha hb hle =>
      exactKey_le (hfits _ ha) (hranked _ (List.mem_append_left _ hb)) hle
  have hle_last : ∀ entry ∈ first, exactKey direction entry ≤ exactKey direction last := by
    obtain ⟨init, rfl⟩ := List.getLast?_eq_some_iff.mp hlast
    intro entry hentry
    rcases List.mem_append.mp hentry with hinit | hself
    · exact (List.pairwise_append.mp hpairwise).2.2 entry hinit last List.mem_cons_self
    · rw [List.mem_singleton.mp hself]
  have htake := take_sortBy hkey hall hpairwise ?_
  · rwa [hlength] at htake
  intro entry hentry other hother
  rcases List.mem_append.mp hother with hrest | hothers
  · exact exactKey_le (hfits _ hentry) (hranked _ (List.mem_append_right _ hrest))
      (hcross entry hentry other hrest)
  · have hle := Prod.Lex.toLex_le_toLex.mp (hle_last entry hentry)
    refine Prod.Lex.toLex_le_toLex.mpr (.inl ?_)
    rcases hle with hlt | ⟨heq, -⟩
    · exact hlt.trans (hbehind other hothers)
    · exact heq.trans_lt (hbehind other hothers)

/-! ## The band -/

theorem band_eq {cutoff : Decimal} (h : Fits 18 (10 ^ 28 - 1) cutoff) :
    Context.default.mul (Context.default.abs cutoff) selectionCutoffErrorBandRelativeV1 =
      |cutoff| * selectionCutoffErrorBandRelativeV1 := by
  have habs : Fits 18 (10 ^ 28 - 1) |cutoff| := by
    rcases abs_choice cutoff with heq | heq
    · rwa [heq]
    · rw [heq]
      exact h.neg
  have hband : Fits 6 1 selectionCutoffErrorBandRelativeV1 :=
    ⟨1, by norm_num [selectionCutoffErrorBandRelativeV1], by norm_num⟩
  show Context.default.round (Context.default.round |cutoff| * _) = _
  rw [round_of_fits habs]
  exact (habs.mul hband).roundSig_eq (by norm_num)

theorem lt_of_not_reaches {direction : RankDirectionV1} {cutoff : Decimal}
    {outside : List Decimal} (hcutoff : Fits 18 (10 ^ 28 - 1) cutoff)
    (h : reaches direction cutoff (Context.default.mul (Context.default.abs cutoff)
      selectionCutoffErrorBandRelativeV1) outside = false)
    {number : SearchNumber} (hnumber : number.value ∈ outside) :
    direction.sign * cutoff + selectionCutoffErrorBandRelativeV1 * |cutoff| <
      direction.sign * number.value := by
  rw [band_eq hcutoff] at h
  have hprec : 0 < 28 := by norm_num
  cases direction with
  | higherIsBetter =>
      obtain ⟨best, hbest⟩ := Option.isSome_iff_exists.mp (List.isSome_max?_of_mem hnumber)
      have hle : number.value ≤ best := (List.max?_eq_some_iff.mp hbest).2 _ hnumber
      simp only [reaches, hbest, Option.any_some, decide_eq_false_iff_not, not_le] at h
      have hlt := lt_of_lt_roundSig hprec number.represented (hle.trans_lt h)
      simp only [RankDirectionV1.sign]
      linarith
  | lowerIsBetter =>
      obtain ⟨best, hbest⟩ := Option.isSome_iff_exists.mp (List.isSome_min?_of_mem hnumber)
      have hle : best ≤ number.value := (List.min?_eq_some_iff.mp hbest).2 _ hnumber
      simp only [reaches, hbest, Option.any_some, decide_eq_false_iff_not, not_le] at h
      have hlt := lt_of_roundSig_lt hprec number.represented (h.trans_le hle)
      simp only [RankDirectionV1.sign]
      linarith

/-- The float metric differs from the Decimal one by at most the band of the Decimal one. -/
def Close (value exact : Decimal) : Prop :=
  |value - exact| ≤ selectionCutoffErrorBandRelativeV1 * |exact|

/-- `x + b * |x|` is monotone, so what is close to a number outside the band is behind the
cutoff, whatever the signs. -/
theorem lt_of_close {direction : RankDirectionV1} {cutoff value exact : Decimal}
    (hclose : Close value exact)
    (houtside : direction.sign * cutoff + selectionCutoffErrorBandRelativeV1 * |cutoff| <
      direction.sign * value) :
    direction.sign * cutoff < direction.sign * exact := by
  unfold Close at hclose
  by_contra hge
  rw [← abs_sign_mul direction cutoff] at houtside
  rw [← abs_sign_mul direction exact, ← abs_sign_mul direction (value - exact), mul_sub] at hclose
  generalize direction.sign * cutoff = c at *
  generalize direction.sign * exact = d at *
  generalize direction.sign * value = v at *
  have hv := (abs_le.mp hclose).2
  have hband : selectionCutoffErrorBandRelativeV1 * (|d| - |c|) ≤ c - d := by
    have habs : |d| - |c| ≤ c - d := by
      have htriangle := abs_sub_abs_le_abs_sub d c
      rwa [abs_sub_comm d c, abs_of_nonneg (show 0 ≤ c - d by linarith)] at htriangle
    unfold selectionCutoffErrorBandRelativeV1
    linarith [abs_nonneg (c - d), not_lt.mp hge]
  linarith

/-! ## What a rerun concludes -/

section Results

variable {rerunOne : Job → Except Exn Recomputed} {study : StudySpecV1}
  {manifest : StudyManifestV1} {candidates : CandidateSetV1} {reasons : Reasons} {baseline : ℕ}

def DecimalMetric.value? : DecimalMetric → Option Decimal
  | .number ticks => some (ticks / 10 ^ 18)
  | _ => none

def decimalMetric (rerunOne : Job → Except Exn Recomputed) (study : StudySpecV1) (baseline : ℕ)
    (metricName trial : String) : Option Decimal :=
  (jobOf study (trial, baseline) >>= rerunOne).toOption.bind
    fun recomputed => (recomputed.metrics metricName).value?

def evaluatedEntries (rerunOne : Job → Except Exn Recomputed) (study : StudySpecV1)
    (baseline : ℕ) (manifest : StudyManifestV1) (metricName : String) : List Entry :=
  (manifest.results.filter fun row => row.outcome = .evaluated).filterMap fun row =>
    (decimalMetric rerunOne study baseline metricName row.trialId).map row.entry

theorem decimalMetric_inTicks {metricName trial : String} {value : Decimal}
    (h : decimalMetric rerunOne study baseline metricName trial = some value) :
    InTicks value := by
  obtain ⟨recomputed, -, hvalue⟩ := Option.bind_eq_some_iff.mp h
  unfold DecimalMetric.value? at hvalue
  split at hvalue
  · exact ⟨_, (Option.some.inj hvalue).symm⟩
  · cases hvalue

def ResultOf (rerunOne : Job → Except Exn Recomputed) (study : StudySpecV1)
    (item : String × ℕ) (result : RerunResult) : Prop :=
  result.trialId = item.1 ∧ result.lagMicros = item.2 ∧
    (jobOf study item >>= rerunOne) = .ok result.recomputed

theorem resultOf_of_job {item : String × ℕ} {job : Job} {result : RerunResult}
    (hjob : jobOf study item = .ok job)
    (hresult : rerunResult rerunOne study manifest reasons job = .ok result) :
    ResultOf rerunOne study item result := by
  obtain ⟨recomputed, hone, hresult⟩ := Except.bind_eq_ok.mp hresult
  obtain ⟨trial, -, hresult⟩ := Except.bind_eq_ok.mp hresult
  obtain ⟨row, -, hresult⟩ := Except.bind_eq_ok.mp hresult
  obtain rfl := Except.ok.inj hresult
  have hitem : job.trialId = item.1 ∧ job.lagMicros = item.2 := by
    unfold jobOf at hjob
    cases hfound : Dict.get? study.trials item.1 with
    | none => simp [hfound] at hjob
    | some found =>
        simp only [hfound, Option.elim_some] at hjob
        obtain rfl := Except.ok.inj hjob
        exact ⟨rfl, rfl⟩
  exact ⟨hitem.1, hitem.2, Except.bind_eq_ok.mpr ⟨job, hjob, hone⟩⟩

theorem resultOf_of_mapM {plan : List (String × ℕ)} {jobs : List Job} {outputs : List RerunResult}
    (hjobs : plan.mapM (jobOf study) = .ok jobs)
    (houtputs : jobs.mapM (rerunResult rerunOne study manifest reasons) = .ok outputs) :
    List.Forall₂ (ResultOf rerunOne study) plan outputs := by
  induction plan generalizing jobs outputs with
  | nil =>
      cases hjobs
      cases houtputs
      exact .nil
  | cons item plan ih =>
      rw [List.mapM_cons] at hjobs
      obtain ⟨job, hjob, hjobs⟩ := Except.bind_eq_ok.mp hjobs
      obtain ⟨rest, hrest, hjobs⟩ := Except.bind_eq_ok.mp hjobs
      obtain rfl := Except.ok.inj hjobs
      rw [List.mapM_cons] at houtputs
      obtain ⟨output, houtput, houtputs⟩ := Except.bind_eq_ok.mp houtputs
      obtain ⟨others, hothers, houtputs⟩ := Except.bind_eq_ok.mp houtputs
      obtain rfl := Except.ok.inj houtputs
      exact .cons (resultOf_of_job hjob houtput) (ih hrest hothers)

theorem baseline_plan (hlag : baseline ∉ sweepLagsMicros) :
    ((rerunPlan candidates reasons baseline).filter fun item => item.2 = baseline) =
      (reasons.items.map Prod.fst).map fun trial => (trial, baseline) := by
  rw [List.map_map]
  unfold rerunPlan
  rw [List.filter_append, List.filter_eq_self.mpr, List.filter_eq_nil_iff.mpr, List.append_nil]
  · rfl
  · intro item hitem
    obtain ⟨candidate, -, hitem⟩ := List.mem_flatMap.mp hitem
    obtain ⟨lag, hsweep, rfl⟩ := List.mem_map.mp hitem
    simp only [decide_eq_true_eq]
    rintro rfl
    exact hlag hsweep
  · intro item hitem
    obtain ⟨reason, -, rfl⟩ := List.mem_map.mp hitem
    simp

theorem metric_of_resultOf {metricName trial : String} {result : RerunResult}
    {pair : Option Decimal × String} (hresult : ResultOf rerunOne study (trial, baseline) result)
    (h : (decimalValue (result.recomputed.metrics metricName)).map
      (fun value => (value, result.trialId)) = .ok pair) :
    pair = (decimalMetric rerunOne study baseline metricName trial, trial) := by
  obtain ⟨htrial, -, hone⟩ := hresult
  obtain rfl : result.trialId = trial := htrial
  have hmetric : decimalMetric rerunOne study baseline metricName result.trialId =
      (result.recomputed.metrics metricName).value? := by
    unfold decimalMetric
    rw [hone]
    rfl
  rw [hmetric]
  generalize result.recomputed.metrics metricName = raw at h ⊢
  cases raw with
  | undefined => exact (Except.ok.inj h).symm
  | number ticks => exact (Except.ok.inj h).symm
  | label text => cases h

theorem metrics_of_results {metricName : String} {trials : List String}
    {results : List RerunResult} {metrics : List (Option Decimal × String)}
    (hresults : List.Forall₂ (fun trial => ResultOf rerunOne study (trial, baseline))
      trials results)
    (h : (results.mapM fun item => (decimalValue (item.recomputed.metrics metricName)).map
      fun value => (value, item.trialId)) = .ok metrics) :
    metrics = trials.map fun trial =>
      (decimalMetric rerunOne study baseline metricName trial, trial) := by
  induction hresults generalizing metrics with
  | nil =>
      cases h
      rfl
  | cons hresult _ ih =>
      rw [List.mapM_cons] at h
      obtain ⟨pair, hpair, h⟩ := Except.bind_eq_ok.mp h
      obtain ⟨rest, hrest, h⟩ := Except.bind_eq_ok.mp h
      obtain rfl := Except.ok.inj h
      rw [metric_of_resultOf hresult hpair, ih hrest]
      rfl

theorem baselineMetrics_perm {metricName : String} {outputs : List RerunResult}
    {metrics : List (Option Decimal × String)} (hlag : baseline ∉ sweepLagsMicros)
    (houtputs : List.Forall₂ (ResultOf rerunOne study)
      (rerunPlan candidates reasons baseline) outputs)
    (h : baselineMetrics metricName baseline
      (sortBy (fun item => toLex (item.trialId, item.lagMicros)) outputs) = .ok metrics) :
    metrics.Perm ((reasons.items.map Prod.fst).map fun trial =>
      (decimalMetric rerunOne study baseline metricName trial, trial)) := by
  have hfilter := List.rel_filter (p := fun item => decide (item.2 = baseline))
    (q := fun result => decide (result.lagMicros = baseline))
    (fun {item result} hresult => by simp [hresult.2.1]) houtputs
  rw [baseline_plan hlag, List.forall₂_map_left_iff] at hfilter
  unfold baselineMetrics at h
  obtain ⟨metrics', hmetrics', hperm⟩ := Except.mapM_perm
    ((sortBy_perm (fun item : RerunResult => toLex (item.trialId, item.lagMicros)) outputs).filter
      fun result => decide (result.lagMicros = baseline)) h
  exact hperm.trans (List.Perm.of_eq (metrics_of_results hfilter hmetrics'))

theorem nodup_items (reasons : Reasons) : (reasons.items.map Prod.fst).Nodup := by
  have hkeys : reasons.items.map Prod.fst = (sortBy Prod.fst reasons.rows).map Prod.fst := by
    unfold Reasons.items
    rw [List.map_map]
    rfl
  rw [hkeys]
  exact ((sortBy_perm Prod.fst reasons.rows).map Prod.fst).nodup_iff.mpr reasons.nodup

theorem mem_items {reasons : Reasons} {trial : String} :
    trial ∈ reasons.items.map Prod.fst ↔ (Dict.get? reasons trial).isSome := by
  unfold Reasons.items
  rw [List.map_map, List.mem_map]
  constructor
  · rintro ⟨item, hitem, rfl⟩
    exact Option.isSome_iff_exists.mpr ⟨item.2, Dict.mem_rows.mp (mem_sortBy.mp hitem)⟩
  · intro h
    obtain ⟨items, hitems⟩ := Option.isSome_iff_exists.mp h
    exact ⟨(trial, items), mem_sortBy.mpr (Dict.mem_rows.mpr hitems), rfl⟩

theorem hashOf_row {row : ResultRow} (hrow : row ∈ manifest.results) :
    manifest.hashOf row.trialId = .ok row.trialContentHash := by
  obtain ⟨found, hfound⟩ := Option.isSome_iff_exists.mp
    (List.find?_isSome (p := fun r : ResultRow => decide (r.trialId = row.trialId)) |>.mpr
      ⟨row, hrow, by simp⟩)
  have hmem := List.mem_of_find?_eq_some hfound
  have hid : found.trialId = row.trialId := by simpa using List.find?_some hfound
  have heq : found = row :=
    List.inj_on_of_nodup_map manifest.trialIds_nodup hmem hrow hid
  unfold StudyManifestV1.hashOf
  rw [hfound, heq]
  rfl

def definedPairs (metrics : List (Option Decimal × String)) : List (Decimal × String) :=
  metrics.filterMap fun pair => pair.1.map fun value => (value, pair.2)

theorem mem_definedPairs {metrics : List (Option Decimal × String)} {value : Decimal}
    {trial : String} : (value, trial) ∈ definedPairs metrics ↔ (some value, trial) ∈ metrics := by
  unfold definedPairs
  rw [List.mem_filterMap]
  constructor
  · rintro ⟨⟨metric, other⟩, hmem, heq⟩
    obtain ⟨value', rfl, heq⟩ := Option.map_eq_some_iff.mp heq
    cases heq
    exact hmem
  · intro hmem
    exact ⟨(some value, trial), hmem, rfl⟩

theorem definedPairs_sublist (metrics : List (Option Decimal × String)) :
    ((definedPairs metrics).map Prod.snd).Sublist (metrics.map Prod.snd) := by
  induction metrics with
  | nil => exact .slnil
  | cons pair metrics ih =>
      obtain ⟨metric, trial⟩ := pair
      cases metric with
      | none => exact ih.cons trial
      | some value => exact ih.cons_cons trial

theorem entry_of_hash {pair : Decimal × String} {entry : Entry}
    (h : (manifest.hashOf pair.2).map (fun hash => (⟨pair.1, pair.2, hash⟩ : Entry)) = .ok entry) :
    pair = (entry.value, entry.trialId) ∧
      manifest.hashOf entry.trialId = .ok entry.trialContentHash := by
  cases hhash : manifest.hashOf pair.2 with
  | error e => rw [hhash] at h; cases h
  | ok hash =>
      rw [hhash] at h
      obtain rfl := Except.ok.inj h
      exact ⟨rfl, hhash⟩

theorem mem_exactEntries {metricName : String} {metrics : List (Option Decimal × String)}
    {exact : List Entry}
    (hperm : metrics.Perm ((reasons.items.map Prod.fst).map fun trial =>
      (decimalMetric rerunOne study baseline metricName trial, trial)))
    (h : exactEntries manifest metrics = .ok exact) {entry : Entry} :
    entry ∈ exact ↔ (Dict.get? reasons entry.trialId).isSome ∧
      decimalMetric rerunOne study baseline metricName entry.trialId = some entry.value ∧
      manifest.hashOf entry.trialId = .ok entry.trialContentHash := by
  have hpairs : (entry.value, entry.trialId) ∈ definedPairs metrics ↔
      (Dict.get? reasons entry.trialId).isSome ∧
        decimalMetric rerunOne study baseline metricName entry.trialId = some entry.value := by
    rw [mem_definedPairs, hperm.mem_iff, List.mem_map, ← mem_items]
    constructor
    · rintro ⟨trial, htrial, heq⟩
      obtain ⟨hmetric, rfl⟩ := Prod.mk.inj heq
      exact ⟨htrial, hmetric⟩
    · rintro ⟨htrial, hmetric⟩
      exact ⟨entry.trialId, htrial, by rw [hmetric]⟩
  constructor
  · intro hentry
    obtain ⟨pair, hpair, hhash⟩ := Except.mem_of_mapM h hentry
    obtain ⟨rfl, hown⟩ := entry_of_hash hhash
    exact ⟨(hpairs.mp hpair).1, (hpairs.mp hpair).2, hown⟩
  · rintro ⟨hset, hmetric, hhash⟩
    obtain ⟨other, hother, heq⟩ :=
      Except.exists_of_mem_mapM h (hpairs.mpr ⟨hset, hmetric⟩)
    rw [hhash] at heq
    obtain rfl := Except.ok.inj heq
    exact hother

theorem nodup_exactEntries {metricName : String} {metrics : List (Option Decimal × String)}
    {exact : List Entry}
    (hperm : metrics.Perm ((reasons.items.map Prod.fst).map fun trial =>
      (decimalMetric rerunOne study baseline metricName trial, trial)))
    (h : exactEntries manifest metrics = .ok exact) : (exact.map Entry.trialId).Nodup := by
  have htrials : exact.map Entry.trialId = (definedPairs metrics).map Prod.snd := by
    have hpairs := Except.mapM_iff_forall₂.mp h
    have hmap : List.Forall₂ (fun trial other => other = trial)
        ((definedPairs metrics).map Prod.snd) (exact.map Entry.trialId) := by
      rw [List.forall₂_map_left_iff, List.forall₂_map_right_iff]
      exact hpairs.imp fun pair entry hentry => by rw [(entry_of_hash hentry).1]
    exact (List.forall₂_eq_eq_eq ▸ hmap.flip : _ = _)
  rw [htrials]
  refine (definedPairs_sublist metrics).nodup ?_
  have hkeys := hperm.map Prod.snd
  rw [List.map_map, show Prod.snd ∘ (fun trial => (decimalMetric rerunOne study baseline
    metricName trial, trial)) = id from rfl, List.map_id] at hkeys
  exact hkeys.nodup_iff.mpr (nodup_items reasons)

theorem mem_evaluatedEntries {metricName : String} {entry : Entry} :
    entry ∈ evaluatedEntries rerunOne study baseline manifest metricName ↔
      ∃ row ∈ manifest.results, row.outcome = .evaluated ∧
        decimalMetric rerunOne study baseline metricName row.trialId = some entry.value ∧
        entry = row.entry entry.value := by
  unfold evaluatedEntries
  rw [List.mem_filterMap]
  constructor
  · rintro ⟨row, hrow, heq⟩
    obtain ⟨hrow, hout⟩ := List.mem_filter.mp hrow
    obtain ⟨value, hmetric, rfl⟩ := Option.map_eq_some_iff.mp heq
    exact ⟨row, hrow, of_decide_eq_true hout, hmetric, rfl⟩
  · rintro ⟨row, hrow, hout, hmetric, heq⟩
    refine ⟨row, List.mem_filter.mpr ⟨hrow, decide_eq_true hout⟩, ?_⟩
    rw [hmetric, Option.map_some, ← heq]

theorem nodup_evaluatedEntries {metricName : String} :
    ((evaluatedEntries rerunOne study baseline manifest metricName).map Entry.trialId).Nodup := by
  have hsublist : ∀ rows : List ResultRow,
      ((rows.filterMap fun row => (decimalMetric rerunOne study baseline metricName
        row.trialId).map row.entry).map Entry.trialId).Sublist (rows.map ResultRow.trialId) := by
    intro rows
    induction rows with
    | nil => exact .slnil
    | cons row rows ih =>
        rw [List.filterMap_cons]
        split
        · exact ih.cons _
        · rename_i entry heq
          obtain ⟨value, -, rfl⟩ := Option.map_eq_some_iff.mp heq
          exact ih.cons_cons _
  exact ((hsublist _).trans (List.filter_sublist.map _)).nodup manifest.trialIds_nodup

/-- All the entries: the ones the selection sorts, and those of the trials outside the rerun
set. -/
theorem evaluatedEntries_perm {metricName : String} {metrics : List (Option Decimal × String)}
    {exact : List Entry} (hreruns : RerunsEvaluated manifest reasons)
    (hperm : metrics.Perm ((reasons.items.map Prod.fst).map fun trial =>
      (decimalMetric rerunOne study baseline metricName trial, trial)))
    (h : exactEntries manifest metrics = .ok exact) :
    (evaluatedEntries rerunOne study baseline manifest metricName).Perm
      (exact ++ (evaluatedEntries rerunOne study baseline manifest metricName).filter
        fun entry => (Dict.get? reasons entry.trialId).isNone) := by
  have hsplit := List.filter_append_perm
    (fun entry : Entry => (Dict.get? reasons entry.trialId).isSome)
    (evaluatedEntries rerunOne study baseline manifest metricName)
  refine hsplit.symm.trans ?_
  have hrest : (fun entry : Entry => !(Dict.get? reasons entry.trialId).isSome) =
      fun entry => (Dict.get? reasons entry.trialId).isNone := by
    funext entry
    simp
  rw [hrest]
  refine List.Perm.append_right _ ?_
  have hall : (evaluatedEntries rerunOne study baseline manifest metricName).Nodup :=
    List.Nodup.of_map Entry.trialId nodup_evaluatedEntries
  have hexact := List.Nodup.of_map Entry.trialId (nodup_exactEntries hperm h)
  refine (List.perm_ext_iff_of_nodup (hall.filter _) hexact).mpr fun entry => ?_
  rw [List.mem_filter, mem_exactEntries hperm h, mem_evaluatedEntries]
  constructor
  · rintro ⟨⟨row, hrow, -, hmetric, heq⟩, hset⟩
    refine ⟨hset, ?_, ?_⟩
    · rw [heq]
      exact hmetric
    · rw [heq]
      exact hashOf_row hrow
  · rintro ⟨hset, hmetric, hhash⟩
    obtain ⟨row, hrow, hout, htrial⟩ := hreruns _ hset
    refine ⟨⟨row, hrow, hout, by rw [htrial, hmetric], ?_⟩, hset⟩
    rw [← htrial, hashOf_row hrow] at hhash
    obtain ⟨value, trial, hash⟩ := entry
    cases htrial
    cases hhash
    rfl

theorem conclude_ok {undefined : List String} {exact : List Entry}
    {selection : AuthoritativeSelection}
    (h : conclude manifest candidates reasons undefined exact = .ok selection)
    (hstatus : selection.status = .established) :
    ∃ last, candidates.rule.topK ≤ exact.length ∧
      ((sortBy (rankKey candidates.rule.direction) exact).take candidates.rule.topK).getLast? =
        some last ∧
      (((sortBy (rankKey candidates.rule.direction) exact).take candidates.rule.topK).zipIdx
        1).mapM selectedRow = .ok selection.selected ∧
      ∃ values, ((outsideRows manifest reasons).mapM fun row =>
          metric (row.metrics candidates.rule.metric)) = .ok values ∧
        reaches candidates.rule.direction last.value
          (Context.default.mul (Context.default.abs last.value)
            selectionCutoffErrorBandRelativeV1) (values.filterMap id) = false := by
  unfold conclude at h
  dsimp only at h
  split at h
  · obtain rfl := Except.ok.inj h
    cases hstatus
  · rename_i hlength
    obtain ⟨last, hlast, h⟩ := Except.bind_eq_ok.mp h
    obtain ⟨values, hvalues, h⟩ := Except.bind_eq_ok.mp h
    obtain ⟨rows, hrows, h⟩ := Except.bind_eq_ok.mp h
    obtain ⟨cutoff, -, h⟩ := Except.bind_eq_ok.mp h
    obtain ⟨best, -, h⟩ := Except.bind_eq_ok.mp h
    obtain rfl := Except.ok.inj h
    refine ⟨last, not_lt.mp hlength, ?_, hrows, values, hvalues, ?_⟩
    · cases hfound : ((sortBy (rankKey candidates.rule.direction) exact).take
          candidates.rule.topK).getLast? with
      | none => rw [hfound] at hlast; cases hlast
      | some other =>
          rw [hfound] at hlast
          rw [Except.ok.inj hlast]
    · by_contra hreached
      rw [Bool.not_eq_false] at hreached
      dsimp only at hstatus
      rw [if_pos hreached] at hstatus
      cases hstatus

theorem selectedRows_ok {entries : List Entry} {rank : ℕ} {rows : List Selected}
    (hticks : ∀ entry ∈ entries, InTicks entry.value)
    (h : (entries.zipIdx rank).mapM selectedRow = .ok rows) :
    rows = (entries.zipIdx rank).map (fun item => ⟨item.2, item.1.trialId, item.1.value⟩) ∧
      ∀ entry ∈ entries, Fits 18 (10 ^ 28 - 1) entry.value := by
  induction entries generalizing rank rows with
  | nil =>
      cases h
      exact ⟨rfl, by simp⟩
  | cons entry entries ih =>
      rw [List.zipIdx_cons, List.mapM_cons] at h
      obtain ⟨row, hrow, h⟩ := Except.bind_eq_ok.mp h
      obtain ⟨rest, hrest, h⟩ := Except.bind_eq_ok.mp h
      obtain rfl := Except.ok.inj h
      unfold selectedRow at hrow
      cases hprinted : quantized entry.value with
      | error e => rw [hprinted] at hrow; cases hrow
      | ok text =>
          rw [hprinted] at hrow
          obtain rfl := Except.ok.inj hrow
          obtain ⟨rfl, hfits⟩ := quantized_inTicks (hticks entry List.mem_cons_self) hprinted
          obtain ⟨rfl, hall⟩ := ih (fun e he => hticks e (List.mem_cons_of_mem _ he)) hrest
          refine ⟨rfl, fun other hother => ?_⟩
          rcases List.mem_cons.mp hother with rfl | hother
          · exact hfits
          · exact hall other hother

theorem keyTells_exactKey {metricName : String} (direction : RankDirectionV1) :
    KeyTells (exactKey direction)
      (evaluatedEntries rerunOne study baseline manifest metricName) := by
  intro entry hentry other hother hkey
  obtain ⟨row, hrow, -, hmetric, heq⟩ := mem_evaluatedEntries.mp hentry
  obtain ⟨row', hrow', -, hmetric', heq'⟩ := mem_evaluatedEntries.mp hother
  have hhash : row.trialContentHash = row'.trialContentHash := by
    have hsnd := congrArg (fun key => (ofLex key).2) hkey
    rw [heq, heq'] at hsnd
    exact hsnd
  obtain rfl : row = row' :=
    List.inj_on_of_nodup_map manifest.trialContentHashes_nodup hrow hrow' hhash
  rw [hmetric] at hmetric'
  rw [heq, heq', Option.some.inj hmetric']

/-- Outside the rerun set the two tiers agree: a metric is defined in one exactly when it is in
the other, and then the float one is within the band of the Decimal one. -/
def TiersAgree (rerunOne : Job → Except Exn Recomputed) (study : StudySpecV1) (baseline : ℕ)
    (manifest : StudyManifestV1) (candidates : CandidateSetV1) : Prop :=
  ∀ reasons, rerunSetV1 manifest candidates = .ok reasons →
    ∀ row ∈ outsideRows manifest reasons,
      Option.Rel Close (metricValue (row.metrics candidates.rule.metric))
        (decimalMetric rerunOne study baseline candidates.rule.metric row.trialId)

/-- The first `top_k` of all the evaluated trials with a defined Decimal metric. -/
def firstOfAll (rerunOne : Job → Except Exn Recomputed) (study : StudySpecV1) (baseline : ℕ)
    (manifest : StudyManifestV1) (rule : CandidateSelectionRuleV1) : List Entry :=
  (sortBy (exactKey rule.direction)
    (evaluatedEntries rerunOne study baseline manifest rule.metric)).take rule.topK

theorem behind_cutoff {entry last : Entry} {values : List (Option Decimal)}
    (hagree : ∀ row ∈ outsideRows manifest reasons,
      Option.Rel Close (metricValue (row.metrics candidates.rule.metric))
        (decimalMetric rerunOne study baseline candidates.rule.metric row.trialId))
    (hvalues : ((outsideRows manifest reasons).mapM fun row =>
      metric (row.metrics candidates.rule.metric)) = .ok values)
    (hfits : Fits 18 (10 ^ 28 - 1) last.value)
    (hreached : reaches candidates.rule.direction last.value
      (Context.default.mul (Context.default.abs last.value) selectionCutoffErrorBandRelativeV1)
      (values.filterMap id) = false)
    (hentry : entry ∈ evaluatedEntries rerunOne study baseline manifest candidates.rule.metric)
    (houtside : (Dict.get? reasons entry.trialId).isNone) :
    candidates.rule.direction.sign * last.value < candidates.rule.direction.sign * entry.value := by
  obtain ⟨row, hrow, hout, hmetric, heq⟩ := mem_evaluatedEntries.mp hentry
  have htrial : entry.trialId = row.trialId := by rw [heq]; rfl
  have hmem : row ∈ outsideRows manifest reasons :=
    List.mem_filter.mpr ⟨hrow, decide_eq_true ⟨hout, htrial ▸ houtside⟩⟩
  have hrel := hagree row hmem
  rw [hmetric] at hrel
  obtain ⟨value, hvalue, hfound⟩ := Except.exists_of_mem_mapM hvalues hmem
  generalize row.metrics candidates.rule.metric = raw at hrel hfound
  cases raw with
  | number number =>
      obtain rfl := Except.ok.inj hfound
      have hnumber : number.value ∈ values.filterMap id :=
        List.mem_filterMap.mpr ⟨some number.value, hvalue, rfl⟩
      cases hrel with
      | some hclose => exact lt_of_close hclose (lt_of_not_reaches hfits hreached hnumber)
  | absent => cases hrel
  | flag value => cases hrel
  | nonFinite => cases hrel
  | malformed => cases hrel

/-- Where `_authoritative_selection` reports `ESTABLISHED`, what it selects is the first `top_k`
of all the evaluated trials with a defined Decimal metric, in the rule's direction and then by
trial content hash, each trial once. -/
theorem runAuthorityRerunV1_established {rule : CandidateSelectionRuleV1}
    {rerun : AuthorityRerunV1} (hfrozen : freezeCandidatesV1 manifest rule = .ok candidates)
    (htiming : study.timingLag = some baseline) (hlag : baseline ∉ sweepLagsMicros)
    (hagree : TiersAgree rerunOne study baseline manifest candidates)
    (hrun : runAuthorityRerunV1 rerunOne study manifest candidates = .ok rerun)
    (hestablished : rerun.selection.status = .established) :
    rerun.selection.selected =
        ((firstOfAll rerunOne study baseline manifest rule).zipIdx 1).map
          (fun item => ⟨item.2, item.1.trialId, item.1.value⟩) ∧
      (firstOfAll rerunOne study baseline manifest rule).length = rule.topK ∧
      ((firstOfAll rerunOne study baseline manifest rule).map Entry.trialId).Nodup := by
  obtain ⟨rfl, hevaluated⟩ := freezeCandidatesV1_ok hfrozen
  obtain ⟨-, hrun⟩ := Except.of_ite_error hrun
  obtain ⟨-, hrun⟩ := Except.of_ite_error hrun
  rw [htiming, Option.elim_some] at hrun
  obtain ⟨reasons, hreasons, hrun⟩ := Except.bind_eq_ok.mp hrun
  obtain ⟨jobs, hjobs, hrun⟩ := Except.bind_eq_ok.mp hrun
  obtain ⟨outputs, houtputs, hrun⟩ := Except.bind_eq_ok.mp hrun
  obtain ⟨selection, hselection, hrun⟩ := Except.bind_eq_ok.mp hrun
  obtain rfl := Except.ok.inj hrun
  obtain ⟨metrics, hmetrics, hselection⟩ := Except.bind_eq_ok.mp hselection
  obtain ⟨exact, hexact, hselection⟩ := Except.bind_eq_ok.mp hselection
  obtain ⟨last, hlength, hlast, hrows, values, hvalues, hreached⟩ :=
    conclude_ok hselection hestablished
  have hreruns := rerunSetV1_evaluated hevaluated hreasons
  have hperm := baselineMetrics_perm hlag (resultOf_of_mapM hjobs houtputs) hmetrics
  -- every metric the selection sorts is a number of ticks
  have hticks : ∀ entry ∈ exact, InTicks entry.value := fun entry hentry =>
    decimalMetric_inTicks ((mem_exactEntries hperm hexact).mp hentry).2.1
  obtain ⟨hselected, hfits⟩ := selectedRows_ok (fun entry hentry =>
    hticks entry (mem_sortBy.mp (List.mem_of_mem_take hentry))) hrows
  have hfirst : firstOfAll rerunOne study baseline manifest candidates.rule =
      (sortBy (rankKey candidates.rule.direction) exact).take candidates.rule.topK := by
    refine take_exactKey (keyTells_exactKey _) (evaluatedEntries_perm hreruns hperm hexact)
      hlength hticks hfits hlast fun entry hentry => ?_
    obtain ⟨hentry, houtside⟩ := List.mem_filter.mp hentry
    exact behind_cutoff (hagree reasons hreasons) hvalues
      (hfits last (List.mem_of_getLast? hlast)) hreached hentry houtside
  refine ⟨?_, ?_, ?_⟩
  · rw [hfirst]
    exact hselected
  · rw [hfirst, List.length_take, (sortBy_perm _ _).length_eq, min_eq_left hlength]
  · refine List.Sublist.nodup ((List.take_sublist _ _).map Entry.trialId) ?_
    exact ((sortBy_perm _ _).map Entry.trialId).nodup_iff.mpr nodup_evaluatedEntries

end Results

/-! ## A study of two trials, of which one is frozen -/

namespace Sample

def searchNumber (n : ℕ) (h : (n : ℤ) < 10 ^ 28) : SearchNumber :=
  ⟨n, (Fits.natCast n).roundSig_eq h⟩

def row (ordinal : ℕ) (trial hash : String) (h : (ordinal : ℤ) < 10 ^ 28) : ResultRow where
  ordinal := ordinal
  trialId := trial
  trialContentHash := hash
  resultContentHash := hash
  outcome := .evaluated
  metrics := fun _ => .number (searchNumber ordinal h)
  nearTieDecisions := 0

def manifest : StudyManifestV1 where
  studyId := "s"
  studyContentHash := "c"
  plannedTrialCount := 2
  results := [row 0 "a" "h" (by norm_num), row 1 "b" "g" (by norm_num)]
  authorityReasons := []
  manifestHash := "m"
  trialIds_nodup := by decide
  trialContentHashes_nodup := by decide

def rule : CandidateSelectionRuleV1 := ⟨"m", .higherIsBetter, 1, Nat.one_pos⟩

def study : StudySpecV1 where
  contentHash := "c"
  boundToNumericPolicy := true
  timingLag := some 1
  trials := Dict.set (Dict.set Dict.empty "a" ⟨[], "h"⟩) "b" ⟨[], "g"⟩

def rerunOne (job : Job) : Except Exn Recomputed :=
  .ok ⟨true, 0, 0, 0, fun _ => .number (if job.trialId = "a" then 0 else 10 ^ 18)⟩

def rerun : Except Exn AuthorityRerunV1 := do
  let candidates ← freezeCandidatesV1 manifest rule
  runAuthorityRerunV1 rerunOne study manifest candidates

theorem rerun_status :
    (rerun.toOption.map fun run => run.selection.status) = some .established := by
  decide +kernel

theorem tiersAgree (candidates : CandidateSetV1) :
    TiersAgree rerunOne study 1 manifest candidates := by
  intro reasons _ row hrow
  have hmem := List.mem_of_mem_filter hrow
  rcases List.mem_cons.mp hmem with rfl | hmem
  · refine .some (show Close ((0 : ℕ) : ℚ) (((0 : ℤ) : ℚ) / 10 ^ 18) from ?_)
    norm_num [Close]
  · obtain rfl := List.mem_singleton.mp hmem
    refine .some (show Close ((1 : ℕ) : ℚ) (((10 ^ 18 : ℤ) : ℚ) / 10 ^ 18) from ?_)
    norm_num [Close, selectionCutoffErrorBandRelativeV1]

end Sample

theorem runAuthorityRerunV1_established_sample :
    ∃ rerun, Sample.rerun = .ok rerun ∧
      (firstOfAll Sample.rerunOne Sample.study 1 Sample.manifest Sample.rule).length = 1 ∧
      rerun.selection.selected =
        ((firstOfAll Sample.rerunOne Sample.study 1 Sample.manifest Sample.rule).zipIdx 1).map
          fun item => ⟨item.2, item.1.trialId, item.1.value⟩ := by
  obtain ⟨rerun, hrun, hstatus⟩ := Option.map_eq_some_iff.mp Sample.rerun_status
  have hok := Except.toOption_eq_some.mp hrun
  obtain ⟨candidates, hfrozen, hrerun⟩ := Except.bind_eq_ok.mp hok
  have h := runAuthorityRerunV1_established hfrozen rfl (by decide)
    (Sample.tiersAgree candidates) hrerun hstatus
  exact ⟨rerun, hok, h.2.1, h.1⟩

end TradePlatform.StrategyLab
