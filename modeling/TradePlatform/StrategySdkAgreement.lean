/-
# `TradePlatform.StrategySdkAgreement` — the two tiers decide alike

Whenever the search tier gives targets over admissible closes, the authoritative tier gives
the same ones; for the channels as long as the search tier reports no near tie.
-/
import TradePlatform.StrategySdkTrend
import TradePlatform.StrategySdkReversion
import TradePlatform.StrategySdkBreakout

namespace TradePlatform

namespace StrategySdk

/-- The targets of the search tier are those of the authoritative one. -/
theorem targetsDecimal_of_targetsF64 (fm : FloatModel) {κ : Type} [DecidableEq κ]
    {rows : List Row} {keys : Option (List κ)} {bars : BarsV1} {point : FamilyPoint}
    {targets : List ℤ} {ties : ℕ} (hbars : BarsV1.fromRows rows keys = .ok bars)
    (hrows : ∀ row ∈ rows, row.Admissible) (hspace : point.InSpace)
    (hadmissible : point.inadmissible = none)
    (hsearch : point.targetsF64 fm bars = .ok (targets, ties))
    (hties : ∀ params, point = .breakoutChannel params → ties = 0) :
    point.targetsDecimal bars = .ok targets := by
  have hgrid := fromRows_onGrid hbars hrows
  cases point with
  | trendMaCross params =>
      exact congrArg _
        (TrendMovingAverageCrossV1.targetsF64_eq hgrid hspace hadmissible hsearch).symm
  | meanReversionZ params =>
      exact congrArg _ (MeanReversionZScoreV1.targetsF64_eq hgrid hspace hsearch).symm
  | breakoutChannel params =>
      obtain rfl := hties params rfl
      obtain ⟨hexit, hentry⟩ := FamilyPoint.exit_lt_entry hspace hadmissible
      exact ChannelBreakoutV1.targetsF64_eq hexit hentry (Except.ok.inj hsearch)

def exactFloats : FloatModel where
  round := id
  round_err := fun x => by simpa using div_nonneg (abs_nonneg x) (by norm_num)
  price := id
  price_mono := monotone_id

def hourRows (price : ℕ → Decimal) : List Row := (List.range 60).map fun (i : ℕ) =>
  ⟨i * 60000000, (i + 1) * 60000000, price i, price i, price i, price i⟩

def quarterCross : FamilyPoint := .trendMaCross ⟨15, 60, 5 / 10000, .longShort⟩

theorem targetsDecimal_of_targetsF64_rising : ∃ bars targets ties,
    BarsV1.fromRows (κ := ℤ) (hourRows fun i => 100 + i) none = .ok bars ∧
      quarterCross.targetsF64 exactFloats bars = .ok (targets, ties) ∧
        quarterCross.targetsDecimal bars = .ok targets := by
  obtain ⟨⟨targets, ties⟩, h⟩ := Except.exists_of_isOk (x := do
    let bars ← BarsV1.fromRows (κ := ℤ) (hourRows fun i => 100 + i) none
    quarterCross.targetsF64 exactFloats bars) (by decide +kernel)
  obtain ⟨bars, hbars, hsearch⟩ := Except.bind_eq_ok.mp h
  refine ⟨bars, targets, ties, hbars, hsearch, ?_⟩
  exact targetsDecimal_of_targetsF64 exactFloats hbars
    (by unfold Row.Admissible; decide +kernel) (by decide +kernel) rfl hsearch
    (fun _ h => nomatch h)

/-- Below zero the band of the decision is negative: it is left on both sides at once, and each
tier asks for another side first. -/
theorem negative_closes_disagree : ∃ (bars : BarsV1) (searchTargets decimalTargets : List ℤ)
    (ties : ℕ), BarsV1.fromRows (κ := ℤ) (hourRows fun _ => -1) none = .ok bars ∧
      (∀ row ∈ hourRows fun _ => -1, row.close < 10 ^ 12) ∧ quarterCross.InSpace ∧
        quarterCross.inadmissible = none ∧
          quarterCross.targetsF64 exactFloats bars = .ok (searchTargets, ties) ∧
            quarterCross.targetsDecimal bars = .ok decimalTargets ∧
              searchTargets ≠ decimalTargets := by
  have h : (do
      let bars ← BarsV1.fromRows (κ := ℤ) (hourRows fun _ => -1) none
      let (searchTargets, _) ← quarterCross.targetsF64 exactFloats bars
      let decimalTargets ← quarterCross.targetsDecimal bars
      return decide (searchTargets[59]? = decimalTargets[59]?) : Except Exn Bool) = .ok false := by
    decide +kernel
  obtain ⟨bars, hbars, h⟩ := Except.bind_eq_ok.mp h
  obtain ⟨⟨searchTargets, ties⟩, hsearch, h⟩ := Except.bind_eq_ok.mp h
  obtain ⟨decimalTargets, hdecimal, h⟩ := Except.bind_eq_ok.mp h
  refine ⟨bars, searchTargets, decimalTargets, ties, hbars, by decide +kernel, by decide +kernel,
    rfl, hsearch, hdecimal, ?_⟩
  rintro rfl
  exact of_decide_eq_false (Except.pure_eq_ok.mp h) rfl

end StrategySdk

end TradePlatform
