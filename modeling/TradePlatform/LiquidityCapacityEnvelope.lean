/-
# `TradePlatform.LiquidityCapacityEnvelope` — the ceiling and the levels of a capacity envelope

`_build_envelope` of `crypto_liquidity_capacity_v1.py`: the capital ceiling is the least of
`P * liquidity / delta` over the measured events, and a level is satisfied when the greatest of
`capital * delta / liquidity` is at most `P`.  Exactly the two are one statement; here each
product and each quotient is rounded, and they part at the levels between the bounds that the
roundings leave of the two inequalities.
-/
import TradePlatform.LiquidityCapacity
import TradePlatform.Lib.RoundingBound

namespace TradePlatform.LiquidityCapacity

open Decimal (Context Bound roundSig)

/-! ## The code -/

structure CapacityLevelEvidenceV1 where
  capital : Decimal
  maximumOrderNotional : Option Decimal
  maximumParticipation : Option Decimal
  averageParticipation : Option Decimal
  evaluatedOrderEventCount : ℕ
  unavailableOrderEventCount : ℕ
  maximumParticipationSatisfied : Bool
deriving DecidableEq

structure LiquidityCapacityEnvelopeV1 where
  liquidityMultiplier : Decimal
  capitalCeiling : Option Decimal
  capitalCeilingCoversEveryOrderEvent : Bool
  levels : List CapacityLevelEvidenceV1
deriving DecidableEq

def requiredOrderEvents (events : List LiquidityOrderEventV1) : List LiquidityOrderEventV1 :=
  events.filter fun event => decide (0 < event.exposureDelta)

/-- What an event is measured against; `none` is an unavailable event. -/
def eventLiquidity (multiplier : Decimal) (event : LiquidityOrderEventV1) : Option Decimal :=
  match event.trailingLiquidity with
  | none => none
  | some reference =>
      let liquidity := arithmeticContext.mul reference.averageDailyQuoteTurnover multiplier
      if liquidity ≤ 0 then none else some liquidity

/-- `measured`: the exposure delta of each measured event, with its liquidity. -/
def measuredEvents (multiplier : Decimal) (events : List LiquidityOrderEventV1) :
    List (Decimal × Decimal) :=
  (requiredOrderEvents events).filterMap fun event =>
    (eventLiquidity multiplier event).map fun liquidity => (event.exposureDelta, liquidity)

def unavailableEvents (multiplier : Decimal) (events : List LiquidityOrderEventV1) : ℕ :=
  (requiredOrderEvents events).countP fun event => (eventLiquidity multiplier event).isNone

def candidateCeiling (limit : Decimal) (event : Decimal × Decimal) : Decimal :=
  arithmeticContext.div (arithmeticContext.mul limit event.2) event.1

def orderNotional (capital : Decimal) (event : Decimal × Decimal) : Decimal :=
  arithmeticContext.mul capital event.1

def orderParticipation (capital : Decimal) (event : Decimal × Decimal) : Decimal :=
  arithmeticContext.div (orderNotional capital event) event.2

def greatest (values : List Decimal) : Option Decimal :=
  values.foldl (fun most value => some (most.elim value (max · value))) none

def least (values : List Decimal) : Option Decimal :=
  values.foldl (fun most value => some (most.elim value (min · value))) none

def levelEvidence (ambient : Context) (limit : Decimal) (measured : List (Decimal × Decimal))
    (unavailable : ℕ) (capital : Decimal) : CapacityLevelEvidenceV1 :=
  let participations := measured.map (orderParticipation capital)
  match greatest participations with
  | none => ⟨capital, none, none, none, 0, unavailable, false⟩
  | some worst =>
      let total := participations.foldl ambient.add 0
      ⟨capital, greatest (measured.map (orderNotional capital)), some worst,
        some (arithmeticContext.div total participations.length), participations.length,
        unavailable, decide (unavailable = 0 ∧ worst ≤ limit)⟩

def buildEnvelope (ambient : Context) (events : List LiquidityOrderEventV1)
    (capitalLevels : List Decimal) (policy : LiquidityCapacityPolicyV1) (multiplier : Decimal) :
    LiquidityCapacityEnvelopeV1 :=
  let measured := measuredEvents multiplier events
  let unavailable := unavailableEvents multiplier events
  let limit := policy.maximumParticipation
  ⟨multiplier, least (measured.map (candidateCeiling limit)), decide (unavailable = 0),
    capitalLevels.map (levelEvidence ambient limit measured unavailable)⟩

/-! ## The least and the greatest -/

section Extremes

variable {values : List Decimal} {v m : Decimal}

theorem foldl_greatest (values : List Decimal) : ∀ m : Decimal, ∃ m',
    values.foldl (fun most value => some (most.elim value (max · value))) (some m) = some m' ∧
      ∀ v, m' ≤ v ↔ m ≤ v ∧ ∀ x ∈ values, x ≤ v := by
  induction values with
  | nil => exact fun m => ⟨m, rfl, fun v => by simp⟩
  | cons x values ih =>
      intro m
      obtain ⟨m', hfold, hle⟩ := ih (max m x)
      exact ⟨m', hfold, fun v => by rw [hle, max_le_iff, List.forall_mem_cons, and_assoc]⟩

theorem greatest_spec (hne : values ≠ []) :
    ∃ m, greatest values = some m ∧ ∀ v, m ≤ v ↔ ∀ x ∈ values, x ≤ v := by
  obtain ⟨x, values, rfl⟩ := List.exists_cons_of_ne_nil hne
  obtain ⟨m, hfold, hle⟩ := foldl_greatest values x
  exact ⟨m, hfold, fun v => by rw [hle, List.forall_mem_cons]⟩

theorem foldl_least (values : List Decimal) : ∀ m : Decimal, ∃ m',
    values.foldl (fun most value => some (most.elim value (min · value))) (some m) = some m' ∧
      ∀ v, v ≤ m' ↔ v ≤ m ∧ ∀ x ∈ values, v ≤ x := by
  induction values with
  | nil => exact fun m => ⟨m, rfl, fun v => by simp⟩
  | cons x values ih =>
      intro m
      obtain ⟨m', hfold, hle⟩ := ih (min m x)
      exact ⟨m', hfold, fun v => by rw [hle, le_min_iff, List.forall_mem_cons, and_assoc]⟩

theorem least_spec (hne : values ≠ []) :
    ∃ m, least values = some m ∧ ∀ v, v ≤ m ↔ ∀ x ∈ values, v ≤ x := by
  obtain ⟨x, values, rfl⟩ := List.exists_cons_of_ne_nil hne
  obtain ⟨m, hfold, hle⟩ := foldl_least values x
  exact ⟨m, hfold, fun v => by rw [hle, List.forall_mem_cons]⟩

end Extremes

/-! ## The bounds that the roundings leave -/

section Bounds

variable {limit capital : Decimal} {event : Decimal × Decimal}

/-- The exact products `capital * delta` whose participation comes out as at most the limit. -/
def participationBound (limit liquidity : Decimal) : Bound :=
  (((Bound.atMost limit).unround 34).scale liquidity).unround 34

/-- The exact products `limit * liquidity` whose ceiling comes out as less than the capital. -/
def ceilingBound (capital delta : Decimal) : Bound :=
  (((Bound.below capital).unround 34).scale delta).unround 34

theorem orderParticipation_le_iff (hlimit : 0 < limit) (hliquidity : 0 < event.2) :
    orderParticipation capital event ≤ limit ↔
      (participationBound limit event.2).Admits (capital * event.1) := by
  have hpos : 0 < ((Bound.atMost limit).unround 34).value :=
    Bound.value_unround_pos (by norm_num) hlimit
  unfold participationBound
  rw [Bound.admits_unround (by norm_num) (mul_pos hpos hliquidity), Bound.admits_scale hliquidity,
    Bound.admits_unround (by norm_num) hlimit, Bound.admits_atMost]
  rfl

theorem candidateCeiling_lt_iff (hcapital : 0 < capital) (hdelta : 0 < event.1) :
    candidateCeiling limit event < capital ↔
      (ceilingBound capital event.1).Admits (limit * event.2) := by
  have hpos : 0 < ((Bound.below capital).unround 34).value :=
    Bound.value_unround_pos (by norm_num) hcapital
  unfold ceilingBound
  rw [Bound.admits_unround (by norm_num) (mul_pos hpos hdelta), Bound.admits_scale hdelta,
    Bound.admits_unround (by norm_num) hcapital, Bound.admits_below]
  rfl

theorem round_nonpos {x : ℚ} (h : x ≤ 0) : arithmeticContext.round x ≤ 0 := by
  have hzero : roundSig 34 0 = 0 := if_pos rfl
  rw [← hzero]
  exact Decimal.roundSig_mono (by norm_num) h

theorem orderParticipation_nonpos (hcapital : capital ≤ 0) (hpos : 0 < event.1 ∧ 0 < event.2) :
    orderParticipation capital event ≤ 0 :=
  round_nonpos (div_nonpos_of_nonpos_of_nonneg
    (round_nonpos (mul_nonpos_of_nonpos_of_nonneg hcapital hpos.1.le)) hpos.2.le)

theorem candidateCeiling_nonneg (hlimit : 0 ≤ limit) (hpos : 0 < event.1 ∧ 0 < event.2) :
    0 ≤ candidateCeiling limit event :=
  Decimal.roundSig_nonneg (by norm_num) (div_nonneg
    (Decimal.roundSig_nonneg (by norm_num) (mul_nonneg hlimit hpos.2.le)) hpos.1.le)

/-! ## When the two statements agree -/

def Agrees (envelope : LiquidityCapacityEnvelopeV1) : Prop :=
  ∀ level ∈ envelope.levels, level.maximumParticipationSatisfied = true ↔
    ∃ ceiling, envelope.capitalCeiling = some ceiling ∧ level.capital ≤ ceiling

instance (envelope : LiquidityCapacityEnvelopeV1) (capital : Decimal) :
    Decidable (∃ ceiling, envelope.capitalCeiling = some ceiling ∧ capital ≤ ceiling) :=
  match h : envelope.capitalCeiling with
  | none => isFalse (by simp)
  | some ceiling => decidable_of_iff (capital ≤ ceiling) (by simp)

instance (envelope : LiquidityCapacityEnvelopeV1) : Decidable (Agrees envelope) :=
  inferInstanceAs (Decidable (∀ level ∈ envelope.levels, _))

/-- A level that the bounds do not put on one side: either it is within the bound of the
participation at every event and beyond the bound of the ceiling at some, or neither. -/
def LevelInGap (limit : Decimal) (measured : List (Decimal × Decimal)) (capital : Decimal) : Prop :=
  0 < capital ∧
    ((∀ event ∈ measured, (participationBound limit event.2).Admits (capital * event.1)) ↔
      ∃ event ∈ measured, (ceilingBound capital event.1).Admits (limit * event.2))

instance (limit : Decimal) (measured : List (Decimal × Decimal)) (capital : Decimal) :
    Decidable (LevelInGap limit measured capital) :=
  inferInstanceAs (Decidable (_ ∧ _))

variable {ambient : Context} {events : List LiquidityOrderEventV1} {capitalLevels : List Decimal}
  {policy : LiquidityCapacityPolicyV1} {multiplier : Decimal}
  {measured : List (Decimal × Decimal)}

theorem eventLiquidity_pos {e : LiquidityOrderEventV1} {liquidity : Decimal}
    (h : eventLiquidity multiplier e = some liquidity) : 0 < liquidity := by
  unfold eventLiquidity at h
  split at h
  · cases h
  · dsimp only at h
    split at h
    · cases h
    · rename_i hpos
      cases h
      exact not_le.mp hpos

theorem measured_pos (h : event ∈ measuredEvents multiplier events) :
    0 < event.1 ∧ 0 < event.2 := by
  obtain ⟨e, he, hevent⟩ := List.mem_filterMap.mp h
  obtain ⟨liquidity, hliquidity, rfl⟩ := Option.map_eq_some_iff.mp hevent
  exact ⟨of_decide_eq_true (List.mem_filter.mp he).2, eventLiquidity_pos hliquidity⟩

theorem maximumParticipation_pos (h : policy.validate = .ok ()) :
    0 < policy.maximumParticipation := by
  unfold LiquidityCapacityPolicyV1.validate at h
  by_contra hnot
  rw [if_pos (fun hboth => hnot hboth.1 :
    ¬ (0 < policy.maximumParticipation ∧ policy.maximumParticipation ≤ 1))] at h
  split_ifs at h
  all_goals cases h

theorem levelEvidence_satisfied (hne : measured ≠ []) :
    (levelEvidence ambient limit measured 0 capital).maximumParticipationSatisfied = true ↔
      ∀ event ∈ measured, orderParticipation capital event ≤ limit := by
  obtain ⟨worst, hworst, hle⟩ :=
    greatest_spec (fun hnil => hne (List.map_eq_nil_iff.mp hnil) :
      measured.map (orderParticipation capital) ≠ [])
  unfold levelEvidence
  dsimp only
  rw [hworst]
  dsimp only
  rw [decide_eq_true_iff, and_iff_right rfl, hle, List.forall_mem_map]

theorem levelEvidence_capital (unavailable : ℕ) :
    (levelEvidence ambient limit measured unavailable capital).capital = capital := by
  unfold levelEvidence
  dsimp only
  split
  · rfl
  · rfl

theorem iff_not_iff (p q : Prop) : (p ↔ ¬ q) ↔ ¬ (p ↔ q) := by tauto

theorem level_agrees_iff (hlimit : 0 < limit) (hne : measured ≠ [])
    (hpos : ∀ event ∈ measured, 0 < event.1 ∧ 0 < event.2) :
    ((levelEvidence ambient limit measured 0 capital).maximumParticipationSatisfied = true ↔
      ∃ ceiling, least (measured.map (candidateCeiling limit)) = some ceiling ∧
        capital ≤ ceiling) ↔ ¬ LevelInGap limit measured capital := by
  obtain ⟨ceiling, hceiling, hle⟩ :=
    least_spec (fun hnil => hne (List.map_eq_nil_iff.mp hnil) :
      measured.map (candidateCeiling limit) ≠ [])
  have hexists : (∃ ceiling, least (measured.map (candidateCeiling limit)) = some ceiling ∧
      capital ≤ ceiling) ↔ ∀ event ∈ measured, capital ≤ candidateCeiling limit event := by
    rw [hceiling, ← List.forall_mem_map, ← hle]
    simp
  rw [levelEvidence_satisfied hne, hexists]
  rcases lt_or_ge 0 capital with hcapital | hcapital
  · have hwithin : (∀ event ∈ measured, orderParticipation capital event ≤ limit) ↔
        ∀ event ∈ measured, (participationBound limit event.2).Admits (capital * event.1) :=
      forall₂_congr fun event hevent => orderParticipation_le_iff hlimit (hpos event hevent).2
    have hbelow : (∀ event ∈ measured, capital ≤ candidateCeiling limit event) ↔
        ¬ ∃ event ∈ measured, (ceilingBound capital event.1).Admits (limit * event.2) := by
      rw [not_exists]
      refine forall_congr' fun event => ?_
      rw [not_and]
      refine forall_congr' fun hevent => ?_
      rw [← candidateCeiling_lt_iff hcapital (hpos event hevent).1, not_lt]
    rw [hwithin, hbelow, LevelInGap, and_iff_right hcapital]
    exact iff_not_iff _ _
  · -- without capital nothing is ordered, and the ceiling is not negative
    refine iff_of_true ?_ fun hgap => absurd hgap.1 (not_lt.mpr hcapital)
    exact iff_of_true
      (fun event hevent => (orderParticipation_nonpos hcapital (hpos event hevent)).trans hlimit.le)
      fun event hevent => hcapital.trans (candidateCeiling_nonneg hlimit.le (hpos event hevent))

/-- The satisfied levels are those up to the ceiling precisely if no level is in the gap between
the two bounds. -/
theorem buildEnvelope_agrees_iff (ambient : Context) (capitalLevels : List Decimal)
    (hpolicy : policy.validate = .ok ()) (hall : unavailableEvents multiplier events = 0)
    (hne : measuredEvents multiplier events ≠ []) :
    Agrees (buildEnvelope ambient events capitalLevels policy multiplier) ↔
      ∀ capital ∈ capitalLevels, ¬ LevelInGap policy.maximumParticipation
        (measuredEvents multiplier events) capital := by
  unfold Agrees buildEnvelope
  dsimp only
  rw [List.forall_mem_map, hall]
  refine forall₂_congr fun capital _ => ?_
  rw [levelEvidence_capital]
  exact level_agrees_iff (maximumParticipation_pos hpolicy) hne fun event => measured_pos

/-- An order of the whole exposure, measured against `liquidity`. -/
def wholeOrder (liquidity : Decimal) : LiquidityOrderEventV1 :=
  ⟨0, 0, 1, 1, some ⟨0, [], [], liquidity, liquidity, 1⟩, none⟩

def limitPolicy (limit : Decimal) : LiquidityCapacityPolicyV1 := ⟨"v1", 1, 1, limit, [1 / 2]⟩

theorem buildEnvelope_agrees_iff_tenth :
    Agrees (buildEnvelope .exact [wholeOrder 100] [5, 10, 20] (limitPolicy (1 / 10)) 1) :=
  (buildEnvelope_agrees_iff .exact [5, 10, 20] (by decide +kernel) (by decide +kernel)
    (by decide +kernel)).mpr (by decide +kernel)

/-- A third of the liquidity, to 34 digits: a capital of one is satisfied, although the ceiling is
less than one. -/
theorem a_satisfied_level_above_the_ceiling :
    let policy := limitPolicy (3333333333333333333333333333333333 / 10 ^ 34)
    policy.validate = .ok () ∧ unavailableEvents 1 [wholeOrder 3] = 0 ∧
      measuredEvents 1 [wholeOrder 3] ≠ [] ∧
      (buildEnvelope .exact [wholeOrder 3] [1] policy 1).levels.map
        CapacityLevelEvidenceV1.maximumParticipationSatisfied = [true] ∧
      (buildEnvelope .exact [wholeOrder 3] [1] policy 1).capitalCeiling =
        some (9999999999999999999999999999999999 / 10 ^ 34) ∧
      ¬ Agrees (buildEnvelope .exact [wholeOrder 3] [1] policy 1) := by
  decide +kernel

/-! ## How wide the gap is -/

end Bounds

end TradePlatform.LiquidityCapacity
