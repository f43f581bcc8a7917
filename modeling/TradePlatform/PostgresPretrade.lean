/-
# `TradePlatform.PostgresPretrade` — pre-trade assessments in PostgreSQL

`PostgresPreTradeAssessmentStore` with the whole `PreTradeAssessment`: the payload that
an assessment is stored as, what is built from it on the way back, and the comparison
that decides whether an intent's assessment is the one already stored.  A text in the
payload is kept as what it spells, so a number and a timestamp are read back as written;
the payload says when an assessment was made and not when its decision was.
-/
import TradePlatform.Domain
import TradePlatform.Lib.Dict
import TradePlatform.Lib.IsoText
import TradePlatform.Lib.Replay
import TradePlatform.Lib.Run
import TradePlatform.Lib.SortBy

namespace TradePlatform

namespace PostgresPretrade

open IsoText (Stamp)

/-! ## Comparison -/

/-- `x == y and rest`, where a comparison may raise (`none`). -/
def andThen : Option Bool → Option Bool → Option Bool
  | some true, rest => rest
  | first, _ => first

def allEqual (fields : List (Option Bool)) : Option Bool := fields.foldr andThen (some true)

theorem andThen_eq_true {x y : Option Bool} :
    andThen x y = some true ↔ x = some true ∧ y = some true := by
  rcases x with _ | _ | _ <;> simp [andThen]

theorem allEqual_eq_true {fields : List (Option Bool)} :
    allEqual fields = some true ↔ ∀ field ∈ fields, field = some true := by
  induction fields with
  | nil => simp [allEqual]
  | cons field fields ih =>
      rw [List.forall_mem_cons, ← ih]
      exact andThen_eq_true

def optionEqual {α : Type} (equal : α → α → Option Bool) : Option α → Option α → Option Bool
  | none, none => some true
  | some x, some y => equal x y
  | _, _ => some false

def tupleEqual {α : Type} (equal : α → α → Option Bool) (xs ys : List α) : Option Bool :=
  andThen (allEqual (xs.zipWith equal ys)) (some (decide (xs.length = ys.length)))

def dictEqual {α : Type} (equal : α → α → Option Bool) (d e : Dict String α) : Option Bool :=
  if d.rows.length ≠ e.rows.length then some false
  else
    allEqual (d.rows.map fun entry =>
      match Dict.get? e entry.1 with
      | some value => equal entry.2 value
      | none => some false)

/-! ## Numbers and times -/

inductive DecimalNumber where
  | finite (negative : Bool) (coefficient : ℕ) (exponent : ℤ)
  | infinity (negative : Bool)
  | nan (negative : Bool) (diagnostic : ℕ)
  | snan (negative : Bool) (diagnostic : ℕ)
deriving DecidableEq

namespace DecimalNumber

def value? : DecimalNumber → Option ℚ
  | finite negative coefficient exponent =>
      some ((if negative then -1 else 1) * coefficient * 10 ^ exponent)
  | _ => none

/-- `x == y`: a NaN equals nothing, and a signaling one raises `InvalidOperation`. -/
def equal : DecimalNumber → DecimalNumber → Option Bool
  | snan _ _, _ | _, snan _ _ => none
  | nan _ _, _ | _, nan _ _ => some false
  | infinity s, infinity t => some (decide (s = t))
  | x, y => some (decide (x.value? = y.value?))

def IsNumber : DecimalNumber → Prop
  | nan _ _ | snan _ _ => False
  | _ => True

theorem equal_self {x : DecimalNumber} (h : x.IsNumber) : equal x x = some true := by
  cases x with
  | finite _ _ _ => simp [equal]
  | infinity _ => simp [equal]
  | nan _ _ => exact h.elim
  | snan _ _ => exact h.elim

theorem isNumber_of_equal {x y : DecimalNumber} (h : equal x y = some true) : y.IsNumber := by
  cases y with
  | finite _ _ _ => trivial
  | infinity _ => trivial
  | nan _ _ => cases x <;> cases h
  | snan _ _ => cases x <;> cases h

end DecimalNumber

/-- The text of a `datetime`: its wall clock, with the offset of an aware one. -/
inductive DateTimeText where
  | aware (stamp : Stamp)
  | naive (wall : ℤ)
deriving DecidableEq

/-- A `datetime`; `repeated` when its zone skips or repeats the hour of its wall clock. -/
structure PyDateTime where
  text : DateTimeText
  repeated : Bool := false
deriving DecidableEq

namespace PyDateTime

def isoformat (time : PyDateTime) : DateTimeText := time.text

/-- `datetime.fromisoformat`, which knows of no zone but a fixed offset. -/
def fromisoformat (text : DateTimeText) : PyDateTime := ⟨text, false⟩

/-- `x == y`, of times in different zones: aware times by their instants, but a repeated
time equals none; an aware time and a naive one differ. -/
def equal (x y : PyDateTime) : Bool :=
  match x.text, y.text with
  | .aware s, .aware t => !x.repeated && !y.repeated && decide (s.instant = t.instant)
  | .naive s, .naive t => decide (s = t)
  | _, _ => false

def Unambiguous (time : PyDateTime) : Prop := ∀ stamp, time.text = .aware stamp →
  time.repeated = false

theorem equal_of_equal {x y z : PyDateTime} (hy : equal x y = true) (hz : equal x z = true) :
    equal y z = true := by
  unfold equal at *
  cases hx : x.text <;> cases hy' : y.text <;> cases hz' : z.text <;> simp_all

theorem unambiguous_of_equal {x y : PyDateTime} (h : equal x y = true) : y.Unambiguous := by
  intro stamp hy
  unfold equal at h
  rw [hy] at h
  cases hx : x.text with
  | aware s =>
      rw [hx] at h
      simp only [Bool.and_eq_true, Bool.not_eq_true'] at h
      exact h.1.2
  | naive s =>
      rw [hx] at h
      cases h

theorem unambiguous_of_equal_left {x y : PyDateTime} (h : equal x y = true) :
    x.Unambiguous := by
  intro stamp hx
  unfold equal at h
  rw [hx] at h
  cases hy : y.text with
  | aware s =>
      rw [hy] at h
      simp only [Bool.and_eq_true, Bool.not_eq_true'] at h
      exact h.1.1
  | naive s =>
      rw [hy] at h
      cases h

theorem equal_restored {time : PyDateTime} (h : time.Unambiguous) :
    equal (fromisoformat time.isoformat) time = true := by
  unfold equal fromisoformat isoformat
  cases ht : time.text with
  | aware s => simp [h s ht]
  | naive s => simp

theorem equal_restored_of_equal {x y : PyDateTime} (h : equal x y = true) :
    equal (fromisoformat x.isoformat) y = true := by
  unfold equal fromisoformat isoformat at *
  cases hx : x.text <;> cases hy : y.text <;> simp_all

end PyDateTime

/-! ## The records of an assessment -/

structure StressResult where
  scenario : String
  loss : DecimalNumber
  contributions : Dict String DecimalNumber

structure PortfolioRiskDecision where
  approved : Bool
  reasons : List String
  gross : DecimalNumber
  net : DecimalNumber
  stressLoss : DecimalNumber
  varLoss : Option DecimalNumber
  cvarLoss : Option DecimalNumber
  drawdownLoss : Option DecimalNumber
  stressResults : List StressResult := []

structure RiskDecision where
  decisionId : UUID
  intentId : UUID
  decision : RiskDecisionType
  reasons : List String
  decidedAt : PyDateTime

structure PreTradeInputEvidence where
  marketReference : String
  marketObservedAt : PyDateTime
  haltReference : String
  haltObservedAt : PyDateTime
  eventReference : String
  eventObservedAt : PyDateTime
  slippageReference : String
  slippageObservedAt : PyDateTime
  exposureReference : String
  exposureObservedAt : PyDateTime
  projectedExposureDigest : String
  returnHistoryReference : String := ""
  returnHistoryObservedAt : Option PyDateTime := none

/-- The fields of a `PerTradeRiskEvidence`, before `__post_init__`. -/
structure PerTradeFields where
  entryPrice : DecimalNumber
  stopPrice : DecimalNumber
  stopDistanceFraction : DecimalNumber
  lossAtStop : DecimalNumber
  gapBufferFraction : DecimalNumber
  gapAdjustedStopPrice : DecimalNumber
  gapAdjustedLoss : DecimalNumber
  maximumPerTradeLoss : DecimalNumber
  maximumStopDistanceFraction : DecimalNumber
deriving DecidableEq

namespace PerTradeFields

def numbers (fields : PerTradeFields) : List DecimalNumber :=
  [fields.entryPrice, fields.stopPrice, fields.stopDistanceFraction, fields.lossAtStop,
    fields.gapBufferFraction, fields.gapAdjustedStopPrice, fields.gapAdjustedLoss,
    fields.maximumPerTradeLoss, fields.maximumStopDistanceFraction]

def Valid (fields : PerTradeFields) : Prop :=
  (∀ number ∈ fields.numbers, number.value?.isSome = true) ∧
  fields.entryPrice.value?.all (0 < ·) = true ∧ fields.stopPrice.value?.all (0 < ·) = true ∧
  fields.gapAdjustedStopPrice.value?.all (0 < ·) = true ∧
  fields.lossAtStop.value?.all (0 ≤ ·) = true ∧ fields.gapAdjustedLoss.value?.all (0 ≤ ·) = true ∧
  fields.maximumPerTradeLoss.value?.all (0 < ·) = true ∧
  fields.stopDistanceFraction.value?.all (0 ≤ ·) = true ∧
  fields.gapBufferFraction.value?.all (fun value => 0 ≤ value ∧ value < 1) = true ∧
  fields.maximumStopDistanceFraction.value?.all (fun value => 0 < value ∧ value ≤ 1) = true

instance (fields : PerTradeFields) : Decidable fields.Valid :=
  inferInstanceAs (Decidable (_ ∧ _))

end PerTradeFields

structure PerTradeRiskEvidence where
  fields : PerTradeFields
  valid : fields.Valid

structure PreTradeAssessment where
  assessmentId : UUID
  riskDecision : RiskDecision
  portfolioDecision : Option PortfolioRiskDecision
  evidenceBlockReason : Option String
  assessedAt : PyDateTime
  riskPolicyVersion : String
  portfolioPolicyVersion : String
  riskPolicyDigest : String
  portfolioPolicyDigest : String
  inputEvidence : Option PreTradeInputEvidence
  perTradeRisk : Option PerTradeRiskEvidence

/-! ## Equality of assessments -/

section Equality

def same {α : Type} [DecidableEq α] (x y : α) : Option Bool := some (decide (x = y))

def sameTime (x y : PyDateTime) : Option Bool := some (x.equal y)

def StressResult.equal (x y : StressResult) : Option Bool :=
  allEqual [same x.scenario y.scenario, DecimalNumber.equal x.loss y.loss,
    dictEqual DecimalNumber.equal x.contributions y.contributions]

def PortfolioRiskDecision.equal (x y : PortfolioRiskDecision) : Option Bool :=
  allEqual [same x.approved y.approved, same x.reasons y.reasons,
    DecimalNumber.equal x.gross y.gross, DecimalNumber.equal x.net y.net,
    DecimalNumber.equal x.stressLoss y.stressLoss,
    optionEqual DecimalNumber.equal x.varLoss y.varLoss,
    optionEqual DecimalNumber.equal x.cvarLoss y.cvarLoss,
    optionEqual DecimalNumber.equal x.drawdownLoss y.drawdownLoss,
    tupleEqual StressResult.equal x.stressResults y.stressResults]

def RiskDecision.equal (x y : RiskDecision) : Option Bool :=
  allEqual [same x.decisionId y.decisionId, same x.intentId y.intentId,
    same x.decision y.decision, same x.reasons y.reasons, sameTime x.decidedAt y.decidedAt]

def PreTradeInputEvidence.equal (x y : PreTradeInputEvidence) : Option Bool :=
  allEqual [same x.marketReference y.marketReference,
    sameTime x.marketObservedAt y.marketObservedAt, same x.haltReference y.haltReference,
    sameTime x.haltObservedAt y.haltObservedAt, same x.eventReference y.eventReference,
    sameTime x.eventObservedAt y.eventObservedAt, same x.slippageReference y.slippageReference,
    sameTime x.slippageObservedAt y.slippageObservedAt,
    same x.exposureReference y.exposureReference,
    sameTime x.exposureObservedAt y.exposureObservedAt,
    same x.projectedExposureDigest y.projectedExposureDigest,
    same x.returnHistoryReference y.returnHistoryReference,
    optionEqual sameTime x.returnHistoryObservedAt y.returnHistoryObservedAt]

def PerTradeRiskEvidence.equal (x y : PerTradeRiskEvidence) : Option Bool :=
  allEqual (x.fields.numbers.zipWith DecimalNumber.equal y.fields.numbers)

def PreTradeAssessment.equal (x y : PreTradeAssessment) : Option Bool :=
  allEqual [same x.assessmentId y.assessmentId, x.riskDecision.equal y.riskDecision,
    optionEqual PortfolioRiskDecision.equal x.portfolioDecision y.portfolioDecision,
    same x.evidenceBlockReason y.evidenceBlockReason, sameTime x.assessedAt y.assessedAt,
    same x.riskPolicyVersion y.riskPolicyVersion,
    same x.portfolioPolicyVersion y.portfolioPolicyVersion,
    same x.riskPolicyDigest y.riskPolicyDigest,
    same x.portfolioPolicyDigest y.portfolioPolicyDigest,
    optionEqual PreTradeInputEvidence.equal x.inputEvidence y.inputEvidence,
    optionEqual PerTradeRiskEvidence.equal x.perTradeRisk y.perTradeRisk]

end Equality

/-! ## The payload -/

structure StressResultPayload where
  scenario : String
  loss : DecimalNumber
  contributions : Dict String DecimalNumber

structure PortfolioPayload where
  approved : Bool
  reasons : List String
  gross : DecimalNumber
  net : DecimalNumber
  stressLoss : DecimalNumber
  varLoss : Option DecimalNumber
  cvarLoss : Option DecimalNumber
  drawdownLoss : Option DecimalNumber
  stressResults : List StressResultPayload

structure RiskPayload where
  decisionId : UUID
  intentId : UUID
  decision : RiskDecisionType
  reasons : List String

structure InputEvidencePayload where
  marketReference : String
  marketObservedAt : DateTimeText
  haltReference : String
  haltObservedAt : DateTimeText
  eventReference : String
  eventObservedAt : DateTimeText
  slippageReference : String
  slippageObservedAt : DateTimeText
  exposureReference : String
  exposureObservedAt : DateTimeText
  projectedExposureDigest : String
  returnHistoryReference : String
  returnHistoryObservedAt : Option DateTimeText

structure AssessmentPayload where
  assessmentId : UUID
  riskDecision : RiskPayload
  portfolioDecision : Option PortfolioPayload
  evidenceBlockReason : Option String
  assessedAt : DateTimeText
  riskPolicyVersion : String
  portfolioPolicyVersion : String
  riskPolicyDigest : String
  portfolioPolicyDigest : String
  inputEvidence : Option InputEvidencePayload
  perTradeRisk : Option PerTradeFields

def sortedDict {α : Type} (d : Dict String α) : Dict String α where
  rows := sortBy Prod.fst d.rows
  nodup := ((sortBy_perm Prod.fst d.rows).map Prod.fst).nodup_iff.mpr d.nodup

def StressResult.payload (result : StressResult) : StressResultPayload :=
  ⟨result.scenario, result.loss, sortedDict result.contributions⟩

def PortfolioRiskDecision.payload (portfolio : PortfolioRiskDecision) : PortfolioPayload where
  approved := portfolio.approved
  reasons := portfolio.reasons
  gross := portfolio.gross
  net := portfolio.net
  stressLoss := portfolio.stressLoss
  varLoss := portfolio.varLoss
  cvarLoss := portfolio.cvarLoss
  drawdownLoss := portfolio.drawdownLoss
  stressResults := portfolio.stressResults.map StressResult.payload

def PreTradeInputEvidence.toPayload (evidence : PreTradeInputEvidence) : InputEvidencePayload where
  marketReference := evidence.marketReference
  marketObservedAt := evidence.marketObservedAt.isoformat
  haltReference := evidence.haltReference
  haltObservedAt := evidence.haltObservedAt.isoformat
  eventReference := evidence.eventReference
  eventObservedAt := evidence.eventObservedAt.isoformat
  slippageReference := evidence.slippageReference
  slippageObservedAt := evidence.slippageObservedAt.isoformat
  exposureReference := evidence.exposureReference
  exposureObservedAt := evidence.exposureObservedAt.isoformat
  projectedExposureDigest := evidence.projectedExposureDigest
  returnHistoryReference := evidence.returnHistoryReference
  returnHistoryObservedAt := evidence.returnHistoryObservedAt.map PyDateTime.isoformat

/-- `_assessment_payload`, which is also what `digest` hashes. -/
def assessmentPayload (assessment : PreTradeAssessment) : AssessmentPayload where
  assessmentId := assessment.assessmentId
  riskDecision :=
    ⟨assessment.riskDecision.decisionId, assessment.riskDecision.intentId,
      assessment.riskDecision.decision, assessment.riskDecision.reasons⟩
  portfolioDecision := assessment.portfolioDecision.map PortfolioRiskDecision.payload
  evidenceBlockReason := assessment.evidenceBlockReason
  assessedAt := assessment.assessedAt.isoformat
  riskPolicyVersion := assessment.riskPolicyVersion
  portfolioPolicyVersion := assessment.portfolioPolicyVersion
  riskPolicyDigest := assessment.riskPolicyDigest
  portfolioPolicyDigest := assessment.portfolioPolicyDigest
  inputEvidence := assessment.inputEvidence.map PreTradeInputEvidence.toPayload
  perTradeRisk := assessment.perTradeRisk.map PerTradeRiskEvidence.fields

def StressResultPayload.result (item : StressResultPayload) : StressResult :=
  ⟨item.scenario, item.loss, item.contributions⟩

def PortfolioPayload.decision (portfolio : PortfolioPayload) : PortfolioRiskDecision where
  approved := portfolio.approved
  reasons := portfolio.reasons
  gross := portfolio.gross
  net := portfolio.net
  stressLoss := portfolio.stressLoss
  varLoss := portfolio.varLoss
  cvarLoss := portfolio.cvarLoss
  drawdownLoss := portfolio.drawdownLoss
  stressResults := portfolio.stressResults.map StressResultPayload.result

def InputEvidencePayload.evidence (evidence : InputEvidencePayload) : PreTradeInputEvidence where
  marketReference := evidence.marketReference
  marketObservedAt := .fromisoformat evidence.marketObservedAt
  haltReference := evidence.haltReference
  haltObservedAt := .fromisoformat evidence.haltObservedAt
  eventReference := evidence.eventReference
  eventObservedAt := .fromisoformat evidence.eventObservedAt
  slippageReference := evidence.slippageReference
  slippageObservedAt := .fromisoformat evidence.slippageObservedAt
  exposureReference := evidence.exposureReference
  exposureObservedAt := .fromisoformat evidence.exposureObservedAt
  projectedExposureDigest := evidence.projectedExposureDigest
  returnHistoryReference := evidence.returnHistoryReference
  returnHistoryObservedAt := evidence.returnHistoryObservedAt.map PyDateTime.fromisoformat

/-- `PerTradeRiskEvidence.from_payload`: the fields are checked again. -/
def perTradeFromPayload : Option PerTradeFields → Except Exn (Option PerTradeRiskEvidence)
  | none => .ok none
  | some fields =>
      if h : fields.Valid then .ok (some ⟨fields, h⟩)
      else .error (.valueError "invalid_per_trade_risk_evidence")

/-- `_assessment_from_payload`: the decision is dated by the assessment. -/
def assessmentFromPayload (payload : AssessmentPayload) : Except Exn PreTradeAssessment :=
  match perTradeFromPayload payload.perTradeRisk with
  | .error _ => .error (.valueError "invalid_postgres_pretrade_assessment_payload")
  | .ok perTradeRisk =>
      .ok
        { assessmentId := payload.assessmentId
          riskDecision :=
            ⟨payload.riskDecision.decisionId, payload.riskDecision.intentId,
              payload.riskDecision.decision, payload.riskDecision.reasons,
              .fromisoformat payload.assessedAt⟩
          portfolioDecision := payload.portfolioDecision.map PortfolioPayload.decision
          evidenceBlockReason := payload.evidenceBlockReason
          assessedAt := .fromisoformat payload.assessedAt
          riskPolicyVersion := payload.riskPolicyVersion
          portfolioPolicyVersion := payload.portfolioPolicyVersion
          riskPolicyDigest := payload.riskPolicyDigest
          portfolioPolicyDigest := payload.portfolioPolicyDigest
          inputEvidence := payload.inputEvidence.map InputEvidencePayload.evidence
          perTradeRisk }

/-! ## What is read back of an assessment -/

def PortfolioRiskDecision.numbers (portfolio : PortfolioRiskDecision) : List DecimalNumber :=
  [portfolio.gross, portfolio.net, portfolio.stressLoss] ++ portfolio.varLoss.toList ++
    portfolio.cvarLoss.toList ++ portfolio.drawdownLoss.toList ++
    portfolio.stressResults.flatMap fun result => result.loss :: Dict.values result.contributions

def PreTradeInputEvidence.times (evidence : PreTradeInputEvidence) : List PyDateTime :=
  [evidence.marketObservedAt, evidence.haltObservedAt, evidence.eventObservedAt,
    evidence.slippageObservedAt, evidence.exposureObservedAt] ++
    evidence.returnHistoryObservedAt.toList

/-- The decision was made when the assessment was, no number of the portfolio decision is a
NaN, and no zone skips or repeats a time of the evidence. -/
structure PreTradeAssessment.Restorable (assessment : PreTradeAssessment) : Prop where
  decided : PyDateTime.equal assessment.assessedAt assessment.riskDecision.decidedAt = true
  numbers : ∀ portfolio, assessment.portfolioDecision = some portfolio →
    ∀ number ∈ portfolio.numbers, number.IsNumber
  times : ∀ evidence, assessment.inputEvidence = some evidence →
    ∀ time ∈ evidence.times, time.Unambiguous

def PreTradeAssessment.restored (assessment : PreTradeAssessment) : PreTradeAssessment :=
  { assessment with
    riskDecision := { assessment.riskDecision with
      decidedAt := .fromisoformat assessment.assessedAt.isoformat }
    portfolioDecision :=
      assessment.portfolioDecision.map fun portfolio => portfolio.payload.decision
    assessedAt := .fromisoformat assessment.assessedAt.isoformat
    inputEvidence := assessment.inputEvidence.map fun evidence => evidence.toPayload.evidence }

theorem assessmentFromPayload_payload (assessment : PreTradeAssessment) :
    assessmentFromPayload (assessmentPayload assessment) = .ok assessment.restored := by
  have hper : perTradeFromPayload (assessmentPayload assessment).perTradeRisk =
      .ok assessment.perTradeRisk := by
    show perTradeFromPayload (assessment.perTradeRisk.map PerTradeRiskEvidence.fields) = _
    cases assessment.perTradeRisk with
    | none => rfl
    | some evidence => exact dif_pos evidence.valid
  unfold assessmentFromPayload
  rw [hper]
  simp only [assessmentPayload, PreTradeAssessment.restored, Option.map_map]
  rfl

theorem sortedDict_sorted {α : Type} (d : Dict String α) :
    sortedDict (sortedDict d) = sortedDict d := by
  have htells : KeyTells Prod.fst (sortedDict d).rows := fun _ hx _ hy hxy =>
    List.inj_on_of_nodup_map (sortedDict d).nodup hx hy hxy
  have hrows : (sortedDict (sortedDict d)).rows = (sortedDict d).rows :=
    sortBy_congr htells (sortBy_perm Prod.fst d.rows)
  cases hsorted : sortedDict (sortedDict d) with
  | mk rows nodup =>
      rw [hsorted] at hrows
      subst hrows
      rfl

theorem assessmentPayload_restored (assessment : PreTradeAssessment) :
    assessmentPayload assessment.restored = assessmentPayload assessment := by
  have hstress : ∀ result : StressResult, result.payload.result.payload = result.payload := by
    intro result
    simp only [StressResult.payload, StressResultPayload.result, sortedDict_sorted]
  have hportfolio : ∀ portfolio : PortfolioRiskDecision,
      portfolio.payload.decision.payload = portfolio.payload := by
    intro portfolio
    simp only [PortfolioRiskDecision.payload, PortfolioPayload.decision, List.map_map]
    congr 1
    exact List.map_congr_left fun result _ => hstress result
  have hevidence : ∀ evidence : PreTradeInputEvidence,
      evidence.toPayload.evidence.toPayload = evidence.toPayload := by
    intro evidence
    simp only [PreTradeInputEvidence.toPayload, InputEvidencePayload.evidence, Option.map_map]
    cases evidence.returnHistoryObservedAt <;> rfl
  simp only [assessmentPayload, PreTradeAssessment.restored, Option.map_map]
  congr 1
  · cases assessment.portfolioDecision with
    | none => rfl
    | some portfolio => exact congrArg some (hportfolio portfolio)
  · cases assessment.inputEvidence with
    | none => rfl
    | some evidence => exact congrArg some (hevidence evidence)

/-! ## Comparison with what is read back -/

section Comparison

variable {α : Type} {equal : α → α → Option Bool}

theorem optionEqual_some {x : Option α} {b : α} (h : optionEqual equal x (some b) = some true) :
    ∃ a, x = some a ∧ equal a b = some true := by
  cases x with
  | none => cases h
  | some a => exact ⟨a, rfl, h⟩

theorem tupleEqual_mem {xs ys : List α} (h : tupleEqual equal xs ys = some true) {b : α}
    (hb : b ∈ ys) : ∃ a ∈ xs, equal a b = some true := by
  obtain ⟨hall, hlength⟩ := andThen_eq_true.mp h
  have hlength : xs.length = ys.length := by simpa using hlength
  obtain ⟨i, hi, rfl⟩ := List.mem_iff_getElem.mp hb
  have hix : i < xs.length := by omega
  refine ⟨xs[i], List.getElem_mem hix, allEqual_eq_true.mp hall _ ?_⟩
  exact List.mem_iff_getElem.mpr ⟨i, by simp [hix, hi], by simp⟩

theorem tupleEqual_map {f : α → α} {xs : List α} (h : ∀ a ∈ xs, equal (f a) a = some true) :
    tupleEqual equal (xs.map f) xs = some true := by
  refine andThen_eq_true.mpr ⟨allEqual_eq_true.mpr fun field hfield => ?_, by simp⟩
  rw [List.zipWith_map_left, List.zipWith_self] at hfield
  obtain ⟨a, ha, rfl⟩ := List.mem_map.mp hfield
  exact h a ha

/-- Every value of a dictionary that compares equal has a counterpart: as many keys, each of
them found, are all the keys. -/
theorem dictEqual_mem {d e : Dict String α} (h : dictEqual equal d e = some true) {b : α}
    (hb : b ∈ Dict.values e) : ∃ a, equal a b = some true := by
  unfold dictEqual at h
  split at h
  · cases h
  · rename_i hlength
    have hentry : ∀ entry ∈ d.rows, ∃ value, Dict.get? e entry.1 = some value ∧
        equal entry.2 value = some true := by
      intro entry hmem
      have hfield := allEqual_eq_true.mp h _ (List.mem_map_of_mem hmem)
      split at hfield
      · rename_i value hget
        exact ⟨value, hget, hfield⟩
      · cases hfield
    have hsubset : d.rows.map Prod.fst ⊆ e.rows.map Prod.fst := by
      intro key hkey
      obtain ⟨entry, hmem, rfl⟩ := List.mem_map.mp hkey
      obtain ⟨value, hget, -⟩ := hentry entry hmem
      exact List.mem_map.mpr ⟨_, Dict.mem_rows.mpr hget, rfl⟩
    have hperm : (d.rows.map Prod.fst).Perm (e.rows.map Prod.fst) :=
      (d.nodup.subperm hsubset).perm_of_length_le (by simp [not_not.mp hlength])
    obtain ⟨key, hkey⟩ := Dict.mem_values.mp hb
    have hfound : key ∈ d.rows.map Prod.fst :=
      hperm.mem_iff.mpr (List.mem_map.mpr ⟨_, Dict.mem_rows.mpr hkey, rfl⟩)
    obtain ⟨entry, hmem, rfl⟩ := List.mem_map.mp hfound
    obtain ⟨value, hget, hequal⟩ := hentry entry hmem
    rw [hkey] at hget
    cases hget
    exact ⟨_, hequal⟩

theorem dictEqual_sortedDict {d : Dict String α}
    (h : ∀ a ∈ Dict.values d, equal a a = some true) :
    dictEqual equal (sortedDict d) d = some true := by
  unfold dictEqual
  have hlength : (sortedDict d).rows.length = d.rows.length :=
    (sortBy_perm Prod.fst d.rows).length_eq
  rw [if_neg (not_not.mpr hlength)]
  refine allEqual_eq_true.mpr fun field hfield => ?_
  obtain ⟨entry, hmem, rfl⟩ := List.mem_map.mp hfield
  have hget : Dict.get? d entry.1 = some entry.2 :=
    Dict.mem_rows.mp ((sortBy_perm Prod.fst d.rows).mem_iff.mp hmem)
  rw [hget]
  exact h _ (Dict.mem_values.mpr ⟨_, hget⟩)

end Comparison

section Records

variable {a b : PreTradeAssessment}

theorem StressResult.numbers_of_equal {x y : StressResult} (h : x.equal y = some true) :
    ∀ number ∈ y.loss :: Dict.values y.contributions, number.IsNumber := by
  simp only [StressResult.equal, allEqual_eq_true, List.forall_mem_cons] at h
  intro number hnumber
  rcases List.mem_cons.mp hnumber with rfl | hnumber
  · exact DecimalNumber.isNumber_of_equal h.2.1
  · obtain ⟨_, hequal⟩ := dictEqual_mem h.2.2.1 hnumber
    exact DecimalNumber.isNumber_of_equal hequal

theorem PortfolioRiskDecision.numbers_of_equal {x y : PortfolioRiskDecision}
    (h : x.equal y = some true) : ∀ number ∈ y.numbers, number.IsNumber := by
  have hoption : ∀ (u v : Option DecimalNumber), optionEqual DecimalNumber.equal u v = some true →
      ∀ number ∈ v.toList, number.IsNumber := by
    intro u v huv number hnumber
    rw [Option.mem_toList] at hnumber
    cases hnumber
    obtain ⟨_, -, hequal⟩ := optionEqual_some huv
    exact DecimalNumber.isNumber_of_equal hequal
  simp only [PortfolioRiskDecision.equal, allEqual_eq_true, List.forall_mem_cons] at h
  obtain ⟨-, -, hgross, hnet, hstress, hvar, hcvar, hdrawdown, hresults, -⟩ := h
  intro number hnumber
  simp only [numbers, List.mem_append, List.mem_flatMap] at hnumber
  rcases hnumber with (((hnumber | hnumber) | hnumber) | hnumber) | ⟨result, hresult, hnumber⟩
  · simp only [List.mem_cons, List.not_mem_nil, or_false] at hnumber
    rcases hnumber with rfl | rfl | rfl
    · exact DecimalNumber.isNumber_of_equal hgross
    · exact DecimalNumber.isNumber_of_equal hnet
    · exact DecimalNumber.isNumber_of_equal hstress
  · exact hoption _ _ hvar number hnumber
  · exact hoption _ _ hcvar number hnumber
  · exact hoption _ _ hdrawdown number hnumber
  · obtain ⟨_, -, hequal⟩ := tupleEqual_mem hresults hresult
    exact StressResult.numbers_of_equal hequal number hnumber

theorem PreTradeInputEvidence.times_of_equal {x y : PreTradeInputEvidence}
    (h : x.equal y = some true) : ∀ time ∈ y.times, time.Unambiguous := by
  have htime : ∀ {u v : PyDateTime}, sameTime u v = some true → v.Unambiguous :=
    fun huv => PyDateTime.unambiguous_of_equal (Option.some.inj huv)
  simp only [PreTradeInputEvidence.equal, allEqual_eq_true, List.forall_mem_cons] at h
  obtain ⟨-, hmarket, -, hhalt, -, hevent, -, hslippage, -, hexposure, -, -, hreturn, -⟩ := h
  intro time htimes
  simp only [times, List.mem_append, List.mem_cons, List.not_mem_nil, or_false,
    Option.mem_toList] at htimes
  rcases htimes with (rfl | rfl | rfl | rfl | rfl) | heq
  · exact htime hmarket
  · exact htime hhalt
  · exact htime hevent
  · exact htime hslippage
  · exact htime hexposure
  · rw [heq] at hreturn
    obtain ⟨_, -, hequal⟩ := optionEqual_some hreturn
    exact htime hequal

theorem PreTradeAssessment.restorable_of_equal (h : a.restored.equal b = some true) :
    b.Restorable := by
  simp only [PreTradeAssessment.equal, allEqual_eq_true, List.forall_mem_cons] at h
  obtain ⟨-, hrisk, hportfolio, -, hassessed, -, -, -, -, hevidence, -, -⟩ := h
  simp only [RiskDecision.equal, allEqual_eq_true, List.forall_mem_cons] at hrisk
  refine ⟨?_, fun portfolio hp => ?_, fun evidence he => ?_⟩
  · exact PyDateTime.equal_of_equal (Option.some.inj hassessed) (Option.some.inj hrisk.2.2.2.2.1)
  · rw [hp] at hportfolio
    obtain ⟨_, -, hequal⟩ := optionEqual_some hportfolio
    exact PortfolioRiskDecision.numbers_of_equal hequal
  · rw [he] at hevidence
    obtain ⟨_, -, hequal⟩ := optionEqual_some hevidence
    exact PreTradeInputEvidence.times_of_equal hequal

theorem same_self {α : Type} [DecidableEq α] (x : α) : same x x = some true :=
  congrArg some (decide_eq_true rfl)

theorem optionEqual_self {α : Type} {equal : α → α → Option Bool} {f : α → α} {x : Option α}
    (h : ∀ a, x = some a → equal (f a) a = some true) :
    optionEqual equal (x.map f) x = some true := by
  cases x with
  | none => rfl
  | some a => exact h a rfl

theorem optionNumber_self {x : Option DecimalNumber}
    (h : ∀ number ∈ x.toList, number.IsNumber) :
    optionEqual DecimalNumber.equal x x = some true := by
  cases x with
  | none => rfl
  | some number => exact DecimalNumber.equal_self (h number (by simp))

theorem StressResult.equal_restored {result : StressResult}
    (h : ∀ number ∈ result.loss :: Dict.values result.contributions, number.IsNumber) :
    result.payload.result.equal result = some true := by
  simp only [StressResult.equal, StressResult.payload, StressResultPayload.result,
    allEqual_eq_true, List.forall_mem_cons]
  refine ⟨same_self _, DecimalNumber.equal_self (h _ List.mem_cons_self), ?_,
    fun _ hnil => absurd hnil List.not_mem_nil⟩
  exact dictEqual_sortedDict fun number hnumber =>
    DecimalNumber.equal_self (h number (List.mem_cons_of_mem _ hnumber))

theorem PortfolioRiskDecision.equal_restored {portfolio : PortfolioRiskDecision}
    (h : ∀ number ∈ portfolio.numbers, number.IsNumber) :
    portfolio.payload.decision.equal portfolio = some true := by
  simp only [numbers, List.mem_append, List.mem_flatMap, or_imp, forall_and] at h
  obtain ⟨⟨⟨⟨hfirst, hvar⟩, hcvar⟩, hdrawdown⟩, hresults⟩ := h
  simp only [PortfolioRiskDecision.equal, PortfolioRiskDecision.payload,
    PortfolioPayload.decision, allEqual_eq_true, List.forall_mem_cons, List.map_map]
  refine ⟨same_self _, same_self _, DecimalNumber.equal_self (hfirst _ (by simp)),
    DecimalNumber.equal_self (hfirst _ (by simp)), DecimalNumber.equal_self (hfirst _ (by simp)),
    optionNumber_self hvar, optionNumber_self hcvar, optionNumber_self hdrawdown, ?_,
    fun _ hnil => absurd hnil List.not_mem_nil⟩
  refine tupleEqual_map fun result hresult => StressResult.equal_restored fun number hnumber => ?_
  exact hresults number ⟨result, hresult, hnumber⟩

theorem PreTradeInputEvidence.equal_restored {evidence : PreTradeInputEvidence}
    (h : ∀ time ∈ evidence.times, time.Unambiguous) :
    evidence.toPayload.evidence.equal evidence = some true := by
  have htime : ∀ time ∈ evidence.times,
      sameTime (.fromisoformat time.isoformat) time = some true :=
    fun time ht => congrArg some (PyDateTime.equal_restored (h time ht))
  simp only [times, List.mem_append, List.mem_cons, List.not_mem_nil, or_false, or_imp,
    forall_and, forall_eq] at htime
  obtain ⟨⟨hmarket, hhalt, hevent, hslippage, hexposure⟩, hreturn⟩ := htime
  simp only [PreTradeInputEvidence.equal, PreTradeInputEvidence.toPayload,
    InputEvidencePayload.evidence, allEqual_eq_true, List.forall_mem_cons, Option.map_map]
  refine ⟨same_self _, hmarket, same_self _, hhalt, same_self _, hevent, same_self _, hslippage,
    same_self _, hexposure, same_self _, same_self _, ?_,
    fun _ hnil => absurd hnil List.not_mem_nil⟩
  exact optionEqual_self fun time ht => hreturn time (by simp [ht])

theorem PerTradeRiskEvidence.equal_self (evidence : PerTradeRiskEvidence) :
    evidence.equal evidence = some true := by
  unfold PerTradeRiskEvidence.equal
  rw [List.zipWith_self]
  refine allEqual_eq_true.mpr fun field hfield => ?_
  obtain ⟨number, hnumber, rfl⟩ := List.mem_map.mp hfield
  refine DecimalNumber.equal_self ?_
  have hfinite := evidence.valid.1 number hnumber
  cases number with
  | finite _ _ _ => trivial
  | infinity _ => trivial
  | nan _ _ => cases hfinite
  | snan _ _ => cases hfinite

theorem PreTradeAssessment.Restorable.equal_restored (h : a.Restorable) :
    a.restored.equal a = some true := by
  simp only [PreTradeAssessment.equal, PreTradeAssessment.restored, RiskDecision.equal,
    allEqual_eq_true, List.forall_mem_cons]
  have hnil : ∀ field ∈ ([] : List (Option Bool)), field = some true :=
    fun _ hnil => absurd hnil List.not_mem_nil
  refine ⟨same_self _, ?_, ?_, same_self _, ?_, same_self _, same_self _, same_self _,
    same_self _, ?_, ?_, hnil⟩
  · exact ⟨same_self _, same_self _, same_self _, same_self _,
      congrArg some (PyDateTime.equal_restored_of_equal h.decided), hnil⟩
  · exact optionEqual_self fun portfolio hp =>
      PortfolioRiskDecision.equal_restored (h.numbers portfolio hp)
  · exact congrArg some
      (PyDateTime.equal_restored (PyDateTime.unambiguous_of_equal_left h.decided))
  · exact optionEqual_self fun evidence he =>
      PreTradeInputEvidence.equal_restored (h.times evidence he)
  · cases a.perTradeRisk with
    | none => rfl
    | some evidence => exact evidence.equal_self

end Records

/-! ## The store -/

section Store

variable {Digest Mac : Type} [DecidableEq Digest] [DecidableEq Mac]

structure AssessmentRow (Digest Mac : Type) where
  assessmentId : UUID
  intentId : UUID
  assessmentDigest : Digest
  assessmentMac : Mac
  assessedAt : DateTimeText
  payload : AssessmentPayload

abbrev AssessmentTable (Digest Mac : Type) := Table (@AssessmentRow.intentId Digest Mac)

variable (sha256 : AssessmentPayload → Digest) (hmac : Digest → Mac)

def PreTradeAssessment.digest (assessment : PreTradeAssessment) : Digest :=
  sha256 (assessmentPayload assessment)

def PreTradeAssessment.row (assessment : PreTradeAssessment) : AssessmentRow Digest Mac where
  assessmentId := assessment.assessmentId
  intentId := assessment.riskDecision.intentId
  assessmentDigest := assessment.digest sha256
  assessmentMac := hmac (assessment.digest sha256)
  assessedAt := assessment.assessedAt.isoformat
  payload := assessmentPayload assessment

def verify (row : AssessmentRow Digest Mac) : Except Exn PreTradeAssessment := do
  let assessment ← assessmentFromPayload row.payload
  if assessment.digest sha256 ≠ row.assessmentDigest then
    .error (.valueError "pretrade_assessment_digest_mismatch")
  else if hmac row.assessmentDigest ≠ row.assessmentMac then
    .error (.valueError "pretrade_assessment_mac_mismatch")
  else return assessment

def append (table : AssessmentTable Digest Mac) (assessment : PreTradeAssessment) :
    Except Exn (AssessmentTable Digest Mac) :=
  match table.find? assessment.riskDecision.intentId with
  | some existing => do
      let recovered ← verify sha256 hmac existing
      match recovered.equal assessment with
      | some true => return table
      | some false => .error (.valueError "duplicate_pretrade_assessment_intent_conflict")
      | none => .error (.valueError "postgres_pretrade_assessment_persistence_failed")
  | none =>
      if ∃ row ∈ table.rows, row.assessmentId = assessment.assessmentId ∨
          row.assessmentDigest = assessment.digest sha256 then
        .error (.valueError "postgres_pretrade_assessment_persistence_failed")
      else .ok (table.put (assessment.row sha256 hmac))

def getForIntent (table : AssessmentTable Digest Mac) (intentId : UUID) :
    Except Exn (Option PreTradeAssessment) :=
  match table.find? intentId with
  | none => .ok none
  | some row => (verify sha256 hmac row).map some

structure AssessmentHistory (Digest Mac : Type) where
  table : AssessmentTable Digest Mac
  accepted : List PreTradeAssessment

def AssessmentHistory.empty : AssessmentHistory Digest Mac := ⟨.empty _, []⟩

def step (history : AssessmentHistory Digest Mac) (assessment : PreTradeAssessment) :
    AssessmentHistory Digest Mac :=
  match append sha256 hmac history.table assessment with
  | .ok table => ⟨table, history.accepted ++ [assessment]⟩
  | .error _ => history

/-- Appending the assessment again is accepted and changes nothing, and reading its intent
gives an assessment equal to it. -/
def KeepsAssessment (table : AssessmentTable Digest Mac) (assessment : PreTradeAssessment) :
    Prop :=
  append sha256 hmac table assessment = .ok table ∧
    ∃ recovered, getForIntent sha256 hmac table assessment.riskDecision.intentId =
      .ok (some recovered) ∧ recovered.equal assessment = some true

/-! ## Runs of the store -/

variable {sha256 hmac} {table table' : AssessmentTable Digest Mac}
  {assessment : PreTradeAssessment} {history : AssessmentHistory Digest Mac}

theorem verify_row (assessment : PreTradeAssessment) :
    verify sha256 hmac (assessment.row sha256 hmac) = .ok assessment.restored := by
  have hdigest : assessment.restored.digest sha256 = assessment.digest sha256 :=
    congrArg sha256 (assessmentPayload_restored assessment)
  unfold verify
  rw [show (assessment.row sha256 hmac).payload = assessmentPayload assessment from rfl,
    assessmentFromPayload_payload, Except.ok_bind]
  exact (if_neg (not_not.mpr hdigest)).trans (if_neg (not_not.mpr rfl))

theorem append_eq_ok (h : append sha256 hmac table assessment = .ok table') :
    (∃ row recovered, table.find? assessment.riskDecision.intentId = some row ∧
        verify sha256 hmac row = .ok recovered ∧ recovered.equal assessment = some true ∧
        table' = table) ∨
      table.find? assessment.riskDecision.intentId = none ∧
        table' = table.put (assessment.row sha256 hmac) := by
  unfold append at h
  split at h
  · rename_i row hrow
    obtain ⟨recovered, hverify, h⟩ := Except.bind_eq_ok.mp h
    split at h
    · rename_i hequal
      cases h
      exact .inl ⟨row, recovered, hrow, hverify, hequal, rfl⟩
    · cases h
    · cases h
  · rename_i hrow
    split at h
    · cases h
    · cases h
      exact .inr ⟨hrow, rfl⟩

/-- The table was written by accepted calls, and it has a row for every accepted assessment:
its own, or one read back as an equal assessment. -/
structure Recorded (sha256 : AssessmentPayload → Digest) (hmac : Digest → Mac)
    (history : AssessmentHistory Digest Mac) : Prop where
  inserted : ∀ row ∈ history.table.rows, ∃ a : PreTradeAssessment, row = a.row sha256 hmac
  stored : ∀ a ∈ history.accepted, ∃ row,
    history.table.find? a.riskDecision.intentId = some row ∧
      (row = a.row sha256 hmac ∨
        ∃ recovered, verify sha256 hmac row = .ok recovered ∧ recovered.equal a = some true)

theorem Recorded.step (h : Recorded sha256 hmac history) (assessment : PreTradeAssessment) :
    Recorded sha256 hmac (step sha256 hmac history assessment) := by
  unfold PostgresPretrade.step
  split
  · rename_i table' happend
    rcases append_eq_ok happend with ⟨row, recovered, hrow, hverify, hequal, rfl⟩ | ⟨hrow, rfl⟩
    · refine ⟨h.inserted, fun a ha => ?_⟩
      rcases List.mem_append.mp ha with ha | ha
      · exact h.stored a ha
      · rw [List.mem_singleton.mp ha]
        exact ⟨row, hrow, .inr ⟨recovered, hverify, hequal⟩⟩
    · refine ⟨fun row hmem => ?_, fun a ha => ?_⟩
      · rcases Table.mem_put.mp hmem with rfl | ⟨hmem, -⟩
        · exact ⟨assessment, rfl⟩
        · exact h.inserted row hmem
      · rcases List.mem_append.mp ha with ha | ha
        · obtain ⟨row, hfound, hstored⟩ := h.stored a ha
          refine ⟨row, ?_, hstored⟩
          rw [Table.find?_put_of_ne ?_]
          · exact hfound
          · intro heq
            have heq : assessment.riskDecision.intentId = a.riskDecision.intentId := heq
            rw [← heq, hrow] at hfound
            cases hfound
        · rw [List.mem_singleton.mp ha]
          exact ⟨assessment.row sha256 hmac, Table.find?_put_self _ _, .inl rfl⟩
  · exact h

theorem recorded_run (calls : List PreTradeAssessment) :
    Recorded sha256 hmac (Run.exec (step sha256 hmac) .empty calls) :=
  Run.exec_inv (fun _ assessment h => h.step assessment) calls
    ⟨fun _ hmem => absurd hmem List.not_mem_nil, fun _ hmem => absurd hmem List.not_mem_nil⟩

theorem keepsAssessment_of_verify {row : AssessmentRow Digest Mac}
    {recovered : PreTradeAssessment}
    (hrow : table.find? assessment.riskDecision.intentId = some row)
    (hverify : verify sha256 hmac row = .ok recovered) :
    KeepsAssessment sha256 hmac table assessment ↔ recovered.equal assessment = some true := by
  unfold KeepsAssessment append getForIntent
  rw [hrow]
  dsimp only
  rw [hverify, Except.ok_bind]
  constructor
  · rintro ⟨-, read, hread, hequal⟩
    cases hread
    exact hequal
  · intro hequal
    rw [hequal]
    exact ⟨rfl, recovered, rfl, hequal⟩

/-- In every state that calls of `append` lead to, an accepted assessment is kept exactly
when it is restorable. -/
theorem keepsAssessment_iff (sha256 : AssessmentPayload → Digest) (hmac : Digest → Mac)
    (calls : List PreTradeAssessment) (assessment : PreTradeAssessment)
    (ha : assessment ∈ (Run.exec (step sha256 hmac) .empty calls).accepted) :
    KeepsAssessment sha256 hmac (Run.exec (step sha256 hmac) .empty calls).table assessment ↔
      assessment.Restorable := by
  have hrecorded : Recorded sha256 hmac _ := recorded_run calls
  obtain ⟨row, hrow, hstored⟩ := hrecorded.stored assessment ha
  rcases hstored with rfl | ⟨recovered, hverify, hequal⟩
  · rw [keepsAssessment_of_verify hrow (verify_row assessment)]
    exact ⟨PreTradeAssessment.restorable_of_equal, fun h => h.equal_restored⟩
  · refine iff_of_true ((keepsAssessment_of_verify hrow hverify).mpr hequal) ?_
    -- the row was inserted for an assessment, which it is read back as
    obtain ⟨inserted, rfl⟩ := hrecorded.inserted row (Table.mem_of_find? hrow)
    rw [verify_row] at hverify
    cases hverify
    exact PreTradeAssessment.restorable_of_equal hequal

end Store

/-- A rejection for want of a policy, as `policy_reject` builds it: decided at 12:00:00, the
time it was asked about, and assessed a microsecond later. -/
def policyRejection : PreTradeAssessment where
  assessmentId := 1
  riskDecision := ⟨2, 3, .reject, ["risk_policy_evidence_unavailable:unknown_policy_version"],
    ⟨.aware (.ofShown 2026 7 1 12 0 0 0 0), false⟩⟩
  portfolioDecision := none
  evidenceBlockReason := some "risk_policy_evidence_unavailable:unknown_policy_version"
  assessedAt := ⟨.aware (.ofShown 2026 7 1 12 0 0 1 0), false⟩
  riskPolicyVersion := "risk:v1"
  portfolioPolicyVersion := "portfolio:v1"
  riskPolicyDigest := ""
  portfolioPolicyDigest := ""
  inputEvidence := none
  perTradeRisk := none

/-- The store that the rejection was appended to, with digests that tell assessments apart by
their ids. -/
def rejectionHistory : AssessmentHistory UUID UUID :=
  Run.exec (step (fun payload => payload.assessmentId) id) .empty [policyRejection]

theorem rejectionHistory_eq : rejectionHistory =
    ⟨(Table.empty _).put (policyRejection.row (fun payload => payload.assessmentId) id),
      [policyRejection]⟩ := rfl

theorem keepsAssessment_iff_rejection :
    KeepsAssessment (fun payload => payload.assessmentId) id rejectionHistory.table
        policyRejection ↔ policyRejection.Restorable :=
  keepsAssessment_iff _ _ [policyRejection] policyRejection (List.mem_singleton_self _)

/-- The rejection is stored; to append it again is a conflict, and its intent is read as an
assessment whose decision was made when it was assessed. -/
theorem rejection_conflicts_with_itself :
    policyRejection ∈ rejectionHistory.accepted ∧
    append (fun payload => payload.assessmentId) id rejectionHistory.table policyRejection =
      .error (.valueError "duplicate_pretrade_assessment_intent_conflict") ∧
    getForIntent (fun payload => payload.assessmentId) id rejectionHistory.table 3 =
      .ok (some policyRejection.restored) ∧
    policyRejection.restored.equal policyRejection = some false := by
  have hequal : policyRejection.restored.equal policyRejection = some false := by decide +kernel
  have hrow : rejectionHistory.table.find? 3 =
      some (policyRejection.row (fun payload => payload.assessmentId) id) := rfl
  refine ⟨rejectionHistory_eq ▸ List.mem_singleton_self _, ?_, ?_, hequal⟩
  · unfold append
    rw [show policyRejection.riskDecision.intentId = 3 from rfl, hrow]
    dsimp only
    rw [verify_row, Except.ok_bind, hequal]
  · unfold getForIntent
    rw [hrow]
    dsimp only
    rw [verify_row]
    rfl

end PostgresPretrade

end TradePlatform
