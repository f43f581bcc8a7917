/-
# `TradePlatform.PretradeAssessment` — assessments through one SQLite runtime

`assess_pretrade` and `PaperRuntime.assess` without a durable risk store.  What the
stores of evidence answer is an input of a call; the assessments are the only state that
outlives it, since every call builds its own `RiskEngine`.  The daily budget of that
engine is empty each time, so it bounds one notional and not the day.
-/
import TradePlatform.RiskEngine
import TradePlatform.Lib.Budget
import TradePlatform.Lib.Run
import TradePlatform.PaperExecution

namespace TradePlatform

structure PortfolioRiskDecision where
  approved : Bool
  reasons : List String
deriving DecidableEq

structure PreTradeAssessment where
  assessmentId : UUID
  riskDecision : RiskDecision
  portfolioDecision : Option PortfolioRiskDecision
  evidenceBlockReason : Option String
  assessedAt : ℤ
deriving DecidableEq

namespace PreTradeAssessment

def intentId (assessment : PreTradeAssessment) : UUID := assessment.riskDecision.intentId

def approved (assessment : PreTradeAssessment) : Bool :=
  assessment.evidenceBlockReason.isNone &&
    decide (assessment.riskDecision.decision = .approve) &&
    assessment.portfolioDecision.any PortfolioRiskDecision.approved

/-- What a row of `pretrade_assessments` reads back to: the decision is dated by the
assessment. -/
def stored (assessment : PreTradeAssessment) : PreTradeAssessment :=
  { assessment with
    riskDecision := { assessment.riskDecision with decidedAt := .aware assessment.assessedAt } }

end PreTradeAssessment

abbrev SQLitePreTradeAssessmentStore := Table PreTradeAssessment.intentId

def SQLitePreTradeAssessmentStore.append (s : SQLitePreTradeAssessmentStore)
    (assessment : PreTradeAssessment) : Except Exn SQLitePreTradeAssessmentStore :=
  if s.find? assessment.intentId ≠ none ∨
      ∃ row ∈ s.rows, row.assessmentId = assessment.assessmentId then
    .error (.valueError "duplicate_pretrade_assessment_intent")
  else .ok (s.put assessment.stored)

inductive PretradeEvidence where
  /-- A policy document is missing or invalid. -/
  | policyRejected (reason : String)
  /-- Evidence is missing, stale or differs from what is stored. -/
  | rejected (reason : String)
  | raised (e : Exn)
  | complete (signal : Signal) (market : MarketSnapshot) (portfolio : PortfolioState)
      (execution : Except Exn PreTradeExecutionContext)
      (portfolioDecision : Except Exn PortfolioRiskDecision)

/-- An assessment request, with what its environment answers: whether the reads of
`PaperRuntime.assess` raise, the evidence, the kill switches, the ids and the clock. -/
structure AssessCall where
  intent : OrderIntent
  observedAt : DateTime
  reads : Except Exn Unit
  evidence : PretradeEvidence
  killSwitch : Option Bool
  assessmentId : UUID
  decisionId : UUID
  now : ℤ
  expiryClock : ℤ
  decidedAt : DateTime
  assessedAt : ℤ

namespace AssessCall

variable (c : Decimal.Context) (policy : RiskPolicy) (call : AssessCall)

def riskInput (signal : Signal) (market : MarketSnapshot) (portfolio : PortfolioState)
    (execution : PreTradeExecutionContext) : RiskInput :=
  ⟨call.intent, signal, market, portfolio, some execution, call.killSwitch, call.now,
    call.expiryClock, call.decisionId, call.decidedAt⟩

def assessment : Except Exn PreTradeAssessment :=
  match call.evidence with
  | .policyRejected reason =>
      .ok ⟨call.assessmentId, ⟨call.decisionId, call.intent.intentId, .reject, [reason],
        call.observedAt⟩, none, some reason, call.assessedAt⟩
  | .rejected reason => do
      let decision ← RiskEngine.rejectUnassessable call.intent.intentId reason call.decisionId
        call.decidedAt
      pure ⟨call.assessmentId, decision, none, some reason, call.assessedAt⟩
  | .raised e => .error e
  | .complete signal market portfolio execution portfolioDecision => do
      let _ ← evaluatePerTradeRisk c call.intent signal policy
      let execution ← execution
      let (riskDecision, _) ← (RiskEngine.new policy).assess c
        (call.riskInput signal market portfolio execution)
      let portfolioDecision ← portfolioDecision
      pure ⟨call.assessmentId, riskDecision, some portfolioDecision, none, call.assessedAt⟩

/-- `assess_pretrade`, with the assessment store of the runtime. -/
def assessPretrade (s : SQLitePreTradeAssessmentStore) :
    Except Exn (PreTradeAssessment × SQLitePreTradeAssessmentStore) :=
  match s.find? call.intent.intentId with
  | some existing => .ok (existing, s)
  | none => do
      let assessment ← call.assessment c policy
      let s ← s.append assessment
      pure (assessment, s)

def assess (s : SQLitePreTradeAssessmentStore) :
    Except Exn (PreTradeAssessment × SQLitePreTradeAssessmentStore) := do
  call.reads
  call.assessPretrade c policy s

def Gates : Prop :=
  call.reads = .ok () ∧ ∃ signal market portfolio execution portfolioDecision,
    call.evidence = .complete signal market portfolio (.ok execution) (.ok portfolioDecision) ∧
    portfolioDecision.approved = true ∧
    RiskEngine.reasons c policy (call.riskInput signal market portfolio execution) = .ok []

variable {c policy call} {a : PreTradeAssessment}

theorem intentId_of_assessment (h : call.assessment c policy = .ok a) :
    a.intentId = call.intent.intentId ∧ a.assessmentId = call.assessmentId ∧
      a.assessedAt = call.assessedAt := by
  unfold assessment at h
  split at h
  · cases h
    exact ⟨rfl, rfl, rfl⟩
  · obtain ⟨decision, hd, h⟩ := Except.bind_eq_ok.mp h
    cases h
    unfold RiskEngine.rejectUnassessable at hd
    split at hd
    · cases hd
    · cases hd
      exact ⟨rfl, rfl, rfl⟩
  · cases h
  · obtain ⟨_, _, h⟩ := Except.bind_eq_ok.mp h
    obtain ⟨execution, _, h⟩ := Except.bind_eq_ok.mp h
    obtain ⟨⟨decision, engine⟩, hd, h⟩ := Except.bind_eq_ok.mp h
    obtain ⟨_, _, h⟩ := Except.bind_eq_ok.mp h
    cases h
    exact ⟨RiskEngine.intentId_of_assess hd, rfl, rfl⟩

theorem assessment_approved_iff (hreads : call.reads = .ok ()) :
    (∃ a, call.assessment c policy = .ok a ∧ a.approved = true) ↔
      call.Gates c policy ∧
        c.add 0 (call.intent.notional c) ≤ policy.maximumDailyOrderNotional := by
  unfold Gates
  rw [and_iff_right hreads]
  unfold assessment
  cases hev : call.evidence with
  | policyRejected reason => simp [PreTradeAssessment.approved]
  | rejected reason =>
      refine iff_of_false ?_ (by simp)
      rintro ⟨a, h, happ⟩
      obtain ⟨_, _, h⟩ := Except.bind_eq_ok.mp h
      cases h
      simp [PreTradeAssessment.approved] at happ
  | raised e => simp
  | complete signal market portfolio execution portfolioDecision =>
      constructor
      · rintro ⟨a, h, happ⟩
        obtain ⟨_, _, h⟩ := Except.bind_eq_ok.mp h
        obtain ⟨ctx, hctx, h⟩ := Except.bind_eq_ok.mp h
        obtain ⟨⟨decision, engine⟩, hd, h⟩ := Except.bind_eq_ok.mp h
        obtain ⟨pd, hpd, h⟩ := Except.bind_eq_ok.mp h
        cases h
        subst hctx hpd
        simp only [PreTradeAssessment.approved, Option.isNone_none, Bool.true_and,
          Option.any_some, Bool.and_eq_true, decide_eq_true_eq] at happ
        obtain ⟨hr, hle, _⟩ := RiskEngine.assess_new_approve_iff.mp ⟨engine, hd, happ.1⟩
        exact ⟨⟨signal, market, portfolio, ctx, pd, rfl, happ.2, hr⟩, hle⟩
      · rintro ⟨⟨signal, market, portfolio, ctx, pd, heq, hpd, hr⟩, hle⟩
        cases heq
        obtain ⟨engine, hd, happ⟩ := RiskEngine.assess_new_approve_iff.mpr ⟨hr, hle, rfl⟩
        obtain ⟨evidence, he⟩ := RiskEngine.perTrade_of_reasons hr
        have he : evaluatePerTradeRisk c call.intent signal policy = .ok evidence := he
        refine ⟨⟨call.assessmentId,
          RiskEngine.decisionOf (call.riskInput signal market portfolio ctx) [], some pd, none,
          call.assessedAt⟩, ?_, ?_⟩
        · show (evaluatePerTradeRisk c call.intent signal policy >>= _) = _
          rw [he]
          simp only [Except.ok_bind, hd]
          rfl
        · simp [PreTradeAssessment.approved, happ, hpd]

theorem assess_stored {s s' : SQLitePreTradeAssessmentStore} {row : PreTradeAssessment}
    (hrow : s.find? call.intent.intentId = some row)
    (h : call.assess c policy s = .ok (a, s')) : a = row ∧ s' = s := by
  obtain ⟨_, _, h⟩ := Except.bind_eq_ok.mp h
  unfold assessPretrade at h
  rw [hrow] at h
  cases h
  exact ⟨rfl, rfl⟩

theorem assess_new_iff {s s' : SQLitePreTradeAssessmentStore}
    (hnew : s.find? call.intent.intentId = none) :
    call.assess c policy s = .ok (a, s') ↔
      call.reads = .ok () ∧ call.assessment c policy = .ok a ∧
        (∀ row ∈ s.rows, row.assessmentId ≠ call.assessmentId) ∧ s' = s.put a.stored := by
  constructor
  · intro h
    obtain ⟨_, hreads, h⟩ := Except.bind_eq_ok.mp h
    unfold assessPretrade at h
    rw [hnew] at h
    obtain ⟨_, ha, h⟩ := Except.bind_eq_ok.mp h
    obtain ⟨_, happ, h⟩ := Except.bind_eq_ok.mp h
    cases h
    unfold SQLitePreTradeAssessmentStore.append at happ
    split at happ
    · cases happ
    · rename_i hfree
      cases happ
      rw [not_or] at hfree
      refine ⟨hreads, ha, fun row hrow he => hfree.2 ⟨row, hrow, ?_⟩, rfl⟩
      rw [he, (intentId_of_assessment ha).2.1]
  · rintro ⟨hreads, ha, hfree, rfl⟩
    obtain ⟨hid, haid, _⟩ := intentId_of_assessment ha
    unfold assess assessPretrade SQLitePreTradeAssessmentStore.append
    rw [hreads, hnew]
    simp only [Except.ok_bind, ha]
    rw [if_neg]
    · rfl
    · rintro (h | ⟨row, hrow, he⟩)
      · rw [hid] at h
        exact h hnew
      · exact hfree row hrow (he.trans haid)

end AssessCall

/-! ## Runs -/

structure Approval where
  intent : OrderIntent
  assessedAt : ℤ

def Approval.accountDay (approval : Approval) : String × ℤ :=
  (approval.intent.accountId, utcDate approval.assessedAt)

structure RuntimeAssessments where
  assessments : SQLitePreTradeAssessmentStore
  approvals : List Approval

namespace RuntimeAssessments

variable (c : Decimal.Context) (policy : RiskPolicy)

def empty : RuntimeAssessments := ⟨.empty _, []⟩

/-- One call of `assess`; what `assess_and_submit` does after it leaves the assessments. -/
def step (σ : RuntimeAssessments) (call : AssessCall) : RuntimeAssessments :=
  match call.assess c policy σ.assessments with
  | .error _ => σ
  | .ok (a, assessments) =>
      ⟨assessments,
        if σ.assessments.find? call.intent.intentId = none ∧ a.approved = true
        then σ.approvals ++ [⟨call.intent, call.assessedAt⟩] else σ.approvals⟩

def approved (σ : RuntimeAssessments) (accountId : String) (day : ℤ) : Decimal :=
  Budget.spent Approval.accountDay (fun approval => approval.intent.notional c) σ.approvals
    (accountId, day)

def WithinDailyLimit (σ : RuntimeAssessments) : Prop :=
  ∀ accountId day, σ.approved c accountId day ≤ policy.maximumDailyOrderNotional

/-- The condition on a call: a new intent that every other gate admits, alone within the
limit, is within it with what its account and day were approved. -/
def KeepsDailyLimit (σ : RuntimeAssessments) (call : AssessCall) : Prop :=
  σ.assessments.find? call.intent.intentId = none →
  (∀ row ∈ σ.assessments.rows, row.assessmentId ≠ call.assessmentId) →
  call.Gates c policy →
  c.add 0 (call.intent.notional c) ≤ policy.maximumDailyOrderNotional →
    σ.approved c call.intent.accountId (utcDate call.assessedAt) + call.intent.notional c ≤
      policy.maximumDailyOrderNotional

variable {c policy} {σ : RuntimeAssessments} {call : AssessCall}

theorem step_approvals :
    ((step c policy σ call).approvals = σ.approvals ++ [⟨call.intent, call.assessedAt⟩] ∧
      σ.assessments.find? call.intent.intentId = none ∧
      (∀ row ∈ σ.assessments.rows, row.assessmentId ≠ call.assessmentId) ∧
      call.Gates c policy ∧
      c.add 0 (call.intent.notional c) ≤ policy.maximumDailyOrderNotional) ∨
    ((step c policy σ call).approvals = σ.approvals ∧
      ¬ (σ.assessments.find? call.intent.intentId = none ∧
        (∀ row ∈ σ.assessments.rows, row.assessmentId ≠ call.assessmentId) ∧
        call.Gates c policy ∧
        c.add 0 (call.intent.notional c) ≤ policy.maximumDailyOrderNotional)) := by
  cases hrow : σ.assessments.find? call.intent.intentId with
  | some row =>
      refine .inr ⟨?_, by simp⟩
      unfold step
      split
      · rfl
      · exact if_neg (by simp [hrow])
  | none =>
  by_cases happ : call.reads = .ok () ∧
      (∀ row ∈ σ.assessments.rows, row.assessmentId ≠ call.assessmentId) ∧
      ∃ a, call.assessment c policy = .ok a ∧ a.approved = true
  · obtain ⟨hreads, hfree, a, ha, happ⟩ := happ
    obtain ⟨hgates, hle⟩ := (AssessCall.assessment_approved_iff hreads).mp ⟨a, ha, happ⟩
    refine .inl ⟨?_, rfl, hfree, hgates, hle⟩
    have hok := (AssessCall.assess_new_iff hrow).mpr ⟨hreads, ha, hfree, rfl⟩
    unfold step
    rw [hok]
    exact if_pos ⟨hrow, happ⟩
  · refine .inr ⟨?_, ?_⟩
    · unfold step
      split
      · rfl
      · rename_i a s' hok
        obtain ⟨hreads, ha, hfree, _⟩ := (AssessCall.assess_new_iff hrow).mp hok
        exact if_neg fun h => happ ⟨hreads, hfree, a, ha, h.2⟩
    · rintro ⟨_, hfree, hgates, hle⟩
      exact happ ⟨hgates.1, hfree,
        (AssessCall.assessment_approved_iff hgates.1).mpr ⟨hgates, hle⟩⟩

theorem withinDailyLimit_iff : σ.WithinDailyLimit c policy ↔
    Budget.Within Approval.accountDay (fun approval => approval.intent.notional c)
      policy.maximumDailyOrderNotional σ.approvals :=
  ⟨fun h k => h k.1 k.2, fun h accountId day => h (accountId, day)⟩

theorem step_withinDailyLimit_iff (h : σ.WithinDailyLimit c policy) :
    (step c policy σ call).WithinDailyLimit c policy ↔ σ.KeepsDailyLimit c policy call := by
  rw [withinDailyLimit_iff] at h ⊢
  unfold KeepsDailyLimit
  rcases step_approvals (c := c) (σ := σ) with ⟨happ, hnew, hfree, hgates, hle⟩ | ⟨happ, hno⟩
  · rw [happ, Budget.within_snoc_iff h]
    exact ⟨fun hroom _ _ _ _ => hroom, fun hkeep => hkeep hnew hfree hgates hle⟩
  · rw [happ]
    exact iff_of_true h fun hnew hfree hgates hle => absurd ⟨hnew, hfree, hgates, hle⟩ hno

/-- The daily budget holds throughout a run precisely when the limit is not negative and
every call meets the condition. -/
theorem withinDailyLimit_iff_keeps (calls : List AssessCall) :
    Run.Always (step c policy) (WithinDailyLimit c policy) empty calls ↔
      0 ≤ policy.maximumDailyOrderNotional ∧
        Run.Each (step c policy) (KeepsDailyLimit c policy) empty calls := by
  have hempty : empty.WithinDailyLimit c policy ↔ 0 ≤ policy.maximumDailyOrderNotional := by
    rw [withinDailyLimit_iff]
    exact Budget.within_nil
  have hrule : Run.Always (step c policy) (WithinDailyLimit c policy) empty calls ↔
      empty.WithinDailyLimit c policy ∧
        Run.Each (step c policy) (KeepsDailyLimit c policy) empty calls :=
    Run.always_iff_each (J := fun _ => True) (fun _ _ _ _ _ => trivial)
      (fun _ _ _ h => step_withinDailyLimit_iff h) trivial
  rw [hrule, hempty]

def orderAndDayLimit : RiskPolicy where
  minimumDataQuality := 19 / 20
  maximumSpreadFraction := 1 / 100
  maximumOrderNotional := 10000
  maximumPositionNotional := 25000
  maximumDailyOrderNotional := 10000
  maximumEventRisk := 1 / 2
  maximumExpectedSlippageFraction := 1 / 50
  maxMarketAgeSeconds := 60
  maximumPerTradeLoss := none
  maximumStopDistanceFraction := none
  stopGapBufferFraction := none

def admittedCall (intentId assessmentId : UUID) : AssessCall :=
  let intent := (PaperOrder.limit intentId .buy 60 100).intent
  { intent, assessmentId
    observedAt := .aware 0
    reads := .ok ()
    evidence := .complete
      ⟨1, intent.instrumentId, "strategy", .validated, .aware 1000, 1, .buy, none, none, none⟩
      ⟨intent.instrumentId, .aware 0, 99, 100, 100, 1⟩
      ⟨intent.accountId, [], true, true⟩
      (.ok ⟨true, false, true, 0, 0, 100000, true, true, true⟩)
      (.ok ⟨true, []⟩)
    killSwitch := some false
    decisionId := assessmentId + 1
    now := 0
    expiryClock := 0
    decidedAt := .aware 0
    assessedAt := 0 }

/-- Two intents of 6000 on one day are both approved. -/
theorem daily_limit_exceeded :
    ¬ Run.Always (step .default orderAndDayLimit) (WithinDailyLimit .default orderAndDayLimit) empty
      [admittedCall 1 10, admittedCall 2 20] := by
  intro h
  have hsum : (Run.exec (step .default orderAndDayLimit) empty
      [admittedCall 1 10, admittedCall 2 20]).approved .default "account" 0 = 12000 := by
    decide +kernel
  have hle := h.exec "account" 0
  rw [hsum] at hle
  norm_num [orderAndDayLimit] at hle

/-! ## An assessment is final -/

theorem find?_step {id : UUID} {row : PreTradeAssessment}
    (hrow : σ.assessments.find? id = some row) :
    (step c policy σ call).assessments.find? id = some row := by
  unfold step
  split
  · exact hrow
  rename_i a s' hok
  cases hstored : σ.assessments.find? call.intent.intentId with
  | some stored =>
      obtain ⟨-, rfl⟩ := AssessCall.assess_stored hstored hok
      exact hrow
  | none =>
      obtain ⟨-, ha, -, rfl⟩ := (AssessCall.assess_new_iff hstored).mp hok
      have hne : a.stored.intentId ≠ id := by
        rintro rfl
        rw [show a.stored.intentId = a.intentId from rfl,
          (AssessCall.intentId_of_assessment ha).1, hstored] at hrow
        cases hrow
      exact (Table.find?_put_of_ne hne).trans hrow

/-- Whatever calls follow, an intent keeps the assessment that it was given; and a call for it
that returns one returns that one, and writes nothing. -/
theorem assessment_is_final (calls later : List AssessCall) (id : UUID) (row : PreTradeAssessment)
    (hrow : (Run.exec (step c policy) empty calls).assessments.find? id = some row) :
    let σ := Run.exec (step c policy) empty (calls ++ later)
    σ.assessments.find? id = some row ∧
      ∀ (call : AssessCall) (a : PreTradeAssessment) (s' : SQLitePreTradeAssessmentStore),
        call.intent.intentId = id → call.assess c policy σ.assessments = .ok (a, s') →
          a = row ∧ s' = σ.assessments := by
  intro σ
  have hkept : σ.assessments.find? id = some row := by
    have hexec : σ = Run.exec (step c policy) (Run.exec (step c policy) empty calls) later :=
      List.foldl_append
    rw [hexec]
    exact @Run.exec_inv _ _ (step c policy) (fun σ => σ.assessments.find? id = some row)
      (fun _ _ h => find?_step h) _ later hrow
  refine ⟨hkept, fun call a s' hid hok => ?_⟩
  subst hid
  exact AssessCall.assess_stored hkept hok

theorem assessment_is_final_sample : ∃ row,
    let σ := Run.exec (step .default orderAndDayLimit) empty
      ([admittedCall 1 10] ++ [admittedCall 1 20])
    σ.assessments.find? 1 = some row ∧
      ∀ (call : AssessCall) (a : PreTradeAssessment) (s' : SQLitePreTradeAssessmentStore),
        call.intent.intentId = 1 →
          call.assess .default orderAndDayLimit σ.assessments = .ok (a, s') →
            a = row ∧ s' = σ.assessments := by
  have hassessed : ((Run.exec (step .default orderAndDayLimit) empty
      [admittedCall 1 10]).assessments.find? 1).isSome = true := by decide +kernel
  obtain ⟨row, hrow⟩ := Option.isSome_iff_exists.mp hassessed
  exact ⟨row, assessment_is_final _ _ 1 row hrow⟩

end RuntimeAssessments

end TradePlatform
