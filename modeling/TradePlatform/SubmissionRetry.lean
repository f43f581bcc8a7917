/-
# `TradePlatform.SubmissionRetry` — an intent that is created or submitted again

`create` and `submit_after_assessment` are keyed by the intent id and answer a repetition
with the stored order, after they compared its intent with the one they were given.  The
stored intent is not the created one for ever: an amendment writes its quantity and limit
price, and the columns of PostgreSQL read some fields back in their own form.
-/
import TradePlatform.BrokerDeliveries
import TradePlatform.PretradeAssessment

namespace TradePlatform

open OrderStatus

/-! ## `submit_after_assessment` -/

structure StoredAssessment where
  assessment : PreTradeAssessment
  inputEvidence : Bool
  riskPolicyVersion : String
  riskPolicyDigest : String
  portfolioPolicyVersion : String
  portfolioPolicyDigest : String
deriving DecidableEq

/-- The evidence a submission is checked against, as the service finds it: whether it has
an assessment store and a policy registry, whether the store is keyed, and what the two
answer (a document of the registry by its digest). -/
structure SubmissionEvidence where
  stores : Bool
  keyedIntegrity : Bool
  getForIntent : UUID → Except Exn (Option StoredAssessment)
  policyDigest : String → String → Except Exn String

/-- The checks of `submit_after_assessment` before it reads the OMS, to the stored
assessment. -/
def SubmissionEvidence.check (evidence : SubmissionEvidence) (intent : OrderIntent)
    (assessmentId : UUID) : Except Exn PreTradeAssessment :=
  if evidence.stores = false then
    .error (.brokerSyncError "durable_assessment_and_policy_evidence_required")
  else if evidence.keyedIntegrity = false then
    .error (.brokerSyncError "keyed_assessment_integrity_required")
  else
    match onValueError (.brokerSyncError "durable_assessment_evidence_invalid")
        (evidence.getForIntent intent.intentId) with
    | .error e => .error e
    | .ok none => .error (.brokerSyncError "durable_assessment_evidence_unavailable")
    | .ok (some stored) =>
        if stored.assessment.assessmentId ≠ assessmentId then
          .error (.brokerSyncError "assessment_evidence_mismatch")
        else if stored.inputEvidence = false then
          .error (.brokerSyncError "pretrade_input_evidence_unavailable")
        else
          match onValueError (.brokerSyncError "policy_evidence_unavailable") (do
              let risk ← evidence.policyDigest "risk" stored.riskPolicyVersion
              let portfolio ← evidence.policyDigest "portfolio" stored.portfolioPolicyVersion
              pure (risk, portfolio)) with
          | .error e => .error e
          | .ok (risk, portfolio) =>
              if stored.riskPolicyDigest ≠ risk ∨ stored.portfolioPolicyDigest ≠ portfolio then
                .error (.brokerSyncError "policy_evidence_mismatch")
              else if stored.assessment.intentId ≠ intent.intentId then
                .error (.brokerSyncError "assessment_intent_mismatch")
              else .ok stored.assessment

/-- `evaluate_pre_trade(..).approved`, with the portfolio decision of an incomplete
assessment filled in. -/
def PreTradeAssessment.submissionApproved (assessment : PreTradeAssessment) : Bool :=
  decide (assessment.riskDecision.decision = .approve) &&
    (assessment.portfolioDecision.getD ⟨false, ["assessment_incomplete"]⟩).approved

namespace SyncStores

variable {τ : Type} (T : SyncStores τ)

/-- The loop of `sync_events`, up to the first event that raises. -/
def syncAll (configuration : BrokerConfiguration) : τ → List BrokerOrderEvent → Except Exn Unit × τ
  | t, [] => (.ok (), t)
  | t, event :: rest =>
      match T.syncEvent t configuration event with
      | (.error e, t') => (.error e, t')
      | (.ok _, t') => syncAll configuration t' rest

def syncEvents (t : τ) (adapter : SandboxPaperBrokerAdapter) : Except Exn Unit × τ :=
  match (do
      let last ← T.lastSequence t adapter.configuration
      adapter.orderEvents last) with
  | .error e => (.error e, t)
  | .ok events => T.syncAll adapter.configuration t events

abbrev Submission (τ : Type) := Except Exn PaperOrder × τ × SandboxPaperBrokerAdapter

/-- `_submit_checked_assessment`: the transitions up to the acknowledgement, and the
synchronisation after it.  A rejected order is answered as its transition left it. -/
def submitChecked (t : τ) (adapter : SandboxPaperBrokerAdapter) (intent : OrderIntent)
    (riskApproved : Bool) (stamp : EventStamp) : Submission τ :=
  match T.submitCheckedAssessment t adapter intent riskApproved stamp with
  | (.error e, t', adapter') => (.error e, t', adapter')
  | (.ok (), t', adapter') =>
      if riskApproved = false then (T.get t' intent.intentId, t', adapter')
      else
        match T.syncEvents t' adapter' with
        | (.error e, t'') => (.error e, t'', adapter')
        | (.ok (), t'') => (T.get t'' intent.intentId, t'', adapter')

def submitAfterAssessment (t : τ) (adapter : SandboxPaperBrokerAdapter) (intent : OrderIntent)
    (assessmentId : UUID) (evidence : SubmissionEvidence) (stamp : EventStamp) : Submission τ :=
  match evidence.check intent assessmentId with
  | .error e => (.error e, t, adapter)
  | .ok assessment =>
      match T.get t intent.intentId with
      | .ok existing =>
          if existing.intent ≠ intent then
            (.error (.brokerSyncError "assessment_intent_payload_conflict"), t, adapter)
          else (.ok existing, t, adapter)
      | .error (.paperOmsError _) =>
          T.submitChecked t adapter intent assessment.submissionApproved stamp
      | .error e => (.error e, t, adapter)

variable {T} {t : τ} {intent : OrderIntent} {o : PaperOrder}

/-- Once the evidence is accepted, a stored order is the answer if its intent is the given
one, and nothing is written either way. -/
theorem submitAfterAssessment_stored {adapter : SandboxPaperBrokerAdapter} {assessmentId : UUID}
    {evidence : SubmissionEvidence} {assessment : PreTradeAssessment} (stamp : EventStamp)
    (accepted : evidence.check intent assessmentId = .ok assessment)
    (row : T.get t intent.intentId = .ok o) :
    T.submitAfterAssessment t adapter intent assessmentId evidence stamp = (.ok o, t, adapter) ↔
      o.intent = intent := by
  unfold submitAfterAssessment
  rw [accepted]
  simp only [row]
  by_cases h : o.intent = intent
  · simp [h]
  · simp [h]

end SyncStores

/-! ## What the stored intent still is -/

def TermsKept (intent : OrderIntent) (order : PaperOrder) : Prop :=
  order.intent.quantity = intent.quantity ∧ order.intent.limitPrice = intent.limitPrice

/-- The other fields of the intent read back as they were written: a timestamp with a
zone, and an instrument id in the form `str(UUID(..))` gives it. -/
def ReadsBack (env : PgEnv) (intent : OrderIntent) : Prop :=
  intent.createdAt.isAware = true ∧
    (env.uuid intent.instrumentId).map env.uuidText = some intent.instrumentId

/-- An order that is a later state of the stored one has the intent again when its terms
are the same. -/
theorem Book.Later.intent_eq_iff {o o' : PaperOrder} {intent : OrderIntent}
    (h : Book.Later o o') (ho : o.intent = { intent with
      quantity := o.intent.quantity, limitPrice := o.intent.limitPrice }) :
    o'.intent = intent ↔ TermsKept intent o' := by
  constructor
  · rintro rfl
    exact ⟨rfl, rfl⟩
  · rintro ⟨hq, hp⟩
    rw [h.intent, ho, hq, hp]

namespace SQLitePaperOms

variable {s s' : SQLitePaperOms} {intent : OrderIntent} {o : PaperOrder}

theorem create_stored_iff (row : s.orders.find? intent.intentId = some o) :
    s.create { intent := intent } = .ok (o, s) ↔ o.intent = intent := by
  constructor
  · intro h
    obtain ⟨_, ⟨_, hi, _⟩ | ⟨hnone, _⟩⟩ := create_eq_ok.mp h
    · exact hi
    · have hrow : s.orders.find? intent.intentId = none := hnone
      rw [row] at hrow
      cases hrow
  · intro h
    exact create_eq_ok.mpr ⟨rfl, .inl ⟨row, h, rfl⟩⟩

theorem book_of_create (h : s.create { intent := intent } = .ok (o, s')) :
    ∃ stored, s'.book intent.intentId = some stored ∧ stored.intent = intent := by
  obtain ⟨_, ⟨row, hi, rfl⟩ | ⟨_, _, rfl⟩⟩ := create_eq_ok.mp h
  · exact ⟨o, row, hi⟩
  · exact ⟨_, Table.find?_put_self s.orders { intent := intent }, rfl⟩

end SQLitePaperOms

namespace PostgresPaperOms

variable {c : Decimal.Context} {env : PgEnv} {s s' : PostgresPaperOms}
  {intent row : OrderIntent} {o : PaperOrder}

theorem create_stored_iff (env : PgEnv) (horder : s.order c intent.intentId = .ok o) :
    s.create c env { intent := intent } = .ok (o, s) ↔ o.intent = intent := by
  constructor
  · intro h
    obtain ⟨_, ⟨_, hi, _⟩ | ⟨hnone, _⟩⟩ := create_eq_ok.mp h
    · exact hi
    · obtain ⟨log, hlog, _⟩ := order_eq_ok.mp horder
      have hrow : s.intents.find? intent.intentId = none := hnone
      rw [hlog] at hrow
      cases hrow
  · intro h
    exact create_eq_ok.mpr ⟨rfl, .inl ⟨horder, h, rfl⟩⟩

theorem isAware_iff (env : PgEnv) {at_ : DateTime} :
    env.timestamptz at_ = at_ ↔ at_.isAware = true := by
  cases at_ <;> simp [PgEnv.timestamptz, DateTime.isAware]

theorem insertIntent_fields (h : insertIntent env intent = .ok row) :
    ∃ instrument, env.uuid intent.instrumentId = some instrument ∧
      row = { intent with
        instrumentId := env.uuidText instrument
        quantity := row.quantity
        limitPrice := row.limitPrice
        createdAt := env.timestamptz intent.createdAt } := by
  unfold insertIntent at h
  split at h
  · cases h
  rename_i instrument hu
  split at h
  · split at h
    · cases h
      exact ⟨instrument, hu, rfl⟩
    · cases h
  · cases h

theorem insertIntent_readsBack (h : insertIntent env intent = .ok row) :
    row = { intent with quantity := row.quantity, limitPrice := row.limitPrice } ↔
      ReadsBack env intent := by
  obtain ⟨instrument, hu, hrow⟩ := insertIntent_fields h
  rw [ReadsBack, hu, Option.map_some, Option.some.injEq, ← isAware_iff env]
  constructor
  · intro e
    have hat : row.createdAt = intent.createdAt := by rw [e]
    have hin : row.instrumentId = intent.instrumentId := by rw [e]
    rw [hrow] at hat hin
    exact ⟨hat, hin⟩
  · rintro ⟨hat, hin⟩
    rw [hat, hin] at hrow
    exact hrow

end PostgresPaperOms

/-! ## Both stores -/

namespace SyncStores

variable {τ : Type}

/-- In the state `t` a repeated `create(PaperOrder(intent))`, and a repeated
`submit_after_assessment` whose evidence is accepted, return the stored order and change
nothing, each exactly when `kept` holds of that order. -/
def Retries (T : SyncStores τ) (t : τ) (intent : OrderIntent) (kept : PaperOrder → Prop) : Prop :=
  ∃ order, T.get t intent.intentId = .ok order ∧
    (T.create t { intent := intent } = .ok (order, t) ↔ kept order) ∧
    ∀ (adapter : SandboxPaperBrokerAdapter) (assessmentId : UUID) (evidence : SubmissionEvidence)
      (assessment : PreTradeAssessment) (stamp : EventStamp),
      evidence.check intent assessmentId = .ok assessment →
      (T.submitAfterAssessment t adapter intent assessmentId evidence stamp =
        (.ok order, t, adapter) ↔ kept order)

theorem Retries.of_intent {T : SyncStores τ} {t : τ} {intent : OrderIntent} {o : PaperOrder}
    {kept : PaperOrder → Prop} (row : T.get t intent.intentId = .ok o)
    (hcreate : T.create t { intent := intent } = .ok (o, t) ↔ o.intent = intent)
    (hkept : o.intent = intent ↔ kept o) : T.Retries t intent kept := by
  refine ⟨o, row, hcreate.trans hkept, ?_⟩
  intro adapter assessmentId evidence assessment stamp accepted
  exact (submitAfterAssessment_stored stamp accepted row).trans hkept

theorem sqlite_create_stored_iff {c : Decimal.Context} {s : SQLiteSync} {intent : OrderIntent}
    {o : PaperOrder} (row : s.oms.book intent.intentId = some o) :
    (SyncStores.sqlite c).create s { intent := intent } = .ok (o, s) ↔ o.intent = intent := by
  refine Iff.trans ?_ (SQLitePaperOms.create_stored_iff row)
  constructor
  · intro h
    obtain ⟨oms, hc, hs⟩ := liftOms_eq_ok.mp h
    have homs : s.oms = oms := congrArg SQLiteSync.oms hs
    exact homs ▸ hc
  · exact fun h => liftOms_eq_ok.mpr ⟨s.oms, h, rfl⟩

theorem postgres_create_stored_iff {c : Decimal.Context} {env : PgEnv}
    {s : PostgresBrokerEvents} {intent : OrderIntent} {o : PaperOrder}
    (horder : s.oms.order c intent.intentId = .ok o) :
    (SyncStores.postgres c env).create s { intent := intent } = .ok (o, s) ↔
      o.intent = intent := by
  refine Iff.trans ?_ (PostgresPaperOms.create_stored_iff env horder)
  constructor
  · intro h
    obtain ⟨oms, hc, hs⟩ := liftOms_eq_ok.mp h
    have homs : s.oms = oms := congrArg PostgresBrokerEvents.oms hs
    exact homs ▸ hc
  · exact fun h => liftOms_eq_ok.mpr ⟨s.oms, h, rfl⟩

end SyncStores

theorem SQLiteSync.retries {c : Decimal.Context} {s₀ s₁ s : SQLiteSync} {intent : OrderIntent}
    {order : PaperOrder}
    (created : (SyncStores.sqlite c).create s₀ { intent := intent } = .ok (order, s₁))
    (later : Book.Moves c s₁.oms.book s.oms.book) :
    (SyncStores.sqlite c).Retries s intent (TermsKept intent) := by
  obtain ⟨oms, hcreate, rfl⟩ := liftOms_eq_ok.mp created
  obtain ⟨stored, row, hi⟩ := SQLitePaperOms.book_of_create hcreate
  obtain ⟨o, row', hlater⟩ := Book.Moves.later row later
  exact .of_intent (SQLitePaperOms.get_eq_ok.mpr row')
    (SyncStores.sqlite_create_stored_iff row') (hlater.intent_eq_iff (by rw [hi]))

theorem PostgresBrokerEvents.retries {c : Decimal.Context} {env : PgEnv}
    {s₀ s₁ s : PostgresBrokerEvents} {intent : OrderIntent} {order : PaperOrder}
    (created : (SyncStores.postgres c env).create s₀ { intent := intent } = .ok (order, s₁))
    (later : Book.Moves c (s₁.oms.book c) (s.oms.book c)) :
    (SyncStores.postgres c env).Retries s intent fun o => TermsKept intent o ∧
      (s₀.oms.book c intent.intentId = none → ReadsBack env intent) := by
  obtain ⟨oms, hcreate, rfl⟩ := liftOms_eq_ok.mp created
  obtain ⟨_, ⟨horder, hi, rfl⟩ | ⟨fresh, rfl, row, inserted, rfl⟩⟩ :=
    PostgresPaperOms.create_eq_ok.mp hcreate
  · have hbook : s₀.oms.book c intent.intentId = some order :=
      PostgresPaperOms.book_eq_some.mpr horder
    obtain ⟨o, row', hlater⟩ := Book.Moves.later hbook later
    have horder' := PostgresPaperOms.book_eq_some.mp row'
    have hsame : order.intent = intent := hi
    have hknown : (s₀.oms.book c intent.intentId = none → ReadsBack env intent) := by
      intro hnone
      rw [hbook] at hnone
      cases hnone
    refine .of_intent (PostgresPaperOms.get_eq_ok.mpr horder')
      (SyncStores.postgres_create_stored_iff horder') ?_
    exact (hlater.intent_eq_iff (by rw [hsame])).trans (and_iff_left hknown).symm
  · have hnone : s₀.oms.book c intent.intentId = none := by
      have hrow : s₀.oms.intents.find? intent.intentId = none := fresh
      simp [PostgresPaperOms.book, PostgresPaperOms.order, hrow, Except.toOption]
    have hkey : IntentLog.intentId ⟨row, [.orderCreated proposed]⟩ = intent.intentId :=
      PostgresPaperOms.insertIntent_intentId inserted
    have hbook : PostgresPaperOms.book c ⟨s₀.oms.intents.put ⟨row, [.orderCreated proposed]⟩,
        s₀.oms.fills⟩ intent.intentId = some { intent := row } := by
      rw [PostgresPaperOms.book_put _ _ s₀.oms.fills, hkey]
      exact Function.update_self ..
    obtain ⟨o, row', hlater⟩ := Book.Moves.later hbook later
    have horder' := PostgresPaperOms.book_eq_some.mp row'
    refine .of_intent (PostgresPaperOms.get_eq_ok.mpr horder')
      (SyncStores.postgres_create_stored_iff horder') ?_
    have hidentity : o.intent = { row with
        quantity := o.intent.quantity, limitPrice := o.intent.limitPrice } := hlater.intent
    have hreads := PostgresPaperOms.insertIntent_readsBack inserted
    constructor
    · rintro rfl
      refine ⟨⟨rfl, rfl⟩, fun _ => hreads.mp ?_⟩
      rw [hidentity]
    · rintro ⟨hterms, hback⟩
      have hrow := hreads.mpr (hback hnone)
      rw [hidentity, hrow, hterms.1, hterms.2]

/-- The order of the runs below is acknowledged, and amended once for each pair of terms. -/
def acknowledgedThenAmended {δ : Type} (terms : List (Decimal × Decimal)) : List (FedAction δ) :=
  (OmsCall.progressToAcknowledged 1 ++
    terms.map fun t => OmsCall.amend 1 t.1 t.2 "operator").map .call

def retriedIntent : OrderIntent := (PaperOrder.limit 1 .buy 10 100).intent

def sqliteCreated : SQLiteSync :=
  ⟨⟨(Table.empty _).put { intent := retriedIntent }, [(1, .orderCreated proposed)], .empty _⟩, .empty⟩

def postgresCreated : PostgresBrokerEvents :=
  ⟨⟨(Table.empty _).put ⟨retriedIntent, [.orderCreated proposed]⟩, .empty _⟩, .empty _, .empty _⟩

theorem sqlite_created : (SyncStores.sqlite .default).create (FedOms.sqlite .default).empty
    { intent := retriedIntent } = .ok ({ intent := retriedIntent }, sqliteCreated) := rfl

theorem postgres_created : (SyncStores.postgres .default .sample).create
    (FedOms.postgres .default .sample).empty { intent := retriedIntent } =
      .ok ({ intent := retriedIntent }, postgresCreated) :=
  liftOms_eq_ok.mpr ⟨_, PostgresPaperOms.create_eq_ok.mpr
    ⟨rfl, .inr ⟨rfl, rfl, retriedIntent, by decide +kernel, rfl⟩⟩, rfl⟩

def acknowledgedOrder (quantity limitPrice : Decimal) : PaperOrder :=
  { PaperOrder.limit 1 .buy quantity limitPrice with status := acknowledged }

def acceptedEvidence : SubmissionEvidence where
  stores := true
  keyedIntegrity := true
  getForIntent := fun _ => .ok (some ⟨⟨1, ⟨1, 1, .approve, [], .aware 0⟩, some ⟨true, []⟩, none, 0⟩,
    true, "risk-v1", "digest", "portfolio-v1", "digest"⟩)
  policyDigest := fun _ _ => .ok "digest"

def sandboxAdapter : SandboxPaperBrokerAdapter :=
  .opened ⟨"sandbox", .sandboxPaper, "account", none⟩ ⟨"USD", 0⟩

end TradePlatform
