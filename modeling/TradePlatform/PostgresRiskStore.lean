/-
# `TradePlatform.PostgresRiskStore` — decisions and reservations in one transaction

`PostgresRiskStore.persist` of `risk.py`.  A decision is immutable: a call for an intent
that has one returns it.  An approval that is to be submitted reserves its notional
under the daily limit of its account.  The advisory locks make the calls for one intent,
and those that reserve for one account and day, follow one another, so a call is one
step.

Runs of it come with the intents a caller was told are approved.  An approval stored without
a reservation (it was not to be submitted) is returned to a later call that would submit it,
and a stored approval to a call with another notional: those calls get an approval that
nothing backs.
-/
import TradePlatform.PostgresPaperOms
import TradePlatform.Lib.Budget

namespace TradePlatform

open RiskDecisionType

structure RiskDecisionRow where
  riskDecisionId : UUID
  intentId : UUID
  approved : Bool
  reasons : List String
  decidedAt : DateTime
deriving DecidableEq

def RiskDecisionRow.decision (row : RiskDecisionRow) : RiskDecision :=
  ⟨row.riskDecisionId, row.intentId, if row.approved then approve else reject, row.reasons,
    row.decidedAt⟩

/-- A row of `risk_reservations`; a `date` is its day number. -/
structure RiskReservation where
  accountId : String
  intentId : UUID
  businessDate : ℤ
  notional : Decimal
  createdAt : DateTime
deriving DecidableEq

def RiskReservation.accountDay (row : RiskReservation) : String × ℤ :=
  (row.accountId, row.businessDate)

/-- The arguments of `persist`, less the limit, with what its environment answers: the
`uuid4()` and `utc_now()` of a budget rejection, and whether the alert of a rejection is
stored (`true` without an alert store). -/
structure PersistCall where
  intent : OrderIntent
  decision : RiskDecision
  businessDay : ℤ
  submissionApproved : Option Bool := none
  violationReasons : Option (List String) := none
  rejectionId : UUID
  now : DateTime
  alertStored : Bool := true
deriving DecidableEq

namespace PersistCall

variable (call : PersistCall)

def finalApproved : Bool :=
  call.submissionApproved.getD (decide (call.decision.decision = approve))

def finalReasons : List String := call.violationReasons.getD call.decision.reasons

/-- `RiskDecision.create(intent_id, REJECT, ["daily_order_notional_limit"])`. -/
def budgetRejection : RiskDecision :=
  ⟨call.rejectionId, call.intent.intentId, reject, ["daily_order_notional_limit"], call.now⟩

end PersistCall

structure PostgresRiskStore where
  decisions : Table RiskDecisionRow.intentId
  reservations : Table RiskReservation.intentId

/-- `except PostgresRiskStoreError: raise`, any other exception as an uncertain one. -/
def riskGuarded {α : Type} : Except Exn α → Except Exn α
  | .ok a => .ok a
  | .error (.postgresRiskStoreError m) => .error (.postgresRiskStoreError m)
  | .error _ => .error (.postgresRiskStoreError "risk_persistence_uncertain")

theorem riskGuarded_eq_ok {α : Type} {x : Except Exn α} {a : α} :
    riskGuarded x = .ok a ↔ x = .ok a := by
  cases x with
  | ok b => rfl
  | error e => cases e <;> simp [riskGuarded]

namespace PostgresRiskStore

def empty : PostgresRiskStore := ⟨.empty _, .empty _⟩

variable (c : Decimal.Context) (env : PgEnv) (policyVersion : Bool) (dailyLimit : Decimal)
  (s : PostgresRiskStore)

/-- `SELECT COALESCE(SUM(notional), 0)`: a `NUMERIC` sum is exact. -/
def reserved (accountId : String) (businessDay : ℤ) : Decimal :=
  Budget.spent RiskReservation.accountDay RiskReservation.notional s.reservations.rows
    (accountId, businessDay)

/-- The insert into `risk_reservations`: a `NUMERIC(30,12)` with `CHECK(notional >= 0)`, the
account, and one row an intent. -/
def reserve (call : PersistCall) : Except Exn PostgresRiskStore :=
  match Decimal.numeric 30 12 (call.intent.notional c) with
  | none => .error transactionFailed
  | some notional =>
      if 0 ≤ notional ∧ env.accounts call.intent.accountId = true ∧
          s.reservations.find? call.intent.intentId = none then
        .ok { s with reservations := s.reservations.put ⟨call.intent.accountId,
          call.intent.intentId, call.businessDay, notional,
          env.timestamptz call.decision.decidedAt⟩ }
      else .error transactionFailed

/-- What the insert into `risk_decisions` needs, of an intent without a row: the policy
version exists, the reasons are JSON the column takes, the primary key is free. -/
def Recordable (decision : RiskDecision) : Prop :=
  policyVersion = true ∧ (∀ reason ∈ decision.reasons, env.storesText reason = true) ∧
    ∀ row ∈ s.decisions.rows, row.riskDecisionId ≠ decision.decisionId

instance (decision : RiskDecision) : Decidable (s.Recordable env policyVersion decision) :=
  inferInstanceAs (Decidable (_ ∧ _))

def record (intentId : UUID) (decision : RiskDecision) : Except Exn PostgresRiskStore :=
  if s.Recordable env policyVersion decision then
    .ok { s with decisions := s.decisions.put ⟨decision.decisionId, intentId,
      decide (decision.decision = approve), decision.reasons, env.timestamptz decision.decidedAt⟩ }
  else .error transactionFailed

/-- The budget: an approval to be submitted reserves its notional, or becomes a rejection. -/
def budget (call : PersistCall) : Except Exn (RiskDecision × Bool × PostgresRiskStore) :=
  if call.decision.decision = approve ∧ call.finalApproved = true then
    if c.add (s.reserved call.intent.accountId call.businessDay) (call.intent.notional c) >
        dailyLimit then
      .ok (call.budgetRejection, false, s)
    else do
      let s ← s.reserve c env call
      pure (call.decision, true, s)
  else .ok (call.decision, call.finalApproved, s)

def persist (call : PersistCall) : Except Exn (RiskDecision × PostgresRiskStore) :=
  if call.decision.intentId ≠ call.intent.intentId ∨ dailyLimit ≤ 0 then
    .error (.postgresRiskStoreError "invalid_risk_persistence_request")
  else if call.finalApproved = true ∧ call.decision.decision = reject then
    .error (.postgresRiskStoreError "invalid_risk_persistence_request")
  else if call.finalApproved = false ∧ call.finalReasons = [] then
    .error (.postgresRiskStoreError "risk_violation_reasons_required")
  else riskGuarded <|
    match s.decisions.find? call.intent.intentId with
    | some row => .ok (row.decision, s)
    | none => do
        let (decision, finalApproved, s) ← s.budget c env dailyLimit call
        let s ← s.record env policyVersion call.intent.intentId decision
        if finalApproved = false ∧ call.alertStored = false then .error transactionFailed
        pure (decision, s)

/-! ## When an approval is backed by a reservation -/

def Asks (call : PersistCall) : Prop :=
  call.finalApproved = true ∧ call.decision.decision = approve ∧
    call.decision.intentId = call.intent.intentId ∧ 0 < dailyLimit

/-- The database takes the rows of a reservation of `stored`. -/
def Takes (s : PostgresRiskStore) (call : PersistCall) (stored : Decimal) : Prop :=
  0 ≤ stored ∧ env.accounts call.intent.accountId = true ∧
    s.reservations.find? call.intent.intentId = none ∧
    s.Recordable env policyVersion call.decision

/-- The condition on a call that asks for an approval: a stored approval of the intent
has a reservation of the call's notional; and a new reservation stores that notional
exactly, within the exact sum of the account and day. -/
def KeepsBudget (s : PostgresRiskStore) (call : PersistCall) : Prop :=
  Asks dailyLimit call →
    (∀ row, s.decisions.find? call.intent.intentId = some row → row.approved = true →
      ∃ r, s.reservations.find? call.intent.intentId = some r ∧
        r.notional = call.intent.notional c) ∧
    (s.decisions.find? call.intent.intentId = none →
      ∀ stored, Decimal.numeric 30 12 (call.intent.notional c) = some stored →
        s.Takes env policyVersion call stored →
        c.add (s.reserved call.intent.accountId call.businessDay) (call.intent.notional c) ≤
          dailyLimit →
        stored = call.intent.notional c ∧
          s.reserved call.intent.accountId call.businessDay + call.intent.notional c ≤ dailyLimit)

/-! ## What a call can do -/

variable {c env policyVersion dailyLimit} {s s' : PostgresRiskStore} {call : PersistCall}
  {d : RiskDecision}

theorem persist_of_asks (h : Asks dailyLimit call) :
    s.persist c env policyVersion dailyLimit call = riskGuarded
      (match s.decisions.find? call.intent.intentId with
      | some row => .ok (row.decision, s)
      | none => do
          let (decision, finalApproved, s) ← s.budget c env dailyLimit call
          let s ← s.record env policyVersion call.intent.intentId decision
          if finalApproved = false ∧ call.alertStored = false then .error transactionFailed
          pure (decision, s)) := by
  obtain ⟨hf, hd, hid, hl⟩ := h
  unfold persist
  refine (if_neg ?_).trans ((if_neg ?_).trans (if_neg ?_))
  · simp [hid, hl]
  · simp [hd]
  · simp [hf]

theorem persist_of_not_asks (h : ¬ Asks dailyLimit call)
    (hok : s.persist c env policyVersion dailyLimit call = .ok (d, s')) :
    s'.reservations = s.reservations ∧ call.finalApproved = false := by
  unfold persist at hok
  split at hok
  · cases hok
  rename_i hvalid
  split at hok
  · cases hok
  rename_i hrej
  split at hok
  · cases hok
  rw [not_or, not_not, not_le] at hvalid
  have hfinal : call.finalApproved = false := by
    rw [← Bool.not_eq_true]
    intro hf
    have hd : call.decision.decision = approve := by
      cases hdec : call.decision.decision with
      | approve => rfl
      | reject => exact absurd ⟨hf, hdec⟩ hrej
    exact h ⟨hf, hd, hvalid⟩
  refine ⟨?_, hfinal⟩
  rw [riskGuarded_eq_ok] at hok
  split at hok
  · cases hok
    rfl
  · obtain ⟨⟨d₁, f, s₁⟩, hb, hok⟩ := Except.bind_eq_ok.mp hok
    obtain ⟨s₂, hr, hok⟩ := Except.bind_eq_ok.mp hok
    have hs₁ : s₁ = s := by
      unfold budget at hb
      rw [if_neg (by simp [hfinal])] at hb
      cases hb
      rfl
    have hs₂ : s₂.reservations = s₁.reservations := by
      unfold record at hr
      split at hr
      · cases hr
        rfl
      · cases hr
    have hs' : s' = s₂ := by
      split at hok
      · cases hok
      · cases hok
        rfl
    rw [hs', hs₂, hs₁]

theorem persist_stored (h : Asks dailyLimit call) {row : RiskDecisionRow}
    (hrow : s.decisions.find? call.intent.intentId = some row) :
    s.persist c env policyVersion dailyLimit call = .ok (row.decision, s) := by
  rw [persist_of_asks h, hrow]
  rfl

theorem persist_over (h : Asks dailyLimit call)
    (hnew : s.decisions.find? call.intent.intentId = none)
    (hover : c.add (s.reserved call.intent.accountId call.businessDay) (call.intent.notional c) >
      dailyLimit)
    (hok : s.persist c env policyVersion dailyLimit call = .ok (d, s')) :
    s'.reservations = s.reservations ∧ d.decision = reject := by
  rw [persist_of_asks h, hnew, riskGuarded_eq_ok] at hok
  obtain ⟨⟨d₁, f, s₁⟩, hb, hok⟩ := Except.bind_eq_ok.mp hok
  unfold budget at hb
  rw [if_pos ⟨h.2.1, h.1⟩, if_pos hover] at hb
  cases hb
  obtain ⟨s₂, hr, hok⟩ := Except.bind_eq_ok.mp hok
  unfold record at hr
  split at hr
  · cases hr
    split at hok
    · cases hok
    · cases hok
      exact ⟨rfl, rfl⟩
  · cases hr

/-- Within the budget, the call reserves what the column stores of its notional, if the
database takes the rows. -/
theorem persist_within (h : Asks dailyLimit call)
    (hnew : s.decisions.find? call.intent.intentId = none)
    (hroom : c.add (s.reserved call.intent.accountId call.businessDay) (call.intent.notional c) ≤
      dailyLimit) :
    (∃ stored, Decimal.numeric 30 12 (call.intent.notional c) = some stored ∧
      s.Takes env policyVersion call stored ∧ ∃ decisions,
        s.persist c env policyVersion dailyLimit call = .ok (call.decision, ⟨decisions,
          s.reservations.put ⟨call.intent.accountId, call.intent.intentId, call.businessDay, stored,
            env.timestamptz call.decision.decidedAt⟩⟩)) ∨
    ((∀ stored, Decimal.numeric 30 12 (call.intent.notional c) = some stored →
      ¬ s.Takes env policyVersion call stored) ∧
      ∃ e, s.persist c env policyVersion dailyLimit call = .error e) := by
  have hbudget : s.budget c env dailyLimit call = s.reserve c env call >>= fun s =>
      .ok (call.decision, true, s) := by
    unfold budget
    rw [if_pos ⟨h.2.1, h.1⟩, if_neg (not_lt.mpr hroom)]
    rfl
  rw [persist_of_asks h, hnew]
  simp only [hbudget]
  unfold reserve
  cases hn : Decimal.numeric 30 12 (call.intent.notional c) with
  | none => exact .inr ⟨(fun _ he => nomatch he), _, rfl⟩
  | some stored =>
      simp only
      by_cases htake : 0 ≤ stored ∧ env.accounts call.intent.accountId = true ∧
          s.reservations.find? call.intent.intentId = none
      · rw [if_pos htake]
        simp only [Except.ok_bind]
        unfold record
        by_cases hrec : s.Recordable env policyVersion call.decision
        · refine .inl ⟨stored, rfl, ⟨htake.1, htake.2.1, htake.2.2, hrec⟩, ?_⟩
          rw [if_pos (by exact hrec)]
          exact ⟨_, rfl⟩
        · refine .inr ⟨fun x hx ht => ?_, ?_⟩
          · exact hrec ht.2.2.2
          · rw [if_neg (by exact hrec)]
            exact ⟨_, rfl⟩
      · refine .inr ⟨fun x hx ht => ?_, ?_⟩
        · cases hx
          exact htake ⟨ht.1, ht.2.1, ht.2.2.1⟩
        · rw [if_neg htake]
          exact ⟨_, rfl⟩

end PostgresRiskStore

/-! ## Runs -/

structure RiskApprovals where
  store : PostgresRiskStore
  approvals : List OrderIntent

namespace RiskApprovals

open PostgresRiskStore

variable (c : Decimal.Context) (env : PgEnv) (policyVersion : Bool) (dailyLimit : Decimal)

def empty : RiskApprovals := ⟨.empty, []⟩

def step (σ : RiskApprovals) (call : PersistCall) : RiskApprovals :=
  match σ.store.persist c env policyVersion dailyLimit call with
  | .error _ => σ
  | .ok (decision, store) =>
      ⟨store, if call.finalApproved = true ∧ decision.decision = approve
        then σ.approvals ++ [call.intent] else σ.approvals⟩

/-- Every approval that was asked for and given has a reservation of exactly its notional,
and no account and day is reserved beyond the limit. -/
structure Backed (σ : RiskApprovals) : Prop where
  approvals : ∀ intent ∈ σ.approvals, ∃ r, σ.store.reservations.find? intent.intentId = some r ∧
    r.notional = intent.notional c
  budget : ∀ accountId businessDay, σ.store.reserved accountId businessDay ≤ dailyLimit

variable {c env policyVersion dailyLimit} {σ : RiskApprovals} {call : PersistCall}

theorem backed_iff : Backed c dailyLimit σ ↔
    (∀ intent ∈ σ.approvals, ∃ r, σ.store.reservations.find? intent.intentId = some r ∧
      r.notional = intent.notional c) ∧
    Budget.Within RiskReservation.accountDay RiskReservation.notional dailyLimit
      σ.store.reservations.rows :=
  ⟨fun h => ⟨h.approvals, fun k => h.budget k.1 k.2⟩, fun h => ⟨h.1, fun a b => h.2 (a, b)⟩⟩

theorem Backed.of_same (h : Backed c dailyLimit σ) {store : PostgresRiskStore}
    (hr : store.reservations = σ.store.reservations) :
    Backed c dailyLimit ⟨store, σ.approvals⟩ := by
  rw [backed_iff] at h ⊢
  rw [hr]
  exact h

theorem backed_snoc_iff (h : Backed c dailyLimit σ) {intent : OrderIntent} :
    Backed c dailyLimit ⟨σ.store, σ.approvals ++ [intent]⟩ ↔
      ∃ r, σ.store.reservations.find? intent.intentId = some r ∧
        r.notional = intent.notional c := by
  constructor
  · intro h'
    exact h'.approvals intent (by simp)
  · intro hr
    refine ⟨fun i hi => ?_, h.budget⟩
    rcases List.mem_append.mp hi with hi | hi
    · exact h.approvals i hi
    · rw [List.mem_singleton.mp hi]
      exact hr

theorem backed_put_iff (h : Backed c dailyLimit σ) {intent : OrderIntent} {row : RiskReservation}
    {decisions : Table RiskDecisionRow.intentId} (hid : row.intentId = intent.intentId)
    (hnew : σ.store.reservations.find? intent.intentId = none) :
    Backed c dailyLimit ⟨⟨decisions, σ.store.reservations.put row⟩, σ.approvals ++ [intent]⟩ ↔
      row.notional = intent.notional c ∧
        σ.store.reserved row.accountId row.businessDate + row.notional ≤ dailyLimit := by
  have hfind : (σ.store.reservations.put row).find? intent.intentId = some row := by
    rw [← hid]
    exact Table.find?_put_self _ row
  rw [backed_iff, Table.rows_put_of_none (hid ▸ hnew),
    Budget.within_snoc_iff (backed_iff.mp h).2]
  refine and_congr_left fun _ => ?_
  constructor
  · intro happ
    obtain ⟨r, hr, hn⟩ := happ intent (by simp)
    cases hfind.symm.trans hr
    exact hn
  · intro hn i hi
    rcases List.mem_append.mp hi with hi | hi
    · obtain ⟨r, hr, hrn⟩ := h.approvals i hi
      refine ⟨r, ?_, hrn⟩
      rw [Table.find?_put_of_ne ?_]
      · exact hr
      · intro he
        rw [hid.symm.trans he, hr] at hnew
        cases hnew
    · rw [List.mem_singleton.mp hi]
      exact ⟨row, hfind, hn⟩

theorem step_backed_iff (h : Backed c dailyLimit σ) :
    Backed c dailyLimit (step c env policyVersion dailyLimit σ call) ↔
      σ.store.KeepsBudget c env policyVersion dailyLimit call := by
  unfold step
  by_cases ha : Asks dailyLimit call
  swap
  · refine iff_of_true ?_ fun ha' => absurd ha' ha
    split
    · exact h
    · rename_i hok
      obtain ⟨hr, hf⟩ := persist_of_not_asks ha hok
      rw [if_neg (by simp [hf])]
      exact h.of_same hr
  unfold KeepsBudget
  rw [imp_iff_right ha]
  cases hrow : σ.store.decisions.find? call.intent.intentId with
  | some row =>
      rw [persist_stored ha hrow]
      simp only [reduceCtorEq, false_imp_iff, and_true, Option.some.injEq, forall_eq']
      cases happ : row.approved with
      | true =>
          rw [if_pos ⟨ha.1, by simp [RiskDecisionRow.decision, happ]⟩, backed_snoc_iff h]
          simp
      | false =>
          rw [if_neg (by simp [RiskDecisionRow.decision, happ])]
          exact iff_of_true h (fun e => nomatch e)
  | none =>
      simp only [reduceCtorEq, false_imp_iff, implies_true, true_and, forall_const]
      by_cases hover : c.add (σ.store.reserved call.intent.accountId call.businessDay)
          (call.intent.notional c) > dailyLimit
      · refine iff_of_true ?_ fun _ _ _ hle => absurd hover (not_lt.mpr hle)
        split
        · exact h
        · rename_i hok
          obtain ⟨hr, hd⟩ := persist_over ha hrow hover hok
          rw [if_neg (by simp [hd])]
          exact h.of_same hr
      rw [gt_iff_lt, not_lt] at hover
      rcases persist_within ha hrow hover with ⟨stored, hn, ht, _, hok⟩ | ⟨hno, e, herr⟩
      · rw [hok]
        simp only [if_pos (And.intro ha.1 ha.2.1)]
        rw [backed_put_iff h rfl ht.2.2.1]
        constructor
        · rintro ⟨heq, hle⟩ x hx _ _
          cases hn.symm.trans hx
          rw [heq] at hle
          exact ⟨heq, hle⟩
        · intro hall
          obtain ⟨heq, hle⟩ := hall stored hn ht hover
          refine ⟨heq, ?_⟩
          rw [show _ = stored from rfl, heq]
          exact hle
      · rw [herr]
        exact iff_of_true h fun x hx ht => absurd ht (hno x hx)

/-- The run lemma: approvals are backed and budgets kept throughout precisely when the
limit is not negative and every call that asks for an approval meets the condition. -/
theorem backed_iff_keepsBudget (calls : List PersistCall) :
    Run.Always (step c env policyVersion dailyLimit) (Backed c dailyLimit) empty calls ↔
      0 ≤ dailyLimit ∧ Run.Each (step c env policyVersion dailyLimit)
        (fun σ => σ.store.KeepsBudget c env policyVersion dailyLimit) empty calls := by
  have hempty : Backed c dailyLimit empty ↔ 0 ≤ dailyLimit :=
    ⟨fun h => h.budget "" 0, fun h => ⟨fun _ hi => (nomatch hi), fun _ _ => h⟩⟩
  have hrule : Run.Always (step c env policyVersion dailyLimit) (Backed c dailyLimit) empty calls ↔
      Backed c dailyLimit empty ∧ Run.Each (step c env policyVersion dailyLimit)
        (fun σ => σ.store.KeepsBudget c env policyVersion dailyLimit) empty calls :=
    Run.always_iff_each (J := fun _ => True) (fun _ _ _ _ _ => trivial)
      (fun _ _ _ h => step_backed_iff h) trivial
  rw [hrule, hempty]

def approvedCall (submissionApproved : Bool) (decisionId : UUID) : PersistCall where
  intent := (PaperOrder.limit 1 .buy 2 100).intent
  decision := ⟨decisionId, 1, approve, [], .aware 0⟩
  businessDay := 0
  submissionApproved := some submissionApproved
  violationReasons := some ["portfolio:gross_exposure_limit"]
  rejectionId := decisionId + 1
  now := .aware 0

/-- The portfolio rejects it; assessed again, the portfolio takes it, and the approval
stored without a reservation is returned. -/
theorem approval_unreserved :
    ¬ Run.Always (step .default .sample true 1000) (Backed .default 1000) empty
      [approvedCall false 10, approvedCall true 20] := by
  intro h
  have hnone : (Run.exec (step .default .sample true 1000) empty
      [approvedCall false 10, approvedCall true 20]).store.reservations.find? 1 = none := by
    decide +kernel
  obtain ⟨r, hr, _⟩ := h.exec.approvals (approvedCall true 20).intent (by decide +kernel)
  cases hnone.symm.trans hr

end RiskApprovals

end TradePlatform
