/-
# `TradePlatform.OperationalJobs` — job policies, job runs, and when a job is due

The job half of `operational_jobs.py`: the policies and runs of
`PostgresOperationalJobStore` and the evaluation of due jobs.  Times are instants in
microseconds; the digests of the rows, which nothing changes, are left out, and the
routing of alerts is no part of the model.
-/
import TradePlatform.Domain
import TradePlatform.Lib.Table
import TradePlatform.Lib.Replay

namespace TradePlatform

inductive OperationalJobStatus where
  | succeeded | failed | skipped
deriving DecidableEq, Repr

structure OperationalJobPolicy where
  policyId : UUID
  jobName : String
  version : String
  intervalSeconds : ℤ
  graceSeconds : ℤ
  owner : String
  runbookUri : String
  approvedBy : String
  approvedAt : ℤ
  enabled : Bool
deriving DecidableEq

/-- `f"{policy_id}:{scheduled_for}:{started_at}"`: three texts of fixed shape. -/
abbrev IdempotencyKey := UUID × ℤ × ℤ

structure OperationalJobRun where
  runId : UUID
  policyId : UUID
  idempotencyKey : IdempotencyKey
  scheduledFor : ℤ
  startedAt : ℤ
  completedAt : ℤ
  status : OperationalJobStatus
  /-- A dictionary, in the order of its keys. -/
  summary : List (String × String)
deriving DecidableEq

structure OperationalJobDueState where
  policy : OperationalJobPolicy
  lastSuccessfulAt : Option ℤ
  dueAt : ℤ
  due : Bool
  overdue : Bool
deriving DecidableEq

/-! ## Validation -/

def OperationalJobPolicy.validate (policy : OperationalJobPolicy) : Except Exn Unit :=
  if blank policy.jobName ∨ blank policy.version ∨ policy.intervalSeconds ≤ 0 ∨
      policy.graceSeconds < 0 ∨ blank policy.owner ∨ blank policy.runbookUri ∨
      blank policy.approvedBy then
    .error (.operationalJobError "invalid_operational_job_policy")
  else .ok ()

def OperationalJobRun.validate (run : OperationalJobRun) : Except Exn Unit :=
  if run.startedAt < run.scheduledFor ∨ run.completedAt < run.startedAt then
    .error (.operationalJobError "invalid_operational_job_run")
  else .ok ()

theorem OperationalJobPolicy.interval_of_validate {policy : OperationalJobPolicy}
    (h : policy.validate = .ok ()) : 0 < policy.intervalSeconds := by
  unfold validate at h
  split at h
  · cases h
  · rename_i hno
    by_contra hle
    exact hno (.inr (.inr (.inl (not_lt.mp hle))))

/-! ## When a job is due -/

/-- The last instant of a `datetime`: 9999-12-31T23:59:59.999999+00:00. -/
def maxInstant : ℤ := 253402300799999999

def addSeconds (instant seconds : ℤ) : Except Exn ℤ :=
  if instant + seconds * 10 ^ 6 > maxInstant then .error .arithmeticError
  else .ok (instant + seconds * 10 ^ 6)

/-- `due and as_of > due_at + timedelta(seconds=grace_seconds)`. -/
def overdueAt (due : Bool) (dueAt graceSeconds asOf : ℤ) : Except Exn Bool :=
  if due = true then (addSeconds dueAt graceSeconds).map fun graceEnd => decide (asOf > graceEnd)
  else .ok false

def evaluateJobDue (policy : OperationalJobPolicy) (lastSuccessfulAt : Option ℤ) (asOf : ℤ) :
    Except Exn OperationalJobDueState := do
  policy.validate
  if lastSuccessfulAt.any fun last => decide (last < policy.approvedAt ∨ last > asOf) then
    .error (.operationalJobError "invalid_job_success_time")
  else
    let base := lastSuccessfulAt.getD policy.approvedAt
    let dueAt ← addSeconds base policy.intervalSeconds
    let due := policy.enabled && decide (asOf ≥ dueAt)
    let overdue ← overdueAt due dueAt policy.graceSeconds asOf
    pure ⟨policy, lastSuccessfulAt, dueAt, due, overdue⟩

theorem evaluateJobDue_eq_ok {policy : OperationalJobPolicy} {last : Option ℤ} {asOf : ℤ}
    {state : OperationalJobDueState} (h : evaluateJobDue policy last asOf = .ok state) :
    state.policy = policy ∧ last.getD policy.approvedAt < state.dueAt := by
  obtain ⟨_, hvalid, h⟩ := Except.bind_eq_ok.mp h
  have hpos := OperationalJobPolicy.interval_of_validate hvalid
  split at h
  · cases h
  obtain ⟨dueAt, hdue, h⟩ := Except.bind_eq_ok.mp h
  obtain ⟨_, _, h⟩ := Except.bind_eq_ok.mp h
  cases h
  refine ⟨rfl, ?_⟩
  unfold addSeconds at hdue
  split at hdue
  · cases hdue
  · cases hdue
    show _ < _ + policy.intervalSeconds * 10 ^ 6
    omega

/-! ## The store -/

structure OperationalJobTables where
  policies : Table OperationalJobPolicy.policyId
  runs : Table OperationalJobRun.runId

/-- What `append_run` compares of two runs with one key: all but the id. -/
def OperationalJobRun.sameContent (run other : OperationalJobRun) : Bool :=
  decide ({ run with runId := other.runId } = other)

/-- What `append_policy` compares of two policies of one version. -/
def OperationalJobPolicy.sameContent (policy other : OperationalJobPolicy) : Bool :=
  decide ({ policy with policyId := other.policyId } = other)

namespace OperationalJobTables

variable (collate : String → String → Bool) (tables : OperationalJobTables)

def empty : OperationalJobTables := ⟨.empty _, .empty _⟩

/-- `append_policy`: two versions of a job have different approval times. -/
def appendPolicy (policy : OperationalJobPolicy) :
    Except Exn (OperationalJobPolicy × OperationalJobTables) := do
  policy.validate
  match tables.policies.rows.find? fun row =>
      decide (row.jobName = policy.jobName ∧ row.version = policy.version) with
  | some recovered =>
      if recovered.sameContent policy then pure (recovered, tables)
      else .error (.operationalJobError "job_policy_version_conflict")
  | none =>
      if tables.policies.find? policy.policyId = none ∧
          (∀ row ∈ tables.policies.rows, row.jobName = policy.jobName →
            row.approvedAt ≠ policy.approvedAt) ∧
          policy.intervalSeconds < 2 ^ 63 ∧ policy.graceSeconds < 2 ^ 63 then
        pure (policy, { tables with policies := tables.policies.put policy })
      else .error transactionFailed

def appendRun (run : OperationalJobRun) :
    Except Exn (OperationalJobRun × OperationalJobTables) := do
  run.validate
  match tables.runs.rows.find? fun row => decide (row.idempotencyKey = run.idempotencyKey) with
  | some recovered =>
      if recovered.sameContent run then pure (recovered, tables)
      else .error (.operationalJobError "job_run_idempotency_conflict")
  | none =>
      if tables.runs.find? run.runId = none ∧ tables.policies.find? run.policyId ≠ none then
        pure (run, { tables with runs := tables.runs.put run })
      else .error transactionFailed

/-- `SELECT DISTINCT ON (job_name) .. ORDER BY job_name, approved_at DESC, policy_id DESC`:
the policy in force of each job, in the collation's order of the names. -/
def latestPolicies (asOf : ℤ) : List OperationalJobPolicy :=
  let approved := tables.policies.rows.filter fun row => decide (row.approvedAt ≤ asOf)
  (approved.filter fun row => approved.all fun other =>
    decide (other.jobName = row.jobName → other.approvedAt < row.approvedAt ∨
      other.approvedAt = row.approvedAt ∧ other.policyId ≤ row.policyId)).insertionSort
    fun row other => collate row.jobName other.jobName = true

def lastSuccessfulAt (policyId : UUID) (asOf : ℤ) : Option ℤ :=
  ((tables.runs.rows.filter fun run => decide (run.policyId = policyId ∧ run.status = .succeeded ∧
    run.completedAt ≤ asOf)).map OperationalJobRun.completedAt).max?

def dueStates (asOf : ℤ) : Except Exn (List OperationalJobDueState) :=
  (tables.latestPolicies collate asOf).mapM fun policy =>
    evaluateJobDue policy (tables.lastSuccessfulAt policy.policyId asOf) asOf

def dueJobs (asOf : DateTime) : Except Exn (List OperationalJobDueState) :=
  match asOf with
  | .naive _ => .error (.operationalJobError "job_due_time_must_be_timezone_aware")
  | .aware asOf =>
      match tables.dueStates collate asOf with
      | .ok states => .ok states
      | .error _ => .error (.persistenceError "operational_job_due_read_uncertain")

def succeededRuns (policyId : UUID) (dueAt : ℤ) : List OperationalJobRun :=
  tables.runs.rows.filter fun run =>
    decide (run.policyId = policyId ∧ run.scheduledFor = dueAt ∧ run.status = .succeeded)

variable {collate} {tables} {tables' : OperationalJobTables}

theorem appendPolicy_effect {policy recovered : OperationalJobPolicy}
    (h : tables.appendPolicy policy = .ok (recovered, tables')) :
    tables'.runs = tables.runs ∧ ∀ row, tables.policies.find? row.policyId = some row →
      tables'.policies.find? row.policyId = some row := by
  obtain ⟨_, _, h⟩ := Except.bind_eq_ok.mp h
  split at h
  · split at h
    · cases h
      exact ⟨rfl, fun _ hrow => hrow⟩
    · cases h
  · split at h
    · rename_i hfree
      cases h
      refine ⟨rfl, fun row hrow => ?_⟩
      rw [Table.find?_put_of_ne ?_]
      · exact hrow
      · intro he
        rw [← he, hfree.1] at hrow
        cases hrow
    · cases h

theorem appendRun_effect {run recovered : OperationalJobRun}
    (h : tables.appendRun run = .ok (recovered, tables')) :
    run.validate = .ok () ∧ tables'.policies = tables.policies ∧
      (tables' = tables ∨ tables'.runs.rows = tables.runs.rows ++ [run]) := by
  obtain ⟨_, hvalid, h⟩ := Except.bind_eq_ok.mp h
  refine ⟨hvalid, ?_⟩
  split at h
  · split at h
    · cases h
      exact ⟨rfl, .inl rfl⟩
    · cases h
  · split at h
    · rename_i hfree
      cases h
      exact ⟨rfl, .inr (Table.rows_put_of_none hfree.1)⟩
    · cases h

theorem succeededRuns_snoc {run : OperationalJobRun} {policyId : UUID} {dueAt : ℤ}
    (h : tables'.runs.rows = tables.runs.rows ++ [run]) :
    tables'.succeededRuns policyId dueAt = tables.succeededRuns policyId dueAt ++
      if run.policyId = policyId ∧ run.scheduledFor = dueAt ∧ run.status = .succeeded
      then [run] else [] := by
  unfold succeededRuns
  rw [h, List.filter_append]
  by_cases hrun : run.policyId = policyId ∧ run.scheduledFor = dueAt ∧ run.status = .succeeded
  · simp [hrun]
  · simp [hrun]

theorem mem_dueStates {asOf : ℤ} {states : List OperationalJobDueState}
    {state : OperationalJobDueState} (h : tables.dueStates collate asOf = .ok states)
    (hs : state ∈ states) :
    tables.policies.find? state.policy.policyId = some state.policy ∧
      (tables.lastSuccessfulAt state.policy.policyId asOf).getD state.policy.approvedAt <
        state.dueAt := by
  obtain ⟨policy, hp, he⟩ := Except.mem_of_mapM h hs
  obtain ⟨heq, hlt⟩ := evaluateJobDue_eq_ok he
  rw [heq]
  refine ⟨Table.find?_key ?_, hlt⟩
  unfold latestPolicies at hp
  rw [List.mem_insertionSort] at hp
  exact List.mem_of_mem_filter (List.mem_of_mem_filter hp)

theorem dueJobs_eq_ok {asOf : DateTime} {states : List OperationalJobDueState}
    (h : tables.dueJobs collate asOf = .ok states) :
    ∃ instant, asOf = .aware instant ∧ tables.dueStates collate instant = .ok states := by
  unfold dueJobs at h
  split at h
  · cases h
  · split at h
    · rename_i hs
      cases h
      exact ⟨_, rfl, hs⟩
    · cases h

end OperationalJobTables

end TradePlatform
