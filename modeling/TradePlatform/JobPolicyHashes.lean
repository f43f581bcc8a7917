/-
# `TradePlatform.JobPolicyHashes` — the content hash of a stored job policy

A job policy as `PostgresOperationalJobStore` stores it: `append_policy` inserts the
instant of its approval and the hash of its content, and every read builds the policy
again and derives the hash again.  The hash covers the text of `approved_at`, and the
database gives the instant back in UTC.
-/
import TradePlatform.OperationalJobs
import TradePlatform.Lib.IsoText
import TradePlatform.Lib.Run

namespace TradePlatform

namespace JobPolicies

open IsoText (Stamp)

/-! ## Policies and rows -/

structure JobPolicyPayload where
  jobName : String
  version : String
  intervalSeconds : ℤ
  graceSeconds : ℤ
  owner : String
  runbookUri : String
  approvedBy : String
  /-- `policy.approved_at.isoformat()`. -/
  approvedAt : List Char
  enabled : Bool
deriving DecidableEq

/-- An `OperationalJobPolicy`, with the offset of `approved_at` and the content hash. -/
structure JobPolicyVersion (Digest : Type) where
  policyId : UUID
  jobName : String
  version : String
  intervalSeconds : ℤ
  graceSeconds : ℤ
  owner : String
  runbookUri : String
  approvedBy : String
  approvedAt : Stamp
  enabled : Bool
  contentHash : Digest
deriving DecidableEq

/-- A row of `operational_job_policy_versions`, whose `approved_at` is an instant. -/
structure JobPolicyRow (Digest : Type) where
  terms : OperationalJobPolicy
  contentHash : Digest
deriving DecidableEq

def JobPolicyRow.policyId {Digest : Type} (row : JobPolicyRow Digest) : UUID := row.terms.policyId

variable {Digest : Type} [DecidableEq Digest]

namespace JobPolicyVersion

variable (policy : JobPolicyVersion Digest)

def payload : JobPolicyPayload where
  jobName := policy.jobName
  version := policy.version
  intervalSeconds := policy.intervalSeconds
  graceSeconds := policy.graceSeconds
  owner := policy.owner
  runbookUri := policy.runbookUri
  approvedBy := policy.approvedBy
  approvedAt := policy.approvedAt.isoformat
  enabled := policy.enabled

def terms : OperationalJobPolicy where
  policyId := policy.policyId
  jobName := policy.jobName
  version := policy.version
  intervalSeconds := policy.intervalSeconds
  graceSeconds := policy.graceSeconds
  owner := policy.owner
  runbookUri := policy.runbookUri
  approvedBy := policy.approvedBy
  approvedAt := policy.approvedAt.instant
  enabled := policy.enabled

def row : JobPolicyRow Digest := ⟨policy.terms, policy.contentHash⟩

end JobPolicyVersion

/-- `raise OperationalJobError("job_policy_hash_mismatch")`. -/
def hashMismatch : Exn := .operationalJobError "job_policy_hash_mismatch"

def JobPolicyRow.inUtc (row : JobPolicyRow Digest) (approvedAt : Stamp) :
    JobPolicyVersion Digest where
  policyId := row.terms.policyId
  jobName := row.terms.jobName
  version := row.terms.version
  intervalSeconds := row.terms.intervalSeconds
  graceSeconds := row.terms.graceSeconds
  owner := row.terms.owner
  runbookUri := row.terms.runbookUri
  approvedBy := row.terms.approvedBy
  approvedAt := approvedAt
  enabled := row.terms.enabled
  contentHash := row.contentHash

section Store

variable (hash : JobPolicyPayload → Digest)

/-- `_policy_from_row`.  An instant that no `datetime` is fails in the driver. -/
def policyFromRow (row : JobPolicyRow Digest) : Except Exn (JobPolicyVersion Digest) :=
  match Stamp.utc? row.terms.approvedAt with
  | none => .error transactionFailed
  | some approvedAt =>
      if hash (row.inUtc approvedAt).payload ≠ row.contentHash then .error hashMismatch
      else .ok (row.inUtc approvedAt)

abbrev JobPolicyTable (Digest : Type) := Table (@JobPolicyRow.policyId Digest)

def lookup (table : JobPolicyTable Digest) (jobName version : String) :
    Option (JobPolicyRow Digest) :=
  table.rows.find? fun row => decide (row.terms.jobName = jobName ∧ row.terms.version = version)

/-- The constraints of the table: the primary key, the unique keys, and the integers it holds. -/
def Insertable (table : JobPolicyTable Digest) (row : JobPolicyRow Digest) : Prop :=
  table.find? row.policyId = none ∧
  (∀ other ∈ table.rows, other.contentHash ≠ row.contentHash) ∧
  (∀ other ∈ table.rows, other.terms.jobName = row.terms.jobName →
    other.terms.approvedAt ≠ row.terms.approvedAt) ∧
  row.terms.intervalSeconds < 2 ^ 63 ∧ row.terms.graceSeconds < 2 ^ 63

instance (table : JobPolicyTable Digest) (row : JobPolicyRow Digest) :
    Decidable (Insertable table row) :=
  inferInstanceAs (Decidable (_ ∧ _))

def appendPolicy (table : JobPolicyTable Digest) (policy : JobPolicyVersion Digest) :
    Except Exn (JobPolicyVersion Digest × JobPolicyTable Digest) := do
  policy.terms.validate
  if hash policy.payload ≠ policy.contentHash then .error hashMismatch
  else
    match lookup table policy.jobName policy.version with
    | some row =>
        let recovered ← policyFromRow hash row
        if recovered.contentHash ≠ policy.contentHash then
          .error (.operationalJobError "job_policy_version_conflict")
        else return (recovered, table)
    | none =>
        if Insertable table policy.row then return (policy, table.put policy.row)
        else .error transactionFailed

def latestRows (collate : String → String → Bool) (table : JobPolicyTable Digest) (asOf : ℤ) :
    List (JobPolicyRow Digest) :=
  let approved := table.rows.filter fun row => decide (row.terms.approvedAt ≤ asOf)
  (approved.filter fun row => approved.all fun other =>
    decide (other.terms.jobName = row.terms.jobName →
      other.terms.approvedAt < row.terms.approvedAt ∨
        other.terms.approvedAt = row.terms.approvedAt ∧ other.policyId ≤ row.policyId)).insertionSort
    fun row other => collate row.terms.jobName other.terms.jobName = true

def dueStates (collate : String → String → Bool) (table : JobPolicyTable Digest)
    (runs : Table OperationalJobRun.runId) (asOf : ℤ) : Except Exn (List OperationalJobDueState) :=
  (latestRows collate table asOf).mapM fun row => do
    let policy ← policyFromRow hash row
    let last := OperationalJobTables.lastSuccessfulAt ⟨.empty _, runs⟩ policy.policyId asOf
    evaluateJobDue policy.terms last asOf

def dueJobs (collate : String → String → Bool) (table : JobPolicyTable Digest)
    (runs : Table OperationalJobRun.runId) (asOf : DateTime) :
    Except Exn (List OperationalJobDueState) :=
  match asOf with
  | .naive _ => .error (.operationalJobError "job_due_time_must_be_timezone_aware")
  | .aware asOf =>
      match dueStates hash collate table runs asOf with
      | .ok states => .ok states
      | .error (.persistenceError message) => .error (.persistenceError message)
      | .error _ => .error (.persistenceError "operational_job_due_read_uncertain")

/-- `monitor_overdue`, with what it does about the alerts of the states. -/
def monitorOverdue {α : Type} (collate : String → String → Bool) (table : JobPolicyTable Digest)
    (runs : Table OperationalJobRun.runId)
    (openAlerts : List OperationalJobDueState → Except Exn α) (asOf : DateTime) : Except Exn α :=
  match asOf with
  | .naive _ => .error (.operationalJobError "job_due_time_must_be_timezone_aware")
  | .aware asOf =>
      match dueStates hash collate table runs asOf >>= openAlerts with
      | .ok opened => .ok opened
      | .error (.operationalJobError message) => .error (.operationalJobError message)
      | .error (.persistenceError message) => .error (.persistenceError message)
      | .error _ => .error (.persistenceError "operational_job_monitor_persistence_uncertain")

/-! ## Runs of the store -/

/-- The table, and the policies that `append_policy` accepted. -/
structure JobPolicyHistory (Digest : Type) where
  table : JobPolicyTable Digest
  accepted : List (JobPolicyVersion Digest)

def JobPolicyHistory.empty : JobPolicyHistory Digest := ⟨.empty _, []⟩

/-- One call of `append_policy`; a refused one is rolled back. -/
def step (history : JobPolicyHistory Digest) (policy : JobPolicyVersion Digest) :
    JobPolicyHistory Digest :=
  match appendPolicy hash history.table policy with
  | .ok (_, table) => ⟨table, history.accepted ++ [policy]⟩
  | .error _ => history

/-- No read of an accepted policy raises `job_policy_hash_mismatch`: neither when it is
appended again, nor when jobs are evaluated or monitored. -/
def ReadsBack (history : JobPolicyHistory Digest) : Prop :=
  (∀ policy ∈ history.accepted, appendPolicy hash history.table policy ≠ .error hashMismatch) ∧
  (∀ collate runs asOf, dueStates hash collate history.table runs asOf ≠ .error hashMismatch) ∧
  ∀ (α : Type) collate runs (openAlerts : List OperationalJobDueState → Except Exn α) asOf,
    (∀ states, openAlerts states ≠ .error hashMismatch) →
      monitorOverdue hash collate history.table runs openAlerts asOf ≠ .error hashMismatch

end Store

/-- The clock of `approved_at` is set to UTC, or its instant is no `datetime` in UTC. -/
def JobPolicyVersion.InUtc (policy : JobPolicyVersion Digest) : Prop :=
  policy.approvedAt.offset = 0 ∨ Stamp.utc? policy.approvedAt.instant = none

/-! ## A policy is read back when its clock is set to UTC -/

section Proofs

variable {hash : JobPolicyPayload → Digest} {policy recovered : JobPolicyVersion Digest}
  {table table' : JobPolicyTable Digest} {row : JobPolicyRow Digest}
  {history : JobPolicyHistory Digest}

theorem policyFromRow_utc (hpolicy : hash policy.payload = policy.contentHash)
    (h : policy.approvedAt.offset = 0) : policyFromRow hash policy.row = .ok policy := by
  have hutc : Stamp.utc? policy.row.terms.approvedAt = some policy.approvedAt :=
    Stamp.utc?_instant h
  unfold policyFromRow
  rw [hutc]
  exact if_neg (not_not.mpr hpolicy)

omit [DecidableEq Digest] in
theorem approvedAt_of_hash_eq (hinj : Function.Injective hash) {other : JobPolicyVersion Digest}
    (h : hash policy.payload = hash other.payload) : policy.approvedAt = other.approvedAt :=
  Stamp.isoformat_injective (congrArg JobPolicyPayload.approvedAt (hinj h))

theorem policyFromRow_mismatch_iff (hinj : Function.Injective hash)
    (hpolicy : hash policy.payload = policy.contentHash) :
    policyFromRow hash policy.row ≠ .error hashMismatch ↔ policy.InUtc := by
  constructor
  · intro h
    unfold policyFromRow at h
    split at h
    · rename_i hutc
      exact .inr hutc
    · rename_i stamp hutc
      split at h
      · exact absurd rfl h
      · rename_i heq
        have hstamp : stamp = policy.approvedAt :=
          approvedAt_of_hash_eq hinj ((not_not.mp heq).trans hpolicy.symm)
        exact .inl (hstamp ▸ (Stamp.utc?_eq_some hutc).1)
  · rintro (hoffset | hnone)
    · rw [policyFromRow_utc hpolicy hoffset]
      exact fun h => nomatch h
    · have hutc : Stamp.utc? policy.row.terms.approvedAt = none := hnone
      unfold policyFromRow
      rw [hutc]
      exact fun h => nomatch h

/-! ## What is stored of an accepted policy -/

/-- The version of an accepted policy has a row: the one inserted for it, or one that was
read back with the content it has. -/
def StoredAs (hash : JobPolicyPayload → Digest) (policy : JobPolicyVersion Digest)
    (row : JobPolicyRow Digest) : Prop :=
  row = policy.row ∨
    policy.InUtc ∧ ∃ recovered, policyFromRow hash row = .ok recovered ∧
      recovered.contentHash = policy.contentHash

/-- Every accepted policy has the content its hash says and a row of its version, and every
row was inserted for an accepted policy. -/
structure Recorded (hash : JobPolicyPayload → Digest) (history : JobPolicyHistory Digest) :
    Prop where
  valid : ∀ policy ∈ history.accepted, policy.terms.validate = .ok ()
  hashed : ∀ policy ∈ history.accepted, hash policy.payload = policy.contentHash
  stored : ∀ policy ∈ history.accepted, ∃ row,
    lookup history.table policy.jobName policy.version = some row ∧ StoredAs hash policy row
  inserted : ∀ row ∈ history.table.rows, ∃ policy ∈ history.accepted, row = policy.row

/-- All that an accepted call does: it finds a row that reads back with the content of the
policy, or it inserts the row of the policy. -/
theorem appendPolicy_eq_ok (h : appendPolicy hash table policy = .ok (recovered, table')) :
    policy.terms.validate = .ok () ∧ hash policy.payload = policy.contentHash ∧
    ((∃ row, lookup table policy.jobName policy.version = some row ∧
        policyFromRow hash row = .ok recovered ∧ recovered.contentHash = policy.contentHash ∧
        table' = table) ∨
      lookup table policy.jobName policy.version = none ∧
        table'.rows = table.rows ++ [policy.row]) := by
  obtain ⟨_, hvalid, h⟩ := Except.bind_eq_ok.mp h
  refine ⟨hvalid, ?_⟩
  split at h
  · cases h
  · rename_i hhash
    refine ⟨not_not.mp hhash, ?_⟩
    split at h
    · rename_i row hlookup
      obtain ⟨read, hread, h⟩ := Except.bind_eq_ok.mp h
      split at h
      · cases h
      · rename_i hsame
        cases h
        exact .inl ⟨row, hlookup, hread, not_not.mp hsame, rfl⟩
    · rename_i hlookup
      split at h
      · rename_i hfree
        cases h
        exact .inr ⟨hlookup, Table.rows_put_of_none hfree.1⟩
      · cases h

theorem inUtc_of_read (hinj : Function.Injective hash)
    (hpolicy : hash policy.payload = policy.contentHash)
    (hread : policyFromRow hash row = .ok recovered)
    (hsame : recovered.contentHash = policy.contentHash) : policy.InUtc := by
  unfold policyFromRow at hread
  split at hread
  · cases hread
  · rename_i stamp hutc
    split at hread
    · cases hread
    · rename_i heq
      cases hread
      have hhash : hash (row.inUtc stamp).payload = hash policy.payload := by
        rw [not_not.mp heq, hpolicy, ← hsame]
        rfl
      have hstamp : stamp = policy.approvedAt := approvedAt_of_hash_eq hinj hhash
      exact .inl (hstamp ▸ (Stamp.utc?_eq_some hutc).1)

theorem Recorded.step (hinj : Function.Injective hash) (h : Recorded hash history)
    (policy : JobPolicyVersion Digest) : Recorded hash (step hash history policy) := by
  unfold JobPolicies.step
  split
  · rename_i recovered table' happend
    obtain ⟨hvalid, hhash, hcases⟩ := appendPolicy_eq_ok happend
    have hvalid' : ∀ p ∈ history.accepted ++ [policy], p.terms.validate = .ok () := by
      intro p hp
      rcases List.mem_append.mp hp with hp | hp
      · exact h.valid p hp
      · rw [List.mem_singleton.mp hp]
        exact hvalid
    have hhash' : ∀ p ∈ history.accepted ++ [policy], hash p.payload = p.contentHash := by
      intro p hp
      rcases List.mem_append.mp hp with hp | hp
      · exact h.hashed p hp
      · rw [List.mem_singleton.mp hp]
        exact hhash
    rcases hcases with ⟨row, hlookup, hread, hsame, rfl⟩ | ⟨hlookup, hrows⟩
    · refine ⟨hvalid', hhash', fun p hp => ?_, fun row hrow => ?_⟩
      · rcases List.mem_append.mp hp with hp | hp
        · exact h.stored p hp
        · rw [List.mem_singleton.mp hp]
          exact ⟨row, hlookup, .inr ⟨inUtc_of_read hinj hhash hread hsame, recovered, hread, hsame⟩⟩
      · obtain ⟨p, hp, heq⟩ := h.inserted row hrow
        exact ⟨p, List.mem_append_left _ hp, heq⟩
    · have hkept : ∀ jobName version row, lookup history.table jobName version = some row →
          lookup table' jobName version = some row := by
        intro jobName version row hrow
        unfold lookup at hrow ⊢
        rw [hrows, List.find?_append, hrow, Option.some_or]
      have hnew : lookup table' policy.jobName policy.version = some policy.row := by
        unfold lookup at hlookup ⊢
        rw [hrows, List.find?_append, hlookup, Option.none_or]
        exact List.find?_cons_of_pos (decide_eq_true ⟨rfl, rfl⟩)
      refine ⟨hvalid', hhash', fun p hp => ?_, fun row hrow => ?_⟩
      · rcases List.mem_append.mp hp with hp | hp
        · obtain ⟨row, hrow, hstored⟩ := h.stored p hp
          exact ⟨row, hkept _ _ row hrow, hstored⟩
        · rw [List.mem_singleton.mp hp]
          exact ⟨policy.row, hnew, .inl rfl⟩
      · rw [hrows] at hrow
        rcases List.mem_append.mp hrow with hrow | hrow
        · obtain ⟨p, hp, heq⟩ := h.inserted row hrow
          exact ⟨p, List.mem_append_left _ hp, heq⟩
        · exact ⟨policy, List.mem_append_right _ (List.mem_singleton_self _),
            List.mem_singleton.mp hrow⟩
  · exact h

theorem recorded_run (hinj : Function.Injective hash) (calls : List (JobPolicyVersion Digest)) :
    Recorded hash (Run.exec (step hash) .empty calls) := by
  refine Run.exec_inv (fun history policy h => h.step hinj policy) calls ⟨?_, ?_, ?_, ?_⟩
  all_goals exact fun _ h => absurd h List.not_mem_nil

/-! ## The reads -/

theorem appendPolicy_again_iff (hinj : Function.Injective hash) (h : Recorded hash history)
    (hp : policy ∈ history.accepted) :
    appendPolicy hash history.table policy ≠ .error hashMismatch ↔ policy.InUtc := by
  obtain ⟨row, hlookup, hstored⟩ := h.stored policy hp
  have hhash := h.hashed policy hp
  have hread : appendPolicy hash history.table policy =
      policyFromRow hash row >>= fun recovered =>
        if recovered.contentHash ≠ policy.contentHash then
          .error (.operationalJobError "job_policy_version_conflict")
        else pure (recovered, history.table) := by
    unfold appendPolicy
    rw [h.valid policy hp, Except.ok_bind, if_neg (not_not.mpr hhash), hlookup]
  rw [hread]
  rcases hstored with rfl | ⟨hutc, recovered, hrow, hsame⟩
  · rw [← policyFromRow_mismatch_iff hinj hhash]
    refine not_congr ?_
    cases hrow : policyFromRow hash policy.row with
    | error e => simp only [Except.error_bind, Except.error.injEq]
    | ok recovered =>
        rw [Except.ok_bind]
        refine iff_of_false ?_ (fun h => nomatch h)
        split
        · exact fun h => absurd (Except.error.inj h) (by decide)
        · exact fun h => nomatch h
  · refine iff_of_true ?_ hutc
    rw [hrow, Except.ok_bind, if_neg (not_not.mpr hsame)]
    exact fun h => nomatch h

theorem evaluateJobDue_ne_mismatch (terms : OperationalJobPolicy) (last : Option ℤ) (asOf : ℤ) :
    evaluateJobDue terms last asOf ≠ .error hashMismatch := by
  have hadd : ∀ instant seconds, addSeconds instant seconds ≠ .error hashMismatch := by
    intro instant seconds h
    unfold addSeconds at h
    split at h <;> cases h
  intro h
  rcases Except.bind_eq_error.mp h with hvalid | ⟨_, _, h⟩
  · unfold OperationalJobPolicy.validate at hvalid
    split at hvalid
    · exact absurd (Except.error.inj hvalid) (by decide)
    · cases hvalid
  · split at h
    · exact absurd (Except.error.inj h) (by decide)
    · rcases Except.bind_eq_error.mp h with hdue | ⟨_, _, h⟩
      · exact hadd _ _ hdue
      · rcases Except.bind_eq_error.mp h with hover | ⟨_, _, h⟩
        · unfold overdueAt at hover
          split at hover
          · cases hgrace : addSeconds _ terms.graceSeconds with
            | error e =>
                rw [hgrace] at hover
                cases hover
                exact hadd _ _ hgrace
            | ok graceEnd =>
                rw [hgrace] at hover
                cases hover
          · cases hover
        · cases h

/-- Due jobs are evaluated without a mismatch when every row was inserted by a clock set to
UTC. -/
theorem dueStates_ne_mismatch (h : Recorded hash history)
    (hutc : ∀ policy ∈ history.accepted, policyFromRow hash policy.row ≠ .error hashMismatch)
    (collate : String → String → Bool) (runs : Table OperationalJobRun.runId) (asOf : ℤ) :
    dueStates hash collate history.table runs asOf ≠ .error hashMismatch := by
  intro hdue
  obtain ⟨row, hrow, herror⟩ := Except.exists_error_of_mapM hdue
  have hmem : row ∈ history.table.rows := by
    unfold latestRows at hrow
    rw [List.mem_insertionSort] at hrow
    exact List.mem_of_mem_filter (List.mem_of_mem_filter hrow)
  obtain ⟨policy, hp, rfl⟩ := h.inserted row hmem
  rcases Except.bind_eq_error.mp herror with hread | ⟨_, _, heval⟩
  · exact hutc policy hp hread
  · exact evaluateJobDue_ne_mismatch _ _ _ heval

theorem monitorOverdue_ne_mismatch {α : Type} {collate : String → String → Bool}
    {runs : Table OperationalJobRun.runId}
    {openAlerts : List OperationalJobDueState → Except Exn α} {asOf : DateTime}
    (hdue : ∀ asOf, dueStates hash collate table runs asOf ≠ .error hashMismatch)
    (hopen : ∀ states, openAlerts states ≠ .error hashMismatch) :
    monitorOverdue hash collate table runs openAlerts asOf ≠ .error hashMismatch := by
  intro h
  unfold monitorOverdue at h
  split at h
  · exact absurd (Except.error.inj h) (by decide)
  · split at h
    · cases h
    · rename_i message hread
      rw [h] at hread
      rcases Except.bind_eq_error.mp hread with hread | ⟨states, _, hread⟩
      · exact hdue _ hread
      · exact hopen states hread
    · cases h
    · cases h

/-- In every state that calls of `append_policy` lead to, the accepted policies are read
back without a mismatch exactly when the clocks of their approvals are all set to UTC. -/
theorem readsBack_iff (hinj : Function.Injective hash) (calls : List (JobPolicyVersion Digest)) :
    ReadsBack hash (Run.exec (step hash) .empty calls) ↔
      ∀ policy ∈ (Run.exec (step hash) .empty calls).accepted, policy.InUtc := by
  have hrecorded := recorded_run hinj calls
  constructor
  · rintro ⟨hagain, -, -⟩ policy hp
    exact (appendPolicy_again_iff hinj hrecorded hp).mp (hagain policy hp)
  · intro hutc
    have hdue := dueStates_ne_mismatch hrecorded fun policy hp =>
      (policyFromRow_mismatch_iff hinj (hrecorded.hashed policy hp)).mpr (hutc policy hp)
    refine ⟨fun policy hp => ?_, hdue, fun _ collate runs openAlerts asOf hopen => ?_⟩
    · exact (appendPolicy_again_iff hinj hrecorded hp).mpr (hutc policy hp)
    · exact monitorOverdue_ne_mismatch (hdue collate runs) hopen

end Proofs

theorem shown_noon : IsoText.Stamp.Shown 2026 7 1 12 0 0 0 (7200 * 10 ^ 6) := by decide

/-- `hourly_job` 1, approved at 12:00 by a clock two hours ahead of UTC. -/
def summerPolicy : JobPolicyVersion JobPolicyPayload where
  policyId := 1
  jobName := "hourly_job"
  version := "1"
  intervalSeconds := 3600
  graceSeconds := 60
  owner := "ops"
  runbookUri := "runbook"
  approvedBy := "ops"
  approvedAt := .ofShown 2026 7 1 12 0 0 0 (7200 * 10 ^ 6) shown_noon
  enabled := true
  contentHash := ⟨"hourly_job", "1", 3600, 60, "ops", "runbook", "ops",
    "2026-07-01T12:00:00+02:00".toList, true⟩

def utcPolicy : JobPolicyVersion JobPolicyPayload where
  policyId := 2
  jobName := "daily_job"
  version := "1"
  intervalSeconds := 86400
  graceSeconds := 60
  owner := "ops"
  runbookUri := "runbook"
  approvedBy := "ops"
  approvedAt := .ofShown 2026 7 1 9 0 0 0 0
  enabled := true
  contentHash := ⟨"daily_job", "1", 86400, 60, "ops", "runbook", "ops",
    "2026-07-01T09:00:00+00:00".toList, true⟩

theorem readsBack_iff_two_clocks :
    ReadsBack id (Run.exec (step id) .empty [summerPolicy, utcPolicy]) ↔
      ∀ policy ∈ (Run.exec (step id) .empty [summerPolicy, utcPolicy]).accepted, policy.InUtc :=
  readsBack_iff Function.injective_id _

/-- Both policies are accepted; from then on the first fails its hash, and no job is
evaluated. -/
theorem summer_policy_blocks_due_jobs :
    let history := Run.exec (step id) .empty [summerPolicy, utcPolicy]
    history.accepted = [summerPolicy, utcPolicy] ∧
    ¬ ReadsBack id history ∧
    dueStates id (fun s t => decide (s ≤ t)) history.table (.empty _)
      (utcPolicy.approvedAt.instant + 10 ^ 11) = .error hashMismatch ∧
    dueJobs id (fun s t => decide (s ≤ t)) history.table (.empty _)
      (.aware (utcPolicy.approvedAt.instant + 10 ^ 11)) =
        .error (.persistenceError "operational_job_due_read_uncertain") := by
  have haccepted : (Run.exec (step id) .empty [summerPolicy, utcPolicy]).accepted =
      [summerPolicy, utcPolicy] := by decide +kernel
  refine ⟨haccepted, fun hreads => ?_, by decide +kernel, by decide +kernel⟩
  have hutc := (appendPolicy_again_iff Function.injective_id
    (recorded_run Function.injective_id [summerPolicy, utcPolicy])
    (haccepted ▸ List.mem_cons_self)).mp (hreads.1 summerPolicy (haccepted ▸ List.mem_cons_self))
  rcases hutc with hoffset | hnone
  · exact absurd hoffset (by decide)
  · exact absurd hnone (by decide +kernel)

end JobPolicies

end TradePlatform
