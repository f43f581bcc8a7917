/-
# `TradePlatform.StrategyLabLedger` — the queue of trials, under leases

`strategy_lab_ledger_v1.py`: a study is registered with one row of the queue for each of its
trials; workers claim rows under a lease, renew it, and complete or fail the attempt they hold;
failed rows are queued again on request, and a study is cancelled as a whole.  A call is one
transaction.  Calls come in any order, by any clock, with any claim presented, and a claim skips
whatever rows other transactions have locked.
-/
import TradePlatform.StrategyLabStudy
import TradePlatform.Lib.TextSplit

namespace TradePlatform

namespace StrategyLabLedger

open StrategyLabStudy (StudySpecV1 TrialV1 Point identityHash beforeNewline)

/-- `StrategyLabLedgerError`, the error of a unique constraint, and what a study raises. -/
inductive LedgerExn where
  | ledgerError (message : String)
  | uniqueViolation (table : String)
  | raised (error : Exn)
deriving DecidableEq

def refuse {α : Type} (message : String) : Except LedgerExn α := .error (.ledgerError message)

/-! ## The tables -/

/-- The state of a row of the queue: there is a lease exactly while it is claimed. -/
inductive TrialStateV1 where
  | pending
  | claimed (leaseOwner : String) (leaseExpiresAt : ℤ)
  | succeeded
  | failed
  | cancelled
deriving DecidableEq

inductive EventType where
  | claimed | leaseExpired | succeeded | failed | retryRequested | cancelled
deriving DecidableEq

def EventType.value : EventType → String
  | claimed => "CLAIMED"
  | leaseExpired => "LEASE_EXPIRED"
  | succeeded => "SUCCEEDED"
  | failed => "FAILED"
  | retryRequested => "RETRY_REQUESTED"
  | cancelled => "CANCELLED"

/-- A row of `strategy_lab_trial_events`, of the trial whose row of the queue has it. -/
structure TrialEvent where
  studyId : UUID
  attempt : ℕ
  eventType : EventType
  worker : Option String
  detail : List (String × String)
  occurredAt : ℤ

inductive TrialOutcomeV1 where
  | evaluated | inadmissibleParameters

def TrialOutcomeV1.value : TrialOutcomeV1 → String
  | evaluated => "EVALUATED"
  | inadmissibleParameters => "INADMISSIBLE_PARAMETERS"

structure TrialResultV1 where
  trialId : UUID
  studyId : UUID
  attempt : ℕ
  outcome : TrialOutcomeV1
  metrics : List (String × Json)
  costPolicySlot : String
  resultContentHash : String
  worker : String
  producedAt : ℤ

/-- A row of `strategy_lab_trial_queue`, with what the tables of the trials, of their events and
of their results hold of the trial. -/
structure QueueRow where
  trial : TrialV1
  state : TrialStateV1
  attempt : ℕ
  events : List TrialEvent
  result : Option TrialResultV1

def QueueRow.id (row : QueueRow) : UUID := row.trial.trialId

structure StoredStudy where
  studyId : UUID
  contentHash : String
  plannedTrialCount : ℤ
  costPolicySlot : String

structure Ledger where
  studies : List StoredStudy
  queue : List QueueRow

def Ledger.empty : Ledger := ⟨[], []⟩

/-- `uuid5` in the namespace of the ledger, and `isoformat()` of an instant in UTC. -/
structure LedgerEnv extends StrategyLabStudy.Env where
  ledgerUuid5 : String → UUID
  isoformat : ℤ → String

def eventName (trialId : UUID) (attempt : ℕ) (eventType : EventType) : List Char :=
  "event:".toList ++ (UuidText.text trialId ++
    ':' :: (TextSplit.intText attempt ++ ':' :: eventType.value.toList))

variable (env : LedgerEnv)

def eventId (trialId : UUID) (event : TrialEvent) : UUID :=
  env.ledgerUuid5 (String.ofList (eventName trialId event.attempt event.eventType))

/-! ## What a transaction writes -/

/-- The rows that a transaction changes, and what becomes of them. -/
structure Writes where
  picked : List QueueRow
  row : QueueRow → QueueRow

/-- A row after the transaction. -/
def Writes.after (w : Writes) (row : QueueRow) : QueueRow :=
  if row.id ∈ w.picked.map QueueRow.id then w.row row else row

def Writes.written (w : Writes) (s : Ledger) : Ledger := { s with queue := s.queue.map w.after }

/-- The transaction fails where two events would have one key. -/
def Writes.commit (w : Writes) (s : Ledger) : Except LedgerExn Ledger :=
  if ((w.written s).queue.flatMap fun row => row.events.map (eventId env row.id)).Nodup then
    .ok (w.written s)
  else .error (.uniqueViolation "strategy_lab_trial_events")

/-- The result of a trial that has none yet. -/
def insertResult (row : QueueRow) : Except LedgerExn Unit :=
  if row.result.isSome then .error (.uniqueViolation "strategy_lab_trial_results") else .ok ()

/-! ## The calls -/

/-- `re.match` of a first character and at most `most` further ones. -/
def matchesCode (first rest : Char → Bool) (most : ℕ) (text : String) : Bool :=
  match beforeNewline text.toList with
  | [] => false
  | c :: cs => first c && decide (cs.length ≤ most) && cs.all rest

/-- `_worker`. -/
def checkWorker (value : String) : Except LedgerExn Unit :=
  if matchesCode Char.isAlphanum (fun c => c.isAlphanum || "_.:@-".toList.contains c) 127 value then
    .ok ()
  else refuse "worker_id_invalid"

/-- `_reason`. -/
def checkReason (value : String) : Except LedgerExn Unit :=
  if matchesCode Char.isLower (fun c => c.isLower || c.isDigit || "_:.-".toList.contains c) 199
      value then .ok ()
  else refuse "reason_must_be_a_lowercase_code"

/-- `_now`. -/
def utcNow : DateTime → Except LedgerExn ℤ
  | .aware t => .ok t
  | .naive _ => refuse "ledger_clock_must_be_timezone_aware"

/-- `lease_seconds > 0`, and the `timedelta` of them. -/
def checkLease : Option ℤ → Except LedgerExn ℤ
  | some lease => .ok lease
  | none => refuse "lease_seconds_must_be_positive"

structure TrialClaimV1 where
  trialId : UUID
  studyId : UUID
  ordinal : ℤ
  trialContentHash : String
  parameters : Point
  attempt : ℕ
  worker : String
  leaseExpiresAt : ℤ

/-- What a call returns. -/
inductive Reply where
  | registered (studyId : UUID) (contentHash : String) (planned : ℤ) (created : Bool)
  | claims (claims : List TrialClaimV1)
  | renewed (claim : TrialClaimV1)
  | completed (result : TrialResultV1)
  | failed
  | rows (count : ℕ)

/-- The row in another state, with some further events. -/
def QueueRow.become (row : QueueRow) (state : TrialStateV1) (events : List TrialEvent) : QueueRow :=
  { row with state, events := row.events ++ events }

def QueueRow.claimable (studyId : UUID) (now : ℤ) (row : QueueRow) : Bool :=
  decide (row.trial.studyId = studyId) &&
    match row.state with
    | .pending => true
    | .claimed _ leaseExpiresAt => decide (leaseExpiresAt ≤ now)
    | _ => false

def QueueRow.expiredEvents (worker : String) (now : ℤ) (row : QueueRow) : List TrialEvent :=
  match row.state with
  | .claimed owner _ => [⟨row.trial.studyId, row.attempt, .leaseExpired, some owner,
      [("reclaimed_by", worker)], now⟩]
  | _ => []

def QueueRow.claimed (worker : String) (expires now : ℤ) (row : QueueRow) : QueueRow :=
  { row.become (.claimed worker expires) (row.expiredEvents worker now ++
      [⟨row.trial.studyId, row.attempt + 1, .claimed, some worker,
        [("lease_expires_at", env.isoformat expires)], now⟩]) with
    attempt := row.attempt + 1 }

def QueueRow.toClaim (worker : String) (expires : ℤ) (row : QueueRow) : TrialClaimV1 :=
  ⟨row.id, row.trial.studyId, row.trial.ordinal, row.trial.contentHash, row.trial.parameters,
    row.attempt + 1, worker, expires⟩

/-- `claim`, with the rows that are locked by other transactions. -/
def claim (ledger : Ledger) (studyId : UUID) (worker : String) (limit : ℤ) (lease : Option ℤ)
    (clock : DateTime) (locked : List UUID) : Except LedgerExn (Reply × Writes) := do
  checkWorker worker
  if limit ≤ 0 then refuse "claim_limit_must_be_positive"
  else
    let lease ← checkLease lease
    let now ← utcNow clock
    let picked := (sortBy (fun row : QueueRow => row.trial.ordinal) (ledger.queue.filter fun row =>
      row.claimable studyId now && decide (row.id ∉ locked))).take limit.toNat
    return (.claims (picked.map (QueueRow.toClaim worker (now + lease))),
      ⟨picked, QueueRow.claimed env worker (now + lease) now⟩)

/-- `_hold_lease`: the row that is held. -/
def holdLease (ledger : Ledger) (claim : TrialClaimV1) (now : ℤ) : Except LedgerExn QueueRow :=
  match ledger.queue.find? fun row => decide (row.id = claim.trialId) with
  | none => refuse "trial_not_queued"
  | some row =>
      match row.state with
      | .claimed owner expires =>
          if row.attempt ≠ claim.attempt ∨ owner ≠ claim.worker then refuse "lease_lost"
          else if expires ≤ now then refuse "lease_expired"
          else .ok row
      | _ => refuse "lease_lost"

def renew (ledger : Ledger) (claim : TrialClaimV1) (lease : Option ℤ) (clock : DateTime) :
    Except LedgerExn (Reply × Writes) := do
  let lease ← checkLease lease
  let now ← utcNow clock
  let held ← holdLease ledger claim now
  return (.renewed { claim with leaseExpiresAt := now + lease },
    ⟨[held], fun row => { row with state := .claimed claim.worker (now + lease) }⟩)

/-- `result_content_hash_v1`. -/
def resultContentHash (trialContentHash : String) (outcome : TrialOutcomeV1)
    (metrics : List (String × Json)) (costPolicySlot : String) : Except LedgerExn String :=
  match identityHash env.toEnv (.obj [("schema_version", .str "strategy-lab-trial-result-v1"),
      ("trial_content_hash", .str trialContentHash), ("outcome", .str outcome.value),
      ("numeric_tier", .str "SEARCH_NON_AUTHORITATIVE"), ("cost_policy_slot", .str costPolicySlot),
      ("metrics", .obj metrics)]) with
  | .ok hash => .ok hash
  | .error (.strategyLabStudyError message) => refuse ("metrics_refused:" ++ message)
  | .error error => .error (.raised error)

def findStudy (ledger : Ledger) (studyId : UUID) : Except LedgerExn StoredStudy :=
  match ledger.studies.find? fun study => decide (study.studyId = studyId) with
  | some study => .ok study
  | none => refuse "study_not_registered"

def complete (ledger : Ledger) (claim : TrialClaimV1) (outcome : TrialOutcomeV1)
    (metrics : List (String × Json)) (clock : DateTime) : Except LedgerExn (Reply × Writes) := do
  let now ← utcNow clock
  let held ← holdLease ledger claim now
  let study ← findStudy ledger claim.studyId
  let hash ← resultContentHash env claim.trialContentHash outcome metrics study.costPolicySlot
  let result : TrialResultV1 := ⟨claim.trialId, claim.studyId, claim.attempt, outcome, metrics,
    study.costPolicySlot, hash, claim.worker, now⟩
  insertResult held
  return (.completed result,
    ⟨[held], fun row => { row.become .succeeded [⟨claim.studyId, claim.attempt, .succeeded,
        some claim.worker, [("outcome", outcome.value), ("result_content_hash", hash)], now⟩] with
      result := some result }⟩)

def fail (ledger : Ledger) (claim : TrialClaimV1) (reason : String) (clock : DateTime) :
    Except LedgerExn (Reply × Writes) := do
  checkReason reason
  let now ← utcNow clock
  let held ← holdLease ledger claim now
  return (.failed,
    ⟨[held], fun row => row.become .failed [⟨claim.studyId, claim.attempt, .failed,
      some claim.worker, [("reason", reason)], now⟩]⟩)

/-- The body of `retry_failed` and of `cancel_study`: every row of the study in one of the states
goes to another. -/
def moveRows (ledger : Ledger) (studyId : UUID) (reason : String) (clock : DateTime)
    (moved : TrialStateV1 → Bool) (target : TrialStateV1) (eventType : EventType) :
    Except LedgerExn (Reply × Writes) := do
  checkReason reason
  let now ← utcNow clock
  let picked := ledger.queue.filter fun row =>
    decide (row.trial.studyId = studyId) && moved row.state
  return (.rows picked.length,
    ⟨picked, fun row => row.become target
      [⟨row.trial.studyId, row.attempt, eventType, none, [("reason", reason)], now⟩]⟩)

def TrialStateV1.isFailed : TrialStateV1 → Bool
  | failed => true
  | _ => false

def TrialStateV1.isTerminal : TrialStateV1 → Bool
  | succeeded | cancelled => true
  | _ => false

def retryFailed (ledger : Ledger) (studyId : UUID) (reason : String) (clock : DateTime) :
    Except LedgerExn (Reply × Writes) :=
  moveRows ledger studyId reason clock TrialStateV1.isFailed .pending .retryRequested

def cancelStudy (ledger : Ledger) (studyId : UUID) (reason : String) (clock : DateTime) :
    Except LedgerExn (Reply × Writes) :=
  moveRows ledger studyId reason clock (fun state => !state.isTerminal) .cancelled .cancelled

/-- The rows of a study that is not stored yet, where no trial of its own or of another study has
the identifier or the hash of another. -/
def insertTrials (ledger : Ledger) (trials : List TrialV1) : Except LedgerExn Ledger :=
  let queue := ledger.queue ++ trials.map fun trial => ⟨trial, .pending, 0, [], none⟩
  if (queue.map QueueRow.id).Nodup ∧ (queue.map fun row => row.trial.contentHash).Nodup then
    .ok { ledger with queue }
  else .error (.uniqueViolation "strategy_lab_trials")

def liftStudy {α : Type} : Except Exn α → Except LedgerExn α
  | .ok a => .ok a
  | .error e => .error (.raised e)

/-- The study is inserted, or found as it is. -/
def insertStudy (ledger : Ledger) (spec : StudySpecV1 env.toEnv) (study : StoredStudy) :
    Except LedgerExn (Bool × Ledger) :=
  match ledger.studies.find? fun stored => decide (stored.studyId = study.studyId) with
  | some stored =>
      if stored.contentHash ≠ study.contentHash ∨
          stored.plannedTrialCount ≠ study.plannedTrialCount then
        refuse "study_identity_conflict"
      else .ok (false, ledger)
  | none => do
      let trials ← liftStudy spec.trials
      let ledger ← insertTrials ledger trials
      return (true, { ledger with studies := ledger.studies ++ [study] })

def registerStudy (ledger : Ledger) (spec : StudySpecV1 env.toEnv) (clock : DateTime) :
    Except LedgerExn (Reply × Ledger) := do
  let contentHash ← liftStudy spec.contentHash
  let studyId ← liftStudy spec.studyId
  let _ ← utcNow clock
  let (created, ledger) ← insertStudy env ledger spec
    ⟨studyId, contentHash, spec.plannedTrialCount, spec.costPolicySlot⟩
  let stored := (ledger.queue.filter fun row => decide (row.trial.studyId = studyId)).length
  if (stored : ℤ) ≠ spec.plannedTrialCount then refuse "stored_trial_count_differs_from_the_plan"
  else return (.registered studyId contentHash spec.plannedTrialCount created, ledger)

inductive Call where
  | register (spec : StudySpecV1 env.toEnv) (clock : DateTime)
  | claim (studyId : UUID) (worker : String) (limit : ℤ) (lease : Option ℤ) (clock : DateTime)
      (locked : List UUID)
  | renew (claim : TrialClaimV1) (lease : Option ℤ) (clock : DateTime)
  | complete (claim : TrialClaimV1) (outcome : TrialOutcomeV1) (metrics : List (String × Json))
      (clock : DateTime)
  | fail (claim : TrialClaimV1) (reason : String) (clock : DateTime)
  | retryFailed (studyId : UUID) (reason : String) (clock : DateTime)
  | cancelStudy (studyId : UUID) (reason : String) (clock : DateTime)

def committed (ledger : Ledger) (written : Except LedgerExn (Reply × Writes)) :
    Except LedgerExn (Reply × Ledger) := do
  let (reply, writes) ← written
  let ledger ← writes.commit env ledger
  return (reply, ledger)

/-- A call, as one transaction. -/
def Call.run (s : Ledger) : Call env → Except LedgerExn (Reply × Ledger)
  | .register spec clock => registerStudy env s spec clock
  | .claim studyId worker limit lease clock locked =>
      committed env s (StrategyLabLedger.claim env s studyId worker limit lease clock locked)
  | .renew held lease clock => committed env s (StrategyLabLedger.renew s held lease clock)
  | .complete held outcome metrics clock =>
      committed env s (StrategyLabLedger.complete env s held outcome metrics clock)
  | .fail held reason clock => committed env s (StrategyLabLedger.fail s held reason clock)
  | .retryFailed studyId reason clock =>
      committed env s (StrategyLabLedger.retryFailed s studyId reason clock)
  | .cancelStudy studyId reason clock =>
      committed env s (StrategyLabLedger.cancelStudy s studyId reason clock)

/-- The ledger after a call: as it was where the call raises. -/
def step (s : Ledger) (call : Call env) : Ledger :=
  match call.run env s with
  | .ok (_, s') => s'
  | .error _ => s

end StrategyLabLedger

end TradePlatform
