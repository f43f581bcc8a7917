/-
# `TradePlatform.Scheduler` — workers that run due jobs on one database

Any number of workers, each with a PostgreSQL session of its own, run `run_tick` one tick
after another.  A tick reads the due jobs, and for each of them tries the advisory lock of
the occurrence, runs the job, records the run and gives the lock back; each of these is a
step, and a run is any list of steps of any workers.

The advisory lock keeps two workers from running one occurrence at the same time
(`Inv.exclusive`).  It is tried some time after the due jobs were read, though, and they
are not read again: a worker can get the lock of an occurrence that another has meanwhile
run to success and released.  An occurrence succeeds once as long as no worker does.
-/
import TradePlatform.OperationalJobs
import TradePlatform.Lib.SessionLocks
import TradePlatform.Lib.Run

namespace TradePlatform

/-- What a deployment fixes: the names in the job registry, `hashtext` of the lock key of a
job name and a due time, and the collation of the names. -/
structure SchedulerEnv where
  registered : String → Bool
  lockId : String → ℤ → ℤ
  collate : String → String → Bool

def SchedulerEnv.lockOf (env : SchedulerEnv) (state : OperationalJobDueState) : ℤ :=
  env.lockId state.policy.jobName state.dueAt

inductive TickPhase where
  | next
  | claimed (state : OperationalJobDueState)
  | executed (state : OperationalJobDueState) (run : OperationalJobRun)
  | releasing (state : OperationalJobDueState) (raised : Bool)
deriving DecidableEq

def TickPhase.holding : TickPhase → Option OperationalJobDueState
  | .next => none
  | .claimed state | .executed state _ | .releasing state _ => some state

def TickPhase.executing : TickPhase → Option OperationalJobDueState
  | .next | .releasing _ _ => none
  | .claimed state | .executed state _ => some state

theorem TickPhase.holding_of_executing {phase : TickPhase} {state : OperationalJobDueState}
    (h : phase.executing = some state) : phase.holding = some state := by
  cases phase with
  | next => cases h
  | claimed s => exact h
  | executed s run => exact h
  | releasing s raised => cases h

structure Tick where
  pending : List OperationalJobDueState
  completed : List OperationalJobRun
  phase : TickPhase
deriving DecidableEq

def Tick.returned (tick : Tick) : Bool := decide (tick.pending = [] ∧ tick.phase = .next)

structure SchedulerDatabase where
  tables : OperationalJobTables
  locks : SessionLocks ℤ ℕ
  ticks : ℕ → Tick

inductive SchedulerAction where
  | appendPolicy (policy : OperationalJobPolicy)
  /-- The worker starts a tick. -/
  | read (worker : ℕ) (asOf : DateTime)
  /-- It takes the next state of the loop. -/
  | claim (worker : ℕ)
  /-- The runner returns or raises. -/
  | execute (worker : ℕ) (runId : UUID) (startedAt completedAt : ℤ) (succeeded : Bool)
      (summary : List (String × String))
  /-- `append_run`, and the alert of a failure. -/
  | record (worker : ℕ) (persisted alertStored : Bool)
  | release (worker : ℕ) (released : Bool)
  /-- An exception that the loop does not catch. -/
  | abort (worker : ℕ)
  /-- The process dies, and its session with it. -/
  | crash (worker : ℕ)

namespace SchedulerDatabase

variable (env : SchedulerEnv) (σ : SchedulerDatabase)

def empty : SchedulerDatabase := ⟨.empty, .empty, fun _ => ⟨[], [], .next⟩⟩

def setTick (worker : ℕ) (tick : Tick) : SchedulerDatabase :=
  { σ with ticks := Function.update σ.ticks worker tick }

def claim (worker : ℕ) : SchedulerDatabase :=
  match (σ.ticks worker).phase, (σ.ticks worker).pending with
  | .next, state :: rest =>
      if state.due = true ∧ env.registered state.policy.jobName = true then
        match σ.locks.tryLock (env.lockOf state) worker with
        | some locks =>
            { σ with locks }.setTick worker ⟨rest, (σ.ticks worker).completed, .claimed state⟩
        | none => σ.setTick worker ⟨rest, (σ.ticks worker).completed, .next⟩
      else σ.setTick worker ⟨rest, (σ.ticks worker).completed, .next⟩
  | _, _ => σ

def jobRun (state : OperationalJobDueState) (runId : UUID) (startedAt completedAt : ℤ)
    (succeeded : Bool) (summary : List (String × String)) : OperationalJobRun where
  runId := runId
  policyId := state.policy.policyId
  idempotencyKey := (state.policy.policyId, state.dueAt, startedAt)
  scheduledFor := state.dueAt
  startedAt := startedAt
  completedAt := completedAt
  status := if succeeded = true then .succeeded else .failed
  summary := summary

def record (worker : ℕ) (persisted alertStored : Bool) : SchedulerDatabase :=
  match (σ.ticks worker).phase with
  | .executed state run =>
      match if persisted = true then σ.tables.appendRun run else .error transactionFailed with
      | .ok (recorded, tables) =>
          if run.status = .failed ∧ alertStored = false then
            { σ with tables }.setTick worker
              { σ.ticks worker with phase := .releasing state true }
          else
            { σ with tables }.setTick worker
              ⟨(σ.ticks worker).pending, (σ.ticks worker).completed ++ [recorded],
                .releasing state false⟩
      | .error _ => σ.setTick worker { σ.ticks worker with phase := .releasing state true }
  | _ => σ

def release (worker : ℕ) (released : Bool) : SchedulerDatabase :=
  match (σ.ticks worker).phase with
  | .releasing state raised =>
      { σ with
        locks := if released = true then σ.locks.unlock (env.lockOf state) worker
          else σ.locks }.setTick worker
        ⟨if raised = true ∨ released = false then [] else (σ.ticks worker).pending,
          (σ.ticks worker).completed, .next⟩
  | _ => σ

def abort (worker : ℕ) : SchedulerDatabase :=
  match (σ.ticks worker).phase with
  | .next => σ.setTick worker ⟨[], (σ.ticks worker).completed, .next⟩
  | .claimed state | .executed state _ =>
      σ.setTick worker { σ.ticks worker with phase := .releasing state true }
  | .releasing _ _ => σ

def step : SchedulerAction → SchedulerDatabase
  | .appendPolicy policy =>
      match σ.tables.appendPolicy policy with
      | .ok (_, tables) => { σ with tables }
      | .error _ => σ
  | .read worker asOf =>
      if (σ.ticks worker).returned = true then
        match σ.tables.dueJobs env.collate asOf with
        | .ok states => σ.setTick worker ⟨states, [], .next⟩
        | .error _ => σ
      else σ
  | .claim worker => σ.claim env worker
  | .execute worker runId startedAt completedAt succeeded summary =>
      match (σ.ticks worker).phase with
      | .claimed state =>
          σ.setTick worker { σ.ticks worker with
            phase := .executed state (jobRun state runId startedAt completedAt succeeded summary) }
      | _ => σ
  | .record worker persisted alertStored => σ.record worker persisted alertStored
  | .release worker released => σ.release env worker released
  | .abort worker => σ.abort worker
  | .crash worker =>
      { σ with locks := σ.locks.disconnect worker }.setTick worker ⟨[], [], .next⟩

def SucceededOnce : Prop :=
  ∀ policyId dueAt, (σ.tables.succeededRuns policyId dueAt).length ≤ 1

/-- The next state of the worker's loop is due, has a runner, and its lock is to be had. -/
def Obtains (worker : ℕ) (state : OperationalJobDueState) : Prop :=
  (σ.ticks worker).phase = .next ∧ (σ.ticks worker).pending.head? = some state ∧
    state.due = true ∧ env.registered state.policy.jobName = true ∧
    (σ.locks.tryLock (env.lockOf state) worker).isSome = true

/-- The condition on a step: a worker that gets the lock of an occurrence finds it without
a successful run. -/
def ClaimsUnsucceeded : SchedulerAction → Prop
  | .claim worker => ∀ state ∈ (σ.ticks worker).pending.head?, σ.Obtains env worker state →
      σ.tables.succeededRuns state.policy.policyId state.dueAt = []
  | _ => True

instance (worker : ℕ) (state : OperationalJobDueState) : Decidable (σ.Obtains env worker state) :=
  inferInstanceAs (Decidable (_ ∧ _))

instance : DecidablePred (σ.ClaimsUnsucceeded env)
  | .claim worker => inferInstanceAs (Decidable (∀ state ∈ (σ.ticks worker).pending.head?,
      σ.Obtains env worker state → _))
  | .appendPolicy _ | .read _ _ | .execute _ _ _ _ _ _ | .record _ _ _ | .release _ _ | .abort _
  | .crash _ => .isTrue trivial

/-! ## How often an occurrence succeeds -/

/-- What holds of one worker: it has the lock of its occurrence, the policies it read are
those of the store, and until its run is recorded its occurrence has not succeeded. -/
structure WorkerInv (tables : OperationalJobTables) (locks : SessionLocks ℤ ℕ) (worker : ℕ)
    (tick : Tick) : Prop where
  holds : ∀ state, tick.phase.holding = some state → locks.Holds (env.lockOf state) worker
  known : ∀ state, state ∈ tick.pending ∨ tick.phase.holding = some state →
    tables.policies.find? state.policy.policyId = some state.policy
  fresh : ∀ state, tick.phase.executing = some state →
    tables.succeededRuns state.policy.policyId state.dueAt = []
  built : ∀ state run, tick.phase = .executed state run →
    run.policyId = state.policy.policyId ∧ run.scheduledFor = state.dueAt

structure Inv : Prop where
  workers : ∀ worker, WorkerInv env σ.tables σ.locks worker (σ.ticks worker)
  once : σ.SucceededOnce

variable {env σ} {tables : OperationalJobTables} {locks : SessionLocks ℤ ℕ} {worker w : ℕ}
  {tick : Tick} {state state' : OperationalJobDueState}

theorem Inv.exclusive (h : Inv env σ) (hs : (σ.ticks worker).phase.holding = some state)
    (hs' : (σ.ticks w).phase.holding = some state')
    (hid : state'.policy.policyId = state.policy.policyId) (hdue : state'.dueAt = state.dueAt) :
    w = worker := by
  have hpolicy : state'.policy = state.policy := by
    have hknown := (h.workers w).known state' (.inr hs')
    rw [hid, (h.workers worker).known state (.inr hs)] at hknown
    exact (Option.some.inj hknown).symm
  have hlock : env.lockOf state' = env.lockOf state := by
    unfold SchedulerEnv.lockOf
    rw [hpolicy, hdue]
  have hw := (h.workers w).holds state' hs'
  rw [hlock] at hw
  exact hw.unique ((h.workers worker).holds state hs)

theorem Inv.update (h : Inv env σ)
    (hlocks : ∀ w key, w ≠ worker → σ.locks.Holds key w → locks.Holds key w)
    (hw : WorkerInv env σ.tables locks worker tick) :
    Inv env ({ σ with locks }.setTick worker tick) := by
  refine ⟨fun w => ?_, h.once⟩
  by_cases he : w = worker
  · subst he
    show WorkerInv env σ.tables locks w (Function.update σ.ticks w tick w)
    rw [Function.update_self]
    exact hw
  · show WorkerInv env σ.tables locks w (Function.update σ.ticks worker tick w)
    rw [Function.update_of_ne he]
    have hold := h.workers w
    exact ⟨fun state hs => hlocks w _ he (hold.holds state hs), hold.known, hold.fresh, hold.built⟩

theorem Inv.setTick (h : Inv env σ) (hw : WorkerInv env σ.tables σ.locks worker tick) :
    Inv env (σ.setTick worker tick) :=
  h.update (fun _ _ _ hk => hk) hw

theorem WorkerInv.next (hknown : ∀ state ∈ tick.pending,
      tables.policies.find? state.policy.policyId = some state.policy)
    (hphase : tick.phase = .next) : WorkerInv env tables locks worker tick where
  holds := fun state hs => by
    rw [hphase] at hs
    cases hs
  known := fun state hs => by
    rcases hs with hs | hs
    · exact hknown state hs
    · rw [hphase] at hs
      cases hs
  fresh := fun state hs => by
    rw [hphase] at hs
    cases hs
  built := fun state run hs => by
    rw [hphase] at hs
    cases hs

theorem WorkerInv.releasing (h : WorkerInv env tables locks worker tick)
    (hs : tick.phase.holding = some state) (completed : List OperationalJobRun) (raised : Bool) :
    WorkerInv env tables locks worker ⟨tick.pending, completed, .releasing state raised⟩ where
  holds := fun state' hs' => h.holds state' (hs.trans hs')
  known := fun state' hs' => h.known state' (hs'.imp_right fun e => hs.trans e)
  fresh := fun _ e => nomatch e
  built := fun _ _ e => nomatch e

theorem WorkerInv.returns (h : WorkerInv env tables locks worker tick) {pending : List _}
    (hsub : pending ⊆ tick.pending) (completed : List OperationalJobRun)
    (locks' : SessionLocks ℤ ℕ) :
    WorkerInv env tables locks' worker ⟨pending, completed, .next⟩ :=
  .next (fun state hs => h.known state (.inl (hsub hs))) rfl

/-! ## The steps -/

theorem Inv.empty : Inv env empty where
  workers := fun _ => .next (fun _ hs => nomatch hs) rfl
  once := fun _ _ => Nat.zero_le _

theorem Inv.appendPolicy (h : Inv env σ) {policy recovered : OperationalJobPolicy}
    (hp : σ.tables.appendPolicy policy = .ok (recovered, tables)) :
    Inv env { σ with tables } := by
  obtain ⟨hruns, hfind⟩ := OperationalJobTables.appendPolicy_effect hp
  have hsucc : ∀ policyId dueAt,
      tables.succeededRuns policyId dueAt = σ.tables.succeededRuns policyId dueAt := by
    intro policyId dueAt
    unfold OperationalJobTables.succeededRuns
    rw [hruns]
  refine ⟨fun w => ?_, fun policyId dueAt => ?_⟩
  · have hw := h.workers w
    refine ⟨hw.holds, fun state hs => hfind _ (hw.known state hs), fun state hs => ?_, hw.built⟩
    rw [hsucc]
    exact hw.fresh state hs
  · show (tables.succeededRuns policyId dueAt).length ≤ 1
    rw [hsucc]
    exact h.once policyId dueAt

theorem Inv.read (h : Inv env σ) {asOf : DateTime} {states : List OperationalJobDueState}
    (hs : σ.tables.dueJobs env.collate asOf = .ok states) :
    Inv env (σ.setTick worker ⟨states, [], .next⟩) := by
  obtain ⟨_, _, hs⟩ := OperationalJobTables.dueJobs_eq_ok hs
  exact h.setTick (.next (fun state hmem => (OperationalJobTables.mem_dueStates hs hmem).1) rfl)

theorem Inv.claim (h : Inv env σ) (hok : σ.ClaimsUnsucceeded env (.claim worker)) :
    Inv env (σ.claim env worker) := by
  unfold SchedulerDatabase.claim
  split
  · rename_i state rest hphase hpending
    have hw := h.workers worker
    have hrest : rest ⊆ (σ.ticks worker).pending := by
      rw [hpending]
      exact List.subset_cons_self _ _
    split
    · rename_i hdue
      split
      · rename_i locks hlock
        obtain ⟨hmine, hothers⟩ := SessionLocks.holds_of_tryLock hlock
        have hknown : ∀ s ∈ (σ.ticks worker).pending, _ := fun s hs => hw.known s (.inl hs)
        have hfresh : σ.tables.succeededRuns state.policy.policyId state.dueAt = [] := by
          have hhead : (σ.ticks worker).pending.head? = some state := by
            rw [hpending]
            rfl
          refine hok state hhead ⟨hphase, hhead, hdue.1, hdue.2, ?_⟩
          rw [hlock]
          rfl
        refine h.update (fun w key _ hk => hothers key w hk) ⟨?_, ?_, ?_, fun _ _ e => nomatch e⟩
        · intro s hs
          cases hs
          exact hmine
        · rintro s (hs | hs)
          · exact hknown s (hrest hs)
          · cases hs
            refine hknown state ?_
            rw [hpending]
            exact List.mem_cons_self
        · intro s hs
          cases hs
          exact hfresh
      · exact h.setTick (hw.returns hrest _ _)
    · exact h.setTick (hw.returns hrest _ _)
  · exact h

theorem Inv.execute (h : Inv env σ) (hphase : (σ.ticks worker).phase = .claimed state)
    {runId : UUID} {startedAt completedAt : ℤ} {succeeded : Bool}
    {summary : List (String × String)} :
    Inv env (σ.setTick worker { σ.ticks worker with
      phase := .executed state (jobRun state runId startedAt completedAt succeeded summary) }) := by
  have hw := h.workers worker
  have hholding : (σ.ticks worker).phase.holding = some state := by
    rw [hphase]
    rfl
  have hexecuting : (σ.ticks worker).phase.executing = some state := by
    rw [hphase]
    rfl
  refine h.setTick ⟨?_, ?_, ?_, ?_⟩
  · intro s hs
    exact hw.holds s (hholding.trans hs)
  · intro s hs
    exact hw.known s (hs.imp_right fun e => hholding.trans e)
  · intro s hs
    exact hw.fresh s (hexecuting.trans hs)
  · intro s run hs
    cases hs
    exact ⟨rfl, rfl⟩

theorem Inv.appendRun (h : Inv env σ) {run recovered : OperationalJobRun}
    (hphase : (σ.ticks worker).phase = .executed state run)
    (hrun : σ.tables.appendRun run = .ok (recovered, tables))
    (completed : List OperationalJobRun) (raised : Bool) :
    Inv env ({ σ with tables }.setTick worker
      ⟨(σ.ticks worker).pending, completed, .releasing state raised⟩) := by
  obtain ⟨_, hpolicies, hrows⟩ := OperationalJobTables.appendRun_effect hrun
  have hholding : (σ.ticks worker).phase.holding = some state := by
    rw [hphase]
    rfl
  rcases hrows with rfl | hrows
  · exact h.setTick ((h.workers worker).releasing hholding completed raised)
  obtain ⟨hid, hfor⟩ := (h.workers worker).built state run hphase
  have hnone : σ.tables.succeededRuns state.policy.policyId state.dueAt = [] := by
    refine (h.workers worker).fresh state ?_
    rw [hphase]
    rfl
  have hsucc : ∀ policyId dueAt, tables.succeededRuns policyId dueAt =
      σ.tables.succeededRuns policyId dueAt ++
        if run.policyId = policyId ∧ run.scheduledFor = dueAt ∧ run.status = .succeeded
        then [run] else [] :=
    fun _ _ => OperationalJobTables.succeededRuns_snoc hrows
  refine ⟨fun w => ?_, fun policyId dueAt => ?_⟩
  · by_cases he : w = worker
    · subst he
      show WorkerInv env tables σ.locks w (Function.update σ.ticks w _ w)
      rw [Function.update_self]
      have hw := (h.workers w).releasing hholding completed raised
      refine ⟨hw.holds, fun s hs => ?_, fun _ e => (nomatch e), hw.built⟩
      rw [hpolicies]
      exact hw.known s hs
    · show WorkerInv env tables σ.locks w (Function.update σ.ticks worker _ w)
      rw [Function.update_of_ne he]
      have hw := h.workers w
      refine ⟨hw.holds, fun s hs => ?_, fun s hs => ?_, hw.built⟩
      · rw [hpolicies]
        exact hw.known s hs
      · rw [hsucc, hw.fresh s hs, if_neg, List.append_nil]
        rintro ⟨hp, hd, _⟩
        exact he (h.exclusive hholding (TickPhase.holding_of_executing hs) (hp.symm.trans hid)
          (hd.symm.trans hfor))
  · show (tables.succeededRuns policyId dueAt).length ≤ 1
    rw [hsucc]
    split
    · rename_i heq
      rw [← heq.1, ← heq.2.1, hid, hfor, hnone]
      exact le_refl 1
    · rw [List.append_nil]
      exact h.once policyId dueAt

theorem Inv.record (h : Inv env σ) {persisted alertStored : Bool} :
    Inv env (σ.record worker persisted alertStored) := by
  unfold SchedulerDatabase.record
  split
  · rename_i state run hphase
    split
    · rename_i recovered tables hrun
      have happend : σ.tables.appendRun run = .ok (recovered, tables) := by
        cases persisted with
        | true => exact hrun
        | false => cases hrun
      split
      · exact h.appendRun hphase happend _ true
      · exact h.appendRun hphase happend _ false
    · have hholding : (σ.ticks worker).phase.holding = some state := by
        rw [hphase]
        rfl
      exact h.setTick ((h.workers worker).releasing hholding _ true)
  · exact h

theorem Inv.release (h : Inv env σ) {released : Bool} :
    Inv env (σ.release env worker released) := by
  unfold SchedulerDatabase.release
  split
  · rename_i state raised hphase
    refine h.update (fun w key hne hk => ?_) ((h.workers worker).returns ?_ _ _)
    · split
      · exact hk.unlock hne
      · exact hk
    · split
      · exact List.nil_subset _
      · exact List.Subset.refl _
  · exact h

theorem Inv.abort (h : Inv env σ) : Inv env (σ.abort worker) := by
  have hw := h.workers worker
  unfold SchedulerDatabase.abort
  split
  · exact h.setTick (hw.returns (List.nil_subset _) _ _)
  · rename_i state hphase
    refine h.setTick (hw.releasing ?_ _ true)
    rw [hphase]
    rfl
  · rename_i state run hphase
    refine h.setTick (hw.releasing ?_ _ true)
    rw [hphase]
    rfl
  · exact h

theorem Inv.crash (h : Inv env σ) :
    Inv env ({ σ with locks := σ.locks.disconnect worker }.setTick worker ⟨[], [], .next⟩) :=
  h.update (fun _ _ hne hk => hk.disconnect hne)
    ((h.workers worker).returns (List.nil_subset _) _ _)

theorem Inv.step (h : Inv env σ) {action : SchedulerAction}
    (hok : σ.ClaimsUnsucceeded env action) : Inv env (σ.step env action) := by
  cases action with
  | appendPolicy policy =>
      simp only [SchedulerDatabase.step]
      split
      · rename_i hp
        exact h.appendPolicy hp
      · exact h
  | read w asOf =>
      simp only [SchedulerDatabase.step]
      split
      · split
        · rename_i hs
          exact h.read hs
        · exact h
      · exact h
  | claim w => exact h.claim hok
  | execute w runId startedAt completedAt succeeded summary =>
      simp only [SchedulerDatabase.step]
      split
      · rename_i hphase
        exact h.execute hphase
      · exact h
  | record w persisted alertStored => exact h.record
  | release w released => exact h.release
  | abort w => exact h.abort
  | crash w => exact h.crash

/-- In every interleaving in which no worker gets the lock of an occurrence that has
succeeded, every occurrence succeeds at most once. -/
theorem succeeds_once (actions : List SchedulerAction)
    (h : Run.Each (step env) (ClaimsUnsucceeded env) empty actions) :
    Run.Always (step env) SucceededOnce empty actions := by
  have hinv : Run.Always (step env) (Inv env) empty actions :=
    h.always (fun _ _ hinv hok => hinv.step hok) Inv.empty
  exact hinv.mono fun _ hinv => hinv.once

def anyRunner : SchedulerEnv := ⟨fun _ => true, fun _ dueAt => dueAt, fun _ _ => true⟩

def hourlyPolicy : OperationalJobPolicy where
  policyId := 1
  jobName := "operational_job_monitor"
  version := "v1"
  intervalSeconds := 3600
  graceSeconds := 60
  owner := "owner"
  runbookUri := "runbook"
  approvedBy := "approver"
  approvedAt := 0
  enabled := true

def bothRead : List SchedulerAction :=
  [.appendPolicy hourlyPolicy, .read 1 (.aware 3600000000), .read 2 (.aware 3600000000), .claim 1]

def succeed (worker : ℕ) (runId : UUID) (startedAt : ℤ) : List SchedulerAction :=
  [.execute worker runId startedAt (startedAt + 1) true [], .record worker true true,
    .release worker true]

/-- The second worker tries while the first has the lock. -/
theorem succeeds_once_contended : Run.Always (step anyRunner) SucceededOnce empty
    (bothRead ++ .claim 2 :: succeed 1 10 3600000001) :=
  succeeds_once _ (by decide +kernel)

/-- The second worker tries after the first has released it. -/
theorem occurrence_succeeds_twice : ¬ Run.Always (step anyRunner) SucceededOnce empty
    (bothRead ++ succeed 1 10 3600000001 ++ .claim 2 :: succeed 2 20 3600000003) := by
  intro h
  have htwo : ((Run.exec (step anyRunner) empty (bothRead ++ succeed 1 10 3600000001 ++
      .claim 2 :: succeed 2 20 3600000003)).tables.succeededRuns 1 3600000000).length = 2 := by
    decide +kernel
  have hone := h.exec 1 3600000000
  rw [htwo] at hone
  omega

end SchedulerDatabase

end TradePlatform
