/-
# `TradePlatform.PostgresConcurrency` — writers that interleave on one event log

Under READ COMMITTED a write of `PostgresPaperOms` reads the committed log, checks
the rebuilt order, and appends its event when it commits; no lock of the code spans
the two.  Here the two moments are two steps (`OmsWrite.read`, `commitWrite`), any
number of transactions is open at once, and a run is any list of actions.  Done
back to back the two steps are the method of the sequential model (`read_commit`).

The committed log is immutable, so it stays readable exactly as long as every commit
appends an event that the order rebuilt from the log of that moment accepts.
-/
import TradePlatform.PostgresPaperOms

namespace TradePlatform

open OrderStatus

inductive OmsWrite where
  | transition (intentId : UUID) (nextStatus : OrderStatus) (actor : String)
  | ingestFill (externalFillId : String) (intentId : UUID) (quantity price : Decimal.Numeral)
      (occurredAt : DateTime)
  | amend (intentId : UUID) (quantity limitPrice : Decimal) (actor : String)

def OmsWrite.call : OmsWrite → OmsCall
  | .transition id st actor => .transition id st actor
  | .ingestFill ext id q p occurredAt => .ingestFill ext id q p occurredAt
  | .amend id q p actor => .amend id q p actor

structure PendingWrite where
  intentId : UUID
  snapshot : IntentLog
  event : OmsEvent
  fill : Option PgFill

namespace PostgresPaperOms

variable (c : Decimal.Context) (env : PgEnv) (s : PostgresPaperOms)

def readOrder (intentId : UUID) : Option (IntentLog × PaperOrder) := do
  let log ← s.intents.find? intentId
  let order ← (log.order c).toOption
  some (log, order)

/-- The first half of a write: read the committed log and check.  It gives nothing
when the method raises, or returns a fill that is already recorded. -/
def readWrite : OmsWrite → Option PendingWrite
  | .transition id st actor => do
      let (log, order) ← s.readOrder c id
      if st ∈ transitions order.status ∧ env.storesText actor = true then
        some ⟨id, log, .orderStatusChanged order.status st actor, none⟩
      else none
  | .ingestFill ext id q p occurredAt => do
      if blank ext ∨ q.value ≤ 0 ∨ p.value ≤ 0 ∨ occurredAt.isAware = false ∨
          env.storesText ext = false ∨ s.fills.find? ext ≠ none then none
      else
        let (log, order) ← s.readOrder c id
        let updated ← (order.fill c q.value p.value).toOption
        let quantity ← Decimal.numeric 30 12 q.value
        let price ← Decimal.numeric 30 12 p.value
        if 0 < quantity ∧ 0 < price then
          some ⟨id, log, .fillIngested ext q.value p.value updated.status,
            some ⟨ext, id, env.timestamptz occurredAt, quantity, price⟩⟩
        else none
  | .amend id q p actor => do
      let (log, order) ← s.readOrder c id
      if order.MayAmend q p ∧ env.storesText actor = true then
        some ⟨id, log, .orderAmended order.intent.quantity q order.intent.limitPrice p actor, none⟩
      else none

/-- The second half: the inserts become visible at the commit, on whatever log is
committed then.  A fill id that was taken meanwhile is a unique violation. -/
def commitWrite (w : PendingWrite) : Option PostgresPaperOms :=
  match s.intents.find? w.intentId, w.fill with
  | some log, none => some ⟨s.intents.put (log.append w.event), s.fills⟩
  | some log, some fill =>
      if s.fills.find? fill.externalFillId = none then
        some ⟨s.intents.put (log.append w.event), s.fills.put fill⟩
      else none
  | none, _ => none

/-- The event `w` appends is one that the order accepts: the transition is allowed;
the fill passes the checks of `fill` and its sum stays within the quantity; the
amendment keeps what is filled. -/
def Accepts (o : PaperOrder) : OmsEvent → Prop
  | .orderStatusChanged _ next _ => next ∈ transitions o.status
  | .fillIngested _ q p _ =>
      (o.Working ∧ 0 < q ∧ 0 < p ∧ q ≤ o.remainingQuantity c ∧ c.add o.filledQuantity q ≠ 0) ∧
      c.add o.filledQuantity q ≤ o.intent.quantity
  | .orderAmended _ q _ _ _ => o.filledQuantity ≤ q
  | .orderCreated _ => True

variable {c env s} {s' : PostgresPaperOms} {log : IntentLog} {o : PaperOrder} {id : UUID}
  {w : PendingWrite}

end PostgresPaperOms

/-! ## Transactions that interleave -/

structure OmsDatabase where
  store : PostgresPaperOms
  pending : ℕ → Option PendingWrite

/-- One atomic action of a run: a `create`, or one half of a transaction. -/
inductive DbAction where
  | create (order : PaperOrder)
  | read (tx : ℕ) (write : OmsWrite)
  | commit (tx : ℕ)
  | rollback (tx : ℕ)

namespace OmsDatabase

open PostgresPaperOms

variable (c : Decimal.Context) (env : PgEnv) (d : OmsDatabase)

def empty : OmsDatabase := ⟨.empty, fun _ => none⟩

def step : DbAction → OmsDatabase
  | .create order => { d with store := d.store.step c env (.create order) }
  | .read tx write =>
      match d.pending tx with
      | some _ => d
      | none => { d with pending := Function.update d.pending tx (d.store.readWrite c env write) }
  | .commit tx =>
      match d.pending tx with
      | some w => ⟨(d.store.commitWrite w).getD d.store, Function.update d.pending tx none⟩
      | none => d
  | .rollback tx => { d with pending := Function.update d.pending tx none }

/-- Every committed log replays through `_order` without an exception, to an order
filled at most for its quantity. -/
def Readable : Prop :=
  ∀ id log, d.store.intents.find? id = some log →
    ∃ o, log.order c = .ok o ∧ o.filledQuantity ≤ o.intent.quantity

/-- The condition on a commit: the event of the transaction is one that the order
rebuilt from the log committed by then still accepts. -/
def CommitChecked : DbAction → Prop
  | .commit tx => ∀ w, d.pending tx = some w → d.store.commitWrite w ≠ none →
      ∀ o, d.store.order c w.intentId = .ok o → Accepts c o w.event
  | _ => True

variable {c env d} {log : IntentLog} {o : PaperOrder}

theorem append_readable_iff (ho : log.order c = .ok o)
    (hle : o.filledQuantity ≤ o.intent.quantity) (event : OmsEvent) :
    (∃ o', (log.append event).order c = .ok o' ∧ o'.filledQuantity ≤ o'.intent.quantity) ↔
      Accepts c o event := by
  have happend : (log.append event).order c = applyEvent c o event := by
    show Replay.replay _ _ (log.events ++ [event]) = _
    rw [Replay.replay_snoc]
    exact congrArg (· >>= (applyEvent c · event)) ho
  rw [happend]
  cases event with
  | orderCreated st => exact iff_of_true ⟨o, rfl, hle⟩ trivial
  | orderStatusChanged previous next actor =>
      simp only [applyEvent, PaperOrder.transition_eq_ok, Accepts]
      constructor
      · rintro ⟨_, ⟨hmem, _⟩, _⟩
        exact hmem
      · intro hmem
        exact ⟨_, ⟨hmem, rfl⟩, hle⟩
  | fillIngested ext q p st =>
      simp only [applyEvent, PaperOrder.fill_eq_ok, Accepts]
      constructor
      · rintro ⟨_, ⟨hfill, rfl⟩, hsum⟩
        exact ⟨hfill, hsum⟩
      · rintro ⟨hfill, hsum⟩
        exact ⟨_, ⟨hfill, rfl⟩, hsum⟩
  | orderAmended pq q pp p actor =>
      simp only [applyEvent, Except.ok.injEq, Accepts]
      constructor
      · rintro ⟨_, rfl, hsum⟩
        exact hsum
      · intro hq
        exact ⟨_, rfl, hq⟩

theorem commitWrite_intents {s s' : PostgresPaperOms} {w : PendingWrite}
    (h : s.commitWrite w = some s') : ∃ log, s.intents.find? w.intentId = some log ∧
      s'.intents = s.intents.put (log.append w.event) := by
  unfold commitWrite at h
  split at h
  · rename_i log row _
    cases h
    exact ⟨log, row, rfl⟩
  · rename_i log fill row _
    split at h
    · cases h
      exact ⟨log, row, rfl⟩
    · cases h
  · cases h

theorem Readable.of_store {d' : OmsDatabase} (h : d.Readable c) (hs : d'.store = d.store) :
    d'.Readable c := by
  intro id log row
  rw [hs] at row
  exact h id log row

theorem create_readable (h : d.Readable c) (order : PaperOrder) :
    (d.step c env (.create order)).Readable c := by
  have hstore : (d.step c env (.create order)).store =
      (commit d.store (d.store.create c env order)).2 := rfl
  intro id log row
  rw [hstore] at row
  cases hc : d.store.create c env order with
  | error e =>
      rw [hc] at row
      exact h id log row
  | ok r =>
      rw [hc] at row
      obtain ⟨_, ⟨_, _, hs⟩ | ⟨_, _, intent, hi, hs⟩⟩ := create_eq_ok.mp hc
      · have row' : r.2.intents.find? id = some log := row
        rw [hs] at row'
        exact h id log row'
      · have row' : r.2.intents.find? id = some log := row
        rw [hs, Table.find?_put] at row'
        split at row'
        · cases row'
          exact ⟨{ intent := intent }, rfl, (insertIntent_quantity hi).le⟩
        · exact h id log row'

/-- The step lemma: in a readable state, a step leads to a readable state precisely
when the event it commits is still accepted. -/
theorem step_readable_iff (h : d.Readable c) (a : DbAction) :
    (d.step c env a).Readable c ↔ d.CommitChecked c a := by
  cases a with
  | create order => exact iff_of_true (create_readable h order) trivial
  | read tx write =>
      have hstep : (d.step c env (.read tx write)).store = d.store := by
        simp only [step]
        split <;> rfl
      exact iff_of_true (h.of_store hstep) trivial
  | rollback tx => exact iff_of_true h trivial
  | commit tx =>
      cases hp : d.pending tx with
      | none =>
          have hstep : d.step c env (.commit tx) = d := by simp [step, hp]
          rw [hstep]
          refine iff_of_true h ?_
          intro w hw
          rw [hp] at hw
          cases hw
      | some w =>
          have hstep : (d.step c env (.commit tx)).store =
              (d.store.commitWrite w).getD d.store := by simp [step, hp]
          cases hw : d.store.commitWrite w with
          | none =>
              rw [hw] at hstep
              refine iff_of_true (h.of_store hstep) ?_
              intro w' hw' hne
              rw [hp] at hw'
              cases hw'
              exact absurd hw hne
          | some s' =>
              rw [hw] at hstep
              obtain ⟨log, row, hs'⟩ := commitWrite_intents hw
              obtain ⟨o, ho, hle⟩ := h _ _ row
              have hid : log.intentId = w.intentId := Table.key_of_find? row
              constructor
              · intro hr w' hw' _ o' ho'
                rw [hp] at hw'
                cases hw'
                obtain ⟨log', row', hlog'⟩ := order_eq_ok.mp ho'
                cases row.symm.trans row'
                cases ho.symm.trans hlog'
                refine (append_readable_iff ho hle _).mp (hr w.intentId (log.append w.event) ?_)
                rw [hstep, Option.getD_some, hs', ← hid]
                exact Table.find?_put_self _ (log.append w.event)
              · intro hchk id k hrow
                rw [hstep, Option.getD_some, hs', Table.find?_put] at hrow
                split at hrow
                · cases hrow
                  exact (append_readable_iff ho hle _).mpr
                    (hchk w hp (by simp [hw]) o (order_eq_ok.mpr ⟨log, row, ho⟩))
                · exact h id k hrow

/-- The run lemma, for every interleaving of any number of transactions. -/
theorem logs_readable_iff (c : Decimal.Context) (env : PgEnv) (actions : List DbAction) :
    Run.Always (step c env) (Readable c) empty actions ↔
      Run.Each (step c env) (CommitChecked c) empty actions := by
  have hempty : Readable c empty := by
    intro id log row
    cases row
  rw [Run.always_iff_each (J := fun _ => True) (fun _ _ _ _ _ => trivial)
    (fun d a _ h => step_readable_iff h a) trivial]
  exact and_iff_right hempty

theorem Readable.order_ne_error (h : d.Readable c) (id : UUID)
    (row : (d.store.intents.find? id).isSome = true) (e : Exn) : d.store.order c id ≠ .error e := by
  obtain ⟨log, hlog⟩ := Option.isSome_iff_exists.mp row
  obtain ⟨o, ho, _⟩ := h id log hlog
  rw [order_eq_ok.mpr ⟨log, hlog, ho⟩]
  simp

/-- An order of 10 in `ACKNOWLEDGED`, by writes that do not overlap. -/
def acknowledge (id : UUID) : List DbAction :=
  .create (.limit id .buy 10 100) ::
    [riskPending, approved, submissionPending, submitted, acknowledged].flatMap
      fun st => [.read 0 (.transition id st "system"), .commit 0]

/-- Two fills of the whole quantity are both checked before either is committed: the
second one is refused by every later replay. -/
theorem overlapping_fills_unreadable :
    ¬ Run.Always (step .default .sample) (Readable .default) empty
      (acknowledge 1 ++
        [.read 1 (.ingestFill "f1" 1 ⟨10, 0⟩ ⟨99, 0⟩ (.aware 0)),
          .read 2 (.ingestFill "f2" 1 ⟨10, 0⟩ ⟨99, 0⟩ (.aware 0)), .commit 1, .commit 2]) := by
  intro h
  refine h.exec.order_ne_error 1 ?_ (.orderTransitionError "fill requires acknowledged order") ?_
  · decide +kernel
  · decide +kernel

/-! ## Writes that do not overlap -/

end OmsDatabase

end TradePlatform
