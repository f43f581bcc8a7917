/-
# `TradePlatform.OperationalAlerts` — what is active after an alert is raised

`operational_alerts.py`: the PostgreSQL and the SQLite store of operational alerts.  Both keep
one active alert a fingerprint, the text that joins source, code and resource, and both give an
active alert back as it is when its condition is raised again.  The partial unique index is a
field of the table, so a store with two active alerts of one fingerprint cannot be built.
-/
import TradePlatform.Domain
import TradePlatform.Lib.Replay
import TradePlatform.Lib.Run
import TradePlatform.Lib.Table

namespace TradePlatform

namespace Alerts

def refuse {α : Type} (message : String) : Except Exn α := .error (.alertError message)

inductive AlertSeverity where
  | warning | critical
deriving DecidableEq, Repr

def AlertSeverity.rank : AlertSeverity → ℕ
  | .warning => 0
  | .critical => 1

inductive AlertStatus where
  | opened | acknowledged | resolved
deriving DecidableEq, Repr

structure Condition where
  source : String
  code : String
  resource : String
deriving DecidableEq

def Condition.fingerprint (condition : Condition) : String :=
  condition.source ++ ":" ++ condition.code ++ ":" ++ condition.resource

/-- A row of `operational_alerts`; `acknowledgedAt` is a column of PostgreSQL and `updatedAt`
one of SQLite. -/
structure AlertRow where
  alertId : UUID
  fingerprint : String
  condition : Condition
  severity : AlertSeverity
  details : List (String × String)
  status : AlertStatus
  openedAt : ℤ
  acknowledgedAt : Option ℤ
  updatedAt : ℤ
deriving DecidableEq

def AlertRow.Active (row : AlertRow) : Prop := row.status ≠ .resolved

instance (row : AlertRow) : Decidable row.Active := inferInstanceAs (Decidable (_ ≠ _))

structure OperationalAlert where
  alertId : UUID
  fingerprint : String
  condition : Condition
  severity : AlertSeverity
  details : List (String × String)
  status : AlertStatus
  createdAt : ℤ
  updatedAt : ℤ
deriving DecidableEq

structure OperationalAlertEvent where
  eventId : UUID
  alertId : UUID
  status : AlertStatus
  actor : String
  occurredAt : ℤ
  details : List (String × String)
deriving DecidableEq

/-- The rows, with the primary key and the unique index on the fingerprints of active rows. -/
structure AlertTable extends Table AlertRow.alertId where
  unique : ∀ a ∈ rows, ∀ b ∈ rows, a.Active → b.Active → a.fingerprint = b.fingerprint → a = b

namespace AlertTable

def empty : AlertTable := ⟨Table.empty _, by simp⟩

def Allows (t : AlertTable) (row : AlertRow) : Prop :=
  row.Active → ∀ r ∈ t.rows, r.Active → r.fingerprint = row.fingerprint → r.alertId = row.alertId

instance (t : AlertTable) (row : AlertRow) : Decidable (t.Allows row) :=
  inferInstanceAs (Decidable (_ → _))

theorem unique_put {t : AlertTable} {row : AlertRow} (h : t.Allows row) :
    ∀ a ∈ (t.toTable.put row).rows, ∀ b ∈ (t.toTable.put row).rows,
      a.Active → b.Active → a.fingerprint = b.fingerprint → a = b := by
  intro a ha b hb haa hba heq
  rcases Table.mem_put.mp ha with rfl | ⟨hold, hne⟩
  · rcases Table.mem_put.mp hb with rfl | ⟨hold, hne⟩
    · rfl
    · exact absurd (h haa b hold hba heq.symm) hne
  · rcases Table.mem_put.mp hb with rfl | ⟨hold', -⟩
    · exact absurd (h hba a hold haa heq) hne
    · exact t.unique a hold b hold' haa hba heq

def write (t : AlertTable) (row : AlertRow) : Option AlertTable :=
  if h : t.Allows row then some ⟨t.toTable.put row, unique_put h⟩ else none

def active? (t : AlertTable) (fingerprint : String) : Option AlertRow :=
  t.rows.find? fun row => decide (row.Active ∧ row.fingerprint = fingerprint)

theorem active_of_active? {t : AlertTable} {fingerprint : String} {row : AlertRow}
    (h : t.active? fingerprint = some row) :
    row ∈ t.rows ∧ row.Active ∧ row.fingerprint = fingerprint := by
  unfold active? at h
  exact ⟨List.mem_of_find?_eq_some h, by simpa using List.find?_some h⟩

theorem active?_eq_none {t : AlertTable} {fingerprint : String} :
    t.active? fingerprint = none ↔ ∀ row ∈ t.rows, row.Active → row.fingerprint ≠ fingerprint := by
  simp [active?, List.find?_eq_none]

end AlertTable

structure AlertStore where
  alerts : AlertTable
  events : List OperationalAlertEvent

def AlertStore.empty : AlertStore := ⟨.empty, []⟩

def AlertStore.lastEvent (store : AlertStore) (row : AlertRow) : ℤ :=
  ((store.events.filter fun event => event.alertId = row.alertId).map
    OperationalAlertEvent.occurredAt).foldl max row.openedAt

/-- The arguments of `raise_alert`; `details` maps texts to texts. -/
structure RaiseRequest where
  condition : Condition
  severity : AlertSeverity
  details : List (String × String)
deriving DecidableEq

def validateAlertFields (condition : Condition) : Except Exn Unit :=
  if blank condition.source ∨ blank condition.code ∨ blank condition.resource then
    refuse "alert_requires_source_code_resource"
  else .ok ()

def openedRow (request : RaiseRequest) (alertId : UUID) (when_ : ℤ) : AlertRow where
  alertId
  fingerprint := request.condition.fingerprint
  condition := request.condition
  severity := request.severity
  details := request.details
  status := .opened
  openedAt := when_
  acknowledgedAt := none
  updatedAt := when_

/-- Insert the row of a raise with its event; `error` is what a violated key raises. -/
def AlertStore.open_ (store : AlertStore) (request : RaiseRequest) (alertId eventId : UUID)
    (when_ : ℤ) (error : Exn) : Except Exn AlertStore :=
  if (store.alerts.find? alertId).isSome then .error error
  else
    match store.alerts.write (openedRow request alertId when_) with
    | none => .error error
    | some alerts =>
        .ok ⟨alerts, store.events ++ [⟨eventId, alertId, .opened, "system", when_,
          request.details⟩]⟩

def AlertStore.move (store : AlertStore) (row : AlertRow) (eventId : UUID) (actor : String)
    (when_ : ℤ) (details : List (String × String)) (error : Exn) : Except Exn AlertStore :=
  match store.alerts.write row with
  | none => .error error
  | some alerts =>
      .ok ⟨alerts, store.events ++ [⟨eventId, row.alertId, row.status, actor, when_, details⟩]⟩

def whenOf (occurredAt : Option DateTime) (now : ℤ) : Except Exn ℤ :=
  match occurredAt with
  | none => .ok now
  | some (.aware instant) => .ok instant
  | some (.naive _) => refuse "alert_time_must_be_timezone_aware"

namespace Postgres

def fromRow (store : AlertStore) (row : AlertRow) : OperationalAlert :=
  ⟨row.alertId, row.fingerprint, row.condition, row.severity, row.details, row.status,
    row.openedAt, store.lastEvent row⟩

def raiseAlertInTransaction (store : AlertStore) (request : RaiseRequest)
    (occurredAt : Option DateTime) (now : ℤ) (alertId eventId : UUID) :
    Except Exn (AlertStore × OperationalAlert) := do
  validateAlertFields request.condition
  let when_ ← whenOf occurredAt now
  match store.alerts.active? request.condition.fingerprint with
  | some existing => return (store, fromRow store existing)
  | none =>
      let store ← store.open_ request alertId eventId when_
        (.persistenceError "operational_alert_persistence_uncertain")
      return (store, ⟨alertId, request.condition.fingerprint, request.condition,
        request.severity, request.details, .opened, when_, when_⟩)

def transitionInTransaction (store : AlertStore) (alertId : UUID) (status : AlertStatus)
    (actor : String) (details : List (String × String)) (occurredAt : Option DateTime) (now : ℤ)
    (eventId : UUID) : Except Exn AlertStore :=
  if blank actor ∨ status = .opened then refuse "invalid_alert_transition"
  else do
    let when_ ← whenOf occurredAt now
    match store.alerts.find? alertId with
    | none => .error (.keyError (toString alertId))
    | some row =>
        if row.status = .resolved then refuse "invalid_alert_transition"
        else if when_ < row.openedAt ∨ when_ < store.lastEvent row then
          refuse "alert_transition_time_regression"
        else
          let acknowledgedAt := if status = .acknowledged then some when_ else row.acknowledgedAt
          store.move { row with status, acknowledgedAt } eventId actor when_ details
            (.persistenceError "operational_alert_transition_uncertain")

end Postgres

namespace SQLite

def fromRow (row : AlertRow) : OperationalAlert :=
  ⟨row.alertId, row.fingerprint, row.condition, row.severity, row.details, row.status,
    row.openedAt, row.updatedAt⟩

def raiseAlert (store : AlertStore) (request : RaiseRequest) (now : ℤ) (alertId eventId : UUID) :
    Except Exn (AlertStore × OperationalAlert) := do
  validateAlertFields request.condition
  match store.alerts.active? request.condition.fingerprint with
  | some existing => return (store, fromRow existing)
  | none =>
      let store ← store.open_ request alertId eventId now
        (.integrityError "operational_alerts.alert_id")
      return (store, ⟨alertId, request.condition.fingerprint, request.condition,
        request.severity, request.details, .opened, now, now⟩)

def transition (store : AlertStore) (alertId : UUID) (status : AlertStatus) (actor : String)
    (details : List (String × String)) (now : ℤ) (eventId : UUID) : Except Exn AlertStore :=
  match store.alerts.find? alertId with
  | none => .error (.keyError (toString alertId))
  | some row =>
      if blank actor ∨ status = .opened ∨ row.status = .resolved then
        refuse "invalid_alert_transition"
      else
        store.move { row with status, updatedAt := now } eventId actor now details
          (.integrityError "active_alert_fingerprint")

end SQLite

/-! ## Runs of a store -/

inductive Backend where
  | postgres | sqlite
deriving DecidableEq, Repr

/-- A raise at an instant, with the identifiers it draws; only PostgreSQL takes `occurredAt`. -/
def raise (backend : Backend) (store : AlertStore) (request : RaiseRequest)
    (occurredAt : Option DateTime) (now : ℤ) (alertId eventId : UUID) :
    Except Exn (AlertStore × OperationalAlert) :=
  match backend with
  | .postgres => Postgres.raiseAlertInTransaction store request occurredAt now alertId eventId
  | .sqlite => SQLite.raiseAlert store request now alertId eventId

inductive Call where
  | raise (request : RaiseRequest) (occurredAt : Option DateTime) (now : ℤ)
      (alertId eventId : UUID)
  | transition (alertId : UUID) (status : AlertStatus) (actor : String)
      (details : List (String × String)) (occurredAt : Option DateTime) (now : ℤ) (eventId : UUID)

def step (backend : Backend) (store : AlertStore) : Call → AlertStore
  | .raise request occurredAt now alertId eventId =>
      match raise backend store request occurredAt now alertId eventId with
      | .ok (store', _) => store'
      | .error _ => store
  | .transition alertId status actor details occurredAt now eventId =>
      match
          (match backend with
          | .postgres => Postgres.transitionInTransaction store alertId status actor details
              occurredAt now eventId
          | .sqlite => SQLite.transition store alertId status actor details now eventId) with
      | .ok store' => store'
      | .error _ => store

section Stores

variable {backend : Backend} {store store' : AlertStore} {request : RaiseRequest}
  {occurredAt : Option DateTime} {now : ℤ} {alertId eventId : UUID} {alert : OperationalAlert}
  {row : AlertRow} {actor : String} {details : List (String × String)} {when_ : ℤ} {error : Exn}

def Rendered (store : AlertStore) : Prop :=
  ∀ row ∈ store.alerts.rows, row.fingerprint = row.condition.fingerprint

theorem rows_of_write {t t' : AlertTable} (h : t.write row = some t') :
    t'.rows = (t.toTable.put row).rows := by
  unfold AlertTable.write at h
  split at h
  · rw [← Option.some.inj h]
  · cases h

theorem rows_of_open (h : store.open_ request alertId eventId when_ error = .ok store') :
    store'.alerts.rows = store.alerts.rows ++ [openedRow request alertId when_] := by
  unfold AlertStore.open_ at h
  split at h
  · cases h
  · next hfresh =>
      split at h
      · cases h
      · next alerts hwrite =>
          rw [← Except.ok.inj h, rows_of_write hwrite]
          exact Table.rows_put_of_none (Option.not_isSome_iff_eq_none.mp hfresh)

theorem raise_cases
    (h : raise backend store request occurredAt now alertId eventId = .ok (store', alert)) :
    (∃ row, store.alerts.active? request.condition.fingerprint = some row ∧ store' = store) ∨
      store.alerts.active? request.condition.fingerprint = none ∧ ∃ when_,
        store'.alerts.rows = store.alerts.rows ++ [openedRow request alertId when_] := by
  cases backend with
  | postgres =>
      obtain ⟨-, -, h⟩ := Except.bind_eq_ok.mp h
      obtain ⟨when_, -, h⟩ := Except.bind_eq_ok.mp h
      split at h
      · next row hactive =>
          cases h
          exact .inl ⟨row, hactive, rfl⟩
      · next hnone =>
          obtain ⟨opened, hopen, h⟩ := Except.bind_eq_ok.mp h
          cases h
          exact .inr ⟨hnone, when_, rows_of_open hopen⟩
  | sqlite =>
      obtain ⟨-, -, h⟩ := Except.bind_eq_ok.mp h
      split at h
      · next row hactive =>
          cases h
          exact .inl ⟨row, hactive, rfl⟩
      · next hnone =>
          obtain ⟨opened, hopen, h⟩ := Except.bind_eq_ok.mp h
          cases h
          exact .inr ⟨hnone, now, rows_of_open hopen⟩

theorem Rendered.open_ {when_ : ℤ} (h : Rendered store)
    (hrows : store'.alerts.rows = store.alerts.rows ++ [openedRow request alertId when_]) :
    Rendered store' := by
  intro row hrow
  rw [hrows] at hrow
  rcases List.mem_append.mp hrow with hold | hnew
  · exact h row hold
  · rw [List.mem_singleton.mp hnew]
    rfl

theorem Rendered.move (h : Rendered store)
    (hmove : store.move row eventId actor when_ details error = .ok store')
    (hrow : row.fingerprint = row.condition.fingerprint) : Rendered store' := by
  unfold AlertStore.move at hmove
  split at hmove
  · cases hmove
  · next alerts hwrite =>
      rw [← Except.ok.inj hmove]
      intro other hother
      rw [rows_of_write hwrite] at hother
      rcases Table.mem_put.mp hother with rfl | ⟨hold, -⟩
      · exact hrow
      · exact h other hold

theorem Rendered.step (h : Rendered store) (call : Call) : Rendered (step backend store call) := by
  cases call with
  | raise request occurredAt now alertId eventId =>
      unfold Alerts.step
      dsimp only
      split
      · next store' alert hraise =>
          rcases raise_cases hraise with ⟨row, -, rfl⟩ | ⟨-, when_, hrows⟩
          · exact h
          · exact h.open_ hrows
      · exact h
  | transition alertId status actor details occurredAt now eventId =>
      cases backend with
      | postgres =>
          unfold Alerts.step Postgres.transitionInTransaction
          dsimp only
          split
          · next store' htransition =>
              split at htransition
              · cases htransition
              · obtain ⟨when_, -, htransition⟩ := Except.bind_eq_ok.mp htransition
                split at htransition
                · cases htransition
                · next row hrow =>
                    split at htransition
                    · cases htransition
                    · split at htransition
                      · cases htransition
                      · exact h.move htransition (h row (Table.mem_of_find? hrow))
          · exact h
      | sqlite =>
          unfold Alerts.step SQLite.transition
          dsimp only
          split
          · next store' htransition =>
              split at htransition
              · cases htransition
              · next row hrow =>
                  split at htransition
                  · cases htransition
                  · exact h.move htransition (h row (Table.mem_of_find? hrow))
          · exact h

theorem rendered_run (backend : Backend) (calls : List Call) :
    Rendered (Run.exec (Alerts.step backend) .empty calls) :=
  Run.exec_inv (fun _ call h => h.step call) calls (by simp [Rendered, AlertStore.empty,
    AlertTable.empty])

def OneActive (store : AlertStore) : Prop :=
  ∀ a ∈ store.alerts.rows, ∀ b ∈ store.alerts.rows, a.Active → b.Active →
    a.condition = b.condition → a = b

theorem Rendered.oneActive (h : Rendered store) : OneActive store := by
  intro a ha b hb haa hba heq
  refine store.alerts.unique a ha b hb haa hba ?_
  rw [h a ha, h b hb, heq]

/-- In every store that calls reach, and after a raise that returns while no active alert of
another condition renders to the same text, an alert of the requested condition is active: with
the requested severity where none was, and otherwise the one that was, as it was.  No condition
ever has two active alerts. -/
theorem raise_condition (backend : Backend) (calls : List Call)
    (h : raise backend (Run.exec (Alerts.step backend) .empty calls) request occurredAt now alertId
      eventId = .ok (store', alert))
    (hdistinct : ∀ row ∈ (Run.exec (Alerts.step backend) .empty calls).alerts.rows, row.Active →
      row.fingerprint = request.condition.fingerprint → row.condition = request.condition) :
    (∃ row ∈ store'.alerts.rows, row.Active ∧ row.condition = request.condition ∧
      ((∀ before ∈ (Run.exec (Alerts.step backend) .empty calls).alerts.rows,
        before.Active → before.condition ≠ request.condition) →
          row.severity = request.severity) ∧
      ∀ before ∈ (Run.exec (Alerts.step backend) .empty calls).alerts.rows,
        before.Active → before.condition = request.condition →
          row = before ∧ store' = Run.exec (Alerts.step backend) .empty calls) ∧
      OneActive (Run.exec (Alerts.step backend) .empty calls) ∧ OneActive store' := by
  have hrendered := rendered_run backend calls
  generalize Run.exec (Alerts.step backend) .empty calls = store at *
  rcases raise_cases h with ⟨row, hactive, rfl⟩ | ⟨hnone, when_, hrows⟩
  · obtain ⟨hmem, hrow, hfingerprint⟩ := AlertTable.active_of_active? hactive
    have hcondition := hdistinct row hmem hrow hfingerprint
    refine ⟨⟨row, hmem, hrow, hcondition, fun hno => ?_, fun before hb hba heq => ⟨?_, rfl⟩⟩,
      hrendered.oneActive, hrendered.oneActive⟩
    · exact absurd hcondition (hno row hmem hrow)
    · exact hrendered.oneActive row hmem before hb hrow hba (hcondition.trans heq.symm)
  · have hnew : openedRow request alertId when_ ∈ store'.alerts.rows := by
      rw [hrows]
      exact List.mem_append_right _ (List.mem_singleton.mpr rfl)
    refine ⟨⟨_, hnew, by simp [AlertRow.Active, openedRow], rfl, fun _ => rfl,
      fun before hb hba heq => ?_⟩, hrendered.oneActive, (hrendered.open_ hrows).oneActive⟩
    have hfingerprint := hrendered before hb
    rw [heq] at hfingerprint
    exact absurd hfingerprint (AlertTable.active?_eq_none.mp hnone before hb hba)

def intentRejected : Condition := ⟨"risk_engine", "PRETRADE_RISK_REJECTED", "intent:1"⟩

def rejection (severity : AlertSeverity) : RaiseRequest := ⟨intentRejected, severity, []⟩

/-- A rejection that was a warning is critical now: the warning stays what it is. -/
theorem escalation_is_dropped : ∃ store' alert,
    raise .postgres (Run.exec (Alerts.step .postgres) .empty
      [.raise (rejection .warning) none 0 1 2]) (rejection .critical) none 1 3 4 =
        .ok (store', alert) ∧
      ¬ ∃ row ∈ store'.alerts.rows, row.Active ∧ row.condition = intentRejected ∧
        (AlertSeverity.critical).rank ≤ row.severity.rank :=
  ⟨_, _, rfl, by decide +kernel⟩

def sampleCalls : List Call :=
  [.raise (rejection .critical) none 0 1 2, .transition 1 .acknowledged "operator" [] none 5 3]

theorem raise_condition_sample : ∃ store' alert,
    raise .postgres (Run.exec (Alerts.step .postgres) .empty sampleCalls) (rejection .critical)
      none 9 4 5 = .ok (store', alert) ∧
      ∃ row ∈ store'.alerts.rows, row.Active ∧ row.condition = intentRejected := by
  obtain ⟨store', alert, hraise⟩ : ∃ store' alert,
      raise .postgres (Run.exec (Alerts.step .postgres) .empty sampleCalls) (rejection .critical)
        none 9 4 5 = .ok (store', alert) := ⟨_, _, rfl⟩
  obtain ⟨⟨row, hmem, hactive, hcondition, -⟩, -⟩ :=
    raise_condition .postgres sampleCalls hraise (by decide +kernel)
  exact ⟨store', alert, hraise, row, hmem, hactive, hcondition⟩

end Stores

end Alerts

end TradePlatform
