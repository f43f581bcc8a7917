/-
# `TradePlatform.KillSwitches` — which safety stops are on, by two readings of one log

The two durable registries of `risk.py` append the same events and derive the active
scopes from them: SQLite takes the last row of a scope, PostgreSQL the row with the
greatest timestamp, and among equal timestamps the greatest random event id.  What a
switch is for does not depend on either: a scope is on when its last accepted call
switched it on.
-/
import TradePlatform.Domain
import TradePlatform.Lib.LastWriter
import TradePlatform.Lib.Replay
import TradePlatform.Lib.Run

namespace TradePlatform

/-! ## Scopes -/

def killSwitchKinds : List String :=
  ["ACCOUNT", "ASSET_CLASS", "BROKER", "EXCHANGE", "INSTRUMENT", "STRATEGY"]

def validateKillSwitchScope (scope : String) : Except Exn Unit :=
  if scope = "GLOBAL" then .ok ()
  else
    match scope.toList.span (· != ':') with
    | (_, []) => .error (.valueError "invalid_kill_switch_scope")
    | (kind, _ :: value) =>
        if value.all isSpace ∨ killSwitchKinds.all (fun k => k.toList ≠ kind) then
          .error (.valueError "invalid_kill_switch_scope")
        else .ok ()

structure SwitchTarget where
  instrumentId : String
  strategyVersion : String
  accountId : Option String
  brokerName : Option String
  exchange : Option String
  assetClass : Option String

def candidate (label : String) : Option String → Finset String
  | none => ∅
  | some value => if value = "" then ∅ else {label ++ value}

def killSwitchCandidates (target : SwitchTarget) : Finset String :=
  {"GLOBAL", "INSTRUMENT:" ++ target.instrumentId, "STRATEGY:" ++ target.strategyVersion} ∪
    candidate "ACCOUNT:" target.accountId ∪ candidate "BROKER:" target.brokerName ∪
    candidate "EXCHANGE:" target.exchange ∪ candidate "ASSET_CLASS:" target.assetClass

def blocks (activeScopes : Finset String) (target : SwitchTarget) : Bool :=
  decide (killSwitchCandidates target ∩ activeScopes ≠ ∅)

/-! ## Calls and events -/

structure KillSwitchEvent where
  eventId : UUID
  scope : String
  active : Bool
  actor : String
  occurredAt : ℤ
deriving DecidableEq

inductive KillSwitchCall where
  | activate (scope actor : String)
  | deactivate (scope : String) (explicitOperatorApproval : Bool) (actor : String)

namespace KillSwitchCall

def scope : KillSwitchCall → String
  | .activate scope _ => scope
  | .deactivate scope _ _ => scope

def active : KillSwitchCall → Bool
  | .activate _ _ => true
  | .deactivate _ _ _ => false

def actor : KillSwitchCall → String
  | .activate _ actor => actor
  | .deactivate _ _ actor => actor

def approved : KillSwitchCall → Bool
  | .activate _ _ => true
  | .deactivate _ explicitOperatorApproval _ => explicitOperatorApproval

def validate (call : KillSwitchCall) : Except Exn Unit :=
  if call.approved = false then
    .error (.permissionError "Kill switch reactivation requires explicit operator approval.")
  else
    match validateKillSwitchScope call.scope with
    | .error e => .error e
    | .ok () =>
        if blank call.actor then .error (.valueError "kill_switch_actor_required") else .ok ()

/-- The event of a call, with its `uuid4()` and `utc_now()`. -/
def event (call : KillSwitchCall) (stamp : UUID × ℤ) : KillSwitchEvent :=
  ⟨stamp.1, call.scope, call.active, call.actor, stamp.2⟩

end KillSwitchCall

/-! ## The two registries -/

structure SQLiteKillSwitchRegistry where
  events : List KillSwitchEvent

namespace SQLiteKillSwitchRegistry

variable (s : SQLiteKillSwitchRegistry)

def append (call : KillSwitchCall) (stamp : UUID × ℤ) :
    Except Exn (KillSwitchEvent × SQLiteKillSwitchRegistry) := do
  call.validate
  let event := call.event stamp
  if event.eventId ∈ s.events.map KillSwitchEvent.eventId then
    .error (.integrityError "UNIQUE constraint failed: kill_switch_events.event_id")
  else .ok (event, ⟨s.events ++ [event]⟩)

def activeScopes : Finset String :=
  (s.events.map KillSwitchEvent.scope).toFinset.filter fun scope =>
    (LastWriter.last KillSwitchEvent.scope scope s.events).any KillSwitchEvent.active

end SQLiteKillSwitchRegistry

/-- The order of `ORDER BY occurred_at, event_id`; a UUID is compared as its number. -/
def KillSwitchEvent.rank (event : KillSwitchEvent) : ℤ ×ₗ ℕ :=
  toLex (event.occurredAt, event.eventId)

structure PostgresKillSwitchRegistry where
  events : List KillSwitchEvent

namespace PostgresKillSwitchRegistry

variable (storesText : String → Bool) (s : PostgresKillSwitchRegistry)

/-- The row of an event can be inserted: `event_id` is the primary key, and the columns
take the two texts. -/
def Insertable (event : KillSwitchEvent) : Prop :=
  event.eventId ∉ s.events.map KillSwitchEvent.eventId ∧
    storesText event.scope = true ∧ storesText event.actor = true

instance (event : KillSwitchEvent) : Decidable (s.Insertable storesText event) :=
  inferInstanceAs (Decidable (_ ∧ _))

def append (call : KillSwitchCall) (stamp : UUID × ℤ) :
    Except Exn (KillSwitchEvent × PostgresKillSwitchRegistry) := do
  call.validate
  let event := call.event stamp
  if s.Insertable storesText event then .ok (event, ⟨s.events ++ [event]⟩)
  else .error (.persistenceError "kill_switch_persistence_uncertain")

/-- `DISTINCT ON (scope) .. ORDER BY scope, occurred_at DESC, event_id DESC`. -/
def activeScopes : Finset String :=
  (s.events.map KillSwitchEvent.scope).toFinset.filter fun scope =>
    (LastWriter.top KillSwitchEvent.scope KillSwitchEvent.rank scope s.events).any
      KillSwitchEvent.active

end PostgresKillSwitchRegistry

/-! ## What an append does to the active scopes -/

def switched (scopes : Finset String) (scope : String) (active : Bool) : Finset String :=
  if active then insert scope scopes else scopes.erase scope

theorem mem_switched {scopes : Finset String} {scope k : String} {active : Bool} :
    k ∈ switched scopes scope active ↔ if scope = k then active = true else k ∈ scopes := by
  unfold switched
  by_cases h : scope = k
  · subst h
    cases active <;> simp
  · have h' : k ≠ scope := Ne.symm h
    cases active <;> simp [h, h']

theorem switched_eq_iff {scopes : Finset String} {scope : String} {active : Bool} :
    switched scopes scope active = scopes ↔ (scope ∈ scopes ↔ active = true) := by
  cases active with
  | true => simp [switched]
  | false => simp [switched]

namespace SQLiteKillSwitchRegistry

variable {s s' : SQLiteKillSwitchRegistry} {call : KillSwitchCall} {stamp : UUID × ℤ} {k : String}

theorem mem_activeScopes : k ∈ s.activeScopes ↔
    (LastWriter.last KillSwitchEvent.scope k s.events).any KillSwitchEvent.active = true := by
  unfold activeScopes
  rw [Finset.mem_filter, List.mem_toFinset]
  refine and_iff_right_of_imp fun h => ?_
  cases hl : LastWriter.last KillSwitchEvent.scope k s.events with
  | none =>
      rw [hl] at h
      cases h
  | some e =>
      obtain ⟨he, hk⟩ := LastWriter.mem_of_last hl
      exact List.mem_map.mpr ⟨e, he, hk⟩

def step (s : SQLiteKillSwitchRegistry) (call : KillSwitchCall) (stamp : UUID × ℤ) :
    SQLiteKillSwitchRegistry :=
  match s.append call stamp with
  | .ok (_, s') => s'
  | .error _ => s

theorem step_eq (s : SQLiteKillSwitchRegistry) (call : KillSwitchCall) (stamp : UUID × ℤ) :
    s.step call stamp = if call.validate = .ok () ∧ stamp.1 ∉ s.events.map KillSwitchEvent.eventId
      then ⟨s.events ++ [call.event stamp]⟩ else s := by
  unfold step append
  cases hv : call.validate with
  | error e => simp
  | ok u =>
      by_cases hid : stamp.1 ∈ s.events.map KillSwitchEvent.eventId
      · have hid' : (call.event stamp).eventId ∈ s.events.map KillSwitchEvent.eventId := hid
        simp only [Except.ok_bind, if_pos hid', hid, not_true_eq_false, and_false, if_false]
      · have hid' : (call.event stamp).eventId ∉ s.events.map KillSwitchEvent.eventId := hid
        simp only [Except.ok_bind, if_neg hid', hid, not_false_eq_true, and_true, if_true]

theorem activeScopes_snoc (s : SQLiteKillSwitchRegistry) (call : KillSwitchCall)
    (stamp : UUID × ℤ) :
    activeScopes ⟨s.events ++ [call.event stamp]⟩ =
      switched s.activeScopes call.scope call.active := by
  ext k
  rw [mem_activeScopes, mem_switched, LastWriter.last_snoc]
  by_cases h : call.scope = k
  · simp [h, KillSwitchCall.event]
  · have h' : (call.event stamp).scope ≠ k := h
    rw [if_neg h', if_neg h, mem_activeScopes]

end SQLiteKillSwitchRegistry

namespace PostgresKillSwitchRegistry

variable {storesText : String → Bool} {s : PostgresKillSwitchRegistry} {k : String}

theorem mem_activeScopes : k ∈ s.activeScopes ↔
    (LastWriter.top KillSwitchEvent.scope KillSwitchEvent.rank k s.events).any
      KillSwitchEvent.active = true := by
  unfold activeScopes
  rw [Finset.mem_filter, List.mem_toFinset]
  refine and_iff_right_of_imp fun h => ?_
  cases ht : LastWriter.top KillSwitchEvent.scope KillSwitchEvent.rank k s.events with
  | none =>
      rw [ht] at h
      cases h
  | some e =>
      obtain ⟨he, hk⟩ := LastWriter.mem_of_top ht
      exact List.mem_map.mpr ⟨e, he, hk⟩

def step (storesText : String → Bool) (s : PostgresKillSwitchRegistry) (call : KillSwitchCall)
    (stamp : UUID × ℤ) : PostgresKillSwitchRegistry :=
  match s.append storesText call stamp with
  | .ok (_, s') => s'
  | .error _ => s

theorem step_eq (s : PostgresKillSwitchRegistry) (call : KillSwitchCall) (stamp : UUID × ℤ) :
    s.step storesText call stamp =
      if call.validate = .ok () ∧ s.Insertable storesText (call.event stamp)
      then ⟨s.events ++ [call.event stamp]⟩ else s := by
  unfold step append
  cases hv : call.validate with
  | error e => simp
  | ok u =>
      by_cases hin : s.Insertable storesText (call.event stamp)
      · simp only [Except.ok_bind, hin, and_true, if_true]
      · simp only [Except.ok_bind, hin, and_false, if_false]

def Newest (s : PostgresKillSwitchRegistry) (event : KillSwitchEvent) : Prop :=
  LastWriter.Newest KillSwitchEvent.scope KillSwitchEvent.rank s.events event

instance (s : PostgresKillSwitchRegistry) (event : KillSwitchEvent) : Decidable (s.Newest event) :=
  inferInstanceAs (Decidable (LastWriter.Newest ..))

theorem activeScopes_snoc (s : PostgresKillSwitchRegistry) (call : KillSwitchCall)
    (stamp : UUID × ℤ) :
    activeScopes ⟨s.events ++ [call.event stamp]⟩ =
      if s.Newest (call.event stamp) then switched s.activeScopes call.scope call.active
      else s.activeScopes := by
  ext k
  rw [mem_activeScopes, LastWriter.top_snoc]
  by_cases hn : s.Newest (call.event stamp)
  · have hn' : LastWriter.Newest KillSwitchEvent.scope KillSwitchEvent.rank s.events
        (call.event stamp) := hn
    rw [if_pos hn, mem_switched]
    by_cases h : call.scope = k
    · subst h
      rw [if_pos ⟨rfl, hn'⟩, if_pos rfl]
      rfl
    · have h' : ¬ ((call.event stamp).scope = k ∧ LastWriter.Newest KillSwitchEvent.scope
          KillSwitchEvent.rank s.events (call.event stamp)) := fun e => h e.1
      rw [if_neg h', if_neg h, mem_activeScopes]
  · have h' : ¬ ((call.event stamp).scope = k ∧ LastWriter.Newest KillSwitchEvent.scope
        KillSwitchEvent.rank s.events (call.event stamp)) := fun e => hn e.2
    rw [if_neg hn, if_neg h', mem_activeScopes]

end PostgresKillSwitchRegistry

/-! ## Both registries, one sequence of calls -/

structure SwitchAction where
  call : KillSwitchCall
  sqliteStamp : UUID × ℤ
  postgresStamp : UUID × ℤ

structure KillSwitches where
  sqlite : SQLiteKillSwitchRegistry
  postgres : PostgresKillSwitchRegistry
  lastActivated : Finset String

namespace KillSwitches

variable (storesText : String → Bool) (σ : KillSwitches)

def empty : KillSwitches := ⟨⟨[]⟩, ⟨[]⟩, ∅⟩

def step (a : SwitchAction) : KillSwitches where
  sqlite := σ.sqlite.step a.call a.sqliteStamp
  postgres := σ.postgres.step storesText a.call a.postgresStamp
  lastActivated := if a.call.validate = .ok ()
    then switched σ.lastActivated a.call.scope a.call.active else σ.lastActivated

def Agree : Prop :=
  σ.sqlite.activeScopes = σ.lastActivated ∧ σ.postgres.activeScopes = σ.lastActivated

/-- An accepted call that changes whether its scope is active is stored by both registries,
and its event has a greater `(occurred_at, event_id)` than every earlier one of the scope. -/
def StoredNewest (a : SwitchAction) : Prop :=
  a.call.validate = .ok () → ¬ (a.call.scope ∈ σ.lastActivated ↔ a.call.active = true) →
    a.sqliteStamp.1 ∉ σ.sqlite.events.map KillSwitchEvent.eventId ∧
    σ.postgres.Insertable storesText (a.call.event a.postgresStamp) ∧
    σ.postgres.Newest (a.call.event a.postgresStamp)

instance (a : SwitchAction) : Decidable (σ.StoredNewest storesText a) :=
  inferInstanceAs (Decidable (_ → _))

variable {storesText σ}

theorem step_agree_iff (h : σ.Agree) (a : SwitchAction) :
    (σ.step storesText a).Agree ↔ σ.StoredNewest storesText a := by
  obtain ⟨hs, hp⟩ := h
  unfold Agree step StoredNewest
  simp only [SQLiteKillSwitchRegistry.step_eq, PostgresKillSwitchRegistry.step_eq]
  by_cases hv : a.call.validate = .ok ()
  swap
  · simp only [hv, false_and, if_false, false_imp_iff, iff_true]
    exact ⟨hs, hp⟩
  simp only [hv, true_and, if_true, true_imp_iff, ← switched_eq_iff]
  by_cases hsame : switched σ.lastActivated a.call.scope a.call.active = σ.lastActivated
  · -- nothing to change: whatever is stored, both stay as they are
    refine iff_of_true ⟨?_, ?_⟩ fun h => absurd hsame h
    · split
      · rw [SQLiteKillSwitchRegistry.activeScopes_snoc, hs]
      · rw [hs, hsame]
    · split
      · rw [PostgresKillSwitchRegistry.activeScopes_snoc, hp]
        split
        · rfl
        · exact hsame.symm
      · rw [hp, hsame]
  · have hne : ∀ {t : Finset String}, t = σ.lastActivated →
        t ≠ switched σ.lastActivated a.call.scope a.call.active := by
      rintro _ rfl e
      exact hsame e.symm
    simp only [hsame, not_false_eq_true, true_imp_iff]
    refine and_congr ?_ ?_
    · split <;> rename_i hid
      · exact iff_of_true (by rw [SQLiteKillSwitchRegistry.activeScopes_snoc, hs]) hid
      · exact iff_of_false (hne hs) hid
    · split <;> rename_i hin
      · rw [PostgresKillSwitchRegistry.activeScopes_snoc, hp]
        split <;> rename_i hn
        · exact iff_of_true rfl ⟨hin, hn⟩
        · exact iff_of_false (hne rfl) fun e => hn e.2
      · exact iff_of_false (hne hp) fun e => hin e.1

/-- In every run both registries report the scopes whose last accepted call was an
activation, after every call, precisely when each call that changes a scope's state is
stored and outranks the earlier events of the scope. -/
theorem registries_agree_iff (storesText : String → Bool) (actions : List SwitchAction) :
    Run.Always (step storesText) Agree empty actions ↔
      Run.Each (step storesText) (StoredNewest storesText) empty actions := by
  have hstart : Agree empty := ⟨rfl, rfl⟩
  have hstep : ∀ (σ : KillSwitches) (a : SwitchAction), True → σ.Agree →
      ((σ.step storesText a).Agree ↔ σ.StoredNewest storesText a) :=
    fun _ a _ h => step_agree_iff h a
  exact (Run.always_iff_each (fun _ _ _ _ _ => trivial) hstep trivial).trans
    (and_iff_right hstart)

/-! ## What the gate refuses -/

def accepted (actions : List SwitchAction) : List SwitchAction :=
  actions.filter fun a => decide (a.call.validate = .ok ())

theorem mem_lastActivated (storesText : String → Bool) (actions : List SwitchAction) (k : String) :
    k ∈ (Run.exec (step storesText) empty actions).lastActivated ↔
      (LastWriter.last (fun a : SwitchAction => a.call.scope) k (accepted actions)).any
        (fun a => a.call.active) = true := by
  induction actions using List.reverseRecOn with
  | nil => simp [empty, accepted, LastWriter.last]
  | append_singleton actions a ih =>
      have hexec : Run.exec (step storesText) empty (actions ++ [a]) =
          step storesText (Run.exec (step storesText) empty actions) a := List.foldl_concat ..
      rw [hexec, accepted, List.filter_append]
      by_cases hv : a.call.validate = .ok ()
      · have hone : [a].filter (fun a => decide (a.call.validate = .ok ())) = [a] := by simp [hv]
        rw [hone, LastWriter.last_snoc, step, if_pos hv, mem_switched]
        split
        · rfl
        · exact ih
      · have hnone : [a].filter (fun a => decide (a.call.validate = .ok ())) = [] := by simp [hv]
        rw [hnone, List.append_nil, step, if_neg hv]
        exact ih

/-- An order is blocked, whichever registry the gate asks, exactly when the last accepted call on
one of its scopes was an activation. -/
theorem blocks_iff_last_call (storesText : String → Bool) (actions : List SwitchAction)
    (h : Run.Each (step storesText) (StoredNewest storesText) empty actions)
    (target : SwitchTarget) :
    let σ := Run.exec (step storesText) empty actions
    let blocked := ∃ k ∈ killSwitchCandidates target,
      (LastWriter.last (fun a : SwitchAction => a.call.scope) k (accepted actions)).any
        (fun a => a.call.active) = true
    (blocks σ.sqlite.activeScopes target = true ↔ blocked) ∧
      (blocks σ.postgres.activeScopes target = true ↔ blocked) := by
  intro σ blocked
  have hagree : σ.Agree :=
    (h.always (fun σ a hσ ha => (step_agree_iff hσ a).mpr ha) ⟨rfl, rfl⟩).exec
  have hblocks : blocks σ.lastActivated target = true ↔ blocked := by
    simp only [blocks, decide_eq_true_eq, ← Finset.nonempty_iff_ne_empty, Finset.Nonempty,
      Finset.mem_inter, blocked, ← mem_lastActivated storesText]
    rfl
  rw [hagree.1, hagree.2]
  exact ⟨hblocks, hblocks⟩

theorem blocks_iff_last_call_sample :
    let actions : List SwitchAction := [⟨.activate "BROKER:b" "risk", (1, 0), (1, 0)⟩,
      ⟨.deactivate "BROKER:b" true "operator", (2, 1), (2, 1)⟩]
    let σ := Run.exec (step fun _ => true) empty actions
    let target : SwitchTarget := ⟨"btc", "v1", none, some "b", none, none⟩
    let blocked := ∃ k ∈ killSwitchCandidates target,
      (LastWriter.last (fun a : SwitchAction => a.call.scope) k (accepted actions)).any
        (fun a => a.call.active) = true
    (blocks σ.sqlite.activeScopes target = true ↔ blocked) ∧
      (blocks σ.postgres.activeScopes target = true ↔ blocked) := by
  intro actions σ target blocked
  exact blocks_iff_last_call (fun _ => true) actions
    ⟨by decide +kernel, by decide +kernel, trivial⟩ target

/-- One timestamp, and the activation drew the smaller id: PostgreSQL still reports the
scope as switched off. -/
theorem activation_lost :
    let actions : List SwitchAction := [⟨.deactivate "GLOBAL" true "operator", (1, 0), (2, 0)⟩,
      ⟨.activate "GLOBAL" "system", (2, 0), (1, 0)⟩]
    ¬ Run.Always (step fun _ => true) Agree empty actions := by
  intro actions h
  have hlast := h.exec.2
  revert hlast
  decide +kernel

end KillSwitches

end TradePlatform
