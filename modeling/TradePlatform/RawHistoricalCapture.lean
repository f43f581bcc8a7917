/-
# `TradePlatform.RawHistoricalCapture` — what an idempotent re-delivery of evidence keeps

`capture_raw` of `historical_market_data.py`.  A batch is written in one transaction; an
observation whose key is taken is a re-delivery, and it is settled by the digest of its
payload alone.  The row of a raw observation carries more than the key and the payload: the
symbol, the exchange, the effective time, the adjustment and the provenance.  A batch that
returns is faithful precisely when it agrees with what is stored in these too
(`captureRaw_faithful_iff`).
-/
import TradePlatform.Domain
import TradePlatform.Lib.Replay
import TradePlatform.Lib.Run
import TradePlatform.Lib.Table

namespace TradePlatform.RawCapture

/-! ## The observations -/

inductive ObservationKind where
  | ohlcv | dividend | split | symbolChange | delisting | settlementPrice | openInterest
  | fundingRateRealized | fundingRateIndicative | markPrice | indexPrice
deriving DecidableEq, Repr

def ObservationKind.value : ObservationKind → String
  | .ohlcv => "OHLCV"
  | .dividend => "DIVIDEND"
  | .split => "SPLIT"
  | .symbolChange => "SYMBOL_CHANGE"
  | .delisting => "DELISTING"
  | .settlementPrice => "SETTLEMENT_PRICE"
  | .openInterest => "OPEN_INTEREST"
  | .fundingRateRealized => "FUNDING_RATE_REALIZED"
  | .fundingRateIndicative => "FUNDING_RATE_INDICATIVE"
  | .markPrice => "MARK_PRICE"
  | .indexPrice => "INDEX_PRICE"

def typedPayloadKinds : List ObservationKind :=
  [.settlementPrice, .openInterest, .fundingRateRealized, .fundingRateIndicative, .markPrice,
    .indexPrice]

inductive AdjustmentStatus where
  | raw | asReported | pointInTimeAdjusted | latestAdjusted
deriving DecidableEq, Repr

def AdjustmentStatus.value : AdjustmentStatus → String
  | .raw => "RAW"
  | .asReported => "AS_REPORTED"
  | .pointInTimeAdjusted => "POINT_IN_TIME_ADJUSTED"
  | .latestAdjusted => "LATEST_ADJUSTED"

def typedKindAdjustmentStatuses : List AdjustmentStatus := [.raw, .asReported]

/-- The columns of `UNIQUE(source_id, provider_identifier, observation_kind, event_at, revision)`. -/
abbrev Key := UUID × String × ObservationKind × DateTime × ℤ

/-- The evidence of an observation beside its key and its payload: the provider's symbol, the
exchange, the effective time, the adjustment and the provenance. -/
abbrev Labels := String × String × DateTime × AdjustmentStatus × String

structure RawHistoricalObservation (P : Type) where
  sourceId : UUID
  observationKind : ObservationKind
  providerIdentifier : String
  providerSymbol : String
  exchange : String
  eventAt : DateTime
  effectiveAt : DateTime
  ingestedAt : DateTime
  adjustmentStatus : AdjustmentStatus
  revision : ℤ
  provenanceUri : String
  rawPayload : P
  rawObservationId : UUID

/-- A row of `historical_raw_observations`; its payload is the JSON text it was written from. -/
structure RawRow where
  rawObservationId : UUID
  sourceId : UUID
  observationKind : ObservationKind
  providerIdentifier : String
  providerSymbol : String
  exchange : String
  eventAt : DateTime
  effectiveAt : DateTime
  ingestedAt : DateTime
  adjustmentStatus : AdjustmentStatus
  revision : ℤ
  provenanceUri : String
  rawPayload : String
  rawPayloadSha256 : String
deriving DecidableEq

def RawRow.key (row : RawRow) : Key :=
  (row.sourceId, row.providerIdentifier, row.observationKind, row.eventAt, row.revision)

def RawRow.labels (row : RawRow) : Labels :=
  (row.providerSymbol, row.exchange, row.effectiveAt, row.adjustmentStatus, row.provenanceUri)

/-- The code outside the module: `json.dumps` of a payload with sorted keys (`none` where it
raises), `hashlib.sha256`, and the texts that a `TEXT` and a `JSONB` column take. -/
structure Env (P : Type) where
  dumps : P → Option String
  sha256 : String → String
  storesText : String → Bool
  storesJson : String → Bool

variable {P : Type} (env : Env P)

def Env.canonical (payload : P) : Except Exn String :=
  match env.dumps payload with
  | some text => .ok text
  | none => .error (.historicalMarketDataError "raw_payload_not_canonical_json")

def requireAware (value : DateTime) (name : String) : Except Exn ℤ :=
  match value with
  | .aware instant => .ok instant
  | .naive _ => .error (.historicalMarketDataError s!"{name}_must_be_timezone_aware")

def requireText (value name : String) : Except Exn Unit :=
  if blank value then .error (.historicalMarketDataError s!"invalid_{name}") else .ok ()

namespace RawHistoricalObservation

variable (o : RawHistoricalObservation P)

def key : Key := (o.sourceId, o.providerIdentifier, o.observationKind, o.eventAt, o.revision)

def labels : Labels :=
  (o.providerSymbol, o.exchange, o.effectiveAt, o.adjustmentStatus, o.provenanceUri)

def validate : Except Exn Unit := do
  requireText o.providerIdentifier "provider_identifier"
  requireText o.providerSymbol "provider_symbol"
  requireText o.exchange "exchange"
  requireText o.provenanceUri "provenance_uri"
  let eventAt ← requireAware o.eventAt "event_at"
  let effectiveAt ← requireAware o.effectiveAt "effective_at"
  let ingestedAt ← requireAware o.ingestedAt "ingested_at"
  if effectiveAt < eventAt ∨ ingestedAt < eventAt then
    .error (.historicalMarketDataError "invalid_historical_observation_timestamps")
  else if o.revision < 0 then
    .error (.historicalMarketDataError "invalid_historical_observation_revision")
  else if o.observationKind ∈ typedPayloadKinds ∧
      o.adjustmentStatus ∉ typedKindAdjustmentStatuses then
    .error (.historicalMarketDataError
      s!"adjustment_status_undefined_for_kind:{o.observationKind.value}:{o.adjustmentStatus.value}")
  else do
    let _ ← env.canonical o.rawPayload
    pure ()

/-- The values of the `INSERT`, for the text of the payload. -/
def row (payload : String) : RawRow where
  rawObservationId := o.rawObservationId
  sourceId := o.sourceId
  observationKind := o.observationKind
  providerIdentifier := o.providerIdentifier
  providerSymbol := o.providerSymbol
  exchange := o.exchange
  eventAt := o.eventAt
  effectiveAt := o.effectiveAt
  ingestedAt := o.ingestedAt
  adjustmentStatus := o.adjustmentStatus
  revision := o.revision
  provenanceUri := o.provenanceUri
  rawPayload := payload
  rawPayloadSha256 := env.sha256 payload

end RawHistoricalObservation

/-- A stored row holds everything an observation says but its id and its ingestion time. -/
def RawRow.Equals (row : RawRow) (o : RawHistoricalObservation P) : Prop :=
  row.key = o.key ∧ env.dumps o.rawPayload = some row.rawPayload ∧ row.labels = o.labels

/-! ## The table -/

/-- The columns take the values of a row, and its `CHECK` constraints hold. -/
def RawRow.admitted (row : RawRow) : Bool :=
  [row.providerIdentifier, row.providerSymbol, row.exchange, row.provenanceUri].all env.storesText
    && env.storesJson row.rawPayload && decide (0 ≤ row.revision ∧ row.revision < 2 ^ 31)

/-- `historical_raw_observations`.  Rows are written by `capture_raw` alone, each with the
digest of its payload. -/
structure RawStore (env : Env P) where
  table : Table RawRow.key
  ids : (table.rows.map RawRow.rawObservationId).Nodup
  digests : ∀ row ∈ table.rows, row.rawPayloadSha256 = env.sha256 row.rawPayload

namespace RawStore

variable {env}

def empty : RawStore env := ⟨.empty _, List.nodup_nil, fun _ h => absurd h List.not_mem_nil⟩

def insert (s : RawStore env) (o : RawHistoricalObservation P) (payload : String)
    (hkey : s.table.find? (o.row env payload).key = none)
    (hid : o.rawObservationId ∉ s.table.rows.map RawRow.rawObservationId) : RawStore env where
  table := s.table.put (o.row env payload)
  ids := by
    rw [Table.rows_put_of_none hkey, List.map_append]
    refine List.nodup_append.mpr ⟨s.ids, List.nodup_singleton _, fun a ha b hb hab => hid ?_⟩
    have ha' : a = o.rawObservationId := hab.trans (List.mem_singleton.mp hb)
    exact ha' ▸ ha
  digests := by
    intro row hrow
    rcases Table.mem_put.mp hrow with rfl | ⟨hold, -⟩
    · rfl
    · exact s.digests row hold

/-- The statement for one observation, where `capability` are the rows of
`historical_source_capabilities`: the constraints of the columns come before the conflict
on the key, and the primary key and the reference after it. -/
def insertRaw (capability : UUID → ObservationKind → Bool) (s : RawStore env)
    (o : RawHistoricalObservation P) : Except Exn (UUID × RawStore env) := do
  let payload ← env.canonical o.rawPayload
  if (o.row env payload).admitted env = false then .error transactionFailed
  else
    match hfind : s.table.find? (o.row env payload).key with
    | some existing =>
        if existing.rawPayloadSha256 ≠ env.sha256 payload then
          .error (.historicalMarketDataError "raw_historical_observation_conflict")
        else .ok (existing.rawObservationId, s)
    | none =>
        if hid : o.rawObservationId ∈ s.table.rows.map RawRow.rawObservationId then
          .error transactionFailed
        else if capability o.sourceId o.observationKind = false then .error transactionFailed
        else .ok (o.rawObservationId, s.insert o payload hfind hid)

def insertAll (capability : UUID → ObservationKind → Bool) :
    RawStore env → List (RawHistoricalObservation P) → Except Exn (List UUID × RawStore env)
  | s, [] => .ok ([], s)
  | s, o :: os => do
      let (id, s) ← s.insertRaw capability o
      let (ids, s) ← insertAll capability s os
      pure (id :: ids, s)

end RawStore

/-- `except HistoricalMarketDataError: raise`, any other exception as one. -/
def captureGuarded {α : Type} : Except Exn α → Except Exn α
  | .ok a => .ok a
  | .error (.historicalMarketDataError message) => .error (.historicalMarketDataError message)
  | .error _ => .error (.historicalMarketDataError "raw_historical_capture_failed")

theorem captureGuarded_eq_ok {α : Type} {x : Except Exn α} {a : α} :
    captureGuarded x = .ok a ↔ x = .ok a := by
  cases x with
  | ok b => rfl
  | error e => cases e <;> simp [captureGuarded]

/-- A call of `capture_raw`: a batch, and the capabilities registered when it is made. -/
structure Delivery (P : Type) where
  observations : List (RawHistoricalObservation P)
  capability : UUID → ObservationKind → Bool

variable {env}

/-- What `capture_raw` checks before it opens its transaction, and what the transaction does. -/
def captured (s : RawStore env) (d : Delivery P) : Except Exn (List UUID × RawStore env) :=
  if d.observations = [] then
    .error (.historicalMarketDataError "empty_historical_observation_batch")
  else do
    let _ ← d.observations.mapM (RawHistoricalObservation.validate env)
    captureGuarded (s.insertAll d.capability d.observations)

/-- `capture_raw`: its result and the table it leaves; a transaction that raises is rolled
back. -/
def captureRaw (s : RawStore env) (d : Delivery P) : Except Exn (List UUID) × RawStore env :=
  match captured s d with
  | .ok (ids, s') => (.ok ids, s')
  | .error e => (.error e, s)

def deliver (s : RawStore env) (d : Delivery P) : RawStore env := (captureRaw s d).2

/-! ## One statement and one batch -/

namespace RawStore

variable {s s' : RawStore env} {capability : UUID → ObservationKind → Bool}
  {texts : Set String}

def Within (texts : Set String) (s : RawStore env) : Prop :=
  ∀ row ∈ s.table.rows, row.rawPayload ∈ texts

def Holds (s : RawStore env) (o : RawHistoricalObservation P) (id : UUID) (row : RawRow) : Prop :=
  row ∈ s.table.rows ∧ row.rawObservationId = id ∧ row.key = o.key ∧
    env.dumps o.rawPayload = some row.rawPayload

theorem eq_of_key {row row' : RawRow} (hrow : row ∈ s.table.rows) (hrow' : row' ∈ s.table.rows)
    (h : row.key = row'.key) : row = row' :=
  List.inj_on_of_nodup_map s.table.nodup hrow hrow' h

theorem canonical_eq_ok {payload : P} {text : String} :
    env.canonical payload = .ok text ↔ env.dumps payload = some text := by
  unfold Env.canonical
  cases env.dumps payload <;> simp

/-- What one statement that does not raise does: the id stands for a row of the observation's
key and payload, and the only row it may add is the observation's own. -/
theorem insertRaw_eq_ok {o : RawHistoricalObservation P} {id : UUID}
    (hsha : Set.InjOn env.sha256 texts) (hs : s.Within texts)
    (ho : ∀ text, env.dumps o.rawPayload = some text → text ∈ texts)
    (h : s.insertRaw capability o = .ok (id, s')) :
    s'.Within texts ∧ s.table.rows ⊆ s'.table.rows ∧ (∃ row, s'.Holds o id row) ∧
    ∀ row ∈ s'.table.rows, row ∈ s.table.rows ∨
      env.dumps o.rawPayload = some row.rawPayload ∧ row = o.row env row.rawPayload := by
  unfold insertRaw at h
  obtain ⟨payload, hpayload, h⟩ := Except.bind_eq_ok.mp h
  have hdumps := canonical_eq_ok.mp hpayload
  split at h
  · cases h
  · split at h
    · rename_i existing hfind
      split at h
      · cases h
      · rename_i hsame
        obtain ⟨rfl, rfl⟩ := Prod.mk.inj (Except.ok.inj h)
        obtain ⟨hmem, hkey⟩ := Table.find?_eq_some.mp hfind
        -- the digests agree, so the payloads do
        have htext : existing.rawPayload = payload := by
          refine hsha (hs existing hmem) (ho payload hdumps) ?_
          rw [← s.digests existing hmem]
          exact not_ne_iff.mp hsame
        refine ⟨hs, fun _ hrow => hrow, ⟨existing, hmem, rfl, hkey, ?_⟩, fun _ hrow => .inl hrow⟩
        rw [htext]
        exact hdumps
    · rename_i hfind
      split at h
      · cases h
      · split at h
        · cases h
        · obtain ⟨rfl, rfl⟩ := Prod.mk.inj (Except.ok.inj h)
          have hrows : ∀ row, row ∈ (s.table.put (o.row env payload)).rows ↔
              row = o.row env payload ∨ row ∈ s.table.rows := by
            intro row
            rw [Table.rows_put_of_none hfind, List.mem_append, List.mem_singleton, or_comm]
          refine ⟨?_, fun row hrow => (hrows row).mpr (.inr hrow),
            ⟨o.row env payload, (hrows _).mpr (.inl rfl), rfl, rfl, hdumps⟩, ?_⟩
          · intro row hrow
            rcases (hrows row).mp hrow with rfl | hold
            · exact ho payload hdumps
            · exact hs row hold
          · intro row hrow
            rcases (hrows row).mp hrow with rfl | hold
            · exact .inr ⟨hdumps, rfl⟩
            · exact .inl hold

theorem insertAll_eq_ok (hsha : Set.InjOn env.sha256 texts) :
    ∀ {os : List (RawHistoricalObservation P)} {s s' : RawStore env} {ids : List UUID},
      s.Within texts → (∀ o ∈ os, ∀ text, env.dumps o.rawPayload = some text → text ∈ texts) →
      insertAll capability s os = .ok (ids, s') →
      s'.Within texts ∧ s.table.rows ⊆ s'.table.rows ∧
      List.Forall₂ (fun o id => ∃ row, s'.Holds o id row) os ids ∧
      ∀ row ∈ s'.table.rows, row ∈ s.table.rows ∨ ∃ o ∈ os,
        env.dumps o.rawPayload = some row.rawPayload ∧ row = o.row env row.rawPayload
  | [], s, s', ids, hs, _, h => by
      obtain ⟨rfl, rfl⟩ := Prod.mk.inj (Except.ok.inj h)
      exact ⟨hs, fun _ hrow => hrow, .nil, fun _ hrow => .inl hrow⟩
  | o :: os, s, s', ids, hs, ho, h => by
      obtain ⟨⟨id, s₁⟩, hfirst, h⟩ := Except.bind_eq_ok.mp h
      obtain ⟨⟨ids', s₂⟩, hrest, h⟩ := Except.bind_eq_ok.mp h
      obtain ⟨rfl, rfl⟩ := Prod.mk.inj (Except.pure_eq_ok.mp h)
      obtain ⟨hs₁, hsub₁, ⟨row, hmem, hid, hkey, hpayload⟩, hrows₁⟩ :=
        insertRaw_eq_ok hsha hs (ho o List.mem_cons_self) hfirst
      obtain ⟨hs₂, hsub₂, hheld, hrows₂⟩ :=
        insertAll_eq_ok hsha hs₁ (fun o' ho' => ho o' (List.mem_cons_of_mem _ ho')) hrest
      refine ⟨hs₂, fun r hr => hsub₂ (hsub₁ hr),
        .cons ⟨row, hsub₂ hmem, hid, hkey, hpayload⟩ hheld, fun r hr => ?_⟩
      rcases hrows₂ r hr with hold | ⟨o', ho', heq⟩
      · rcases hrows₁ r hold with hold | hnew
        · exact .inl hold
        · exact .inr ⟨o, List.mem_cons_self, hnew⟩
      · exact .inr ⟨o', List.mem_cons_of_mem _ ho', heq⟩

end RawStore

/-! ## Calls and runs -/

def payloads (env : Env P) (deliveries : List (Delivery P)) : Set String :=
  {text | ∃ d ∈ deliveries, ∃ o ∈ d.observations, env.dumps o.rawPayload = some text}

/-- What a call of `capture_raw` promises: each id that it returns names a stored row that says
what the observation says, an observation that contradicts the row of its key is refused, and a
call that raises stores nothing. -/
structure Faithful (s : RawStore env) (d : Delivery P) : Prop where
  named : ∀ ids, (captureRaw s d).1 = .ok ids →
    List.Forall₂ (fun o id => ∃ row ∈ (deliver s d).table.rows,
      row.rawObservationId = id ∧ row.Equals env o) d.observations ids
  refused : ∀ o ∈ d.observations, ∀ row ∈ s.table.rows, row.key = o.key → ¬ row.Equals env o →
    ∃ e, (captureRaw s d).1 = .error e
  atomic : ∀ e, (captureRaw s d).1 = .error e → deliver s d = s

def AgreeInLabels (env : Env P) (o o' : RawHistoricalObservation P) : Prop :=
  o.key = o'.key → env.dumps o.rawPayload = env.dumps o'.rawPayload → o.labels = o'.labels

instance : Std.Symm (AgreeInLabels env) where
  symm _ _ h hkey hpayload := (h hkey.symm hpayload.symm).symm

instance : DecidableRel (AgreeInLabels env) :=
  fun _ _ => inferInstanceAs (Decidable (_ → _))

def RawRow.AgreesInLabels (env : Env P) (row : RawRow) (o : RawHistoricalObservation P) : Prop :=
  row.key = o.key → env.dumps o.rawPayload = some row.rawPayload → row.labels = o.labels

instance (row : RawRow) (o : RawHistoricalObservation P) :
    Decidable (row.AgreesInLabels env o) :=
  inferInstanceAs (Decidable (_ → _))

/-- An observation with the key and the payload of a stored row, or of an earlier observation
of its batch, has the labels of it as well. -/
def KeepsLabels (s : RawStore env) (d : Delivery P) : Prop :=
  (∀ o ∈ d.observations, ∀ row ∈ s.table.rows, row.AgreesInLabels env o) ∧
    d.observations.Pairwise (AgreeInLabels env)

instance (s : RawStore env) (d : Delivery P) : Decidable (KeepsLabels s d) :=
  inferInstanceAs (Decidable (_ ∧ _))

section Call

variable {s s' : RawStore env} {d : Delivery P} {ids : List UUID} {texts : Set String}

theorem captured_eq_ok (h : captured s d = .ok (ids, s')) :
    s.insertAll d.capability d.observations = .ok (ids, s') := by
  unfold captured at h
  split at h
  · cases h
  · obtain ⟨_, -, h⟩ := Except.bind_eq_ok.mp h
    exact captureGuarded_eq_ok.mp h

theorem captureRaw_cases (s : RawStore env) (d : Delivery P) :
    (∃ ids s', captured s d = .ok (ids, s') ∧ captureRaw s d = (.ok ids, s')) ∨
    ∃ e, captureRaw s d = (.error e, s) := by
  unfold captureRaw
  cases h : captured s d with
  | ok result => exact .inl ⟨result.1, result.2, rfl, rfl⟩
  | error e => exact .inr ⟨e, rfl⟩

theorem deliver_of_error {e : Exn} (h : (captureRaw s d).1 = .error e) : deliver s d = s := by
  rcases captureRaw_cases s d with ⟨ids, s', -, heq⟩ | ⟨e', heq⟩
  · rw [heq] at h
    cases h
  · rw [deliver, heq]

theorem mem_payloads {deliveries : List (Delivery P)} (hd : d ∈ deliveries)
    {o : RawHistoricalObservation P} (ho : o ∈ d.observations) {text : String}
    (h : env.dumps o.rawPayload = some text) : text ∈ payloads env deliveries :=
  ⟨d, hd, o, ho, h⟩

variable (hsha : Set.InjOn env.sha256 texts) (hs : s.Within texts)
  (hd : ∀ o ∈ d.observations, ∀ text, env.dumps o.rawPayload = some text → text ∈ texts)

include hsha hs hd

theorem within_deliver : (deliver s d).Within texts := by
  rcases captureRaw_cases s d with ⟨ids, s', hcaptured, heq⟩ | ⟨e, heq⟩
  · rw [deliver, heq]
    exact (RawStore.insertAll_eq_ok hsha hs hd (captured_eq_ok hcaptured)).1
  · rw [deliver, heq]
    exact hs

/-- An accepted batch is faithful precisely when it keeps the labels of what is stored. -/
theorem captureRaw_faithful_iff (hok : (captureRaw s d).1 = .ok ids) :
    Faithful s d ↔ KeepsLabels s d := by
  obtain ⟨ids', s', hcaptured, heq⟩ | ⟨e, heq⟩ := captureRaw_cases s d
  swap
  · rw [heq] at hok
    cases hok
  have hafter : deliver s d = s' := by rw [deliver, heq]
  obtain ⟨-, hsub, hheld, hrows⟩ :=
    RawStore.insertAll_eq_ok hsha hs hd (captured_eq_ok hcaptured)
  constructor
  · intro hfaithful
    -- an observation is told the row of its key, which says what the observation says
    have hequal : ∀ o ∈ d.observations, ∃ row ∈ s'.table.rows, row.Equals env o := by
      intro o ho
      obtain ⟨i, hi, rfl⟩ := List.getElem_of_mem ho
      have hnamed := hfaithful.named ids' (by rw [heq])
      have hlength : i < ids'.length := hnamed.length_eq ▸ hi
      obtain ⟨row, hrow, -, hrowo⟩ := hnamed.get hi hlength
      exact ⟨row, hafter ▸ hrow, hrowo⟩
    constructor
    · intro o ho row hrow hkey _
      obtain ⟨row', hrow', hequals⟩ := hequal o ho
      have hsame : row = row' :=
        RawStore.eq_of_key (hsub hrow) hrow' (hkey.trans hequals.1.symm)
      rw [hsame]
      exact hequals.2.2
    · refine List.Pairwise.imp_of_mem ?_ (List.pairwise_of_forall fun _ _ => trivial)
      intro o o' ho ho' _ hkey _
      obtain ⟨row, hrow, hequals⟩ := hequal o ho
      obtain ⟨row', hrow', hequals'⟩ := hequal o' ho'
      have hsame : row = row' :=
        RawStore.eq_of_key hrow hrow' (hequals.1.trans (hkey.trans hequals'.1.symm))
      rw [← hequals.2.2, hsame, hequals'.2.2]
  · intro hkeeps
    -- the row of an observation's key and payload has its labels, old or new
    have hlabels : ∀ o ∈ d.observations, ∀ row ∈ s'.table.rows, row.key = o.key →
        env.dumps o.rawPayload = some row.rawPayload → row.labels = o.labels := by
      intro o ho row hrow hkey hpayload
      rcases hrows row hrow with hold | ⟨o', ho', hpayload', hown⟩
      · exact hkeeps.1 o ho row hold hkey hpayload
      · have hagree : AgreeInLabels env o' o :=
          List.Pairwise.forall_of_forall (fun _ _ _ _ => rfl) hkeeps.2 ho' ho
        rw [hown] at hkey ⊢
        exact hagree hkey (hpayload'.trans hpayload.symm)
    have hnamed : List.Forall₂ (fun o id => ∃ row ∈ s'.table.rows,
        row.rawObservationId = id ∧ row.Equals env o) d.observations ids' := by
      refine List.forall₂_iff_get.mpr ⟨hheld.length_eq, fun i hi hi' => ?_⟩
      obtain ⟨row, hrow, hid, hkey, hpayload⟩ := hheld.get hi hi'
      exact ⟨row, hrow, hid, hkey, hpayload,
        hlabels _ (List.get_mem _ _) row hrow hkey hpayload⟩
    refine ⟨fun ids₀ hids => ?_, fun o ho row hrow hkey hne => absurd ?_ hne,
      fun e he => deliver_of_error he⟩
    · rw [heq] at hids
      rw [← Except.ok.inj hids, hafter]
      exact hnamed
    · obtain ⟨i, hi, rfl⟩ := List.getElem_of_mem ho
      obtain ⟨row', hrow', -, hequals⟩ := hnamed.get hi (hnamed.length_eq ▸ hi)
      have hsame : row = row' :=
        RawStore.eq_of_key (hsub hrow) hrow' (hkey.trans hequals.1.symm)
      rw [hsame]
      exact hequals

theorem faithful_of_keepsLabels (hkeeps : KeepsLabels s d) : Faithful s d := by
  rcases captureRaw_cases s d with ⟨ids, s', -, heq⟩ | ⟨e, heq⟩
  · exact (captureRaw_faithful_iff hsha hs hd (by rw [heq])).mpr hkeeps
  · refine ⟨fun ids h => ?_, fun _ _ _ _ _ _ => ⟨e, by rw [heq]⟩, fun _ h => deliver_of_error h⟩
    rw [heq] at h
    cases h

end Call

theorem each_faithful {texts : Set String} (hsha : Set.InjOn env.sha256 texts) :
    ∀ {s : RawStore env} {deliveries : List (Delivery P)}, s.Within texts →
      payloads env deliveries ⊆ texts → Run.Each deliver KeepsLabels s deliveries →
      Run.Each deliver Faithful s deliveries
  | _, [], _, _, _ => trivial
  | s, d :: deliveries, hs, hsub, hkeeps => by
      have hd : ∀ o ∈ d.observations, ∀ text,
          env.dumps o.rawPayload = some text → text ∈ texts :=
        fun o ho text h => hsub (mem_payloads List.mem_cons_self ho h)
      have hrest : payloads env deliveries ⊆ texts := by
        rintro text ⟨d', hd', o, ho, h⟩
        exact hsub (mem_payloads (List.mem_cons_of_mem _ hd') ho h)
      exact ⟨faithful_of_keepsLabels hsha hs hd hkeeps.1,
        each_faithful hsha (within_deliver hsha hs hd) hrest hkeeps.2⟩

/-- A run of `capture_raw` on a fresh table whose calls keep the labels is faithful at every
call, where the digest tells the payloads of the run apart. -/
theorem captureRaw_faithful (deliveries : List (Delivery P))
    (hsha : Set.InjOn env.sha256 (payloads env deliveries))
    (hkeeps : Run.Each deliver KeepsLabels (.empty : RawStore env) deliveries) :
    Run.Each deliver Faithful (.empty : RawStore env) deliveries :=
  each_faithful hsha (fun _ hrow => absurd hrow List.not_mem_nil) subset_rfl hkeeps

/-! ## A re-delivery under another symbol -/

def Env.sample : Env String where
  dumps := some
  sha256 := fun text =>
    if text = "{}" then "44136fa355b3678a1146ad16f7e8649e94fb4fc21fe77e8310c060f61caaff8a" else text
  storesText := fun text => text.toList.all fun ch => ch.toNat != 0
  storesJson := fun text => text.toList.all fun ch => ch.toNat != 0

def sampleSplit (symbol : String) (ingestedAt : ℤ) (id : UUID) : RawHistoricalObservation String where
  sourceId := 1
  observationKind := .split
  providerIdentifier := "isin-1"
  providerSymbol := symbol
  exchange := "XNAS"
  eventAt := .aware 10
  effectiveAt := .aware 10
  ingestedAt := .aware ingestedAt
  adjustmentStatus := .raw
  revision := 0
  provenanceUri := "file://splits"
  rawPayload := "{}"
  rawObservationId := id

def sampleDelivery (symbol : String) (ingestedAt : ℤ) (id : UUID) : Delivery String :=
  ⟨[sampleSplit symbol ingestedAt id], fun _ _ => true⟩

theorem captureRaw_faithful_redelivery :
    Run.Each deliver Faithful (.empty : RawStore Env.sample)
      [sampleDelivery "FB" 20 1, sampleDelivery "FB" 30 2] := by
  refine captureRaw_faithful _ ?_ (by decide)
  -- one payload is captured
  have hone : ∀ text ∈ payloads Env.sample [sampleDelivery "FB" 20 1, sampleDelivery "FB" 30 2],
      text = "{}" := by
    rintro text ⟨d, hd, o, ho, h⟩
    simp only [List.mem_cons, List.not_mem_nil, or_false] at hd
    rcases hd with rfl | rfl <;>
    · rw [List.mem_singleton.mp ho] at h
      exact (Option.some.inj h).symm
  intro a ha b hb _
  rw [hone a ha, hone b hb]

/-- The second capture comes under another symbol, and is told the id of the first. -/
theorem relabelled_redelivery_returns_first :
    ¬ Run.Each deliver Faithful (.empty : RawStore Env.sample)
      [sampleDelivery "FB" 20 1, sampleDelivery "META" 30 2] := by
  intro h
  have hnamed := h.2.1.named [1] (by rfl)
  obtain ⟨row, hrow, -, hequals⟩ := hnamed.get (i := 0) (by decide) (by decide)
  have hrow' : row = (sampleSplit "FB" 20 1).row Env.sample "{}" := List.mem_singleton.mp hrow
  rw [hrow'] at hequals
  exact absurd hequals.2.2 (by decide)

end TradePlatform.RawCapture
