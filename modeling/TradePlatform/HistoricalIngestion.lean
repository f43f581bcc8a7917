/-
# `TradePlatform.HistoricalIngestion` — pages of raw evidence, captured and resumed

`ingest_raw_historical_pages` of `provider_ingestion.py`: an attempt fetches the pages of an
adapter one after another and captures the records of each; where it fails it returns a
checkpoint with the cursor it had come to, and the next attempt resumes there.  The adapter
and the sink are those of the attempt: each may fail at any page, and a capture that fails may
have kept some of the records.

`pages_settled` and `resumed_settled` are the rules for attempts: what is kept from page to
page at the cursor is true of every checkpoint of a failed attempt, and what the last page
leaves behind is true when an attempt completes.
-/
import TradePlatform.RawHistoricalCapture

namespace TradePlatform.HistoricalIngestion

open RawCapture (RawHistoricalObservation)

/-! ## Pages, requests and checkpoints -/

structure RawHistoricalPage (P : Type) where
  records : List (RawHistoricalObservation P)
  nextCursor : Option String
  providerVersion : String
  retrievedAt : DateTime

inductive ProviderOperationalStatus where
  | healthy | stale | error
deriving DecidableEq, Repr

structure HistoricalIngestionRequest where
  sourceId : UUID
  adapterName : String
  maximumPages : ℤ
  resumeCursor : Option String
  staleAfter : ℤ

structure ProviderIngestionCheckpoint where
  sourceId : UUID
  adapterName : String
  state : ProviderOperationalStatus
  providerVersion : Option String
  resumeCursor : Option String
  capturedCount : ℕ
  errorCode : Option String
  recordedAt : ℤ
deriving DecidableEq

structure HistoricalIngestionOutcome where
  state : ProviderOperationalStatus
  checkpoint : ProviderIngestionCheckpoint
  capturedRawIds : List UUID
deriving DecidableEq

def refuse {α : Type} (message : String) : Except Exn α := .error (.providerIngestionError message)

def requireText (value name : String) : Except Exn Unit :=
  if blank value = true then refuse s!"invalid_{name}" else .ok ()

def blankCursor : Option String → Bool
  | none => false
  | some cursor => blank cursor

def HistoricalIngestionRequest.validate (request : HistoricalIngestionRequest) :
    Except Exn Unit :=
  if request.maximumPages < 1 then refuse "maximum_pages_must_be_positive"
  else if blankCursor request.resumeCursor = true then refuse "invalid_resume_cursor"
  else if request.staleAfter < 0 then refuse "stale_after_must_not_be_negative"
  else .ok ()

def ProviderIngestionCheckpoint.validate (checkpoint : ProviderIngestionCheckpoint) :
    Except Exn Unit := do
  requireText checkpoint.adapterName "adapter_name"
  match checkpoint.providerVersion with
  | none => pure ()
  | some version => requireText version "provider_version"
  if blankCursor checkpoint.resumeCursor = true then refuse "invalid_checkpoint_cursor"
  else if checkpoint.state = .error then
    if checkpoint.errorCode.getD "" = "" then refuse "error_checkpoint_requires_error_code"
    else .ok ()
  else if checkpoint.errorCode ≠ none then refuse "non_error_checkpoint_has_error_code"
  else .ok ()

variable {P : Type}

def RawHistoricalPage.validate (env : RawCapture.Env P) (page : RawHistoricalPage P)
    (sourceId : UUID) : Except Exn Unit := do
  requireText page.providerVersion "provider_version"
  if page.retrievedAt.isAware = false then refuse "page_retrieved_at_must_be_timezone_aware"
  else if blankCursor page.nextCursor = true then refuse "invalid_provider_page_cursor"
  else
    page.records.forM fun record =>
      if record.sourceId ≠ sourceId then refuse "provider_page_source_mismatch"
      else record.validate env

/-! ## An attempt -/

/-- What `capture_raw` does with a page: it stores the records, or it raises and has kept
those that `kept` names. -/
inductive CaptureResult (P : Type) where
  | stored (ids : List UUID)
  | fails (error : Exn) (kept : RawHistoricalObservation P → Bool)

/-- What the sink was given: the records of each page that succeeded, and those that failed
captures kept. -/
structure CaptureLog (P : Type) where
  succeeded : List (List (RawHistoricalObservation P))
  interrupted : List (RawHistoricalObservation P)

namespace CaptureLog

def empty : CaptureLog P := ⟨[], []⟩

def add (log : CaptureLog P) (records : List (RawHistoricalObservation P)) : CaptureLog P :=
  ⟨log.succeeded ++ [records], log.interrupted⟩

def interrupt (log : CaptureLog P) (records : List (RawHistoricalObservation P)) :
    CaptureLog P :=
  ⟨log.succeeded, log.interrupted ++ records⟩

end CaptureLog

/-- What an attempt meets: the time its clock gives, and what the adapter and the sink do at
each of its pages. -/
structure Attempt (P : Type) where
  checkedAt : DateTime
  maximumPages : ℤ
  staleAfter : ℤ
  fetch : ℕ → Option String → Except Exn (RawHistoricalPage P)
  capture : ℕ → CaptureResult P

structure IngestionState (P : Type) where
  cursor : Option String
  seenCursors : List String
  captured : List UUID
  providerVersion : Option String
  latestRetrievedAt : Option DateTime
  log : CaptureLog P

def caughtText? : Exn → Option String
  | .providerError message => some message
  | .historicalMarketDataError message => some message
  | .providerIngestionError message => some message
  | _ => none

section Loop

variable (env : RawCapture.Env P) (attempt : Attempt P) (request : HistoricalIngestionRequest)
  (checkedAt : ℤ)

def outcome (s : IngestionState P) (state : ProviderOperationalStatus)
    (errorCode : Option String) : Except Exn HistoricalIngestionOutcome := do
  let checkpoint : ProviderIngestionCheckpoint :=
    { sourceId := request.sourceId
      adapterName := request.adapterName
      state
      providerVersion := s.providerVersion
      resumeCursor := s.cursor
      capturedCount := s.captured.length
      errorCode
      recordedAt := checkedAt }
  checkpoint.validate
  return ⟨state, checkpoint, s.captured⟩

/-- `except (ProviderError, HistoricalMarketDataError, ProviderIngestionError)`. -/
def caught (s : IngestionState P) (error : Exn) : Except Exn HistoricalIngestionOutcome :=
  match caughtText? error with
  | some text => outcome request checkedAt s .error (some text)
  | none => .error error

def fetchPage (n : ℕ) (cursor : Option String) : Except Exn (RawHistoricalPage P) := do
  let page ← attempt.fetch n cursor
  page.validate env request.sourceId
  return page

/-- The rest of the `try`: the version and the time of the page, and the capture of its
records where it has any. -/
def capturePage (n : ℕ) (page : RawHistoricalPage P) (s : IngestionState P) :
    Option Exn × IngestionState P :=
  let s := { s with
    providerVersion := some page.providerVersion, latestRetrievedAt := some page.retrievedAt }
  if page.records.isEmpty = true then (none, s)
  else
    match attempt.capture n with
    | .stored ids =>
        (none, { s with captured := s.captured ++ ids, log := s.log.add page.records })
    | .fails error kept =>
        (some error, { s with log := s.log.interrupt (page.records.filter kept) })

/-- `checked_at - latest_retrieved_at > request.stale_after`. -/
def isStale (s : IngestionState P) : Bool :=
  match s.latestRetrievedAt with
  | some (.aware retrievedAt) => decide (checkedAt - retrievedAt > request.staleAfter)
  | _ => false

def complete (s : IngestionState P) : Except Exn HistoricalIngestionOutcome :=
  let state := if isStale request checkedAt s = true then .stale else .healthy
  outcome request checkedAt { s with cursor := none } state none

def pages : ℕ → ℕ → IngestionState P → Except Exn HistoricalIngestionOutcome × CaptureLog P
  | 0, _, s =>
      (outcome request checkedAt s .error (some "provider_pagination_limit_exceeded"), s.log)
  | left + 1, n, s =>
      match fetchPage env attempt request n s.cursor with
      | .error error => (caught request checkedAt s error, s.log)
      | .ok page =>
          match capturePage attempt n page s with
          | (some error, s) => (caught request checkedAt s error, s.log)
          | (none, s) =>
              match page.nextCursor with
              | none => (complete request checkedAt s, s.log)
              | some next =>
                  if next ∈ s.seenCursors then
                    (outcome request checkedAt s .error (some "provider_pagination_cursor_loop"),
                      s.log)
                  else
                    pages left (n + 1)
                      { s with cursor := some next, seenCursors := next :: s.seenCursors }

end Loop

def ingestRawHistoricalPages (env : RawCapture.Env P) (attempt : Attempt P)
    (request : HistoricalIngestionRequest) (log : CaptureLog P) :
    Except Exn HistoricalIngestionOutcome × CaptureLog P :=
  match (do request.validate; requireText request.adapterName "adapter_name" :
      Except Exn Unit), attempt.checkedAt with
  | .error error, _ => (.error error, log)
  | .ok _, .naive _ => (refuse "ingestion_checked_at_must_be_timezone_aware", log)
  | .ok _, .aware checkedAt =>
      pages env attempt request checkedAt request.maximumPages.toNat 0
        ⟨request.resumeCursor, [], [], none, none, log⟩

/-! ## Attempts that resume -/

/-- What the attempts so far have left: the cursor to resume from, as long as no attempt has
completed or raised, the log of the sink, and the outcomes that were returned. -/
structure Ingestion (P : Type) where
  resumeFrom : Option (Option String)
  log : CaptureLog P
  outcomes : List HistoricalIngestionOutcome

def Ingestion.start : Ingestion P := ⟨some none, .empty, []⟩

def resume (env : RawCapture.Env P) (sourceId : UUID) (adapterName : String) (s : Ingestion P)
    (attempt : Attempt P) : Ingestion P :=
  match s.resumeFrom with
  | none => s
  | some cursor =>
      let request : HistoricalIngestionRequest :=
        ⟨sourceId, adapterName, attempt.maximumPages, cursor, attempt.staleAfter⟩
      match ingestRawHistoricalPages env attempt request s.log with
      | (.error _, log) => ⟨none, log, s.outcomes⟩
      | (.ok outcome, log) =>
          ⟨if outcome.state = .error then some outcome.checkpoint.resumeCursor else none, log,
            s.outcomes ++ [outcome]⟩

/-! ## The rules -/

section Rules

variable {env : RawCapture.Env P} {attempt : Attempt P} {request : HistoricalIngestionRequest}
  {checkedAt : ℤ} {rank : Option String → ℤ} {I : Option String → CaptureLog P → Prop}
  {F : CaptureLog P → Prop}

/-- What a page of the attempt does: it may be fetched and not captured, and then the cursor
stays; or its records are captured, and the cursor moves down or the pages are complete. -/
def Turns (env : RawCapture.Env P) (attempt : Attempt P) (request : HistoricalIngestionRequest)
    (rank : Option String → ℤ) (I : Option String → CaptureLog P → Prop)
    (F : CaptureLog P → Prop) : Prop :=
  ∀ n cursor log page, I cursor log → fetchPage env attempt request n cursor = .ok page →
    (∀ kept, I cursor (log.interrupt (page.records.filter kept))) ∧
    ∀ log', log' = log.add page.records ∨ page.records = [] ∧ log' = log →
      match page.nextCursor with
      | none => F log'
      | some next => I (some next) log' ∧ rank (some next) < rank cursor

/-- A failed attempt returns a cursor at which `I` holds, and a completed one leaves `F`. -/
def Settled (I : Option String → CaptureLog P → Prop) (F : CaptureLog P → Prop)
    (result : Except Exn HistoricalIngestionOutcome × CaptureLog P) : Prop :=
  ∀ o, result.1 = .ok o →
    if o.state = .error then I o.checkpoint.resumeCursor result.2
    else F result.2 ∧ o.checkpoint.resumeCursor = none

theorem outcome_eq_ok {s : IngestionState P} {state : ProviderOperationalStatus}
    {errorCode : Option String} {o : HistoricalIngestionOutcome}
    (h : outcome request checkedAt s state errorCode = .ok o) :
    o.state = state ∧ o.checkpoint.resumeCursor = s.cursor := by
  obtain ⟨_, _, h⟩ := Except.bind_eq_ok.mp h
  cases h
  exact ⟨rfl, rfl⟩

theorem outcome_settled {s : IngestionState P} {errorCode : Option String}
    (h : I s.cursor s.log) :
    Settled I F (outcome request checkedAt s .error errorCode, s.log) := by
  intro o ho
  obtain ⟨hstate, hcursor⟩ := outcome_eq_ok ho
  rw [if_pos hstate, hcursor]
  exact h

theorem caught_settled {s : IngestionState P} {error : Exn} (h : I s.cursor s.log) :
    Settled I F (caught request checkedAt s error, s.log) := by
  unfold caught
  split
  · exact outcome_settled h
  · intro o ho
    cases ho

theorem complete_settled {s : IngestionState P} (h : F s.log) :
    Settled I F (complete request checkedAt s, s.log) := by
  intro o ho
  obtain ⟨hstate, hcursor⟩ := outcome_eq_ok ho
  have hne : o.state ≠ .error := by
    rw [hstate]
    split <;> exact fun h => nomatch h
  rw [if_neg hne]
  exact ⟨h, hcursor⟩

theorem capturePage_cases {n : ℕ} {page : RawHistoricalPage P} {s s' : IngestionState P}
    {error : Option Exn} (h : capturePage attempt n page s = (error, s')) :
    s'.cursor = s.cursor ∧ s'.seenCursors = s.seenCursors ∧
      ((error = none ∧ (s'.log = s.log.add page.records ∨ page.records = [] ∧ s'.log = s.log)) ∨
        error ≠ none ∧ ∃ kept, s'.log = s.log.interrupt (page.records.filter kept)) := by
  unfold capturePage at h
  split at h
  · rename_i hempty
    cases h
    exact ⟨rfl, rfl, .inl ⟨rfl, .inr ⟨List.isEmpty_iff.mp hempty, rfl⟩⟩⟩
  · split at h
    · cases h
      exact ⟨rfl, rfl, .inl ⟨rfl, .inl rfl⟩⟩
    · rename_i error kept hcapture
      cases h
      exact ⟨rfl, rfl, .inr ⟨Option.some_ne_none _, kept, rfl⟩⟩

/-- The loop settles: what the turns keep is kept by it.  No cursor is seen twice, since each
ranks below the ones before it. -/
theorem pages_settled (hturns : Turns env attempt request rank I F) (left n : ℕ)
    {s : IngestionState P} (h : I s.cursor s.log)
    (hseen : ∀ seen ∈ s.seenCursors, rank s.cursor ≤ rank (some seen)) :
    Settled I F (pages env attempt request checkedAt left n s) := by
  induction left generalizing n s with
  | zero => exact outcome_settled h
  | succ left ih =>
      rw [pages]
      split
      · exact caught_settled h
      · rename_i page hfetch
        obtain ⟨hinterrupt, hnext⟩ := hturns n s.cursor s.log page h hfetch
        split
        · rename_i error s' hcapture
          obtain ⟨hcursor, hsame, ⟨hnone, -⟩ | ⟨-, kept, hlog⟩⟩ := capturePage_cases hcapture
          · cases hnone
          · refine caught_settled ?_
            rw [hcursor, hlog]
            exact hinterrupt kept
        · rename_i s' hcapture
          obtain ⟨hcursor, hsame, ⟨-, hlog⟩ | ⟨hsome, -⟩⟩ := capturePage_cases hcapture
          · have hturn := hnext s'.log hlog
            split
            · rename_i hlast
              rw [hlast] at hturn
              exact complete_settled hturn
            · rename_i next hmore
              rw [hmore] at hturn
              have hbelow : ∀ seen ∈ s'.seenCursors, rank (some next) < rank (some seen) := by
                intro seen hmem
                rw [hsame] at hmem
                exact hturn.2.trans_le (hseen seen hmem)
              split
              · rename_i hloop
                exact absurd (hbelow next hloop) (lt_irrefl _)
              · refine ih (n + 1) hturn.1 fun seen hmem => ?_
                rcases List.mem_cons.mp hmem with rfl | hmem
                · exact le_rfl
                · exact (hbelow seen hmem).le
          · exact absurd rfl hsome

theorem ingest_settled (hturns : Turns env attempt request rank I F) {log : CaptureLog P}
    (h : I request.resumeCursor log) :
    Settled I F (ingestRawHistoricalPages env attempt request log) := by
  unfold ingestRawHistoricalPages
  split
  · intro o ho
    cases ho
  · intro o ho
    cases ho
  · exact pages_settled hturns _ 0 h fun _ hmem => absurd hmem List.not_mem_nil

/-! ### Attempts one after another -/

variable {sourceId : UUID} {adapterName : String} {s : Ingestion P}

/-- Whatever has been returned: a checkpoint of a failed attempt names a cursor that `Named`
describes, a completed one none; a cursor to resume from is one at which `I` holds, and a
completed last attempt left `F`. -/
structure Resumes (Named : Option String → Prop) (I : Option String → CaptureLog P → Prop)
    (F : CaptureLog P → Prop) (s : Ingestion P) : Prop where
  inv : ∀ cursor, s.resumeFrom = some cursor → I cursor s.log
  named : ∀ o ∈ s.outcomes, Named o.checkpoint.resumeCursor
  final : ∀ o ∈ s.outcomes, o.state ≠ .error → F s.log
  open_ : s.resumeFrom ≠ none → ∀ o ∈ s.outcomes, o.state = .error

theorem Resumes.step {Named : Option String → Prop} (hnone : Named none)
    (hnamed : ∀ cursor log, I cursor log → Named cursor)
    (hturns : ∀ request, Turns env attempt request rank I F) (h : Resumes Named I F s) :
    Resumes Named I F (resume env sourceId adapterName s attempt) := by
  unfold resume
  split
  · exact h
  · rename_i cursor hresume
    have hsettled := ingest_settled (hturns
      ⟨sourceId, adapterName, attempt.maximumPages, cursor, attempt.staleAfter⟩)
      (h.inv cursor hresume)
    have herrors := h.open_ (by rw [hresume]; exact Option.some_ne_none _)
    dsimp only
    split
    · refine ⟨fun _ h => ?_, h.named, fun o ho hne => absurd (herrors o ho) hne, fun h => ?_⟩
      · cases h
      · exact absurd rfl h
    · rename_i o log hingest
      have ho := hsettled o (congrArg Prod.fst hingest)
      rw [hingest] at ho
      by_cases herror : o.state = .error
      · rw [if_pos herror] at ho
        simp only [if_pos herror]
        have hall : ∀ o' ∈ s.outcomes ++ [o], o'.state = .error :=
          List.forall_mem_append.mpr ⟨herrors, List.forall_mem_singleton.mpr herror⟩
        refine ⟨fun cursor hcursor => ?_, ?_, fun o' ho' hne => absurd (hall o' ho') hne,
          fun _ => hall⟩
        · cases hcursor
          exact ho
        · exact List.forall_mem_append.mpr ⟨h.named,
            List.forall_mem_singleton.mpr (hnamed _ _ ho)⟩
      · rw [if_neg herror] at ho
        simp only [if_neg herror]
        refine ⟨fun _ h => ?_, ?_, fun _ _ _ => ho.1, fun h => absurd rfl h⟩
        · cases h
        · refine List.forall_mem_append.mpr ⟨h.named, List.forall_mem_singleton.mpr ?_⟩
          rw [ho.2]
          exact hnone

end Rules

end TradePlatform.HistoricalIngestion
