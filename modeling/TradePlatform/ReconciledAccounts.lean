/-
# `TradePlatform.ReconciledAccounts` — the account evidence known at a decision

The reconciliation tables of `SQLitePaperOms`.  `record_reconciliation_with_account`
writes a run and, when it is complete, the account it reconciled;
`latest_reconciled_account` reads the evidence a decision may use.  A timestamp column
holds the `isoformat()` text of an aware timestamp, which determines it
(`isoformat_injective`), so a row keeps the timestamp; the query compares and orders the
texts.  Naive timestamps, which both methods refuse, are not represented.
-/
import TradePlatform.PaperExecution
import TradePlatform.Lib.IsoText
import TradePlatform.Lib.LastWriter
import TradePlatform.Lib.Run

namespace TradePlatform

open IsoText (Stamp)

structure ReconciliationResult where
  complete : Bool
  discrepancies : List String
deriving DecidableEq

structure BrokerAccountSnapshot where
  accountId : String
  source : String
  asOf : Stamp
  cash : CashBalance
  buyingPower : Decimal
  positions : List Position
  openIntentIds : List UUID
  fillIds : List String
  realizedPnl : Decimal
  fees : Decimal
deriving DecidableEq

structure RecordedReconciliation where
  runId : UUID
  accountId : String
  source : String
  occurredAt : Stamp
  complete : Bool
  discrepancies : List String
deriving DecidableEq

structure RecordedReconciledAccount where
  evidenceId : UUID
  reconciliationId : UUID
  snapshot : BrokerAccountSnapshot
  healthy : Bool
  ingestedAt : Stamp
deriving DecidableEq

/-- `paper_reconciliation_runs` and `paper_reconciled_accounts`, rows in `rowid` order. -/
structure ReconciliationTables where
  runs : List RecordedReconciliation
  accounts : List RecordedReconciledAccount
deriving DecidableEq

/-- One call of `record_reconciliation_with_account`, with the two `uuid4()` it draws. -/
structure ReconciliationCall where
  runId : UUID
  evidenceId : UUID
  snapshot : BrokerAccountSnapshot
  result : ReconciliationResult
  healthy : Bool
  ingestedAt : Stamp
deriving DecidableEq

namespace ReconciliationCall

variable (call : ReconciliationCall)

def record : RecordedReconciliation :=
  ⟨call.runId, call.snapshot.accountId, call.snapshot.source, call.snapshot.asOf,
    call.result.complete, call.result.discrepancies⟩

def evidence : RecordedReconciledAccount :=
  ⟨call.evidenceId, call.runId, call.snapshot, call.healthy, call.ingestedAt⟩

def StampedIn (S : Set Stamp) : Prop := call.snapshot.asOf ∈ S ∧ call.ingestedAt ∈ S

end ReconciliationCall

namespace ReconciliationTables

variable (s : ReconciliationTables) (call : ReconciliationCall)

/-- `record_reconciliation_with_account`: one transaction, in which a repeated key is an
`IntegrityError`. -/
def recordReconciliationWithAccount :
    Except Exn (RecordedReconciliation × Option RecordedReconciledAccount × ReconciliationTables) :=
  if blank call.snapshot.accountId ∨ blank call.snapshot.source
      ∨ call.ingestedAt.instant < call.snapshot.asOf.instant then
    .error (.paperOmsError "invalid_reconciled_account_snapshot")
  else if call.runId ∈ s.runs.map (·.runId) then
    .error (.paperOmsError "reconciled_account_transaction_failed")
  else if call.result.complete = false then
    .ok (call.record, none, { s with runs := s.runs ++ [call.record] })
  else if call.evidenceId ∈ s.accounts.map (·.evidenceId)
      ∨ call.runId ∈ s.accounts.map (·.reconciliationId) then
    .error (.paperOmsError "reconciled_account_transaction_failed")
  else
    .ok (call.record, some call.evidence, ⟨s.runs ++ [call.record], s.accounts ++ [call.evidence]⟩)

def step : ReconciliationTables :=
  match s.recordReconciliationWithAccount call with
  | .ok (_, _, s') => s'
  | .error _ => s

def after (calls : List ReconciliationCall) : ReconciliationTables := Run.exec step ⟨[], []⟩ calls

variable (accountId : String) (decisionAt : Stamp)

/-- The `WHERE` of the query: every comparison is of texts. -/
def Selected (row : RecordedReconciledAccount) : Prop :=
  row.snapshot.accountId = accountId ∧ row.ingestedAt.isoformat ≤ decisionAt.isoformat
    ∧ row.snapshot.asOf.isoformat ≤ decisionAt.isoformat

instance (row : RecordedReconciledAccount) : Decidable (Selected accountId decisionAt row) :=
  inferInstanceAs (Decidable (_ ∧ _))

def queryRank (row : RecordedReconciledAccount) : List Char ×ₗ List Char :=
  toLex (row.snapshot.asOf.isoformat, row.ingestedAt.isoformat)

/-- `latest_reconciled_account`: of the selected rows the one of greatest rank, and of two
of one rank the one with the greater `rowid`. -/
def latestReconciledAccount : Option RecordedReconciledAccount :=
  LastWriter.best queryRank
    (s.accounts.reverse.filter fun row => decide (Selected accountId decisionAt row))

/-! ## The evidence as of an instant -/

def Visible (row : RecordedReconciledAccount) : Prop :=
  row.snapshot.accountId = accountId ∧ row.ingestedAt.instant ≤ decisionAt.instant
    ∧ row.snapshot.asOf.instant ≤ decisionAt.instant

/-- An answer is visible at the decision, and whenever evidence is visible the answer is
as recent as any of it. -/
structure PointInTime (rows : List RecordedReconciledAccount) (accountId : String)
    (decisionAt : Stamp) (answer : Option RecordedReconciledAccount) : Prop where
  visible : ∀ r ∈ answer, r ∈ rows ∧ Visible accountId decisionAt r
  latest : ∀ row ∈ rows, Visible accountId decisionAt row →
    ∃ r ∈ answer, row.snapshot.asOf.instant ≤ r.snapshot.asOf.instant

/-- Texts of timestamps in `S` are ordered as the instants are. -/
def TextFollowsTime (S : Set Stamp) : Prop :=
  ∀ x ∈ S, ∀ y ∈ S, x.isoformat ≤ y.isoformat ↔ x.instant ≤ y.instant

/-! ## What the calls write -/

variable {s call accountId decisionAt}

theorem accounts_step :
    (s.step call).accounts = s.accounts ∨
      (s.step call).accounts = s.accounts ++ [call.evidence] := by
  simp only [step, recordReconciliationWithAccount]
  split_ifs <;> simp

theorem stamped_after {S : Set Stamp} {calls : List ReconciliationCall}
    (h : ∀ call ∈ calls, call.StampedIn S) {row : RecordedReconciledAccount}
    (hrow : row ∈ (after calls).accounts) : row.snapshot.asOf ∈ S ∧ row.ingestedAt ∈ S := by
  induction calls using List.reverseRecOn generalizing row with
  | nil => cases hrow
  | append_singleton calls call ih =>
      have hlast : after (calls ++ [call]) = (after calls).step call := by
        simp [after, Run.exec, List.foldl_append]
      have hcall : call.StampedIn S := h call (by simp)
      have hcalls : ∀ c ∈ calls, c.StampedIn S := fun c hc => h c (List.mem_append_left _ hc)
      rw [hlast] at hrow
      have hstep : ((after calls).step call).accounts = (after calls).accounts ∨
          ((after calls).step call).accounts = (after calls).accounts ++ [call.evidence] :=
        accounts_step
      rcases hstep with heq | heq
      · rw [heq] at hrow
        exact ih hcalls hrow
      · rw [heq] at hrow
        rcases List.mem_append.mp hrow with hold | hnew
        · exact ih hcalls hold
        · rw [List.mem_singleton.mp hnew]
          exact hcall

/-! ## The query -/

theorem mem_selected {row : RecordedReconciledAccount} :
    row ∈ s.accounts.reverse.filter (fun row => decide (Selected accountId decisionAt row)) ↔
      row ∈ s.accounts ∧ Selected accountId decisionAt row := by
  simp

theorem latestReconciledAccount_eq_some {r : RecordedReconciledAccount}
    (h : s.latestReconciledAccount accountId decisionAt = some r) :
    r ∈ s.accounts ∧ Selected accountId decisionAt r ∧
      ∀ row ∈ s.accounts, Selected accountId decisionAt row →
        row.snapshot.asOf.isoformat ≤ r.snapshot.asOf.isoformat := by
  obtain ⟨hr, htop⟩ := LastWriter.best_eq_some h
  obtain ⟨hmem, hsel⟩ := mem_selected.mp hr
  refine ⟨hmem, hsel, fun row hrow hs => ?_⟩
  rcases (Prod.Lex.le_iff ..).mp (htop row (mem_selected.mpr ⟨hrow, hs⟩)) with hlt | ⟨heq, _⟩
  · exact hlt.le
  · exact heq.le

theorem latestReconciledAccount_eq_none :
    s.latestReconciledAccount accountId decisionAt = none ↔
      ∀ row ∈ s.accounts, ¬ Selected accountId decisionAt row := by
  rw [latestReconciledAccount, LastWriter.best_eq_none, List.eq_nil_iff_forall_not_mem]
  simp only [mem_selected, not_and]

theorem selected_iff_visible {S : Set Stamp} (hS : TextFollowsTime S)
    {row : RecordedReconciledAccount} (hrow : row.snapshot.asOf ∈ S ∧ row.ingestedAt ∈ S)
    (ht : decisionAt ∈ S) :
    Selected accountId decisionAt row ↔ Visible accountId decisionAt row := by
  simp only [Selected, Visible, hS _ hrow.1 _ ht, hS _ hrow.2 _ ht]

theorem pointInTime_of_textFollowsTime {S : Set Stamp} (hS : TextFollowsTime S)
    (hrows : ∀ row ∈ s.accounts, row.snapshot.asOf ∈ S ∧ row.ingestedAt ∈ S)
    (ht : decisionAt ∈ S) :
    PointInTime s.accounts accountId decisionAt
      (s.latestReconciledAccount accountId decisionAt) := by
  constructor
  · intro r hr
    obtain ⟨hmem, hsel, _⟩ := latestReconciledAccount_eq_some hr
    exact ⟨hmem, (selected_iff_visible hS (hrows r hmem) ht).mp hsel⟩
  · intro row hrow hvis
    have hsel := (selected_iff_visible hS (hrows row hrow) ht).mpr hvis
    cases ha : s.latestReconciledAccount accountId decisionAt with
    | none => exact absurd hsel (latestReconciledAccount_eq_none.mp ha row hrow)
    | some r =>
        obtain ⟨hmem, _, htop⟩ := latestReconciledAccount_eq_some ha
        have hle := htop row hrow hsel
        exact ⟨r, rfl, (hS _ (hrows row hrow).1 _ (hrows r hmem).1).mp hle⟩

/-! ## One record -/

def recordedAt (x : Stamp) : ReconciliationCall where
  runId := 1
  evidenceId := 2
  snapshot := ⟨"paper", "broker", x, ⟨"USD", 1000⟩, 1000, [], [], [], 0, 0⟩
  result := ⟨true, []⟩
  healthy := true
  ingestedAt := x

theorem accounts_recordedAt (x : Stamp) :
    (after [recordedAt x]).accounts = [(recordedAt x).evidence] := by
  have hacc : blank "paper" = false := by decide
  have hsrc : blank "broker" = false := by decide
  simp [after, step, recordReconciliationWithAccount, recordedAt, hacc, hsrc]

/-- With one record, the answer is right precisely when the two texts compare as the two
instants do. -/
theorem textFollowsTime_of_pointInTime {x y : Stamp}
    (h : PointInTime (after [recordedAt x]).accounts "paper" y
      ((after [recordedAt x]).latestReconciledAccount "paper" y)) :
    x.isoformat ≤ y.isoformat ↔ x.instant ≤ y.instant := by
  have hrow : (recordedAt x).evidence ∈ (after [recordedAt x]).accounts := by
    rw [accounts_recordedAt]
    exact List.mem_singleton_self _
  constructor
  · intro hle
    have hsel : Selected "paper" y (recordedAt x).evidence := ⟨rfl, hle, hle⟩
    cases ha : (after [recordedAt x]).latestReconciledAccount "paper" y with
    | none => exact absurd hsel (latestReconciledAccount_eq_none.mp ha _ hrow)
    | some r =>
        obtain ⟨hmem, hvis⟩ := h.visible r ha
        rw [accounts_recordedAt, List.mem_singleton] at hmem
        rw [hmem] at hvis
        exact hvis.2.2
  · intro hle
    obtain ⟨r, ha, _⟩ := h.latest _ hrow ⟨rfl, hle, hle⟩
    obtain ⟨hmem, hsel, _⟩ := latestReconciledAccount_eq_some ha
    rw [accounts_recordedAt, List.mem_singleton] at hmem
    rw [hmem] at hsel
    exact hsel.2.2

/-- Over the timestamps in use, every answer after every list of calls is the evidence as
of its decision time, precisely when their texts follow time. -/
theorem latest_reconciled_account_iff_text_follows_time (S : Set Stamp) :
    (∀ calls : List ReconciliationCall, (∀ call ∈ calls, call.StampedIn S) →
      ∀ (accountId : String), ∀ decisionAt ∈ S,
        PointInTime (after calls).accounts accountId decisionAt
          ((after calls).latestReconciledAccount accountId decisionAt))
      ↔ TextFollowsTime S := by
  constructor
  · intro h x hx y hy
    refine textFollowsTime_of_pointInTime (h [recordedAt x] ?_ "paper" y hy)
    intro call hcall
    rw [List.mem_singleton.mp hcall]
    exact ⟨hx, hx⟩
  · intro hS calls hcalls accountId decisionAt ht
    exact pointInTime_of_textFollowsTime hS (fun row hrow => stamped_after hcalls hrow) ht

def morningInNewYork : Stamp := .ofShown 2026 1 5 10 0 0 0 (-18000000000)

def noonUtc : Stamp := .ofShown 2026 1 5 12 0 0 0 0

/-- A decision at noon is given evidence of three hours later. -/
theorem look_ahead_across_offsets :
    ∃ calls : List ReconciliationCall, ∃ r : RecordedReconciledAccount,
      (after calls).latestReconciledAccount "paper" noonUtc = some r ∧
        noonUtc.instant < r.snapshot.asOf.instant ∧ noonUtc.instant < r.ingestedAt.instant :=
  ⟨[recordedAt morningInNewYork], (recordedAt morningInNewYork).evidence, by decide +kernel,
    by decide +kernel, by decide +kernel⟩

end ReconciliationTables

end TradePlatform
