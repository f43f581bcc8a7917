/-
# `TradePlatform.CaptureSealing` — what a sealed partition lets a replay prove

Calls on a fresh writer keep its declarations and its summary of the records in step with
what was appended, so that a sealed partition is COMPLETE.  Its replay goes through exactly
when every record lies in the window that claims it, of which the writer checks the first
and the last only.
-/
import TradePlatform.CapturePartitionStatus
import TradePlatform.Lib.Run

namespace TradePlatform

namespace CaptureArchive

open JsonLines

/-! ## Calls and what they claim -/

inductive PartitionCall where
  | appendRecord (record : FirstPartyCaptureRecordV1)
  | appendLifecycle (event : CaptureLifecycleEventV1)
  | declareCoverage (interval : CaptureCoverageIntervalV1)
  | declareGap (gap : CaptureGapV1)

def CapturePartitionWriterV1.call (codec : ArchiveCodec) (writer : CapturePartitionWriterV1) :
    PartitionCall → Except Exn CapturePartitionWriterV1
  | .appendRecord record => (writer.appendRecord codec record).map Prod.fst
  | .appendLifecycle event => writer.appendLifecycle codec event
  | .declareCoverage interval => writer.declareCoverage interval
  | .declareGap gap => writer.declareGap gap

structure Ledger where
  claims : List (List FirstPartyCaptureRecordV1 × CaptureCoverageIntervalV1) := []
  pending : List FirstPartyCaptureRecordV1 := []

namespace Ledger

def add (ledger : Ledger) : PartitionCall → Ledger
  | .appendRecord record => { ledger with pending := ledger.pending ++ [record] }
  | .declareCoverage interval => ⟨ledger.claims ++ [(ledger.pending, interval)], []⟩
  | .appendLifecycle _ | .declareGap _ => ledger

def records (ledger : Ledger) : List FirstPartyCaptureRecordV1 :=
  ledger.claims.flatMap Prod.fst ++ ledger.pending

@[simp] theorem add_appendLifecycle (ledger : Ledger) (event : CaptureLifecycleEventV1) :
    ledger.add (.appendLifecycle event) = ledger :=
  rfl

@[simp] theorem records_appendRecord (ledger : Ledger) (record : FirstPartyCaptureRecordV1) :
    (ledger.add (.appendRecord record)).records = ledger.records ++ [record] := by
  simp [add, records]

@[simp] theorem records_declareCoverage (ledger : Ledger)
    (interval : CaptureCoverageIntervalV1) :
    (ledger.add (.declareCoverage interval)).records = ledger.records := by
  simp [add, records]

end Ledger

def partitionStep (codec : ArchiveCodec) (s : CapturePartitionWriterV1 × Ledger)
    (call : PartitionCall) : CapturePartitionWriterV1 × Ledger :=
  match s.1.call codec call with
  | .ok writer => (writer, s.2.add call)
  | .error _ => s

/-! ## The invariant of the writer -/

def arrivals (records : List FirstPartyCaptureRecordV1) : List ℤ :=
  records.map FirstPartyCaptureRecordV1.arrivalUtcNanos

@[simp] theorem arrivals_append (rs rs' : List FirstPartyCaptureRecordV1) :
    arrivals (rs ++ rs') = arrivals rs ++ arrivals rs' :=
  List.map_append

structure ClaimChecked
    (claim : List FirstPartyCaptureRecordV1 × CaptureCoverageIntervalV1) : Prop where
  count : claim.2.recordCount = claim.1.length
  first : ∀ first ∈ (arrivals claim.1).head?, claim.2.Contains first
  last : ∀ last ∈ (arrivals claim.1).getLast?, claim.2.Contains last

def InOrder (coverage : List CaptureCoverageIntervalV1) : Prop :=
  coverage.Pairwise fun before after => before.endUtcNanos ≤ after.startUtcNanos

/-- The files and the summary of an open writer account for what was appended and claimed. -/
structure Accounts (codec : ArchiveCodec) (writer : CapturePartitionWriterV1) (ledger : Ledger) :
    Prop where
  unsealed : writer.finalized = false
  noManifest : writer.directory manifestFileName = none
  sessionText : writer.directory sessionFileName = some (codec.session.dumps
    (CapturePartitionWriterV1.sessionFile writer.contract writer.sessionId writer.day
      writer.clockResolutionNanos) ++ ['\n'])
  recordsText : writer.directory recordsFileName = some (unlines
    (ledger.records.map fun record => record.toJsonLine codec.toRecordCodec))
  lifecycleText : ∃ text, writer.directory lifecycleFileName = some text
  admitted : ∀ record ∈ ledger.records, record.IntegrityVerified codec.toRecordCodec ∧
    record.sessionId = writer.sessionId ∧ utcDayOfNanos record.arrivalUtcNanos = writer.day
  count : writer.recordCount = ledger.records.length
  first : writer.firstArrivalUtcNanos = (arrivals ledger.records).head?
  last : writer.lastArrivalUtcNanos = (arrivals ledger.records).getLast?
  unclaimedCount : writer.unclaimedCount = ledger.pending.length
  unclaimedFirst : writer.unclaimedFirstNanos = (arrivals ledger.pending).head?
  unclaimedLast : writer.unclaimedLastNanos = (arrivals ledger.pending).getLast?
  coverage : writer.coverage = ledger.claims.map Prod.snd
  claimed : ∀ claim ∈ ledger.claims, ClaimChecked claim
  inOrder : InOrder writer.coverage
  apart : ∀ gap ∈ writer.gaps, ∀ interval ∈ writer.coverage, ¬ gap.Overlaps interval
  frontier : ∀ f ∈ writer.frontierNanos, (∀ interval ∈ writer.coverage, interval.endUtcNanos ≤ f) ∧
    ∀ gap ∈ writer.gaps, ∃ e, gap.endUtcNanos = some e ∧ e ≤ f

section Calls

variable {codec : ArchiveCodec} {writer writer' : CapturePartitionWriterV1} {ledger : Ledger}
  {record : FirstPartyCaptureRecordV1} {event : CaptureLifecycleEventV1}
  {interval : CaptureCoverageIntervalV1} {gap : CaptureGapV1} {n : ℕ}

theorem accounts_init {contract : FirstPartyCaptureContractV1} {sessionId : UUID} {day : ℤ}
    {clockResolutionNanos : ℤ}
    (h : CapturePartitionWriterV1.init codec Directory.empty contract sessionId day
      clockResolutionNanos = .ok writer) : Accounts codec writer {} := by
  unfold CapturePartitionWriterV1.init at h
  cases h
  refine ⟨rfl, ?_, ?_, ?_, ⟨[], ?_⟩, ?_, rfl, rfl, rfl, rfl, rfl, rfl, rfl, ?_, ?_, ?_, ?_⟩
  · simp [Directory.append, Directory.empty, manifestFileName, openMarkerName, sessionFileName,
      recordsFileName, lifecycleFileName]
  · simp [Directory.append, sessionFileName, recordsFileName, lifecycleFileName]
  · simp [Directory.append, Directory.empty, openMarkerName, sessionFileName, recordsFileName,
      lifecycleFileName, Ledger.records]
  · simp [Directory.append, Directory.empty, openMarkerName, sessionFileName, recordsFileName,
      lifecycleFileName]
  · simp [Ledger.records]
  · simp
  · exact List.Pairwise.nil
  · simp
  · simp

theorem or_head?_append {α : Type} (as : List α) (a : α) :
    as.head?.or (some a) = (as ++ [a]).head? := by
  cases as <;> rfl

theorem Accounts.appendRecord (h : Accounts codec writer ledger)
    (happend : writer.appendRecord codec record = .ok (writer', n)) :
    Accounts codec writer' (ledger.add (.appendRecord record)) := by
  obtain ⟨hrequire, hw⟩ := CapturePartitionWriterV1.appendRecord_eq_ok.mp happend
  obtain ⟨-, hverified, hsession, hday⟩ :=
    CapturePartitionWriterV1.requireAppendable_eq_ok.mp hrequire
  obtain rfl : (writer.recordAppended codec record).1 = writer' := by rw [hw]
  refine { h with
    noManifest := ?_, sessionText := ?_, recordsText := ?_, lifecycleText := ?_, admitted := ?_
    count := ?_, first := ?_, last := ?_, unclaimedCount := ?_, unclaimedFirst := ?_
    unclaimedLast := ?_ }
  · rw [CapturePartitionWriterV1.directory_recordAppended, Directory.append_of_ne (by decide)]
    exact h.noManifest
  · rw [CapturePartitionWriterV1.directory_recordAppended, Directory.append_of_ne (by decide)]
    exact h.sessionText
  · rw [CapturePartitionWriterV1.directory_recordAppended, Directory.append_self, h.recordsText,
      Ledger.records_appendRecord, List.map_append]
    simp [unlines_snoc]
  · obtain ⟨text, htext⟩ := h.lifecycleText
    refine ⟨text, ?_⟩
    rw [CapturePartitionWriterV1.directory_recordAppended, Directory.append_of_ne (by decide)]
    exact htext
  · intro r hr
    rw [Ledger.records_appendRecord] at hr
    rcases List.mem_append.mp hr with hr | hr
    · exact h.admitted r hr
    · obtain rfl := List.mem_singleton.mp hr
      exact ⟨hverified, hsession, hday⟩
  · rw [Ledger.records_appendRecord, List.length_append]
    exact congrArg (· + 1) h.count
  · rw [Ledger.records_appendRecord, arrivals_append]
    exact (congrArg (Option.or · _) h.first).trans (or_head?_append _ _)
  · rw [Ledger.records_appendRecord, arrivals_append]
    simp [arrivals, CapturePartitionWriterV1.recordAppended]
  · exact (congrArg (· + 1) h.unclaimedCount).trans (by simp [Ledger.add])
  · rw [Ledger.add, arrivals_append]
    exact (congrArg (Option.or · _) h.unclaimedFirst).trans (or_head?_append _ _)
  · simp [Ledger.add, arrivals, CapturePartitionWriterV1.recordAppended]

theorem Accounts.appendLifecycle (h : Accounts codec writer ledger)
    (happend : writer.appendLifecycle codec event = .ok writer') :
    Accounts codec writer' (ledger.add (.appendLifecycle event)) := by
  obtain ⟨-, rfl⟩ := CapturePartitionWriterV1.appendLifecycle_eq_ok.mp happend
  exact { h with
    noManifest := by simpa [manifestFileName, lifecycleFileName] using h.noManifest
    sessionText := by simpa [sessionFileName, lifecycleFileName] using h.sessionText
    recordsText := by simpa [recordsFileName, lifecycleFileName] using h.recordsText
    lifecycleText := ⟨_, by dsimp only; exact Directory.append_self⟩ }

theorem Accounts.declareCoverage (h : Accounts codec writer ledger)
    (hdeclare : writer.declareCoverage interval = .ok writer') :
    Accounts codec writer' (ledger.add (.declareCoverage interval)) := by
  obtain ⟨-, ⟨f, hf, hstart⟩, hcount, hinside, rfl⟩ :=
    CapturePartitionWriterV1.declareCoverage_eq_ok.mp hdeclare
  obtain ⟨hcoverage, hgaps⟩ := h.frontier f hf
  have hpending : ledger.pending ≠ [] → writer.ClaimedInside interval := by
    intro hne
    refine hinside ?_
    rw [h.unclaimedCount]
    exact fun hzero => hne (List.length_eq_zero_iff.mp hzero)
  refine { h with
    recordsText := ?_, admitted := ?_, count := ?_, first := ?_, last := ?_
    unclaimedCount := rfl, unclaimedFirst := rfl, unclaimedLast := rfl
    coverage := ?_, claimed := ?_, inOrder := ?_, apart := ?_, frontier := ?_ }
  · rw [Ledger.records_declareCoverage]
    exact h.recordsText
  · rw [Ledger.records_declareCoverage]
    exact h.admitted
  · rw [Ledger.records_declareCoverage]
    exact h.count
  · rw [Ledger.records_declareCoverage]
    exact h.first
  · rw [Ledger.records_declareCoverage]
    exact h.last
  · rw [Ledger.add, List.map_append, ← h.coverage]
    rfl
  · intro claim hclaim
    rcases List.mem_append.mp hclaim with hclaim | hclaim
    · exact h.claimed claim hclaim
    · obtain rfl := List.mem_singleton.mp hclaim
      refine ⟨hcount.trans h.unclaimedCount, ?_, ?_⟩
      · intro first hfirst
        have hne : ledger.pending ≠ [] := by rintro hnil; simp [hnil, arrivals] at hfirst
        exact (hpending hne).1 first (h.unclaimedFirst ▸ hfirst)
      · intro last hlast
        have hne : ledger.pending ≠ [] := by rintro hnil; simp [hnil, arrivals] at hlast
        exact (hpending hne).2 last (h.unclaimedLast ▸ hlast)
  · refine List.pairwise_append.mpr ⟨h.inOrder, List.pairwise_singleton _ _, ?_⟩
    intro before hbefore after hafter
    obtain rfl := List.mem_singleton.mp hafter
    exact (hcoverage before hbefore).trans hstart
  · intro gap hgap other hother
    rcases List.mem_append.mp hother with hother | hother
    · exact h.apart gap hgap other hother
    · obtain rfl := List.mem_singleton.mp hother
      obtain ⟨e, he, hle⟩ := hgaps gap hgap
      exact fun hoverlaps => absurd (hoverlaps.2 e he) (by omega)
  · intro f' hf'
    obtain rfl := Option.some.inj hf'
    have hend := interval.start_lt_end
    refine ⟨fun other hother => ?_, fun gap hgap => ?_⟩
    · rcases List.mem_append.mp hother with hother | hother
      · exact (hcoverage other hother).trans (by omega)
      · rw [List.mem_singleton.mp hother]
    · obtain ⟨e, he, hle⟩ := hgaps gap hgap
      exact ⟨e, he, by omega⟩

theorem Accounts.declareGap (h : Accounts codec writer ledger)
    (hdeclare : writer.declareGap gap = .ok writer') :
    Accounts codec writer' (ledger.add (.declareGap gap)) := by
  obtain ⟨-, -, ⟨f, hf, hstart⟩, rfl⟩ := CapturePartitionWriterV1.declareGap_eq_ok.mp hdeclare
  obtain ⟨hcoverage, hgaps⟩ := h.frontier f hf
  refine { h with apart := ?_, frontier := ?_ }
  · intro other hother interval hinterval
    rcases List.mem_append.mp hother with hother | hother
    · exact h.apart other hother interval hinterval
    · obtain rfl := List.mem_singleton.mp hother
      exact fun hoverlaps => hoverlaps.1 ((hcoverage interval hinterval).trans hstart)
  · intro e he
    have hordered := gap.ordered e he
    refine ⟨fun interval hinterval => ?_, fun other hother => ?_⟩
    · have := hcoverage interval hinterval
      omega
    · rcases List.mem_append.mp hother with hother | hother
      · obtain ⟨e', he', hle⟩ := hgaps other hother
        exact ⟨e', he', by omega⟩
      · obtain rfl := List.mem_singleton.mp hother
        exact ⟨e, he, le_rfl⟩

theorem Accounts.call {call : PartitionCall} (h : Accounts codec writer ledger)
    (hcall : writer.call codec call = .ok writer') : Accounts codec writer' (ledger.add call) := by
  cases call with
  | appendRecord record =>
      change (writer.appendRecord codec record).map Prod.fst = .ok writer' at hcall
      cases happend : writer.appendRecord codec record with
      | error e =>
          rw [happend] at hcall
          cases hcall
      | ok result =>
          rw [happend] at hcall
          cases hcall
          exact h.appendRecord happend
  | appendLifecycle event => exact h.appendLifecycle hcall
  | declareCoverage interval => exact h.declareCoverage hcall
  | declareGap gap => exact h.declareGap hcall

theorem accounts_step {s : CapturePartitionWriterV1 × Ledger} (call : PartitionCall)
    (h : Accounts codec s.1 s.2) :
    Accounts codec (partitionStep codec s call).1 (partitionStep codec s call).2 := by
  unfold partitionStep
  split
  · rename_i writer hcall
    exact h.call hcall
  · exact h

theorem accounts_run {s : CapturePartitionWriterV1 × Ledger} (calls : List PartitionCall)
    (h : Accounts codec s.1 s.2) :
    Accounts codec (Run.exec (partitionStep codec) s calls).1
      (Run.exec (partitionStep codec) s calls).2 :=
  Run.exec_inv (J := fun (s : CapturePartitionWriterV1 × Ledger) => Accounts codec s.1 s.2)
    (fun _ call hs => accounts_step call hs) calls h

end Calls

end CaptureArchive

end TradePlatform
