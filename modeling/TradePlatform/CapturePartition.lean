/-
# `TradePlatform.CapturePartition` — the writer of a capture partition

`CapturePartitionWriterV1` of `first_party_capture_archive_v1.py`: the files it writes, the
declarations it checks against what was appended, and the manifest it seals.  A directory
gives each name the text of its file.
-/
import TradePlatform.CaptureArchive

namespace TradePlatform

namespace CaptureArchive

open JsonLines

/-! ## Files -/

abbrev Directory := String → Option Text

namespace Directory

def empty : Directory := fun _ => none

def write (directory : Directory) (name : String) (text : Text) : Directory :=
  Function.update directory name (some text)

def unlink (directory : Directory) (name : String) : Directory :=
  Function.update directory name none

def append (directory : Directory) (name : String) (text : Text) : Directory :=
  directory.write name ((directory name).getD [] ++ text)

variable {directory : Directory} {name other : String} {text : Text}

@[simp] theorem write_self : directory.write name text name = some text :=
  Function.update_self ..

@[simp] theorem write_of_ne (h : other ≠ name) :
    directory.write name text other = directory other :=
  Function.update_of_ne h ..

@[simp] theorem append_self :
    directory.append name text name = some ((directory name).getD [] ++ text) :=
  write_self

@[simp] theorem append_of_ne (h : other ≠ name) :
    directory.append name text other = directory other :=
  write_of_ne h

@[simp] theorem unlink_self : directory.unlink name name = none := Function.update_self ..

@[simp] theorem unlink_of_ne (h : other ≠ name) : directory.unlink name other = directory other :=
  Function.update_of_ne h ..

end Directory

def recordsFileName : String := "records.ndjson"
def lifecycleFileName : String := "lifecycle.ndjson"
def sessionFileName : String := "session.json"
def manifestFileName : String := "MANIFEST.json"
def openMarkerName : String := "OPEN"
def compactedRecordsFileName : String := "records.ndjson.gz"
def compactionFileName : String := "COMPACTION.json"
def compactionTempName : String := "records.ndjson.gz.tmp"

structure SessionV1 where
  schemaVersion : String
  sessionId : UUID
  sourceId : UUID
  contractContentHash : String
  captureSemanticVersion : String
  endpoint : String
  exchange : String
  instrument : String
  topics : List String
  utcDay : ℤ
  clockResolutionNanos : ℤ
  clockSemantics : List String
deriving DecidableEq, Encodable

structure ManifestBodyV1 where
  schemaVersion : String
  sessionId : UUID
  sourceId : UUID
  contractContentHash : String
  utcDay : ℤ
  recordCount : ℤ
  firstArrivalUtcNanos : Option ℤ
  lastArrivalUtcNanos : Option ℤ
  clockResolutionNanos : ℤ
  coverage : List CoveragePayloadV1
  gaps : List GapPayloadV1
  files : List (String × String)
deriving DecidableEq, Encodable

structure ManifestV1 extends ManifestBodyV1 where
  manifestContentHash : String
deriving DecidableEq, Encodable

structure CompactionBodyV1 where
  schemaVersion : String
  codec : String
  sessionId : UUID
  sourceId : UUID
  manifestContentHash : String
  uncompressedFile : String
  uncompressedSha256 : String
  uncompressedBytes : ℕ
  compressedFile : String
  compressedSha256 : String
  compressedBytes : ℕ
deriving DecidableEq, Encodable

structure CompactionV1 extends CompactionBodyV1 where
  compactionContentHash : String
deriving DecidableEq, Encodable

structure CaptureLifecycleEventV1 where
  kind : String
  arrivalUtcNanos : ℤ
  arrivalMonotonicNanos : ℤ
  detail : Option String := none
  payloadText : Option String := none
deriving DecidableEq, Encodable

/-- The codings of the files of a partition, the digests that bind them, `gunzip` (`none`: it
does not decompress), and `len(os.linesep)`. -/
structure ArchiveCodec extends RecordCodec where
  lifecycleLine : Coding CaptureLifecycleEventV1
  session : Coding SessionV1
  manifestDigest : ManifestBodyV1 → String
  manifest : Coding ManifestV1
  compactionDigest : CompactionBodyV1 → String
  compaction : Coding CompactionV1
  gunzip : Text → Option Text
  linesepLength : ℕ

def ArchiveCodec.symbolic (loads : String → Option Json) : ArchiveCodec where
  loads := loads
  sha256 text := String.ofList ('#' :: text)
  recordDigest payload := String.ofList ((@Coding.strokes HashPayloadV1 _).dumps payload)
  recordLine := .strokes
  lifecycleLine := .strokes
  session := .strokes
  manifestDigest body := String.ofList ((@Coding.strokes ManifestBodyV1 _).dumps body)
  manifest := .strokes
  compactionDigest body := String.ofList ((@Coding.strokes CompactionBodyV1 _).dumps body)
  compaction := .strokes
  gunzip := some
  linesepLength := 1

theorem ArchiveCodec.symbolic_recordDigest_ne (loads : String → Option Json)
    (payload : HashPayloadV1) : (ArchiveCodec.symbolic loads).recordDigest payload ≠ "" := by
  intro h
  exact (Coding.strokes.braced payload).ne_nil (String.ofList_eq_empty_iff.mp h)

/-! ## The writer -/

structure CapturePartitionWriterV1 where
  contract : FirstPartyCaptureContractV1
  sessionId : UUID
  day : ℤ
  clockResolutionNanos : ℤ
  directory : Directory
  coverage : List CaptureCoverageIntervalV1 := []
  gaps : List CaptureGapV1 := []
  finalized : Bool := false
  /-- `none` after an open-ended gap: nothing may be declared any more. -/
  frontierNanos : Option ℤ := some 0
  unclaimedCount : ℕ := 0
  unclaimedFirstNanos : Option ℤ := none
  unclaimedLastNanos : Option ℤ := none
  recordCount : ℕ := 0
  bytesWritten : ℕ := 0
  firstArrivalUtcNanos : Option ℤ := none
  lastArrivalUtcNanos : Option ℤ := none

namespace CapturePartitionWriterV1

variable (codec : ArchiveCodec)

def sessionFile (contract : FirstPartyCaptureContractV1) (sessionId : UUID) (day : ℤ)
    (clockResolutionNanos : ℤ) : SessionV1 where
  schemaVersion := "first-party-capture-session-v1"
  sessionId := sessionId
  sourceId := contract.sourceId
  contractContentHash := contract.contentHash
  captureSemanticVersion := contract.captureSemanticVersion
  endpoint := contract.endpoint
  exchange := contract.originatingExchange
  instrument := contract.instrumentScope
  topics := contract.topics
  utcDay := day
  clockResolutionNanos := clockResolutionNanos
  clockSemantics := contract.clockSemantics

/-- `CapturePartitionWriterV1(..)`, on the directory of the partition as it is found. -/
def init (directory : Directory) (contract : FirstPartyCaptureContractV1) (sessionId : UUID)
    (day : ℤ) (clockResolutionNanos : ℤ) : Except Exn CapturePartitionWriterV1 :=
  if (directory manifestFileName).isSome then
    refuse "finalized_partition_must_not_be_reopened"
  else
    let session := sessionFile contract sessionId day clockResolutionNanos
    let directory := directory.write openMarkerName
      ("session=" ++ toString sessionId ++ "\n").toList
    let directory := directory.write sessionFileName (codec.session.dumps session ++ ['\n'])
    let directory := directory.append recordsFileName []
    let directory := directory.append lifecycleFileName []
    .ok { contract, sessionId, day, clockResolutionNanos, directory }

variable (writer : CapturePartitionWriterV1)

def requireAppendable (record : FirstPartyCaptureRecordV1) : Except Exn Unit :=
  if writer.finalized then refuse "cannot_append_to_a_finalized_partition"
  else if ¬ record.IntegrityVerified codec.toRecordCodec then
    refuse "refusing_to_write_a_record_that_fails_its_hash"
  else if record.sessionId ≠ writer.sessionId then
    refuse "record_belongs_to_another_capture_session"
  else if utcDayOfNanos record.arrivalUtcNanos ≠ writer.day then
    refuse "record_arrival_is_outside_the_partition_utc_day"
  else .ok ()

def recordAppended (record : FirstPartyCaptureRecordV1) : CapturePartitionWriterV1 × ℕ :=
  let line := record.toJsonLine codec.toRecordCodec
  let written := line.length + codec.linesepLength
  ({ writer with
    directory := writer.directory.append recordsFileName (line ++ ['\n'])
    bytesWritten := writer.bytesWritten + written
    recordCount := writer.recordCount + 1
    firstArrivalUtcNanos := writer.firstArrivalUtcNanos.or (some record.arrivalUtcNanos)
    lastArrivalUtcNanos := some record.arrivalUtcNanos
    unclaimedCount := writer.unclaimedCount + 1
    unclaimedFirstNanos := writer.unclaimedFirstNanos.or (some record.arrivalUtcNanos)
    unclaimedLastNanos := some record.arrivalUtcNanos }, written)

def appendRecord (record : FirstPartyCaptureRecordV1) :
    Except Exn (CapturePartitionWriterV1 × ℕ) := do
  writer.requireAppendable codec record
  return writer.recordAppended codec record

def appendLifecycle (event : CaptureLifecycleEventV1) : Except Exn CapturePartitionWriterV1 :=
  if writer.finalized then refuse "cannot_append_to_a_finalized_partition"
  else
    let line := codec.lifecycleLine.dumps event
    .ok { writer with directory := writer.directory.append lifecycleFileName (line ++ ['\n']) }

def requireAfterFrontier (startUtcNanos : ℤ) : Except Exn Unit :=
  match writer.frontierNanos with
  | none => refuse "nothing_may_follow_an_open_ended_gap"
  | some frontier =>
      if startUtcNanos < frontier then refuse "declarations_must_be_ordered_and_disjoint"
      else .ok ()

def ClaimedInside (interval : CaptureCoverageIntervalV1) : Prop :=
  (∀ first ∈ writer.unclaimedFirstNanos, interval.Contains first) ∧
    ∀ last ∈ writer.unclaimedLastNanos, interval.Contains last

instance (interval : CaptureCoverageIntervalV1) : Decidable (writer.ClaimedInside interval) :=
  inferInstanceAs (Decidable (_ ∧ _))

def declareCoverage (interval : CaptureCoverageIntervalV1) :
    Except Exn CapturePartitionWriterV1 :=
  if writer.finalized then refuse "cannot_declare_on_a_finalized_partition"
  else do
    writer.requireAfterFrontier interval.startUtcNanos
    if interval.recordCount ≠ writer.unclaimedCount then
      refuse "coverage_record_count_disagrees_with_records_written"
    else if writer.unclaimedCount ≠ 0 ∧ ¬ writer.ClaimedInside interval then
      refuse "claimed_record_falls_outside_its_coverage_window"
    else
      return { writer with
        coverage := writer.coverage ++ [interval]
        frontierNanos := some interval.endUtcNanos
        unclaimedCount := 0
        unclaimedFirstNanos := none
        unclaimedLastNanos := none }

def declareGap (gap : CaptureGapV1) : Except Exn CapturePartitionWriterV1 :=
  if writer.finalized then refuse "cannot_declare_on_a_finalized_partition"
  else if writer.unclaimedCount ≠ 0 then refuse "gap_declared_over_unclaimed_records"
  else do
    writer.requireAfterFrontier gap.startUtcNanos
    return { writer with gaps := writer.gaps ++ [gap], frontierNanos := gap.endUtcNanos }

def sealedFiles : List (String × String) :=
  [sessionFileName, recordsFileName, lifecycleFileName].filterMap fun name =>
    (writer.directory name).map fun text => (name, codec.sha256 text)

def manifestBody : ManifestBodyV1 where
  schemaVersion := "first-party-capture-manifest-v1"
  sessionId := writer.sessionId
  sourceId := writer.contract.sourceId
  contractContentHash := writer.contract.contentHash
  utcDay := writer.day
  recordCount := writer.recordCount
  firstArrivalUtcNanos := writer.firstArrivalUtcNanos
  lastArrivalUtcNanos := writer.lastArrivalUtcNanos
  clockResolutionNanos := writer.clockResolutionNanos
  coverage := writer.coverage.map CaptureCoverageIntervalV1.toPayload
  gaps := writer.gaps.map CaptureGapV1.toPayload
  files := writer.sealedFiles codec

def manifest : ManifestV1 :=
  { writer.manifestBody codec with
    manifestContentHash := codec.manifestDigest (writer.manifestBody codec) }

def finalize : Except Exn CapturePartitionWriterV1 :=
  if writer.finalized then refuse "partition_already_finalized"
  else if (writer.directory manifestFileName).isSome then
    refuse "refusing_to_overwrite_an_existing_manifest"
  else if writer.unclaimedCount ≠ 0 then
    refuse "partition_holds_records_no_coverage_window_claims"
  else
    let directory := writer.directory.write manifestFileName
      (codec.manifest.dumps (writer.manifest codec) ++ ['\n'])
    .ok { writer with directory := directory.unlink openMarkerName, finalized := true }

end CapturePartitionWriterV1

/-! ## What each call does -/

namespace CapturePartitionWriterV1

variable {codec : ArchiveCodec} {writer writer' : CapturePartitionWriterV1}
  {record : FirstPartyCaptureRecordV1} {event : CaptureLifecycleEventV1}
  {interval : CaptureCoverageIntervalV1} {gap : CaptureGapV1} {n : ℕ} {start : ℤ}

theorem directory_recordAppended :
    (writer.recordAppended codec record).1.directory = writer.directory.append recordsFileName
      (record.toJsonLine codec.toRecordCodec ++ ['\n']) :=
  rfl

theorem requireAppendable_eq_ok :
    writer.requireAppendable codec record = .ok () ↔
      writer.finalized = false ∧ record.IntegrityVerified codec.toRecordCodec ∧
        record.sessionId = writer.sessionId ∧
        utcDayOfNanos record.arrivalUtcNanos = writer.day := by
  unfold requireAppendable refuse
  constructor
  · intro h
    split at h
    · cases h
    · split at h
      · cases h
      · split at h
        · cases h
        · split at h
          · cases h
          · simp_all
  · rintro ⟨hfinalized, hverified, hsession, hday⟩
    simp [hfinalized, hverified, hsession, hday]

theorem appendRecord_eq_ok :
    writer.appendRecord codec record = .ok (writer', n) ↔
      writer.requireAppendable codec record = .ok () ∧
        writer.recordAppended codec record = (writer', n) := by
  unfold appendRecord
  rw [Except.bind_eq_ok]
  simp only [Except.pure_eq_ok]
  constructor
  · rintro ⟨⟨⟩, h, hw⟩
    exact ⟨h, hw⟩
  · rintro ⟨h, hw⟩
    exact ⟨(), h, hw⟩

theorem appendLifecycle_eq_ok :
    writer.appendLifecycle codec event = .ok writer' ↔
      writer.finalized = false ∧
        writer' = { writer with
          directory := writer.directory.append lifecycleFileName
            (codec.lifecycleLine.dumps event ++ ['\n']) } := by
  unfold appendLifecycle refuse
  cases writer.finalized <;> simp [eq_comm]

theorem requireAfterFrontier_eq_ok :
    writer.requireAfterFrontier start = .ok () ↔
      ∃ f, writer.frontierNanos = some f ∧ f ≤ start := by
  unfold requireAfterFrontier refuse
  cases writer.frontierNanos with
  | none => simp
  | some f =>
      by_cases h : start < f
      · simp [h]
      · simp [h, not_lt.mp h]

theorem declareCoverage_eq_ok :
    writer.declareCoverage interval = .ok writer' ↔
      writer.finalized = false ∧ (∃ f, writer.frontierNanos = some f ∧ f ≤ interval.startUtcNanos) ∧
        interval.recordCount = writer.unclaimedCount ∧
        (writer.unclaimedCount ≠ 0 → writer.ClaimedInside interval) ∧
        writer' = { writer with
          coverage := writer.coverage ++ [interval]
          frontierNanos := some interval.endUtcNanos
          unclaimedCount := 0
          unclaimedFirstNanos := none
          unclaimedLastNanos := none } := by
  unfold declareCoverage
  cases hfinalized : writer.finalized with
  | true => simp [refuse]
  | false =>
      simp only [Bool.false_eq_true, if_false, true_and]
      rw [Except.bind_eq_ok]
      constructor
      · rintro ⟨⟨⟩, hfrontier, h⟩
        refine ⟨requireAfterFrontier_eq_ok.mp hfrontier, ?_⟩
        split at h
        · cases h
        · rename_i hcount
          split at h
          · cases h
          · rename_i hinside
            cases h
            exact ⟨not_not.mp hcount, fun hpos => not_not.mp fun hnot => hinside ⟨hpos, hnot⟩, rfl⟩
      · rintro ⟨hfrontier, hcount, hinside, rfl⟩
        refine ⟨(), requireAfterFrontier_eq_ok.mpr hfrontier, ?_⟩
        rw [if_neg (not_not_intro hcount), if_neg fun h => h.2 (hinside h.1)]
        rfl

theorem declareGap_eq_ok :
    writer.declareGap gap = .ok writer' ↔
      writer.finalized = false ∧ writer.unclaimedCount = 0 ∧
        (∃ f, writer.frontierNanos = some f ∧ f ≤ gap.startUtcNanos) ∧
        writer' = { writer with
          gaps := writer.gaps ++ [gap], frontierNanos := gap.endUtcNanos } := by
  unfold declareGap
  cases hfinalized : writer.finalized with
  | true => simp [refuse]
  | false =>
      by_cases hcount : writer.unclaimedCount = 0
      · simp only [Bool.false_eq_true, if_false, true_and, hcount, ne_eq, not_true_eq_false]
        rw [Except.bind_eq_ok]
        simp only [Except.pure_eq_ok, eq_comm (a := writer')]
        constructor
        · rintro ⟨⟨⟩, hfrontier, h⟩
          exact ⟨requireAfterFrontier_eq_ok.mp hfrontier, h⟩
        · rintro ⟨hfrontier, h⟩
          exact ⟨(), requireAfterFrontier_eq_ok.mpr hfrontier, h⟩
      · simp [hcount, refuse]

theorem finalize_eq_ok :
    writer.finalize codec = .ok writer' ↔
      writer.finalized = false ∧ writer.directory manifestFileName = none ∧
        writer.unclaimedCount = 0 ∧
        writer' = { writer with
          directory := (writer.directory.write manifestFileName
            (codec.manifest.dumps (writer.manifest codec) ++ ['\n'])).unlink openMarkerName
          finalized := true } := by
  unfold finalize refuse
  cases writer.finalized with
  | true => simp
  | false =>
      cases writer.directory manifestFileName with
      | some text => simp
      | none =>
          by_cases hcount : writer.unclaimedCount = 0
          · simp [hcount, eq_comm]
          · simp [hcount]

end CapturePartitionWriterV1

end CaptureArchive

end TradePlatform
