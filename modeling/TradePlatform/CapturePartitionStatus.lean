/-
# `TradePlatform.CapturePartitionStatus` — what a directory proves

`read_partition_status_v1` and `replay_partition_v1`: a directory is COMPLETE when its manifest
accounts for every file and is consistent in itself, and a replay proves it record by record.
-/
import TradePlatform.CapturePartition
import TradePlatform.Lib.Bisect

namespace TradePlatform

namespace CaptureArchive

open JsonLines

/-! ## The status -/

def statusComplete : String := "COMPLETE"
def statusPartial : String := "PARTIAL"

structure CapturePartitionV1 where
  status : String
  sessionId : Option UUID
  sourceId : Option UUID
  recordCount : ℤ
  coverage : List CaptureCoverageIntervalV1
  gaps : List CaptureGapV1
  reasons : List String

def partialPartition (reason : String) : CapturePartitionV1 where
  status := statusPartial
  sessionId := none
  sourceId := none
  recordCount := 0
  coverage := []
  gaps := []
  reasons := [reason]

def reason (failed : Prop) [Decidable failed] (text : String) : List String :=
  if failed then [text] else []

@[simp] theorem reason_eq_nil {failed : Prop} [Decidable failed] {text : String} :
    reason failed text = [] ↔ ¬ failed := by
  unfold reason
  split <;> simp_all

def arrivalBoundReasons (manifest : ManifestV1) (coverage : List CaptureCoverageIntervalV1) :
    List String :=
  if manifest.recordCount = 0 then
    reason (manifest.firstArrivalUtcNanos ≠ none ∨ manifest.lastArrivalUtcNanos ≠ none)
      "empty_partition_declares_arrival_bounds"
  else
    match manifest.firstArrivalUtcNanos, manifest.lastArrivalUtcNanos with
    | some first, some last =>
        reason ((¬ ∃ interval ∈ coverage, interval.Contains first) ∨
            ¬ ∃ interval ∈ coverage, interval.Contains last)
          "arrival_bounds_fall_outside_declared_coverage"
    | _, _ => ["non_empty_partition_lacks_arrival_bounds"]

def metadataReasons (manifest : ManifestV1) (session : SessionV1)
    (coverage : List CaptureCoverageIntervalV1) (gaps : List CaptureGapV1)
    (contract : FirstPartyCaptureContractV1) : List String :=
  reason (session.sessionId ≠ manifest.sessionId) "session_and_manifest_disagree:session_id" ++
  reason (session.sourceId ≠ manifest.sourceId) "session_and_manifest_disagree:source_id" ++
  reason (session.contractContentHash ≠ manifest.contractContentHash)
    "session_and_manifest_disagree:contract_content_hash" ++
  reason (session.utcDay ≠ manifest.utcDay) "session_and_manifest_disagree:utc_day" ++
  reason (manifest.sourceId ≠ contract.sourceId)
    "manifest_source_is_not_the_authorized_first_party_source" ++
  reason (manifest.contractContentHash ≠ contract.contentHash)
    "manifest_contract_hash_is_not_the_authorized_contract" ++
  reason (¬ coverage.IsChain fun previous following =>
      previous.endUtcNanos ≤ following.startUtcNanos)
    "coverage_windows_overlap_or_are_unordered" ++
  reason (∃ gap ∈ gaps, ∃ interval ∈ coverage, gap.Overlaps interval)
    "declared_gap_overlaps_proven_coverage" ++
  reason (((coverage.map CaptureCoverageIntervalV1.recordCount).sum : ℤ) ≠ manifest.recordCount)
    "coverage_record_counts_do_not_sum_to_the_manifest_count" ++
  arrivalBoundReasons manifest coverage

section Status

variable (codec : ArchiveCodec) (authority : CaptureAuthority) (directory : Directory)

def sessionSourceIdV1 : Option UUID :=
  match (directory sessionFileName).map codec.session.loads with
  | some (.ok session) => some session.sourceId
  | _ => none

def partitionContract (contract : Option FirstPartyCaptureContractV1) :
    FirstPartyCaptureContractV1 :=
  match contract with
  | some contract => contract
  | none =>
      (((sessionSourceIdV1 codec directory).bind authority.resolve)).getD authority.production

/-- What a compaction record says of itself, of the manifest and of the manifest's digest. -/
def compactionRecordReasons (record : CompactionV1) (manifest : ManifestV1) (digest : String) :
    List String :=
  reason (record.compactionContentHash ≠ codec.compactionDigest record.toCompactionBodyV1)
    "compaction_content_hash_mismatch" ++
  reason (record.schemaVersion ≠ "first-party-capture-compaction-v1")
    "compaction_schema_version_not_recognized" ++
  reason (record.codec ≠ "gzip") "compaction_codec_not_recognized" ++
  reason (record.sessionId ≠ manifest.sessionId) "compaction_and_manifest_disagree:session_id" ++
  reason (record.manifestContentHash ≠ manifest.manifestContentHash)
    "compaction_is_bound_to_another_manifest" ++
  reason (record.uncompressedSha256 ≠ digest) "compaction_does_not_claim_the_manifest_records_bytes"

def compactedFileReasons (record : CompactionV1) (digest : String) : List String :=
  match directory compactedRecordsFileName with
  | none => ["compacted_records_file_missing"]
  | some compressed =>
      if codec.sha256 compressed ≠ record.compressedSha256 then
        ["compacted_records_checksum_mismatch"]
      else
        match codec.gunzip compressed with
        | none => ["compacted_records_do_not_decompress"]
        | some text =>
            reason (codec.sha256 text ≠ digest)
              "compacted_records_do_not_decompress_to_the_manifest_bytes"

def compactionReasons (manifest : ManifestV1) (digest : String) : List String :=
  match (directory compactionFileName).map codec.compaction.loads with
  | some (.ok record) =>
      compactionRecordReasons codec record manifest digest ++
        compactedFileReasons codec directory record digest
  | _ => ["compaction_record_is_unreadable"]

def fileReasons (manifest : ManifestV1) (file : String × String) : List String :=
  match directory file.1 with
  | some text =>
      reason (codec.sha256 text ≠ file.2) ("manifest_file_checksum_mismatch:" ++ file.1)
  | none =>
      if file.1 = recordsFileName ∧ (directory compactionFileName).isSome then
        compactionReasons codec directory manifest file.2
      else ["manifest_file_missing:" ++ file.1]

def unreadable : DecodeError → String
  | .jsonDecodeError => "JSONDecodeError"
  | .keyError => "KeyError"
  | .typeError => "TypeError"
  | .valueError => "ValueError"

def readJson {α : Type} (coding : Coding α) (name : String) : Except String α :=
  match directory name with
  | none => .error "FileNotFoundError"
  | some text =>
      match coding.loads text with
      | .error e => .error (unreadable e)
      | .ok value => .ok value

structure MetadataV1 where
  manifest : ManifestV1
  session : SessionV1
  coverage : List CaptureCoverageIntervalV1
  gaps : List CaptureGapV1

def archiveError {α : Type} : Except Exn α → Except String α
  | .ok a => .ok a
  | .error _ => .error "FirstPartyCaptureArchiveError"

def readMetadata : Except String MetadataV1 := do
  let manifest ← readJson directory codec.manifest manifestFileName
  let session ← readJson directory codec.session sessionFileName
  let coverage ← archiveError (manifest.coverage.mapM CaptureCoverageIntervalV1.fromPayload)
  let gaps ← archiveError (manifest.gaps.mapM CaptureGapV1.fromPayload)
  return ⟨manifest, session, coverage, gaps⟩

def partitionReasons (metadata : MetadataV1) (contract : FirstPartyCaptureContractV1) :
    List String :=
  let manifest := metadata.manifest
  reason (manifest.manifestContentHash ≠ codec.manifestDigest manifest.toManifestBodyV1)
    "manifest_content_hash_mismatch" ++
  reason ((directory openMarkerName).isSome = true)
    "finalized_partition_still_carries_an_open_marker" ++
  ([sessionFileName, recordsFileName, lifecycleFileName].flatMap fun required =>
    reason (required ∉ manifest.files.map Prod.fst)
      ("manifest_does_not_cover_file:" ++ required)) ++
  manifest.files.flatMap (fileReasons codec directory manifest) ++
  metadataReasons manifest metadata.session metadata.coverage metadata.gaps contract

def readPartitionStatusV1 (contract : Option FirstPartyCaptureContractV1) : CapturePartitionV1 :=
  let authorized := partitionContract codec authority directory contract
  if (directory manifestFileName).isNone then partialPartition "partition_has_no_manifest"
  else
    match readMetadata codec directory with
    | .error name => partialPartition ("partition_metadata_is_unreadable:" ++ name)
    | .ok metadata =>
        let reasons := partitionReasons codec directory metadata authorized
        { status := if reasons = [] then statusComplete else statusPartial
          sessionId := metadata.manifest.sessionId
          sourceId := metadata.manifest.sourceId
          recordCount := metadata.manifest.recordCount
          coverage := metadata.coverage
          gaps := metadata.gaps
          reasons }

def Proves (contract : FirstPartyCaptureContractV1) (metadata : MetadataV1) : Prop :=
  readMetadata codec directory = .ok metadata ∧
    partitionReasons codec directory metadata contract = []

def MetadataV1.partition (metadata : MetadataV1) : CapturePartitionV1 where
  status := statusComplete
  sessionId := metadata.manifest.sessionId
  sourceId := metadata.manifest.sourceId
  recordCount := metadata.manifest.recordCount
  coverage := metadata.coverage
  gaps := metadata.gaps
  reasons := []

end Status

section StatusLemmas

variable {codec : ArchiveCodec} {authority : CaptureAuthority} {directory : Directory}
  {contract : Option FirstPartyCaptureContractV1} {metadata : MetadataV1}

theorem readJson_eq_ok {α : Type} {coding : Coding α} {name : String} {value : α} :
    readJson directory coding name = .ok value ↔
      ∃ text, directory name = some text ∧ coding.loads text = .ok value := by
  unfold readJson
  cases directory name with
  | none => simp
  | some text =>
      cases h : coding.loads text with
      | error e => simp [h]
      | ok value => simp [h]

theorem readMetadata_eq_ok :
    readMetadata codec directory = .ok metadata ↔
      readJson directory codec.manifest manifestFileName = .ok metadata.manifest ∧
        readJson directory codec.session sessionFileName = .ok metadata.session ∧
        metadata.manifest.coverage.mapM CaptureCoverageIntervalV1.fromPayload =
          .ok metadata.coverage ∧
        metadata.manifest.gaps.mapM CaptureGapV1.fromPayload = .ok metadata.gaps := by
  have harchive : ∀ {α : Type} {x : Except Exn α} {a : α}, archiveError x = .ok a ↔ x = .ok a := by
    intro α x a
    cases x <;> simp [archiveError]
  unfold readMetadata
  simp only [Except.bind_eq_ok, Except.pure_eq_ok, harchive]
  constructor
  · rintro ⟨manifest, hmanifest, session, hsession, coverage, hcoverage, gaps, hgaps, rfl⟩
    exact ⟨hmanifest, hsession, hcoverage, hgaps⟩
  · rintro ⟨hmanifest, hsession, hcoverage, hgaps⟩
    exact ⟨_, hmanifest, _, hsession, _, hcoverage, _, hgaps, rfl⟩

theorem isSome_of_readMetadata (h : readMetadata codec directory = .ok metadata) :
    (directory manifestFileName).isNone = false := by
  obtain ⟨text, htext, -⟩ := readJson_eq_ok.mp (readMetadata_eq_ok.mp h).1
  rw [htext]
  rfl

theorem readPartitionStatusV1_of_proves
    (h : Proves codec directory (partitionContract codec authority directory contract) metadata) :
    readPartitionStatusV1 codec authority directory contract = metadata.partition := by
  unfold readPartitionStatusV1
  simp only [isSome_of_readMetadata h.1, h.1, h.2, Bool.false_eq_true, if_false, if_true]
  rfl

theorem statusPartial_ne : statusPartial ≠ statusComplete := by decide

theorem status_eq_complete :
    (readPartitionStatusV1 codec authority directory contract).status = statusComplete ↔
      ∃ metadata,
        Proves codec directory (partitionContract codec authority directory contract) metadata := by
  constructor
  · intro h
    unfold readPartitionStatusV1 at h
    split at h
    · exact absurd h statusPartial_ne
    · split at h
      · exact absurd h statusPartial_ne
      · rename_i metadata hmetadata
        refine ⟨metadata, hmetadata, ?_⟩
        by_contra hreasons
        simp only [hreasons, if_false] at h
        exact statusPartial_ne h
  · rintro ⟨metadata, h⟩
    rw [readPartitionStatusV1_of_proves h]
    rfl

end StatusLemmas

/-! ## The replay -/

def openRecordsText (codec : ArchiveCodec) (directory : Directory) : Except Exn (Option Text) :=
  match directory recordsFileName with
  | some text => .ok (some text)
  | none =>
      match directory compactedRecordsFileName with
      | none => .ok none
      | some compressed =>
          if (directory compactionFileName).isNone then .ok none
          else
            match codec.gunzip compressed with
            | none => .error (.osError "not a gzipped file")
            | some text => .ok (some text)

structure ReplayV1 where
  perWindow : List ℕ
  count : ℕ := 0
  firstArrival : Option ℤ := none
  lastArrival : Option ℤ := none
  previousMonotonic : Option ℤ := none
  previousSequence : Option ℤ := none
  records : List FirstPartyCaptureRecordV1 := []

section Replay

variable (codec : ArchiveCodec) (contract : FirstPartyCaptureContractV1)
  (partition : CapturePartitionV1) (sessionDay : ℤ)

/-- The checks of one record after those of its own line, and what the replay then carries. -/
def ReplayV1.receive (s : ReplayV1) (record : FirstPartyCaptureRecordV1) : Except Exn ReplayV1 :=
  if partition.sessionId.any fun sessionId => record.sessionId ≠ sessionId then
    refuse "replayed_record_belongs_to_another_session"
  else if utcDayOfNanos record.arrivalUtcNanos ≠ sessionDay then
    refuse "replayed_record_is_outside_the_partition_day"
  else if s.previousMonotonic.any fun previous => record.arrivalMonotonicNanos < previous then
    refuse "replayed_records_are_not_monotonically_ordered"
  else if s.previousSequence.any fun previous => record.sequence ≠ previous + 1 then
    refuse "replayed_record_sequence_is_not_contiguous"
  else
    let index := Bisect.bisectRight
      (partition.coverage.map CaptureCoverageIntervalV1.startUtcNanos) record.arrivalUtcNanos
    let inside := partition.coverage[index - 1]?.any fun interval =>
      interval.Contains record.arrivalUtcNanos
    if index = 0 ∨ inside = false then
      refuse "replayed_record_is_outside_every_declared_coverage_window"
    else
      .ok {
        perWindow := s.perWindow.modify (index - 1) (· + 1)
        count := s.count + 1
        firstArrival := s.firstArrival.or (some record.arrivalUtcNanos)
        lastArrival := some record.arrivalUtcNanos
        previousMonotonic := some record.arrivalMonotonicNanos
        previousSequence := some record.sequence
        records := s.records ++ [record] }

def replayLine (s : ReplayV1) (line : Text) : Except Exn ReplayV1 :=
  let text := strip isSpace line
  if text = [] then .ok s
  else do
    let record ← FirstPartyCaptureRecordV1.fromJsonLine codec.toRecordCodec text
    requireReplayedRecordIsAuthorized codec.toRecordCodec contract record
    s.receive partition sessionDay record

def replayText (text : Text) : Except Exn ReplayV1 :=
  Replay.replay (replayLine codec contract partition sessionDay)
    { perWindow := partition.coverage.map fun _ => 0 } (lines text)

def requireReconciled (manifest : ManifestV1) (s : ReplayV1) : Except Exn Unit :=
  if (s.count : ℤ) ≠ partition.recordCount then
    refuse "replayed_record_count_disagrees_with_manifest"
  else if s.perWindow ≠ partition.coverage.map CaptureCoverageIntervalV1.recordCount then
    refuse "replayed_records_per_window_disagree_with_declared_coverage"
  else if (s.firstArrival, s.lastArrival) ≠
      (manifest.firstArrivalUtcNanos, manifest.lastArrivalUtcNanos) then
    refuse "replayed_arrival_bounds_disagree_with_manifest"
  else .ok ()

end Replay

def rereadJson {α : Type} (directory : Directory) (coding : Coding α) (name message : String) :
    Except Exn α :=
  match readJson directory coding name with
  | .error _ => refuse message
  | .ok value => .ok value

/-- `replay_partition_v1`, exhausted: the records it yields. -/
def replayPartitionV1 (codec : ArchiveCodec) (authority : CaptureAuthority)
    (directory : Directory) (contract : Option FirstPartyCaptureContractV1) :
    Except Exn (List FirstPartyCaptureRecordV1) := do
  let authorized := partitionContract codec authority directory contract
  let partition := readPartitionStatusV1 codec authority directory (some authorized)
  if partition.status ≠ statusComplete then
    refuse ("refusing_to_replay_an_unproven_partition:" ++ ",".intercalate partition.reasons)
  else
    let session ← rereadJson directory codec.session sessionFileName
      "partition_session_metadata_is_unreadable"
    let text ← openRecordsText codec directory
    let s ← replayText codec authorized partition session.utcDay (text.getD [])
    let manifest ← rereadJson directory codec.manifest manifestFileName
      "partition_manifest_is_unreadable"
    requireReconciled partition manifest s
    return s.records

section ReplayLemmas

variable {codec : ArchiveCodec} {authority : CaptureAuthority} {directory : Directory}
  {contract : Option FirstPartyCaptureContractV1} {metadata : MetadataV1}

theorem replayPartitionV1_of_proves
    (h : Proves codec directory (partitionContract codec authority directory contract) metadata) :
    replayPartitionV1 codec authority directory contract = (do
      let text ← openRecordsText codec directory
      let s ← replayText codec (partitionContract codec authority directory contract)
        metadata.partition metadata.session.utcDay (text.getD [])
      requireReconciled metadata.partition metadata.manifest s
      return s.records) := by
  have hstatus : readPartitionStatusV1 codec authority directory
      (some (partitionContract codec authority directory contract)) = metadata.partition :=
    readPartitionStatusV1_of_proves h
  obtain ⟨hmanifest, hsession, -, -⟩ := readMetadata_eq_ok.mp h.1
  unfold replayPartitionV1
  simp only [hstatus, rereadJson, hmanifest, hsession, Except.ok_bind]
  exact if_neg (not_not_intro rfl)

end ReplayLemmas

end CaptureArchive

end TradePlatform
