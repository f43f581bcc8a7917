/-
# `TradePlatform.CaptureCompaction` — a compaction may be cut off anywhere

`compact_partition_v1` of `first_party_capture_archive_v1.py`: the records of a COMPLETE partition
are compressed beside the original, read back, recorded, and the original is removed.  The
process may stop between two of these steps or inside a write, and compact again.  The partition of
a writer keeps its status and its replay.
-/
import TradePlatform.CaptureWriterRuns

namespace TradePlatform

namespace CaptureArchive

open JsonLines

/-! ## What is done to the files -/

inductive FileOp where
  | write (name : String) (text : Text)
  | replace (source target : String)
  | unlink (name : String)

def FileOp.apply (directory : Directory) : FileOp → Directory
  | .write name text => directory.write name text
  | .replace source target =>
      match directory source with
      | some text => (directory.unlink source).write target text
      | none => directory
  | .unlink name => directory.unlink name

/-- What is on the disk when the process stops: a write that is cut off leaves any text. -/
inductive Leaves : Directory → List FileOp → Directory → Prop
  | stopped (directory : Directory) (ops : List FileOp) : Leaves directory ops directory
  | torn (directory : Directory) (name : String) (text left : Text) (ops : List FileOp) :
      Leaves directory (.write name text :: ops) (directory.write name left)
  | later {directory directory' : Directory} {op : FileOp} {ops : List FileOp}
      (h : Leaves (op.apply directory) ops directory') : Leaves directory (op :: ops) directory'

/-! ## The compaction -/

structure CompactionResultV1 where
  sessionId : UUID
  sourceId : UUID
  uncompressedBytes : ℕ
  compressedBytes : ℕ
  alreadyCompacted : Bool

/-- A call: the steps on the files, and what it returns after them. -/
structure Compaction where
  ops : List FileOp
  result : Except Exn CompactionResultV1

def compactionStagedName : String := compactionFileName ++ ".tmp"

section Code

/-! `gzip` compresses, and `size` is the number of bytes of a file. -/

variable (codec : ArchiveCodec) (gzip : Text → Text) (size : Text → ℕ)

def compactionRecord (manifest : ManifestV1) (expected : String) (text : Text) : CompactionV1 :=
  let body : CompactionBodyV1 := {
    schemaVersion := "first-party-capture-compaction-v1"
    codec := "gzip"
    sessionId := manifest.sessionId
    sourceId := manifest.sourceId
    manifestContentHash := manifest.manifestContentHash
    uncompressedFile := recordsFileName
    uncompressedSha256 := expected
    uncompressedBytes := size text
    compressedFile := compactedRecordsFileName
    compressedSha256 := codec.sha256 (gzip text)
    compressedBytes := size (gzip text) }
  { body with compactionContentHash := codec.compactionDigest body }

def recordedOps (record : CompactionV1) (compressed : Text) : List FileOp :=
  [.write compactionTempName compressed, .replace compactionTempName compactedRecordsFileName,
    .write compactionStagedName (codec.compaction.dumps record ++ ['\n']),
    .replace compactionStagedName compactionFileName]

/-- From the opening of the original on. -/
def compactRecords (manifest : ManifestV1) (expected : String) (text : Text) : Compaction :=
  let written : FileOp := .write compactionTempName (gzip text)
  if codec.sha256 text ≠ expected then
    ⟨[written, .unlink compactionTempName], refuse "records_changed_under_compaction"⟩
  else
    match codec.gunzip (gzip text) with
    | none => ⟨[written], .error (.osError "not a gzipped file")⟩
    | some back =>
        if codec.sha256 back ≠ expected ∨ size back ≠ size text then
          ⟨[written, .unlink compactionTempName], refuse "compacted_records_do_not_round_trip"⟩
        else
          ⟨recordedOps codec (compactionRecord codec gzip size manifest expected text)
              (gzip text) ++ [.unlink recordsFileName],
            .ok ⟨manifest.sessionId, manifest.sourceId, size text, size (gzip text), false⟩⟩

/-- Where there is a compaction record already. -/
def removeOriginal (directory : Directory) (manifest : ManifestV1) (expected : String) :
    Compaction :=
  let reasons := compactionReasons codec directory manifest expected
  if reasons ≠ [] then
    ⟨[], refuse ("existing_compaction_does_not_prove_the_manifest_bytes:" ++
      ",".intercalate reasons)⟩
  else
    match readJson directory codec.compaction compactionFileName with
    | .error name => ⟨[], .error (.valueError name)⟩
    | .ok record =>
        ⟨[.unlink recordsFileName], .ok ⟨manifest.sessionId, manifest.sourceId,
          record.uncompressedBytes, record.compressedBytes, true⟩⟩

def compactPartitionV1 (authority : CaptureAuthority)
    (contract : Option FirstPartyCaptureContractV1) (directory : Directory) : Compaction :=
  let partition := readPartitionStatusV1 codec authority directory contract
  if partition.status ≠ statusComplete ∨ partition.sessionId = none then
    ⟨[], refuse ("refusing_to_compact_an_unproven_partition:" ++
      ",".intercalate partition.reasons)⟩
  else
    match readJson directory codec.manifest manifestFileName with
    | .error name => ⟨[], .error (.valueError name)⟩
    | .ok manifest =>
        match manifest.files.lookup recordsFileName with
        | none => ⟨[], .error (.keyError recordsFileName)⟩
        | some expected =>
            if (directory compactionFileName).isSome then
              removeOriginal codec directory manifest expected
            else
              match directory recordsFileName with
              | none => ⟨[], .error (.osError "FileNotFoundError")⟩
              | some text => compactRecords codec gzip size manifest expected text

/-- A compaction that is run to some point. -/
def Compacts (authority : CaptureAuthority) (contract : Option FirstPartyCaptureContractV1)
    (directory directory' : Directory) : Prop :=
  Leaves directory (compactPartitionV1 codec gzip size authority contract directory).ops directory'

end Code

/-! ## The files that are written beside the original -/

def scratch : List String :=
  [compactionTempName, compactedRecordsFileName, compactionStagedName, compactionFileName]

def FileOp.Scratch : FileOp → Prop
  | .write name _ | .unlink name => name ∈ scratch
  | .replace source target => source ∈ scratch ∧ target ∈ scratch

section Leaves

variable {directory directory' : Directory} {op : FileOp} {ops : List FileOp} {name : String}

theorem FileOp.Scratch.apply_eq (h : op.Scratch) (hname : name ∉ scratch) :
    op.apply directory name = directory name := by
  have hne : ∀ {other}, other ∈ scratch → name ≠ other := fun hother heq => hname (heq ▸ hother)
  cases op with
  | write other text => exact Directory.write_of_ne (hne h)
  | unlink other => exact Directory.unlink_of_ne (hne h)
  | replace source target =>
      unfold FileOp.apply
      dsimp only
      cases directory source with
      | some text =>
          exact (Directory.write_of_ne (hne h.2)).trans (Directory.unlink_of_ne (hne h.1))
      | none => rfl

theorem Leaves.of_scratch (h : Leaves directory ops directory') (hops : ∀ op ∈ ops, op.Scratch)
    (hname : name ∉ scratch) : directory' name = directory name := by
  induction h with
  | stopped => rfl
  | torn directory other text left ops =>
      have hother : other ∈ scratch := hops _ List.mem_cons_self
      exact Directory.write_of_ne fun heq => hname (heq ▸ hother)
  | later _ ih =>
      rw [ih fun op hop => hops op (List.mem_cons_of_mem _ hop)]
      exact (hops _ List.mem_cons_self).apply_eq hname

theorem Leaves.append_unlink (h : Leaves directory (ops ++ [.unlink name]) directory') :
    Leaves directory ops directory' ∨
      directory' = (ops.foldl FileOp.apply directory).unlink name := by
  induction ops generalizing directory with
  | nil =>
      cases h with
      | stopped => exact .inl (.stopped _ _)
      | later h =>
          cases h
          exact .inr rfl
  | cons op ops ih =>
      cases h with
      | stopped => exact .inl (.stopped _ _)
      | torn _ other text left => exact .inl (.torn _ _ _ _ _)
      | later h => exact (ih h).imp_left .later

theorem Leaves.all : Leaves directory ops (ops.foldl FileOp.apply directory) := by
  induction ops generalizing directory with
  | nil => exact .stopped _ _
  | cons op ops ih => exact .later ih

theorem recordedOps_scratch (codec : ArchiveCodec) (record : CompactionV1) (compressed : Text) :
    ∀ op ∈ recordedOps codec record compressed, op.Scratch := by
  simp [recordedOps, FileOp.Scratch, scratch]

theorem recordedOps_foldl (codec : ArchiveCodec) (record : CompactionV1) (compressed : Text) :
    let written := (recordedOps codec record compressed).foldl FileOp.apply directory
    written compactionFileName = some (codec.compaction.dumps record ++ ['\n']) ∧
      written compactedRecordsFileName = some compressed := by
  have hcompressed : compactedRecordsFileName ≠ compactionFileName := by decide
  have hstaged : compactedRecordsFileName ≠ compactionStagedName := by decide
  simp [recordedOps, FileOp.apply, hcompressed, hstaged]

end Leaves

/-! ## What is kept -/

section Kept

variable (codec : ArchiveCodec) (manifest : ManifestV1) (expected : String)

/-- Outside the files of the compaction nothing has changed, and the records are there: as they were
sealed, or compressed under a record that proves it. -/
structure Kept (original directory : Directory) : Prop where
  outside : ∀ name, name ∉ recordsFileName :: scratch → directory name = original name
  records : (∃ text, directory recordsFileName = some text ∧ codec.sha256 text = expected) ∨
    directory recordsFileName = none ∧ (directory compactionFileName).isSome = true ∧
      compactionReasons codec directory manifest expected = []

variable {codec manifest expected} {gzip : Text → Text} {size : Text → ℕ}
  {authority : CaptureAuthority} {contract : Option FirstPartyCaptureContractV1}
  {original directory directory' : Directory}

theorem compactionReasons_congr
    (hrecord : directory compactionFileName = directory' compactionFileName)
    (hfile : directory compactedRecordsFileName = directory' compactedRecordsFileName) :
    compactionReasons codec directory manifest expected =
      compactionReasons codec directory' manifest expected := by
  unfold compactionReasons compactedFileReasons
  rw [hrecord, hfile]

theorem Kept.of_scratch (h : Kept codec manifest expected original directory) {text : Text}
    (htext : directory recordsFileName = some text) (hsha : codec.sha256 text = expected)
    (hsame : ∀ name, name ∉ scratch → directory' name = directory name) :
    Kept codec manifest expected original directory' where
  outside name hname :=
    (hsame name (List.not_mem_of_not_mem_cons hname)).trans (h.outside name hname)
  records := .inl ⟨text, (hsame _ (by decide)).trans htext, hsha⟩

theorem Kept.unlink (h : Kept codec manifest expected original directory)
    (hrecord : (directory compactionFileName).isSome = true)
    (hreasons : compactionReasons codec directory manifest expected = []) :
    Kept codec manifest expected original (directory.unlink recordsFileName) where
  outside name hname :=
    (Directory.unlink_of_ne (List.ne_of_not_mem_cons hname)).trans (h.outside name hname)
  records := by
    refine .inr ⟨Directory.unlink_self, ?_, ?_⟩
    · rwa [Directory.unlink_of_ne (by decide)]
    · rw [← hreasons]
      exact compactionReasons_congr (Directory.unlink_of_ne (by decide))
        (Directory.unlink_of_ne (by decide))

theorem Kept.compactRecords (h : Kept codec manifest expected original directory) {text : Text}
    (htext : directory recordsFileName = some text) (hsha : codec.sha256 text = expected)
    (hleft : Leaves directory (compactRecords codec gzip size manifest expected text).ops
      directory') : Kept codec manifest expected original directory' := by
  have hscratch : ∀ ops left, (∀ op ∈ ops, op.Scratch) → Leaves directory ops left →
      Kept codec manifest expected original left := fun ops left hops hleft =>
    h.of_scratch htext hsha fun name hname => hleft.of_scratch hops hname
  unfold CaptureArchive.compactRecords at hleft
  dsimp only at hleft
  split at hleft
  · exact hscratch _ _ (by simp [FileOp.Scratch, scratch]) hleft
  split at hleft
  · exact hscratch _ _ (by simp [FileOp.Scratch, scratch]) hleft
  rename_i back hback
  split at hleft
  · exact hscratch _ _ (by simp [FileOp.Scratch, scratch]) hleft
  rename_i hround
  have hround := not_not.mp (not_or.mp hround).1
  rcases hleft.append_unlink with hleft | rfl
  · exact hscratch _ _ (recordedOps_scratch _ _ _) hleft
  -- the last step: the record proves what was read back
  obtain ⟨hrecord, hfile⟩ := @recordedOps_foldl directory codec
    (compactionRecord codec gzip size manifest expected text) (gzip text)
  refine (hscratch _ _ (recordedOps_scratch _ _ _) .all).unlink (by rw [hrecord]; rfl) ?_
  unfold compactionReasons compactedFileReasons
  rw [hrecord, hfile, Option.map_some, codec.compaction.loads_newline, codec.compaction.loads_dumps]
  simp [compactionRecordReasons, compactionRecord, reason, hback, hround]

theorem Kept.compacts (h : Kept codec manifest expected original directory)
    (hmanifest : readJson directory codec.manifest manifestFileName = .ok manifest)
    (hlookup : manifest.files.lookup recordsFileName = some expected)
    (hcompacts : Compacts codec gzip size authority contract directory directory') :
    Kept codec manifest expected original directory' := by
  have hnothing : ∀ result, Leaves directory (Compaction.mk [] result).ops directory' →
      Kept codec manifest expected original directory' := by
    intro result hleft
    cases hleft
    exact h
  unfold Compacts compactPartitionV1 at hcompacts
  rw [hmanifest] at hcompacts
  dsimp only at hcompacts
  rw [hlookup] at hcompacts
  dsimp only at hcompacts
  split at hcompacts
  · exact hnothing _ hcompacts
  split at hcompacts
  · rename_i hrecord
    unfold removeOriginal at hcompacts
    dsimp only at hcompacts
    split at hcompacts
    · exact hnothing _ hcompacts
    rename_i hreasons
    split at hcompacts
    · exact hnothing _ hcompacts
    cases hcompacts with
    | stopped => exact h
    | later hremoved =>
        cases hremoved
        exact h.unlink hrecord (not_not.mp hreasons)
  · rename_i hrecord
    rcases h.records with ⟨text, htext, hsha⟩ | ⟨-, hsome, -⟩
    · rw [htext] at hcompacts
      exact h.compactRecords htext hsha hcompacts
    · exact absurd hsome hrecord

/-- The files that a writer seals. -/
def Seals (manifest : ManifestV1) (expected : String) : Prop :=
  ∃ session lifecycle, manifest.files =
    [(sessionFileName, session), (recordsFileName, expected), (lifecycleFileName, lifecycle)]

variable {metadata : MetadataV1} {authorized : FirstPartyCaptureContractV1}

theorem Kept.refl (hproves : Proves codec original authorized metadata)
    (hseals : Seals metadata.manifest expected) :
    Kept codec metadata.manifest expected original original := by
  obtain ⟨session, lifecycle, hfiles⟩ := hseals
  have hreasons :
      fileReasons codec original metadata.manifest (recordsFileName, expected) = [] := by
    have hall := hproves.2
    simp only [partitionReasons, List.append_eq_nil_iff] at hall
    exact List.flatMap_eq_nil_iff.mp hall.1.2 _ (by simp [hfiles])
  refine ⟨fun _ _ => rfl, ?_⟩
  unfold fileReasons at hreasons
  split at hreasons
  · rename_i text htext
    refine .inl ⟨text, htext, ?_⟩
    simpa [reason] using hreasons
  · rename_i hnone
    split at hreasons
    · rename_i hrecord
      exact .inr ⟨hnone, hrecord.2, hreasons⟩
    · cases hreasons

theorem Kept.proves (h : Kept codec metadata.manifest expected original directory)
    (hproves : Proves codec original authorized metadata)
    (hseals : Seals metadata.manifest expected) : Proves codec directory authorized metadata := by
  obtain ⟨session, lifecycle, hfiles⟩ := hseals
  have hsession := h.outside sessionFileName (by decide)
  have hlifecycle := h.outside lifecycleFileName (by decide)
  have hmanifest := h.outside manifestFileName (by decide)
  have hopen := h.outside openMarkerName (by decide)
  refine ⟨?_, ?_⟩
  · rw [← hproves.1]
    unfold readMetadata readJson
    rw [hmanifest, hsession]
  · have hall := hproves.2
    simp only [partitionReasons, List.append_eq_nil_iff, hfiles, List.flatMap_cons,
      List.flatMap_nil] at hall ⊢
    have hrecords : fileReasons codec directory metadata.manifest (recordsFileName, expected) =
        [] := by
      unfold fileReasons
      rcases h.records with ⟨text, htext, hsha⟩ | ⟨hnone, hsome, hreasons⟩
      · simp [htext, hsha, reason]
      · simp [hnone, hsome, hreasons]
    have hsame : ∀ name digest, name ≠ recordsFileName → directory name = original name →
        fileReasons codec directory metadata.manifest (name, digest) =
          fileReasons codec original metadata.manifest (name, digest) := by
      intro name digest hne heq
      unfold fileReasons
      simp [heq, hne]
    rw [hrecords, hsame _ _ (by decide) hsession, hsame _ _ (by decide) hlifecycle, hopen]
    exact ⟨⟨hall.1.1, hall.1.2.1, rfl, hall.1.2.2.2.1, trivial⟩, hall.2⟩

theorem Kept.openRecordsText (h : Kept codec manifest expected original directory) :
    ∃ text, openRecordsText codec directory = .ok (some text) ∧ codec.sha256 text = expected := by
  unfold CaptureArchive.openRecordsText
  rcases h.records with ⟨text, htext, hsha⟩ | ⟨hnone, hsome, hreasons⟩
  · exact ⟨text, by rw [htext], hsha⟩
  · unfold compactionReasons at hreasons
    split at hreasons
    · obtain ⟨-, hfile⟩ := List.append_eq_nil_iff.mp hreasons
      unfold compactedFileReasons at hfile
      split at hfile
      · cases hfile
      rename_i compressed hcompressed
      split at hfile
      · cases hfile
      split at hfile
      · cases hfile
      rename_i text htext
      refine ⟨text, ?_, by simpa [reason] using hfile⟩
      rw [hnone]
      dsimp only
      rw [if_neg (by simp [Option.isNone_iff_eq_none, Option.isSome_iff_ne_none.mp hsome])]
    · cases hreasons

end Kept

/-! ## Partitions of a writer -/

theorem Kept.partitionContract {codec : ArchiveCodec} {manifest : ManifestV1} {expected : String}
    {authority : CaptureAuthority} {original directory : Directory}
    (h : Kept codec manifest expected original directory)
    (contract : Option FirstPartyCaptureContractV1) :
    partitionContract codec authority directory contract =
      CaptureArchive.partitionContract codec authority original contract := by
  unfold CaptureArchive.partitionContract sessionSourceIdV1
  rw [h.outside sessionFileName (by decide)]

theorem symbolic_sha256_injective (loads : String → Option Json) :
    Function.Injective (ArchiveCodec.symbolic loads).sha256 := fun _ _ h =>
  (List.cons.inj (String.ofList_injective h)).2

end CaptureArchive

end TradePlatform
