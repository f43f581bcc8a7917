/-
# `TradePlatform.HourFactsBetween` — the facts of an hour from part of an archive

`proven_windows_between_v1` proves the partitions whose manifest touches a range and leaves the
others unread.  It says that the facts of the hours inside the range are the same; they are,
except where a rollover between a partition that is read and one that is not shows in the hour.
-/
import TradePlatform.CaptureGaps
import TradePlatform.CaptureWriterRuns
import TradePlatform.HourFactsCut

namespace TradePlatform

namespace HourlyAcceptance

open CaptureArchive

/-! ## The code -/

section Code

variable (codec : ArchiveCodec) (authority : CaptureAuthority)
  (contract : FirstPartyCaptureContractV1)

/-- `_manifest_touches`: a manifest that cannot be read declares nothing. -/
def manifestTouches (directory : Directory) (startUtcNanos endUtcNanos : ℤ) : Bool :=
  match readJson directory codec.manifest manifestFileName with
  | .error _ => false
  | .ok manifest =>
      match manifest.coverage.mapM CaptureCoverageIntervalV1.fromPayload with
      | .error _ => false
      | .ok intervals =>
          intervals.any fun interval =>
            decide (interval.startUtcNanos < endUtcNanos ∧ startUtcNanos < interval.endUtcNanos)

def windowsOf (partition : String × Directory) : List ProvenWindowV1 :=
  (provenBy partition.1
    (readPartitionStatusV1 codec authority partition.2 (some contract))).elim (fun _ => []) id

/-- `proven_windows_between_v1`, over the partitions that `find_partitions_v1` lists. -/
def provenWindowsBetweenV1 (partitions : List (String × Directory))
    (startUtcNanos endUtcNanos : ℤ) : Except Exn (List ProvenWindowV1) :=
  if endUtcNanos ≤ startUtcNanos then refuse "window_range_must_not_be_empty"
  else
    let read := partitions.filter fun partition =>
      decide (sessionSourceIdV1 codec partition.2 = some contract.sourceId) &&
        manifestTouches codec partition.2 startUtcNanos endUtcNanos
    .ok (sortBy startKey (read.flatMap (windowsOf codec authority contract)))

/-- `hour_facts_v1(chain_proven_runs_v1(windows), hour_start)`. -/
def hourFactsOf (windows : List ProvenWindowV1) (hourStart : ℤ) : Except Exn HourFactsV1 := do
  let runs ← chainProvenRunsV1 windows
  hourFactsV1 runs hourStart

end Code

/-! ## What a COMPLETE partition states -/

section Partition

variable {codec : ArchiveCodec} {authority : CaptureAuthority}
  {contract : FirstPartyCaptureContractV1} {partition : String × Directory}
  {metadata : MetadataV1} {start stop : ℤ}

theorem provenBy_of_proves (h : Proves codec partition.2 contract metadata) :
    provenBy partition.1 (readPartitionStatusV1 codec authority partition.2 (some contract)) =
      .inr (metadata.coverage.map fun interval => ⟨metadata.manifest.sessionId, interval⟩) := by
  have hstatus : readPartitionStatusV1 codec authority partition.2 (some contract) =
      metadata.partition := readPartitionStatusV1_of_proves h
  rw [hstatus]
  rfl

theorem windowsOf_of_proves (h : Proves codec partition.2 contract metadata) :
    windowsOf codec authority contract partition =
      metadata.coverage.map fun interval => ⟨metadata.manifest.sessionId, interval⟩ := by
  unfold windowsOf
  rw [provenBy_of_proves h]
  rfl

theorem manifestTouches_of_proves (h : Proves codec partition.2 contract metadata) :
    manifestTouches codec partition.2 start stop =
      (windowsOf codec authority contract partition).any fun w =>
        decide (Touches start stop w) := by
  obtain ⟨hmanifest, -, hcoverage, -⟩ := readMetadata_eq_ok.mp h.1
  unfold manifestTouches
  rw [windowsOf_of_proves h, hmanifest]
  dsimp only
  rw [hcoverage, List.any_map]
  rfl

theorem metadataReasons_of_proves (h : Proves codec partition.2 contract metadata) :
    metadata.session.sourceId = contract.sourceId ∧
      metadata.coverage.IsChain fun previous following =>
        previous.endUtcNanos ≤ following.startUtcNanos := by
  have hreasons := h.2
  unfold partitionReasons at hreasons
  dsimp only at hreasons
  obtain ⟨-, hreasons⟩ := List.append_eq_nil_iff.mp hreasons
  unfold metadataReasons at hreasons
  simp only [List.append_eq_nil_iff, reason_eq_nil, not_not] at hreasons
  obtain ⟨⟨⟨⟨⟨⟨⟨⟨⟨-, hsource⟩, -⟩, -⟩, hauthorized⟩, -⟩, hchain⟩, -⟩, -⟩, -⟩ := hreasons
  exact ⟨hsource.trans hauthorized, hchain⟩

theorem sessionSourceIdV1_of_proves (h : Proves codec partition.2 contract metadata) :
    sessionSourceIdV1 codec partition.2 = some contract.sourceId := by
  obtain ⟨-, hsession, -, -⟩ := readMetadata_eq_ok.mp h.1
  obtain ⟨text, htext, hloads⟩ := readJson_eq_ok.mp hsession
  unfold sessionSourceIdV1
  rw [htext, Option.map_some, hloads]
  exact congrArg some (metadataReasons_of_proves h).1

instance : IsTrans CaptureCoverageIntervalV1 fun previous following =>
    previous.endUtcNanos ≤ following.startUtcNanos :=
  ⟨fun _ b _ hab hbc => hab.trans (b.start_lt_end.le.trans hbc)⟩

theorem windowsOf_ordered (h : Proves codec partition.2 contract metadata) :
    (∀ w ∈ windowsOf codec authority contract partition,
      w.sessionId = metadata.manifest.sessionId) ∧
      Ordered (windowsOf codec authority contract partition) := by
  rw [windowsOf_of_proves h]
  constructor
  · intro w hw
    obtain ⟨interval, -, rfl⟩ := List.mem_map.mp hw
    rfl
  · exact List.pairwise_map.mpr (List.isChain_iff_pairwise.mp (metadataReasons_of_proves h).2)

end Partition

/-! ## An archive -/

/-- COMPLETE partitions of one source: each holds the windows of one UTC day, and no two are of
the same session and day, as each has a directory of its own (`partition_directory`). -/
structure Archive (codec : ArchiveCodec) (authority : CaptureAuthority)
    (contract : FirstPartyCaptureContractV1) (partitions : List (String × Directory)) : Prop where
  complete : ∀ partition ∈ partitions,
    (readPartitionStatusV1 codec authority partition.2 (some contract)).status = statusComplete
  oneDay : ∀ partition ∈ partitions, ∀ w ∈ windowsOf codec authority contract partition,
    ∀ w' ∈ windowsOf codec authority contract partition,
      dayOf w = (w'.interval.endUtcNanos - 1) / dayNanos
  distinct : (partitions.map (windowsOf codec authority contract)).Pairwise OtherDay

namespace Archive

variable {codec : ArchiveCodec} {authority : CaptureAuthority}
  {contract : FirstPartyCaptureContractV1} {partitions : List (String × Directory)}
  {partition : String × Directory} {start stop hourStart : ℤ}

theorem proves (h : Archive codec authority contract partitions) (hmem : partition ∈ partitions) :
    ∃ metadata, Proves codec partition.2 contract metadata := by
  obtain ⟨metadata, hproves⟩ := status_eq_complete.mp (h.complete partition hmem)
  exact ⟨metadata, hproves⟩

theorem days (h : Archive codec authority contract partitions) :
    Days (partitions.map (windowsOf codec authority contract)) := by
  refine ⟨?_, ?_, ?_, h.distinct⟩
  · intro p hp w hw w' hw'
    obtain ⟨partition, hmem, rfl⟩ := List.mem_map.mp hp
    obtain ⟨metadata, hproves⟩ := h.proves hmem
    obtain ⟨hsession, -⟩ := @windowsOf_ordered codec authority contract partition _ hproves
    rw [hsession w hw, hsession w' hw']
  · intro p hp
    obtain ⟨partition, hmem, rfl⟩ := List.mem_map.mp hp
    obtain ⟨metadata, hproves⟩ := h.proves hmem
    exact (windowsOf_ordered hproves).2
  · intro p hp
    obtain ⟨partition, hmem, rfl⟩ := List.mem_map.mp hp
    exact h.oneDay partition hmem

theorem provenWindowsBetweenV1_eq (h : Archive codec authority contract partitions)
    (hlt : start < stop) :
    provenWindowsBetweenV1 codec authority contract partitions start stop =
      .ok (sortBy startKey
        (touching start stop (partitions.map (windowsOf codec authority contract)))) := by
  have hread : partitions.filter (fun partition =>
        decide (sessionSourceIdV1 codec partition.2 = some contract.sourceId) &&
          manifestTouches codec partition.2 start stop) =
      partitions.filter fun partition =>
        (windowsOf codec authority contract partition).any fun w =>
          decide (Touches start stop w) := by
    refine List.filter_congr fun partition hmem => ?_
    obtain ⟨metadata, hproves⟩ := h.proves hmem
    rw [sessionSourceIdV1_of_proves hproves, decide_eq_true rfl, Bool.true_and]
    exact manifestTouches_of_proves hproves
  unfold provenWindowsBetweenV1 touching
  rw [if_neg (not_le.mpr hlt), hread, List.filter_map]
  rfl

theorem availability_windows (h : Archive codec authority contract partitions) :
    (deriveArchiveAvailabilityV1 codec authority partitions (some contract)).windows =
      sortBy startKey (partitions.map (windowsOf codec authority contract)).flatten := by
  have hwanted : partitions.filter (fun partition =>
      (sessionSourceIdV1 codec partition.2).all fun claimed =>
        decide (claimed = contract.sourceId)) = partitions := by
    refine List.filter_eq_self.mpr fun partition hmem => ?_
    obtain ⟨metadata, hproves⟩ := h.proves hmem
    rw [sessionSourceIdV1_of_proves hproves]
    exact decide_eq_true rfl
  unfold deriveArchiveAvailabilityV1
  dsimp only [Option.getD_some]
  rw [hwanted, List.filterMap_map]
  congr 2
  rw [← List.filterMap_eq_map]
  refine List.filterMap_congr fun partition hmem => ?_
  obtain ⟨metadata, hproves⟩ := h.proves hmem
  simp only [Function.comp_apply]
  rw [windowsOf_of_proves hproves, provenBy_of_proves hproves]
  rfl

theorem hourFactsOf_sortBy {windows : List ProvenWindowV1} (hkey : KeyTells windowKey windows) :
    hourFactsOf (sortBy startKey windows) hourStart = hourFactsOf windows hourStart := by
  unfold hourFactsOf chainProvenRunsV1
  have hkey' : KeyTells windowKey (sortBy startKey windows) := fun a ha b hb =>
    hkey a (mem_sortBy.mp ha) b (mem_sortBy.mp hb)
  rw [sortBy_congr hkey' (sortBy_perm startKey windows)]

/-- The facts of an hour of the range are the same from the partitions that touch the range as
from the whole archive precisely if no rollover is cut that shows in the hour. -/
theorem provenWindowsBetweenV1_facts (h : Archive codec authority contract partitions)
    (hstart : start ≤ hourStart) (hstop : hourStart + hourNanos ≤ stop)
    (hgrid : hourStart % hourNanos = 0) :
    (provenWindowsBetweenV1 codec authority contract partitions start stop >>=
        fun windows => hourFactsOf windows hourStart) =
      hourFactsOf (deriveArchiveAvailabilityV1 codec authority partitions (some contract)).windows
        hourStart ↔
    ¬ ∃ a b, Days.CutAt start stop hourStart
      (partitions.map (windowsOf codec authority contract)) a b := by
  have hlt : start < stop := by
    have hpos : (0 : ℤ) < hourNanos := by decide
    omega
  have hdays := h.days
  have hkey := hdays.keyTells
  have hkey' : KeyTells windowKey
      (touching start stop (partitions.map (windowsOf codec authority contract))) := by
    rw [hdays.touching_eq_filter]
    exact hkey.filter _
  obtain ⟨kept, hkept, -⟩ := chainProvenRunsV1_chains
    (touching start stop (partitions.map (windowsOf codec authority contract)))
  obtain ⟨all, hall, -⟩ := chainProvenRunsV1_chains
    (partitions.map (windowsOf codec authority contract)).flatten
  rw [h.provenWindowsBetweenV1_eq hlt, h.availability_windows, Except.ok_bind,
    hourFactsOf_sortBy hkey', hourFactsOf_sortBy hkey]
  unfold hourFactsOf
  rw [hkept, hall]
  exact hdays.facts_iff hstart hstop hgrid hkept hall

end Archive

/-! ### A midnight -/

namespace Midnight

def sealedDay (sessionId : UUID) (day : ℤ) (interval : CaptureCoverageIntervalV1) :
    Except Exn Directory := do
  let fresh ← CapturePartitionWriterV1.init Sample.codec Directory.empty Sample.contract sessionId
    day 100
  let declared ← fresh.declareCoverage interval
  let finalized ← declared.finalize Sample.codec
  return finalized.directory

theorem sealedDay_proves (sessionId : UUID) (day : ℤ) {interval : CaptureCoverageIntervalV1}
    (hstart : 0 ≤ interval.startUtcNanos) (hcount : interval.recordCount = 0) :
    ∃ directory metadata, sealedDay sessionId day interval = .ok directory ∧
      Proves Sample.codec directory Sample.contract metadata ∧
      metadata.manifest.sessionId = sessionId ∧ metadata.coverage = [interval] := by
  obtain ⟨fresh, hfresh⟩ : ∃ fresh, CapturePartitionWriterV1.init Sample.codec Directory.empty
      Sample.contract sessionId day 100 = .ok fresh := ⟨_, rfl⟩
  have haccounts := accounts_init hfresh
  have hfields : fresh.frontierNanos = some 0 ∧ fresh.unclaimedCount = 0 ∧ fresh.coverage = [] ∧
      fresh.sessionId = sessionId ∧ fresh.contract = Sample.contract := by
    unfold CapturePartitionWriterV1.init at hfresh
    cases hfresh
    exact ⟨rfl, rfl, rfl, rfl, rfl⟩
  obtain ⟨hfrontier, hunclaimed, hcoverage, hsession, hcontract⟩ := hfields
  obtain ⟨declared, hdeclare⟩ : ∃ declared, fresh.declareCoverage interval = .ok declared :=
    ⟨_, CapturePartitionWriterV1.declareCoverage_eq_ok.mpr ⟨haccounts.unsealed,
      ⟨0, hfrontier, hstart⟩, hcount.trans hunclaimed.symm, fun h => absurd hunclaimed h, rfl⟩⟩
  have haccounts' := haccounts.declareCoverage hdeclare
  obtain ⟨-, -, -, -, rfl⟩ := CapturePartitionWriterV1.declareCoverage_eq_ok.mp hdeclare
  obtain ⟨finalized, hfinalize⟩ : ∃ finalized, CapturePartitionWriterV1.finalize Sample.codec _ =
      .ok finalized := ⟨_, CapturePartitionWriterV1.finalize_eq_ok.mpr
        ⟨haccounts'.unsealed, haccounts'.noManifest, rfl, rfl⟩⟩
  refine ⟨finalized.directory, _, ?_, hcontract ▸ haccounts'.proves hfinalize, hsession, ?_⟩
  · unfold sealedDay
    rw [hfresh, Except.ok_bind, hdeclare, Except.ok_bind, hfinalize]
    rfl
  · show fresh.coverage ++ [interval] = [interval]
    rw [hcoverage, List.nil_append]

def evening : CaptureCoverageIntervalV1 :=
  ⟨dayNanos - 2 * hourNanos, dayNanos - 2, .utcDayRollover, 0, by decide⟩

theorem morning_ordered : dayNanos + 1 ≤ dayNanos + hourNanos - 1 := by decide

def morning : CaptureCoverageIntervalV1 :=
  ⟨dayNanos + 1, dayNanos + hourNanos - 1, .operatorBoundedStop, 0, morning_ordered⟩

def days (first second : Directory) : List (String × Directory) :=
  [("date=1970-01-01/session=7", first), ("date=1970-01-02/session=7", second)]

theorem exists_days : ∃ first second, sealedDay 7 0 evening = .ok first ∧
    sealedDay 7 1 morning = .ok second ∧
      Archive Sample.codec Sample.authority Sample.contract (days first second) ∧
      (days first second).map (windowsOf Sample.codec Sample.authority Sample.contract) =
        [[⟨7, evening⟩], [⟨7, morning⟩]] := by
  obtain ⟨first, metadata, hfirst, hproves, hid, hcoverage⟩ :=
    @sealedDay_proves 7 0 evening (by decide) rfl
  obtain ⟨second, metadata', hsecond, hproves', hid', hcoverage'⟩ :=
    @sealedDay_proves 7 1 morning (by decide) rfl
  have hwindows : windowsOf Sample.codec Sample.authority Sample.contract
      ("date=1970-01-01/session=7", first) = [⟨7, evening⟩] := by
    rw [windowsOf_of_proves hproves, hid, hcoverage]
    rfl
  have hwindows' : windowsOf Sample.codec Sample.authority Sample.contract
      ("date=1970-01-02/session=7", second) = [⟨7, morning⟩] := by
    rw [windowsOf_of_proves hproves', hid', hcoverage']
    rfl
  have hmap : (days first second).map
      (windowsOf Sample.codec Sample.authority Sample.contract) =
        [[⟨7, evening⟩], [⟨7, morning⟩]] := by
    rw [days, List.map_cons, List.map_singleton, hwindows, hwindows']
  have hmem : ∀ partition ∈ days first second, partition = ("date=1970-01-01/session=7", first) ∨
      partition = ("date=1970-01-02/session=7", second) := by
    intro partition hpartition
    simpa [days] using hpartition
  refine ⟨first, second, hfirst, hsecond, ⟨?_, ?_, ?_⟩, hmap⟩
  · intro partition hpartition
    rcases hmem partition hpartition with rfl | rfl
    · exact status_eq_complete.mpr ⟨metadata, hproves⟩
    · exact status_eq_complete.mpr ⟨metadata', hproves'⟩
  · intro partition hpartition w hw w' hw'
    rcases hmem partition hpartition with rfl | rfl
    · rw [hwindows, List.mem_singleton] at hw hw'
      subst hw hw'
      decide
    · rw [hwindows', List.mem_singleton] at hw hw'
      subst hw hw'
      decide
  · rw [hmap]
    refine List.pairwise_pair.mpr fun w hw w' hw' _ => ?_
    rw [List.mem_singleton] at hw hw'
    subst hw hw'
    decide

end Midnight

/-- A range that has both days: the hour before the midnight shows the run that goes on. -/
theorem provenWindowsBetweenV1_facts_both : ∃ first second,
    Midnight.sealedDay 7 0 Midnight.evening = .ok first ∧
    Midnight.sealedDay 7 1 Midnight.morning = .ok second ∧
      (provenWindowsBetweenV1 Sample.codec Sample.authority Sample.contract
          (Midnight.days first second) (dayNanos - hourNanos) (dayNanos + hourNanos) >>=
        fun windows => hourFactsOf windows (dayNanos - hourNanos)) =
      hourFactsOf (deriveArchiveAvailabilityV1 Sample.codec Sample.authority
        (Midnight.days first second) (some Sample.contract)).windows (dayNanos - hourNanos) := by
  obtain ⟨first, second, hfirst, hsecond, harchive, hmap⟩ := Midnight.exists_days
  refine ⟨first, second, hfirst, hsecond, ?_⟩
  refine (harchive.provenWindowsBetweenV1_facts (by decide) (by decide) (by decide)).mpr ?_
  rw [hmap]
  have hread : ∀ w ∈ [[⟨7, Midnight.evening⟩], [⟨7, Midnight.morning⟩]].flatten,
      w ∈ touching (dayNanos - hourNanos) (dayNanos + hourNanos)
        [[⟨7, Midnight.evening⟩], [⟨7, Midnight.morning⟩]] := by decide
  rintro ⟨a, b, ⟨hnext, -⟩, hcut⟩
  have ha := hread a (mem_inOrder.mp (hnext.subset List.mem_cons_self)).1
  have hb := hread b (mem_inOrder.mp (hnext.subset (by simp))).1
  rcases hcut with ⟨-, hnot, -⟩ | ⟨hnot, -⟩
  · exact hnot hb
  · exact hnot ha

/-- The hour before a midnight at which the range ends: of the archive, a run goes on to its end
but for a nanosecond; of what is read, no run reaches it and one stops. -/
theorem provenWindowsBetweenV1_drops_rollover : ∃ first second,
    Midnight.sealedDay 7 0 Midnight.evening = .ok first ∧
    Midnight.sealedDay 7 1 Midnight.morning = .ok second ∧
      Archive Sample.codec Sample.authority Sample.contract (Midnight.days first second) ∧
      (provenWindowsBetweenV1 Sample.codec Sample.authority Sample.contract
          (Midnight.days first second) (dayNanos - hourNanos) dayNanos >>=
        fun windows => hourFactsOf windows (dayNanos - hourNanos)) =
          .ok ⟨dayNanos - hourNanos, none, [(dayNanos - 1, .utcDayRollover)]⟩ ∧
      hourFactsOf (deriveArchiveAvailabilityV1 Sample.codec Sample.authority
          (Midnight.days first second) (some Sample.contract)).windows (dayNanos - hourNanos) =
        .ok ⟨dayNanos - hourNanos, some 1, []⟩ := by
  obtain ⟨first, second, hfirst, hsecond, harchive, hmap⟩ := Midnight.exists_days
  refine ⟨first, second, hfirst, hsecond, harchive, ?_, ?_⟩
  · rw [harchive.provenWindowsBetweenV1_eq (by decide), hmap, Except.ok_bind]
    rfl
  · rw [harchive.availability_windows, hmap]
    rfl

end HourlyAcceptance

end TradePlatform
