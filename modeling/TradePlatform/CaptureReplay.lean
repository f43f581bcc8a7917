/-
# `TradePlatform.CaptureReplay` — the replay of a sealed partition

A sealed partition is COMPLETE.  Its replay carries a count for each window, which is the
number of records so far inside it; so it goes through when every window holds as many
records as it declares.
-/
import TradePlatform.CaptureSealing

namespace TradePlatform

namespace CaptureArchive

open JsonLines

/-! ## A sealed partition is COMPLETE -/

def CapturePartitionWriterV1.metadata (codec : ArchiveCodec) (writer : CapturePartitionWriterV1) :
    MetadataV1 where
  manifest := writer.manifest codec
  session := CapturePartitionWriterV1.sessionFile writer.contract writer.sessionId writer.day
    writer.clockResolutionNanos
  coverage := writer.coverage
  gaps := writer.gaps

section Metadata

variable (codec : ArchiveCodec) (writer : CapturePartitionWriterV1)

@[simp] theorem partition_sessionId :
    (writer.metadata codec).partition.sessionId = some writer.sessionId := rfl

@[simp] theorem partition_coverage :
    (writer.metadata codec).partition.coverage = writer.coverage := rfl

@[simp] theorem metadata_utcDay : (writer.metadata codec).session.utcDay = writer.day := rfl

@[simp] theorem metadata_manifest :
    (writer.metadata codec).manifest = writer.manifest codec := rfl

end Metadata

section Sealed

variable {codec : ArchiveCodec} {writer writer' : CapturePartitionWriterV1} {ledger : Ledger}

theorem Accounts.sealedFiles (h : Accounts codec writer ledger) :
    ∃ session records lifecycle, writer.directory sessionFileName = some session ∧
      writer.directory recordsFileName = some records ∧
      writer.directory lifecycleFileName = some lifecycle ∧
      writer.sealedFiles codec = [(sessionFileName, codec.sha256 session),
        (recordsFileName, codec.sha256 records), (lifecycleFileName, codec.sha256 lifecycle)] := by
  obtain ⟨lifecycle, hlifecycle⟩ := h.lifecycleText
  refine ⟨_, _, lifecycle, h.sessionText, h.recordsText, hlifecycle, ?_⟩
  simp [CapturePartitionWriterV1.sealedFiles, h.sessionText, h.recordsText, hlifecycle]

theorem finalize_directory {name : String} (hmanifest : name ≠ manifestFileName)
    (hopen : name ≠ openMarkerName) (h : writer.finalize codec = .ok writer') :
    writer'.directory name = writer.directory name := by
  obtain ⟨-, -, -, rfl⟩ := CapturePartitionWriterV1.finalize_eq_ok.mp h
  dsimp only
  rw [Directory.unlink_of_ne hopen, Directory.write_of_ne hmanifest]

theorem finalize_manifest (h : writer.finalize codec = .ok writer') :
    writer'.directory manifestFileName =
      some (codec.manifest.dumps (writer.manifest codec) ++ ['\n']) := by
  obtain ⟨-, -, -, rfl⟩ := CapturePartitionWriterV1.finalize_eq_ok.mp h
  dsimp only
  rw [Directory.unlink_of_ne (by decide), Directory.write_self]

theorem finalize_open (h : writer.finalize codec = .ok writer') :
    writer'.directory openMarkerName = none := by
  obtain ⟨-, -, -, rfl⟩ := CapturePartitionWriterV1.finalize_eq_ok.mp h
  dsimp only
  rw [Directory.unlink_self]

section Bounds

variable {claims : List (List FirstPartyCaptureRecordV1 × CaptureCoverageIntervalV1)} {arrival : ℤ}

theorem exists_contains_head (hclaimed : ∀ claim ∈ claims, ClaimChecked claim)
    (h : arrival ∈ (arrivals (claims.flatMap Prod.fst)).head?) :
    ∃ interval ∈ claims.map Prod.snd, interval.Contains arrival := by
  induction claims with
  | nil => simp [arrivals] at h
  | cons claim claims ih =>
      rw [List.flatMap_cons, arrivals_append, List.head?_append] at h
      cases hhead : (arrivals claim.1).head? with
      | none =>
          rw [hhead] at h
          obtain ⟨interval, hinterval, hcontains⟩ :=
            ih (fun c hc => hclaimed c (List.mem_cons_of_mem _ hc)) h
          exact ⟨interval, List.mem_cons_of_mem _ hinterval, hcontains⟩
      | some first =>
          rw [hhead] at h
          cases h
          exact ⟨claim.2, by simp, (hclaimed claim List.mem_cons_self).first arrival hhead⟩

theorem exists_contains_getLast (hclaimed : ∀ claim ∈ claims, ClaimChecked claim)
    (h : arrival ∈ (arrivals (claims.flatMap Prod.fst)).getLast?) :
    ∃ interval ∈ claims.map Prod.snd, interval.Contains arrival := by
  induction claims using List.reverseRecOn with
  | nil => simp [arrivals] at h
  | append_singleton claims claim ih =>
      rw [List.flatMap_append, arrivals_append, List.getLast?_append, List.flatMap_singleton] at h
      cases hlast : (arrivals claim.1).getLast? with
      | none =>
          rw [hlast] at h
          obtain ⟨interval, hinterval, hcontains⟩ :=
            ih (fun c hc => hclaimed c (List.mem_append_left _ hc)) h
          refine ⟨interval, ?_, hcontains⟩
          rw [List.map_append]
          exact List.mem_append_left _ hinterval
      | some last =>
          rw [hlast] at h
          cases h
          exact ⟨claim.2, by simp, (hclaimed claim (by simp)).last arrival hlast⟩

end Bounds

theorem Ledger.records_eq {ledger : Ledger} (hpending : ledger.pending = []) :
    ledger.records = ledger.claims.flatMap Prod.fst := by
  rw [Ledger.records, hpending, List.append_nil]

theorem Accounts.bounds (h : Accounts codec writer ledger) (hpending : ledger.pending = [])
    {arrival : ℤ} (harrival : arrival ∈ (arrivals ledger.records).head? ∨
      arrival ∈ (arrivals ledger.records).getLast?) :
    ∃ interval ∈ writer.coverage, interval.Contains arrival := by
  rw [Ledger.records_eq hpending] at harrival
  rw [h.coverage]
  rcases harrival with harrival | harrival
  · exact exists_contains_head h.claimed harrival
  · exact exists_contains_getLast h.claimed harrival

theorem Accounts.sum_counts (h : Accounts codec writer ledger) (hpending : ledger.pending = []) :
    (writer.coverage.map CaptureCoverageIntervalV1.recordCount).sum = ledger.records.length := by
  have hcounts : ledger.claims.map (fun claim => claim.2.recordCount) =
      ledger.claims.map fun claim => claim.1.length :=
    List.map_congr_left fun claim hclaim => (h.claimed claim hclaim).count
  rw [h.coverage, List.map_map, Ledger.records_eq hpending, List.length_flatMap]
  exact congrArg List.sum hcounts

theorem Accounts.metadataReasons (h : Accounts codec writer ledger)
    (hpending : ledger.pending = []) :
    metadataReasons (writer.manifest codec) (writer.metadata codec).session writer.coverage
      writer.gaps writer.contract = [] := by
  have hcount : (writer.manifest codec).recordCount = ledger.records.length :=
    congrArg Nat.cast h.count
  have hfirst : (writer.manifest codec).firstArrivalUtcNanos = (arrivals ledger.records).head? :=
    h.first
  have hlast : (writer.manifest codec).lastArrivalUtcNanos = (arrivals ledger.records).getLast? :=
    h.last
  have hchain : writer.coverage.IsChain fun previous following =>
      previous.endUtcNanos ≤ following.startUtcNanos := h.inOrder.isChain
  have hbounds : arrivalBoundReasons (writer.manifest codec) writer.coverage = [] := by
    unfold arrivalBoundReasons
    rw [hcount, hfirst, hlast]
    by_cases hnil : ledger.records = []
    · simp [hnil, arrivals]
    · have hne : arrivals ledger.records ≠ [] := fun h => hnil (List.map_eq_nil_iff.mp h)
      have hpos : (ledger.records.length : ℤ) ≠ 0 := by
        simpa using fun h => hnil (List.length_eq_zero_iff.mp h)
      obtain ⟨first, hf⟩ := Option.isSome_iff_exists.mp (List.isSome_head?.mpr hne)
      obtain ⟨last, hl⟩ := Option.isSome_iff_exists.mp (List.getLast?_isSome.mpr hne)
      rw [if_neg hpos, hf, hl]
      simp only [reason_eq_nil, not_or, not_not]
      exact ⟨h.bounds hpending (.inl hf), h.bounds hpending (.inr hl)⟩
  unfold CaptureArchive.metadataReasons
  simp only [List.append_eq_nil_iff, reason_eq_nil, not_not, hbounds]
  refine ⟨⟨⟨⟨⟨⟨⟨⟨⟨rfl, rfl⟩, rfl⟩, rfl⟩, rfl⟩, rfl⟩, hchain⟩, ?_⟩, ?_⟩, trivial⟩
  · rintro ⟨gap, hgap, interval, hinterval, hoverlaps⟩
    exact h.apart gap hgap interval hinterval hoverlaps
  · rw [hcount, h.sum_counts hpending]

theorem Accounts.pending_of_finalize (h : Accounts codec writer ledger)
    (hfinalize : writer.finalize codec = .ok writer') : ledger.pending = [] := by
  obtain ⟨-, -, hcount, -⟩ := CapturePartitionWriterV1.finalize_eq_ok.mp hfinalize
  exact List.length_eq_zero_iff.mp (h.unclaimedCount.symm.trans hcount)

theorem mapM_toPayload {α β : Type} {toPayload : α → β} {fromPayload : β → Except Exn α}
    (h : ∀ a, fromPayload (toPayload a) = .ok a) (as : List α) :
    (as.map toPayload).mapM fromPayload = .ok as := by
  induction as with
  | nil => rfl
  | cons a as ih =>
      rw [List.map_cons, List.mapM_cons, h, Except.ok_bind, ih]
      rfl

theorem Accounts.proves (h : Accounts codec writer ledger)
    (hfinalize : writer.finalize codec = .ok writer') :
    Proves codec writer'.directory writer.contract (writer.metadata codec) := by
  have hpending := h.pending_of_finalize hfinalize
  obtain ⟨session, records, lifecycle, hsession, hrecords, hlifecycle, hfiles⟩ := h.sealedFiles
  have hsession' := (finalize_directory (by decide) (by decide) hfinalize).trans hsession
  have hrecords' := (finalize_directory (by decide) (by decide) hfinalize).trans hrecords
  have hlifecycle' := (finalize_directory (by decide) (by decide) hfinalize).trans hlifecycle
  constructor
  · refine readMetadata_eq_ok.mpr ⟨?_, ?_, ?_, ?_⟩
    · exact readJson_eq_ok.mpr ⟨_, finalize_manifest hfinalize,
        (codec.manifest.loads_newline _).trans (codec.manifest.loads_dumps _)⟩
    · refine readJson_eq_ok.mpr ⟨_, hsession', ?_⟩
      obtain rfl := Option.some.inj (h.sessionText.symm.trans hsession)
      exact (codec.session.loads_newline _).trans (codec.session.loads_dumps _)
    · exact mapM_toPayload CaptureCoverageIntervalV1.fromPayload_toPayload _
    · exact mapM_toPayload CaptureGapV1.fromPayload_toPayload _
  · have hmanifestFiles : (writer.manifest codec).files = writer.sealedFiles codec := rfl
    unfold partitionReasons
    simp only [CapturePartitionWriterV1.metadata, hmanifestFiles, hfiles]
    simp [finalize_open hfinalize, fileReasons, hsession', hrecords', hlifecycle',
      CapturePartitionWriterV1.manifest]
    exact h.metadataReasons hpending

theorem Accounts.partitionContract {authority : CaptureAuthority}
    (h : Accounts codec writer ledger) (hcontract : writer.contract ∈ authority.contracts)
    (hfinalize : writer.finalize codec = .ok writer') :
    partitionContract codec authority writer'.directory none = writer.contract := by
  have hsession := (finalize_directory (by decide) (by decide) hfinalize).trans h.sessionText
  have hsource : sessionSourceIdV1 codec writer'.directory = some writer.contract.sourceId := by
    unfold sessionSourceIdV1
    rw [hsession, Option.map_some, codec.session.loads_newline, codec.session.loads_dumps]
    rfl
  unfold CaptureArchive.partitionContract
  simp only [hsource, Option.bind_some]
  rw [CaptureAuthority.resolve_sourceId hcontract]
  rfl

end Sealed

/-! ## The replay counts the records of each window -/

def Follows (before after : FirstPartyCaptureRecordV1) : Prop :=
  after.sequence = before.sequence + 1 ∧
    before.arrivalMonotonicNanos ≤ after.arrivalMonotonicNanos

instance (before after : FirstPartyCaptureRecordV1) : Decidable (Follows before after) :=
  inferInstanceAs (Decidable (_ ∧ _))

section Windows

variable {coverage : List CaptureCoverageIntervalV1} {v w : CaptureCoverageIntervalV1} {i j : ℕ}
  {x : ℤ}

theorem InOrder.lt_of_lt (h : InOrder coverage) (hi : coverage[i]? = some v)
    (hj : coverage[j]? = some w) (hij : i < j) : v.endUtcNanos ≤ w.startUtcNanos := by
  obtain ⟨hilt, rfl⟩ := List.getElem?_eq_some_iff.mp hi
  obtain ⟨hjlt, rfl⟩ := List.getElem?_eq_some_iff.mp hj
  exact List.pairwise_iff_getElem.mp h i j hilt hjlt hij

theorem InOrder.unique (h : InOrder coverage) (hi : coverage[i]? = some v)
    (hj : coverage[j]? = some w) (hv : v.Contains x) (hw : w.Contains x) : i = j := by
  unfold CaptureCoverageIntervalV1.Contains at hv hw
  rcases lt_trichotomy i j with hij | hij | hij
  · have := h.lt_of_lt hi hj hij
    omega
  · exact hij
  · have := h.lt_of_lt hj hi hij
    omega

theorem InOrder.bisectRight_eq (h : InOrder coverage) (hi : coverage[i]? = some w)
    (hx : w.Contains x) :
    Bisect.bisectRight (coverage.map CaptureCoverageIntervalV1.startUtcNanos) x = i + 1 := by
  have hsorted : (coverage.map CaptureCoverageIntervalV1.startUtcNanos).Pairwise (· ≤ ·) :=
    List.pairwise_map.mpr (h.imp fun {a b} hab => by have := a.start_lt_end; omega)
  have hlow := Bisect.lt_bisectRight (x := x) hsorted
    (show (coverage.map CaptureCoverageIntervalV1.startUtcNanos)[i]? = some w.startUtcNanos by
      rw [List.getElem?_map, hi]; rfl)
  have hlow := hlow.mpr hx.1
  have hle := Bisect.bisectRight_le_length (x := x) hsorted
  rw [List.length_map] at hle
  by_contra hne
  -- a window after this one would start at or before the reading that this one ends after
  have hlt : i + 1 < coverage.length := by omega
  have hnext := Bisect.lt_bisectRight (x := x) hsorted
    (show (coverage.map CaptureCoverageIntervalV1.startUtcNanos)[i + 1]? =
        some coverage[i + 1].startUtcNanos by
      rw [List.getElem?_map, List.getElem?_eq_getElem hlt]; rfl)
  have hstart := hnext.mp (by omega)
  have hend := h.lt_of_lt hi (List.getElem?_eq_getElem hlt) (Nat.lt_succ_self i)
  have := hx.2
  omega

end Windows

def ReplayV1.after (coverage : List CaptureCoverageIntervalV1)
    (records : List FirstPartyCaptureRecordV1) : ReplayV1 where
  perWindow := coverage.map fun interval =>
    records.countP fun record => interval.Contains record.arrivalUtcNanos
  count := records.length
  firstArrival := (arrivals records).head?
  lastArrival := (arrivals records).getLast?
  previousMonotonic := records.getLast?.map FirstPartyCaptureRecordV1.arrivalMonotonicNanos
  previousSequence := records.getLast?.map FirstPartyCaptureRecordV1.sequence
  records := records

section Admit

variable {codec : ArchiveCodec} {contract : FirstPartyCaptureContractV1}
  {partition : CapturePartitionV1} {sessionDay : ℤ} {record : FirstPartyCaptureRecordV1}
  {records todo : List FirstPartyCaptureRecordV1}

theorem modify_countP {coverage : List CaptureCoverageIntervalV1} (h : InOrder coverage) {i : ℕ}
    {w : CaptureCoverageIntervalV1} (hi : coverage[i]? = some w)
    (hx : w.Contains record.arrivalUtcNanos) :
    (coverage.map fun interval => records.countP fun r =>
        interval.Contains r.arrivalUtcNanos).modify i (· + 1) =
      coverage.map fun interval => (records ++ [record]).countP fun r =>
        interval.Contains r.arrivalUtcNanos := by
  refine List.ext_getElem? fun j => ?_
  rw [List.getElem?_modify, List.getElem?_map, List.getElem?_map]
  cases hj : coverage[j]? with
  | none => rfl
  | some v =>
      by_cases hij : i = j
      · obtain rfl : w = v := Option.some.inj (hi.symm.trans (hij ▸ hj))
        simp [hij, List.countP_append, hx]
      · have hv : ¬ v.Contains record.arrivalUtcNanos := fun hv => hij (h.unique hi hj hx hv)
        simp [hij, List.countP_append, hv]

structure Admissible (codec : ArchiveCodec) (contract : FirstPartyCaptureContractV1)
    (partition : CapturePartitionV1) (sessionDay : ℤ) (record : FirstPartyCaptureRecordV1) :
    Prop where
  verified : record.IntegrityVerified codec.toRecordCodec
  reproducible : Reproducible codec.toRecordCodec contract record
  session : ∀ sessionId ∈ partition.sessionId, record.sessionId = sessionId
  day : utcDayOfNanos record.arrivalUtcNanos = sessionDay
  inside : ∃ interval ∈ partition.coverage, interval.Contains record.arrivalUtcNanos

theorem ReplayV1.receive_after (h : Admissible codec contract partition sessionDay record)
    (horder : InOrder partition.coverage)
    (hfollows : ∀ last ∈ records.getLast?, Follows last record) :
    (ReplayV1.after partition.coverage records).receive partition sessionDay record =
      .ok (ReplayV1.after partition.coverage (records ++ [record])) := by
  obtain ⟨w, hw, hx⟩ := h.inside
  obtain ⟨i, hi⟩ := List.getElem?_of_mem hw
  have hsession : (partition.sessionId.any fun sessionId => record.sessionId ≠ sessionId) =
      false := by
    rw [Option.any_eq_false]
    intro sessionId hsome
    simpa using h.session sessionId hsome
  have hmonotonic : ((ReplayV1.after partition.coverage records).previousMonotonic.any
      fun previous => record.arrivalMonotonicNanos < previous) = false := by
    rw [Option.any_eq_false]
    intro previous hsome
    obtain ⟨last, hlast, rfl⟩ := Option.map_eq_some_iff.mp hsome
    simpa using (hfollows last hlast).2
  have hsequence : ((ReplayV1.after partition.coverage records).previousSequence.any
      fun previous => record.sequence ≠ previous + 1) = false := by
    rw [Option.any_eq_false]
    intro previous hsome
    obtain ⟨last, hlast, rfl⟩ := Option.map_eq_some_iff.mp hsome
    simpa using (hfollows last hlast).1
  unfold ReplayV1.receive
  rw [hsession, hmonotonic, hsequence, horder.bisectRight_eq hi hx]
  simp only [Bool.false_eq_true, if_false, h.day, ne_eq, not_true_eq_false, Nat.add_sub_cancel,
    hi, Option.any_some, decide_eq_true hx, Nat.succ_ne_zero, Bool.true_eq_false, or_self]
  simp only [ReplayV1.after, modify_countP horder hi hx]
  simp [arrivals]

theorem replayLine_toJsonLine (hverified : record.IntegrityVerified codec.toRecordCodec)
    (s : ReplayV1) :
    replayLine codec contract partition sessionDay s (record.toJsonLine codec.toRecordCodec) = (do
      requireReplayedRecordIsAuthorized codec.toRecordCodec contract record
      s.receive partition sessionDay record) := by
  have hbraced : Braced (record.toJsonLine codec.toRecordCodec) :=
    FirstPartyCaptureRecordV1.braced_toJsonLine
  have hstrip : strip isSpace (record.toJsonLine codec.toRecordCodec) =
      record.toJsonLine codec.toRecordCodec := hbraced.strip rfl rfl
  unfold replayLine
  simp only [hstrip, if_neg hbraced.ne_nil,
    FirstPartyCaptureRecordV1.fromJsonLine_toJsonLine hverified, Except.ok_bind]

theorem replayLine_of_reproducible (hverified : record.IntegrityVerified codec.toRecordCodec)
    (hreproducible : Reproducible codec.toRecordCodec contract record) (s : ReplayV1) :
    replayLine codec contract partition sessionDay s (record.toJsonLine codec.toRecordCodec) =
      s.receive partition sessionDay record := by
  have hauthorized : requireReplayedRecordIsAuthorized codec.toRecordCodec contract record =
      .ok () := hreproducible
  rw [replayLine_toJsonLine hverified, hauthorized, Except.ok_bind]

theorem replayLine_after (h : Admissible codec contract partition sessionDay record)
    (horder : InOrder partition.coverage)
    (hfollows : ∀ last ∈ records.getLast?, Follows last record) :
    replayLine codec contract partition sessionDay (ReplayV1.after partition.coverage records)
        (record.toJsonLine codec.toRecordCodec) =
      .ok (ReplayV1.after partition.coverage (records ++ [record])) :=
  (replayLine_of_reproducible h.verified h.reproducible _).trans
    (ReplayV1.receive_after h horder hfollows)

theorem replay_lines (hadmissible : ∀ r ∈ todo, Admissible codec contract partition sessionDay r)
    (horder : InOrder partition.coverage) (hchain : (records ++ todo).IsChain Follows) :
    Replay.replay (replayLine codec contract partition sessionDay)
        (ReplayV1.after partition.coverage records)
        (todo.map fun r => r.toJsonLine codec.toRecordCodec) =
      .ok (ReplayV1.after partition.coverage (records ++ todo)) := by
  induction todo generalizing records with
  | nil => rw [List.append_nil, List.map_nil, Replay.replay_nil]
  | cons record todo ih =>
      have hfollows : ∀ last ∈ records.getLast?, Follows last record := fun last hlast =>
        (List.isChain_append.mp hchain).2.2 last hlast record rfl
      have hline := replayLine_after (hadmissible record List.mem_cons_self) horder hfollows
      rw [List.append_cons] at hchain ⊢
      rw [← ih (fun r hr => hadmissible r (List.mem_cons_of_mem _ hr)) hchain, List.map_cons]
      unfold Replay.replay
      rw [List.foldlM_cons, hline, Except.ok_bind]

theorem replayText_records
    (hadmissible : ∀ r ∈ todo, Admissible codec contract partition sessionDay r)
    (horder : InOrder partition.coverage) (hchain : todo.IsChain Follows) :
    replayText codec contract partition sessionDay
        (unlines (todo.map fun r => r.toJsonLine codec.toRecordCodec)) =
      .ok (ReplayV1.after partition.coverage todo) := by
  have hnewline : ∀ line ∈ todo.map fun r => r.toJsonLine codec.toRecordCodec, '\n' ∉ line := by
    intro line hline
    obtain ⟨r, -, rfl⟩ := List.mem_map.mp hline
    exact FirstPartyCaptureRecordV1.braced_toJsonLine.newline
  have hstart : ({ perWindow := partition.coverage.map fun _ => 0 } : ReplayV1) =
      ReplayV1.after partition.coverage [] := by
    simp [ReplayV1.after, arrivals]
  have hlines := @replay_lines codec contract partition sessionDay [] todo hadmissible horder hchain
  unfold replayText
  rw [hstart, lines_unlines hnewline, Replay.replay_snoc_ok hlines]
  rfl

end Admit

/-! ## Sealed and replayed -/

section Replayed

variable {codec : ArchiveCodec} {authority : CaptureAuthority}
  {writer writer' : CapturePartitionWriterV1} {ledger : Ledger}

def Ledger.Inside (ledger : Ledger) : Prop :=
  ∀ claim ∈ ledger.claims, ∀ record ∈ claim.1, claim.2.Contains record.arrivalUtcNanos

theorem countP_claims {claims : List (List FirstPartyCaptureRecordV1 × CaptureCoverageIntervalV1)}
    (hinside : ∀ claim ∈ claims, ∀ record ∈ claim.1, claim.2.Contains record.arrivalUtcNanos)
    (horder : InOrder (claims.map Prod.snd))
    {claim : List FirstPartyCaptureRecordV1 × CaptureCoverageIntervalV1} (hclaim : claim ∈ claims) :
    (claims.flatMap Prod.fst).countP (fun r => claim.2.Contains r.arrivalUtcNanos) =
      claim.1.length := by
  obtain ⟨before, after, rfl⟩ := List.append_of_mem hclaim
  have hzero : ∀ others : List (List FirstPartyCaptureRecordV1 × CaptureCoverageIntervalV1),
      (∀ c ∈ others, c ∈ before ++ claim :: after) →
      (∀ c ∈ others, c.2.endUtcNanos ≤ claim.2.startUtcNanos ∨
        claim.2.endUtcNanos ≤ c.2.startUtcNanos) →
      (others.flatMap Prod.fst).countP (fun r => claim.2.Contains r.arrivalUtcNanos) = 0 := by
    intro others hmem hapart
    refine List.countP_eq_zero.mpr fun r hr hclaimed => ?_
    obtain ⟨c, hc, hrc⟩ := List.mem_flatMap.mp hr
    have hcontains := hinside c (hmem c hc) r hrc
    have hclaimed := of_decide_eq_true hclaimed
    have := hapart c hc
    unfold CaptureCoverageIntervalV1.Contains at hcontains hclaimed
    omega
  rw [List.map_append, List.map_cons] at horder
  obtain ⟨-, hafter, hbefore⟩ := List.pairwise_append.mp horder
  have hfirst := hzero before (fun c hc => List.mem_append_left _ hc) fun c hc =>
    .inl (hbefore c.2 (List.mem_map_of_mem hc) claim.2 List.mem_cons_self)
  have hlast := hzero after (fun c hc => List.mem_append_right _ (List.mem_cons_of_mem _ hc))
    fun c hc => .inr (List.rel_of_pairwise_cons hafter (List.mem_map_of_mem hc))
  have hown : claim.1.countP (fun r => claim.2.Contains r.arrivalUtcNanos) = claim.1.length :=
    List.countP_eq_length.mpr fun r hr => decide_eq_true (hinside claim hclaim r hr)
  rw [List.flatMap_append, List.flatMap_cons, List.countP_append, List.countP_append, hfirst, hown,
    hlast, Nat.zero_add, Nat.add_zero]

theorem Accounts.perWindow (h : Accounts codec writer ledger) (hpending : ledger.pending = [])
    (hinside : ledger.Inside) :
    (writer.coverage.map fun interval => ledger.records.countP fun r =>
        interval.Contains r.arrivalUtcNanos) =
      writer.coverage.map CaptureCoverageIntervalV1.recordCount := by
  have horder := h.inOrder
  rw [h.coverage] at horder ⊢
  rw [List.map_map, List.map_map, Ledger.records_eq hpending]
  refine List.map_congr_left fun claim hclaim => ?_
  exact (countP_claims hinside horder hclaim).trans (h.claimed claim hclaim).count.symm

/-- What the replay needs of the records: the contract admits each again, and each is inside
the window that claims it. -/
theorem Accounts.admissible (h : Accounts codec writer ledger) (hpending : ledger.pending = [])
    (hreproducible : ∀ record ∈ ledger.records,
      Reproducible codec.toRecordCodec writer.contract record)
    (hinside : ledger.Inside) :
    ∀ record ∈ ledger.records,
      Admissible codec writer.contract (writer.metadata codec).partition writer.day record := by
  intro record hrecord
  obtain ⟨hverified, hsession, hday⟩ := h.admitted record hrecord
  refine ⟨hverified, hreproducible record hrecord, ?_, hday, ?_⟩
  · intro sessionId hsome
    exact hsession.trans (Option.some.inj hsome)
  · rw [Ledger.records_eq hpending] at hrecord
    obtain ⟨claim, hclaim, hr⟩ := List.mem_flatMap.mp hrecord
    refine ⟨claim.2, ?_, hinside claim hclaim record hr⟩
    show claim.2 ∈ writer.coverage
    rw [h.coverage]
    exact List.mem_map_of_mem hclaim

theorem Accounts.openRecordsText (h : Accounts codec writer ledger)
    (hfinalize : writer.finalize codec = .ok writer') :
    openRecordsText codec writer'.directory = .ok (some (unlines
      (ledger.records.map fun record => record.toJsonLine codec.toRecordCodec))) := by
  unfold CaptureArchive.openRecordsText
  rw [finalize_directory (by decide) (by decide) hfinalize, h.recordsText]

theorem Accounts.replay (h : Accounts codec writer ledger)
    (hcontract : writer.contract ∈ authority.contracts)
    (hfinalize : writer.finalize codec = .ok writer')
    (hreproducible : ∀ record ∈ ledger.records,
      Reproducible codec.toRecordCodec writer.contract record)
    (hinside : ledger.Inside) (hchain : ledger.records.IsChain Follows) :
    replayPartitionV1 codec authority writer'.directory none = .ok ledger.records := by
  have hpending := h.pending_of_finalize hfinalize
  have hauthorized := h.partitionContract hcontract hfinalize
  have hproves : Proves codec writer'.directory
      (CaptureArchive.partitionContract codec authority writer'.directory none)
      (writer.metadata codec) := hauthorized ▸ h.proves hfinalize
  have htext := replayText_records (h.admissible hpending hreproducible hinside) h.inOrder hchain
  have hreconciled : requireReconciled (writer.metadata codec).partition (writer.manifest codec)
      (ReplayV1.after writer.coverage ledger.records) = .ok () := by
    have hcount : ((ReplayV1.after writer.coverage ledger.records).count : ℤ) =
        (writer.metadata codec).partition.recordCount := congrArg Nat.cast h.count.symm
    have hwindows : (ReplayV1.after writer.coverage ledger.records).perWindow =
        (writer.metadata codec).partition.coverage.map CaptureCoverageIntervalV1.recordCount :=
      h.perWindow hpending hinside
    unfold requireReconciled
    rw [if_neg (not_not_intro hcount), if_neg (not_not_intro hwindows)]
    exact if_neg (not_not_intro (Prod.ext h.first.symm h.last.symm))
  rw [replayPartitionV1_of_proves hproves, hauthorized, h.openRecordsText hfinalize]
  simp only [Except.ok_bind, Option.getD_some]
  rw [partition_coverage] at htext
  rw [metadata_utcDay, htext, Except.ok_bind, metadata_manifest, hreconciled]
  rfl

theorem Accounts.reproducible (h : Accounts codec writer ledger)
    (hcontract : writer.contract ∈ authority.contracts)
    (hfinalize : writer.finalize codec = .ok writer')
    (hreplay : (replayPartitionV1 codec authority writer'.directory none).isOk = true) :
    ∀ record ∈ ledger.records, Reproducible codec.toRecordCodec writer.contract record := by
  intro record hrecord
  have hauthorized := h.partitionContract hcontract hfinalize
  have hproves : Proves codec writer'.directory
      (CaptureArchive.partitionContract codec authority writer'.directory none)
      (writer.metadata codec) := hauthorized ▸ h.proves hfinalize
  rw [replayPartitionV1_of_proves hproves, hauthorized, h.openRecordsText hfinalize] at hreplay
  obtain ⟨_, hreplay⟩ := Except.exists_of_isOk hreplay
  obtain ⟨text, htext, hreplay⟩ := Except.bind_eq_ok.mp hreplay
  obtain ⟨s, hs, -⟩ := Except.bind_eq_ok.mp hreplay
  cases htext
  unfold replayText at hs
  have hverified := (h.admitted record hrecord).1
  have hline : record.toJsonLine codec.toRecordCodec ∈ lines (unlines
      (ledger.records.map fun record => record.toJsonLine codec.toRecordCodec)) := by
    rw [lines_unlines]
    · exact List.mem_append_left _ (List.mem_map_of_mem hrecord)
    · intro line hline
      obtain ⟨r, -, rfl⟩ := List.mem_map.mp hline
      exact FirstPartyCaptureRecordV1.braced_toJsonLine.newline
  obtain ⟨before, after, hstep⟩ := Replay.exists_of_mem hs hline
  rw [replayLine_toJsonLine hverified] at hstep
  obtain ⟨⟨⟩, hauthorized, -⟩ := Except.bind_eq_ok.mp hstep
  exact hauthorized

/-- The partition is COMPLETE, its replay yields the records, and each record lies in the
window that claims it and in no other. -/
structure Replays (codec : ArchiveCodec) (authority : CaptureAuthority) (directory : Directory)
    (ledger : Ledger) : Prop where
  complete : (readPartitionStatusV1 codec authority directory none).status = statusComplete
  yields : replayPartitionV1 codec authority directory none = .ok ledger.records
  claimed : ∀ claim ∈ ledger.claims,
    claim.2 ∈ (readPartitionStatusV1 codec authority directory none).coverage
  placed : ∀ claim ∈ ledger.claims, ∀ record ∈ claim.1,
    ∀ interval ∈ (readPartitionStatusV1 codec authority directory none).coverage,
      interval.Contains record.arrivalUtcNanos ↔ interval = claim.2

def Ledger.InnerInside (ledger : Ledger) : Prop :=
  ∀ claim ∈ ledger.claims, ∀ record ∈ claim.1.tail.dropLast,
    claim.2.Contains record.arrivalUtcNanos

theorem mem_of_not_inner {α : Type} {a : α} {as : List α} (h : a ∈ as) :
    a ∈ as.head? ∨ a ∈ as.getLast? ∨ a ∈ as.tail.dropLast := by
  cases as with
  | nil => cases h
  | cons b as =>
      rcases List.mem_cons.mp h with rfl | h
      · exact .inl rfl
      · have hne : as ≠ [] := List.ne_nil_of_mem h
        rw [← List.dropLast_append_getLast hne] at h
        rcases List.mem_append.mp h with h | h
        · exact .inr (.inr h)
        · refine .inr (.inl ?_)
          rw [List.mem_singleton.mp h, List.getLast?_cons, List.getLast?_eq_some_getLast hne]
          rfl

theorem Accounts.inside_of_inner (h : Accounts codec writer ledger) (hinner : ledger.InnerInside) :
    ledger.Inside := by
  intro claim hclaim record hrecord
  have hchecked := h.claimed claim hclaim
  rcases mem_of_not_inner hrecord with hfirst | hlast | hmiddle
  · exact hchecked.first _ (by simp [arrivals, Option.mem_def.mp hfirst])
  · exact hchecked.last _ (by simp [arrivals, Option.mem_def.mp hlast])
  · exact hinner claim hclaim record hmiddle

/-- A sealed partition replays exactly when the contract admits every record again and the
records that the writer did not check lie in their windows. -/
theorem Accounts.replays_iff (h : Accounts codec writer ledger)
    (hcontract : writer.contract ∈ authority.contracts)
    (hfinalize : writer.finalize codec = .ok writer') (hchain : ledger.records.IsChain Follows) :
    Replays codec authority writer'.directory ledger ↔
      (∀ record ∈ ledger.records, Reproducible codec.toRecordCodec writer.contract record) ∧
        ledger.InnerInside := by
  have hauthorized := h.partitionContract hcontract hfinalize
  have hproves : Proves codec writer'.directory
      (CaptureArchive.partitionContract codec authority writer'.directory none)
      (writer.metadata codec) := hauthorized ▸ h.proves hfinalize
  have hstatus := readPartitionStatusV1_of_proves hproves
  have hcoverage : (readPartitionStatusV1 codec authority writer'.directory none).coverage =
      writer.coverage := by rw [hstatus]; rfl
  constructor
  · intro hreplays
    refine ⟨h.reproducible hcontract hfinalize (by rw [hreplays.yields]; rfl), ?_⟩
    intro claim hclaim record hrecord
    have hmem : record ∈ claim.1 := List.mem_of_mem_tail (List.mem_of_mem_dropLast hrecord)
    exact (hreplays.placed claim hclaim record hmem claim.2
      (hreplays.claimed claim hclaim)).mpr rfl
  · rintro ⟨hreproducible, hinner⟩
    have hinside := h.inside_of_inner hinner
    have hmem : ∀ claim ∈ ledger.claims, claim.2 ∈ writer.coverage := fun claim hclaim =>
      h.coverage ▸ List.mem_map_of_mem hclaim
    refine ⟨by rw [hstatus]; rfl,
      h.replay hcontract hfinalize hreproducible hinside hchain, fun claim hclaim => ?_, ?_⟩
    · rw [hcoverage]
      exact hmem claim hclaim
    · intro claim hclaim record hrecord interval hinterval
      rw [hcoverage] at hinterval
      have hown := hinside claim hclaim record hrecord
      constructor
      · intro hcontains
        obtain ⟨i, hi⟩ := List.getElem?_of_mem hinterval
        obtain ⟨j, hj⟩ := List.getElem?_of_mem (hmem claim hclaim)
        obtain rfl := h.inOrder.unique hi hj hcontains hown
        exact Option.some.inj (hi.symm.trans hj)
      · rintro rfl
        exact hown

end Replayed

end CaptureArchive

end TradePlatform
