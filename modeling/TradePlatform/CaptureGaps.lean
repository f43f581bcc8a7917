/-
# `TradePlatform.CaptureGaps` — the holes between proven windows

`derive_capture_gaps_v1` sweeps over the proven windows of every session in the order of
their starts.  Whatever the windows are, the gaps are the maximal stretches, between the
earliest start and the latest exclusive end, that no window covers.
-/
import TradePlatform.CapturePartitionStatus
import TradePlatform.Lib.Holes
import TradePlatform.Lib.SortBy

namespace TradePlatform

namespace CaptureArchive

/-! ## The sweep -/

def gapKind (reach window : ProvenWindowV1) : CaptureGapKindV1 :=
  if window.sessionId ≠ reach.sessionId then .sessionBoundary
  else if reach.interval.endProof = .utcDayRollover then .partitionRollover
  else (gapKindForEndProof reach.interval.endProof).getD .sessionBoundary

def gapBetween (reach window : ProvenWindowV1)
    (h : reach.interval.endUtcNanos < window.interval.startUtcNanos) : CaptureGapV1 where
  startUtcNanos := reach.interval.endUtcNanos
  endUtcNanos := some window.interval.startUtcNanos
  kind := gapKind reach window
  detail := some ("after:" ++ reach.interval.endProof.value)
  ordered := by
    intro e he
    rw [← Option.some_inj.mp he]
    exact h.le

/-- `if reach is not None and window.interval.start_utc_nanos > reach.interval.end_utc_nanos`. -/
def gapBefore (reach : Option ProvenWindowV1) (window : ProvenWindowV1) : List CaptureGapV1 :=
  match reach with
  | none => []
  | some reach =>
      if h : reach.interval.endUtcNanos < window.interval.startUtcNanos then
        [gapBetween reach window h]
      else []

def farther (reach : Option ProvenWindowV1) (window : ProvenWindowV1) : ProvenWindowV1 :=
  match reach with
  | none => window
  | some reach =>
      if reach.interval.endUtcNanos < window.interval.endUtcNanos then window else reach

def gapStep (s : List CaptureGapV1 × Option ProvenWindowV1) (window : ProvenWindowV1) :
    List CaptureGapV1 × Option ProvenWindowV1 :=
  (s.1 ++ gapBefore s.2 window, some (farther s.2 window))

def startKey (window : ProvenWindowV1) : ℤ := window.interval.startUtcNanos

def deriveCaptureGapsV1 (windows : List ProvenWindowV1) : List CaptureGapV1 :=
  ((sortBy startKey windows).foldl gapStep ([], none)).1

/-! ## Availability -/

structure CaptureArchiveAvailabilityV1 where
  windows : List ProvenWindowV1
  gaps : List CaptureGapV1
  excluded : List (String × List String)

def provenBy (path : String) (partition : CapturePartitionV1) :
    (String × List String) ⊕ List ProvenWindowV1 :=
  match partition.sessionId with
  | some sessionId =>
      if partition.status ≠ statusComplete then .inl (path, partition.reasons)
      else .inr (partition.coverage.map fun interval => ⟨sessionId, interval⟩)
  | none => .inl (path, partition.reasons)

/-- `derive_archive_availability_v1`, over the partitions that `find_partitions_v1` lists. -/
def deriveArchiveAvailabilityV1 (codec : ArchiveCodec) (authority : CaptureAuthority)
    (partitions : List (String × Directory)) (contract : Option FirstPartyCaptureContractV1) :
    CaptureArchiveAvailabilityV1 :=
  let authorized := contract.getD authority.production
  let wanted := partitions.filter fun partition =>
    (sessionSourceIdV1 codec partition.2).all fun claimed =>
      decide (claimed = authorized.sourceId)
  let proofs := wanted.map fun partition =>
    provenBy partition.1 (readPartitionStatusV1 codec authority partition.2 (some authorized))
  let windows := sortBy startKey (proofs.filterMap Sum.getRight?).flatten
  { windows
    gaps := deriveCaptureGapsV1 windows
    excluded := proofs.filterMap Sum.getLeft? }

/-! ## The instants of the sweep -/

def CaptureCoverageIntervalV1.instants (interval : CaptureCoverageIntervalV1) : ℤ × ℤ :=
  (interval.startUtcNanos, interval.endUtcNanos)

def ProvenWindowV1.instants (window : ProvenWindowV1) : ℤ × ℤ := window.interval.instants

def CaptureGapV1.instants (gap : CaptureGapV1) : ℤ × Option ℤ :=
  (gap.startUtcNanos, gap.endUtcNanos)

def closed (hole : ℤ × ℤ) : ℤ × Option ℤ := (hole.1, some hole.2)

variable {windows others : List ProvenWindowV1} {window reach : ProvenWindowV1}
  {gaps : List CaptureGapV1} {hole : ℤ × ℤ}

theorem gapBefore_instants : (gapBefore (some reach) window).map CaptureGapV1.instants =
    (if reach.interval.endUtcNanos < window.interval.startUtcNanos then
      [(reach.interval.endUtcNanos, window.interval.startUtcNanos)] else []).map closed := by
  simp only [gapBefore]
  split <;> rfl

theorem farther_end : (farther (some reach) window).interval.endUtcNanos =
    max reach.interval.endUtcNanos window.interval.endUtcNanos := by
  simp only [farther]
  split
  · next hlt => exact (max_eq_right hlt.le).symm
  · next hle => exact (max_eq_left (not_lt.mp hle)).symm

theorem foldl_gapStep_instants (windows : List ProvenWindowV1) (reach : ProvenWindowV1)
    (gaps : List CaptureGapV1) :
    ((windows.foldl gapStep (gaps, some reach)).1).map CaptureGapV1.instants =
      gaps.map CaptureGapV1.instants ++
        (Holes.sweep reach.interval.endUtcNanos (windows.map ProvenWindowV1.instants)).map
          closed := by
  induction windows generalizing reach gaps with
  | nil => simp [Holes.sweep]
  | cons window windows ih =>
      rw [List.foldl_cons, gapStep, ih, List.map_append, gapBefore_instants, farther_end,
        List.map_cons, Holes.sweep_cons, List.map_append, List.append_assoc]
      rfl

theorem deriveCaptureGapsV1_instants (windows : List ProvenWindowV1) :
    (deriveCaptureGapsV1 windows).map CaptureGapV1.instants =
      (Holes.holes ((sortBy startKey windows).map ProvenWindowV1.instants)).map closed := by
  unfold deriveCaptureGapsV1
  cases sortBy startKey windows with
  | nil => rfl
  | cons window windows =>
      rw [List.foldl_cons]
      exact foldl_gapStep_instants windows window []

theorem sorted_instants (windows : List ProvenWindowV1) :
    Holes.Sorted ((sortBy startKey windows).map ProvenWindowV1.instants) where
  proper := by
    intro interval hmem
    obtain ⟨window, -, rfl⟩ := List.mem_map.mp hmem
    exact window.interval.start_lt_end
  ordered := List.pairwise_map.mpr (sortBy_pairwise startKey windows)

theorem mem_sorted_instants {interval : ℤ × ℤ} :
    interval ∈ (sortBy startKey windows).map ProvenWindowV1.instants ↔
      interval ∈ windows.map ProvenWindowV1.instants :=
  ((sortBy_perm startKey windows).map _).mem_iff

/-- The gaps are the holes that the windows leave, one after the other, whatever order the
windows come in. -/
theorem deriveCaptureGapsV1_holes (windows : List ProvenWindowV1) :
    (∃ holes : List (ℤ × ℤ),
      (deriveCaptureGapsV1 windows).map CaptureGapV1.instants = holes.map closed ∧
        (holes.Pairwise fun a b => a.2 < b.1) ∧
        ∀ hole, hole ∈ holes ↔ Holes.IsHole (windows.map ProvenWindowV1.instants) hole) ∧
      ∀ others : List ProvenWindowV1,
        (others.map ProvenWindowV1.instants).Perm (windows.map ProvenWindowV1.instants) →
          (deriveCaptureGapsV1 others).map CaptureGapV1.instants =
            (deriveCaptureGapsV1 windows).map CaptureGapV1.instants := by
  refine ⟨⟨_, deriveCaptureGapsV1_instants windows, ?_, fun hole => ?_⟩, fun others hperm => ?_⟩
  · exact Holes.holes_pairwise (sorted_instants windows)
  · rw [Holes.mem_holes_iff (sorted_instants windows)]
    exact Holes.isHole_congr fun _ => mem_sorted_instants
  · rw [deriveCaptureGapsV1_instants, deriveCaptureGapsV1_instants,
      Holes.holes_congr (sorted_instants others) (sorted_instants windows) fun interval => by
        rw [mem_sorted_instants, mem_sorted_instants, hperm.mem_iff]]

/-- Two sessions, and the hole between them in either order. -/
theorem deriveCaptureGapsV1_holes_sample :
    let first : ProvenWindowV1 := ⟨0, ⟨0, 9, .connectionLost, 3, by decide⟩⟩
    let later : ProvenWindowV1 := ⟨1, ⟨20, 29, .operatorBoundedStop, 3, by decide⟩⟩
    (deriveCaptureGapsV1 [first, later]).map CaptureGapV1.instants = [(10, some 20)] ∧
      (deriveCaptureGapsV1 [later, first]).map CaptureGapV1.instants =
        (deriveCaptureGapsV1 [first, later]).map CaptureGapV1.instants := by
  refine ⟨by decide +kernel, ?_⟩
  exact (deriveCaptureGapsV1_holes _).2 _ (List.Perm.swap _ _ _)

end CaptureArchive

end TradePlatform
