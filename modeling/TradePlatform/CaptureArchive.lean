/-
# `TradePlatform.CaptureArchive` — what a capture partition proves

The coverage windows and the gaps of `first_party_capture_archive_v1.py`: a window with the
end proof that closed it and with its first and last proven reading, a gap with its cause,
and the payloads that the manifest stores of both.
-/
import TradePlatform.CaptureRecords

namespace TradePlatform

namespace CaptureArchive

/-! ## Coverage -/

inductive EndProof where
  | operatorBoundedStop | operatorInterrupt | utcDayRollover | connectionLost | peerClosed
  | clockDiscontinuity | contractViolation | recorderFailure | diskBudgetStop
deriving DecidableEq, Repr

namespace EndProof

def value : EndProof → String
  | operatorBoundedStop => "OPERATOR_BOUNDED_STOP"
  | operatorInterrupt => "OPERATOR_INTERRUPT"
  | utcDayRollover => "UTC_DAY_ROLLOVER"
  | connectionLost => "CONNECTION_LOST"
  | peerClosed => "PEER_CLOSED"
  | clockDiscontinuity => "CLOCK_DISCONTINUITY"
  | contractViolation => "CONTRACT_VIOLATION"
  | recorderFailure => "RECORDER_FAILURE"
  | diskBudgetStop => "DISK_BUDGET_STOP"

def all : List EndProof :=
  [operatorBoundedStop, operatorInterrupt, utcDayRollover, connectionLost, peerClosed,
    clockDiscontinuity, contractViolation, recorderFailure, diskBudgetStop]

def ofValue? (text : String) : Option EndProof := all.find? fun proof => proof.value = text

theorem ofValue?_value (proof : EndProof) : ofValue? proof.value = some proof := by
  cases proof <;> rfl

end EndProof

structure CaptureCoverageIntervalV1 where
  startUtcNanos : ℤ
  lastProvenUtcNanos : ℤ
  endProof : EndProof
  recordCount : ℕ
  ordered : startUtcNanos ≤ lastProvenUtcNanos

structure CoveragePayloadV1 where
  startUtcNanos : ℤ
  lastProvenUtcNanos : ℤ
  endUtcNanosExclusive : ℤ
  endProof : String
  recordCount : ℤ
deriving DecidableEq, Encodable

namespace CaptureCoverageIntervalV1

instance decEq : DecidableEq CaptureCoverageIntervalV1 := fun first second =>
  decidable_of_iff
    (first.startUtcNanos = second.startUtcNanos ∧
      first.lastProvenUtcNanos = second.lastProvenUtcNanos ∧
      first.endProof = second.endProof ∧ first.recordCount = second.recordCount)
    (by cases first; cases second; simp)

variable (interval : CaptureCoverageIntervalV1)

def endUtcNanos : ℤ := interval.lastProvenUtcNanos + 1

def Contains (utcNanos : ℤ) : Prop :=
  interval.startUtcNanos ≤ utcNanos ∧ utcNanos < interval.endUtcNanos

instance (utcNanos : ℤ) : Decidable (interval.Contains utcNanos) :=
  inferInstanceAs (Decidable (_ ∧ _))

theorem start_lt_end : interval.startUtcNanos < interval.endUtcNanos :=
  Int.lt_add_one_of_le interval.ordered

/-- `CaptureCoverageIntervalV1(..)`, with the checks of `__post_init__`. -/
def make (startUtcNanos lastProvenUtcNanos : ℤ) (endProof : String) (recordCount : ℤ) :
    Except Exn CaptureCoverageIntervalV1 :=
  if h : lastProvenUtcNanos < startUtcNanos then
    refuse "coverage_interval_ends_before_it_starts"
  else if recordCount < 0 then refuse "coverage_record_count_must_not_be_negative"
  else
    match EndProof.ofValue? endProof with
    | none => refuse ("coverage_end_proof_not_recognized:" ++ endProof)
    | some endProof =>
        .ok ⟨startUtcNanos, lastProvenUtcNanos, endProof, recordCount.toNat, le_of_not_gt h⟩

def toPayload : CoveragePayloadV1 where
  startUtcNanos := interval.startUtcNanos
  lastProvenUtcNanos := interval.lastProvenUtcNanos
  endUtcNanosExclusive := interval.endUtcNanos
  endProof := interval.endProof.value
  recordCount := interval.recordCount

def fromPayload (item : CoveragePayloadV1) : Except Exn CaptureCoverageIntervalV1 := do
  let interval ← make item.startUtcNanos item.lastProvenUtcNanos item.endProof item.recordCount
  if item.endUtcNanosExclusive ≠ interval.endUtcNanos then
    refuse "coverage_exclusive_end_disagrees_with_last_proven"
  else return interval

theorem fromPayload_toPayload : fromPayload interval.toPayload = .ok interval := by
  have hmake : make interval.startUtcNanos interval.lastProvenUtcNanos interval.endProof.value
      interval.recordCount = .ok interval := by
    unfold make
    rw [dif_neg (not_lt.mpr interval.ordered), if_neg (by simp), EndProof.ofValue?_value]
    simp
  unfold fromPayload
  simp only [toPayload, hmake, Except.ok_bind]
  exact if_neg (not_not_intro rfl)

end CaptureCoverageIntervalV1

structure ProvenWindowV1 where
  sessionId : UUID
  interval : CaptureCoverageIntervalV1
deriving DecidableEq

/-! ## Gaps -/

inductive CaptureGapKindV1 where
  | connectionLoss | clockDiscontinuity | contractViolation | recorderFailure
  | partitionRollover | sessionBoundary
deriving DecidableEq, Repr

namespace CaptureGapKindV1

def value : CaptureGapKindV1 → String
  | connectionLoss => "CONNECTION_LOSS"
  | clockDiscontinuity => "CLOCK_DISCONTINUITY"
  | contractViolation => "CONTRACT_VIOLATION"
  | recorderFailure => "RECORDER_FAILURE"
  | partitionRollover => "PARTITION_ROLLOVER"
  | sessionBoundary => "SESSION_BOUNDARY"

def all : List CaptureGapKindV1 :=
  [connectionLoss, clockDiscontinuity, contractViolation, recorderFailure, partitionRollover,
    sessionBoundary]

def ofValue? (text : String) : Option CaptureGapKindV1 := all.find? fun kind => kind.value = text

theorem ofValue?_value (kind : CaptureGapKindV1) : ofValue? kind.value = some kind := by
  cases kind <;> rfl

end CaptureGapKindV1

def gapKindForEndProof : EndProof → Option CaptureGapKindV1
  | .connectionLost | .peerClosed => some .connectionLoss
  | .clockDiscontinuity => some .clockDiscontinuity
  | .contractViolation => some .contractViolation
  | .recorderFailure => some .recorderFailure
  | .operatorBoundedStop | .operatorInterrupt | .utcDayRollover | .diskBudgetStop => none

structure CaptureGapV1 where
  startUtcNanos : ℤ
  endUtcNanos : Option ℤ
  kind : CaptureGapKindV1
  detail : Option String
  ordered : ∀ e ∈ endUtcNanos, startUtcNanos ≤ e

structure GapPayloadV1 where
  startUtcNanos : ℤ
  endUtcNanos : Option ℤ
  kind : String
  detail : Option String
deriving DecidableEq, Encodable

namespace CaptureGapV1

variable (gap : CaptureGapV1)

def Overlaps (interval : CaptureCoverageIntervalV1) : Prop :=
  ¬ interval.endUtcNanos ≤ gap.startUtcNanos ∧ ∀ e ∈ gap.endUtcNanos, interval.startUtcNanos < e

instance (interval : CaptureCoverageIntervalV1) : Decidable (gap.Overlaps interval) :=
  inferInstanceAs (Decidable (_ ∧ _))

def make (startUtcNanos : ℤ) (endUtcNanos : Option ℤ) (kind : String) (detail : Option String) :
    Except Exn CaptureGapV1 :=
  if h : ∀ e ∈ endUtcNanos, startUtcNanos ≤ e then
    match CaptureGapKindV1.ofValue? kind with
    | none => refuse ("gap_kind_not_recognized:" ++ kind)
    | some kind => .ok ⟨startUtcNanos, endUtcNanos, kind, detail, h⟩
  else refuse "gap_ends_before_it_starts"

def toPayload : GapPayloadV1 :=
  ⟨gap.startUtcNanos, gap.endUtcNanos, gap.kind.value, gap.detail⟩

def fromPayload (item : GapPayloadV1) : Except Exn CaptureGapV1 :=
  make item.startUtcNanos item.endUtcNanos item.kind item.detail

theorem fromPayload_toPayload : fromPayload gap.toPayload = .ok gap := by
  unfold fromPayload make toPayload
  rw [dif_pos gap.ordered, CaptureGapKindV1.ofValue?_value]

end CaptureGapV1

end CaptureArchive

end TradePlatform
