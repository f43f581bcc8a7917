/-
# `TradePlatform.ClockEvidence` — clock samples of a capture session

The clock evidence of `first_party_t4_normalization_v1.py`: an offset sample derived
again from its raw readings, the samples and barriers of one session, the bracket of
an arrival, and the knowledge instant that the bracket's bound gives.  A knowledge
instant is never before the venue time of the arrival.
-/
import TradePlatform.Domain
import TradePlatform.Lib.Bisect
import TradePlatform.Lib.Json
import TradePlatform.Lib.Replay
import TradePlatform.Lib.SortBy

namespace TradePlatform

namespace T4

/-! ## Knowledge instants -/

def ceilMicrosV1 (nanos : ℤ) : ℤ := -(-nanos / 1000)

def marketKnowledgeMicrosV1 (arrivalUtcNanos boundNanos : ℤ) : ℤ :=
  ceilMicrosV1 arrivalUtcNanos + ceilMicrosV1 (max 0 boundNanos)

/-! ## Samples -/

/-- A sample as `parse_clock_offset_sample_v1` builds it, which nothing else does. -/
structure ClockOffsetSampleEvidenceV1 where
  hostSendUtcNanos : ℤ
  hostReceiveUtcNanos : ℤ
  serverUtcNanos : ℤ
  hostClockResolutionNanos : ℤ
  recordedAtUtcNanos : ℤ
  sampleHash : String
  send_le_receive : hostSendUtcNanos ≤ hostReceiveUtcNanos
  resolution_pos : 1 ≤ hostClockResolutionNanos
  receive_le_recorded : hostReceiveUtcNanos ≤ recordedAtUtcNanos

namespace ClockOffsetSampleEvidenceV1

variable (sample : ClockOffsetSampleEvidenceV1)

def offsetEstimateNanos : ℤ :=
  sample.serverUtcNanos - (sample.hostSendUtcNanos + sample.hostReceiveUtcNanos) / 2

def offsetBoundNanos : ℤ :=
  (sample.hostReceiveUtcNanos - sample.hostSendUtcNanos) / 2 + sample.hostClockResolutionNanos

def venueMinusHostUpperNanos : ℤ := sample.offsetEstimateNanos + sample.offsetBoundNanos

theorem venueMinusHostUpperNanos_eq : sample.venueMinusHostUpperNanos =
    sample.serverUtcNanos - sample.hostSendUtcNanos + sample.hostClockResolutionNanos := by
  unfold venueMinusHostUpperNanos offsetEstimateNanos offsetBoundNanos
  omega

end ClockOffsetSampleEvidenceV1

/-- The fields of a `CaptureLifecycleEventV1` that a sample is read from. -/
structure CaptureLifecycleEventV1 where
  kind : String
  arrivalUtcNanos : ℤ
  detail : Option String

def strictInt (raw : List (String × Json)) (key name : String) : Except Exn ℤ :=
  match (raw.lookup key).bind Json.int? with
  | some value => .ok value
  | none => .error (.t4NormalizationError ("clock_sample_" ++ name ++ "_malformed"))

def states (raw : List (String × Json)) (key : String) (value : ℤ) : Prop :=
  (raw.lookup key).any (Json.eqInt value) = true

instance (raw : List (String × Json)) (key : String) (value : ℤ) :
    Decidable (states raw key value) :=
  inferInstanceAs (Decidable (_ = true))

/-- `parse_clock_offset_sample_v1`, with the JSON decoder and the hash of an event's line. -/
def parseClockOffsetSampleV1 (loads : String → Option Json)
    (lineHash : CaptureLifecycleEventV1 → String) (event : CaptureLifecycleEventV1)
    (sessionResolutionNanos : ℤ) : Except Exn ClockOffsetSampleEvidenceV1 :=
  match event.kind, event.detail with
  | "CLOCK_OFFSET_SAMPLE", some detail =>
      match loads detail with
      | none => .error (.t4NormalizationError "clock_sample_detail_is_not_json")
      | some (.obj raw) => do
          let send ← strictInt raw "host_send_utc_nanos" "host_send"
          let receive ← strictInt raw "host_receive_utc_nanos" "host_receive"
          let server ← strictInt raw "server_utc_nanos" "server"
          let resolution ← strictInt raw "host_clock_resolution_nanos" "resolution"
          if hreceive : receive < send then
            .error (.t4NormalizationError "clock_sample_received_before_sent")
          else if hresolution : resolution < 1 then
            .error (.t4NormalizationError "clock_sample_resolution_not_positive")
          else if resolution ≠ sessionResolutionNanos then
            .error (.t4NormalizationError "clock_sample_resolution_differs_from_session")
          else if hrecorded : event.arrivalUtcNanos < receive then
            .error (.t4NormalizationError "clock_sample_recorded_before_received")
          else
            let sample : ClockOffsetSampleEvidenceV1 :=
              ⟨send, receive, server, resolution, event.arrivalUtcNanos, lineHash event,
                not_lt.mp hreceive, not_lt.mp hresolution, not_lt.mp hrecorded⟩
            if ¬ states raw "offset_estimate_nanos" sample.offsetEstimateNanos then
              .error (.t4NormalizationError "clock_sample_stated_estimate_not_derivable")
            else if ¬ states raw "offset_bound_nanos" sample.offsetBoundNanos then
              .error (.t4NormalizationError "clock_sample_stated_bound_not_derivable")
            else .ok sample
      | some _ => .error (.t4NormalizationError "clock_sample_detail_is_not_an_object")
  | _, _ => .error (.t4NormalizationError "clock_sample_event_kind_mismatch")

/-! ## The evidence of a session -/

def maxClockBracketNanos : ℤ := 1800000000000

structure ArrivalClockBoundEvidenceV1 where
  venueMinusHostUpperBoundNanos : ℤ
  priorSampleHash : String
  nextSampleHash : String
deriving DecidableEq

structure SessionClockEvidenceV1 where
  sessionId : UUID
  samples : List ClockOffsetSampleEvidenceV1
  barriers : List (ℤ × ℤ)
  sequential : samples.IsChain fun previous following =>
    previous.hostReceiveUtcNanos ≤ following.hostSendUtcNanos

/-- `SessionClockEvidenceV1(session_id, samples, barriers=barriers)`. -/
def SessionClockEvidenceV1.init (sessionId : UUID) (samples : List ClockOffsetSampleEvidenceV1)
    (barriers : List (ℤ × ℤ)) : Except Exn SessionClockEvidenceV1 :=
  let ordered := sortBy (fun sample => toLex (sample.hostSendUtcNanos, sample.sampleHash)) samples
  if h : ordered.IsChain fun previous following =>
      previous.hostReceiveUtcNanos ≤ following.hostSendUtcNanos then
    .ok ⟨sessionId, ordered, sortBy toLex barriers, h⟩
  else .error (.t4NormalizationError "clock_samples_overlap_within_session")

/-- `start < high and low < end`: the barrier meets the time between two samples. -/
def Separates (barrier : ℤ × ℤ) (first second : ClockOffsetSampleEvidenceV1) : Prop :=
  barrier.1 < second.hostSendUtcNanos ∧ first.hostReceiveUtcNanos < barrier.2

instance (barrier : ℤ × ℤ) (first second : ClockOffsetSampleEvidenceV1) :
    Decidable (Separates barrier first second) :=
  inferInstanceAs (Decidable (_ ∧ _))

namespace SessionClockEvidenceV1

variable (clock : SessionClockEvidenceV1)

def receives : List ℤ := clock.samples.map (·.hostReceiveUtcNanos)

def sends : List ℤ := clock.samples.map (·.hostSendUtcNanos)

def pairOk (first second : ClockOffsetSampleEvidenceV1) : Bool :=
  if second.hostSendUtcNanos - first.hostReceiveUtcNanos > maxClockBracketNanos then false
  else !(clock.barriers.any fun barrier => Separates barrier first second)

def validPairs : List Bool := clock.samples.zipWith clock.pairOk clock.samples.tail

/-- `self._valid_pairs[index]`; a bracket's indices are those of pairs. -/
def validPair (index : ℕ) : Bool := (clock.validPairs[index]?).getD false

def bracket (arrivalUtcNanos : ℤ) : Option (ℕ × ℕ) :=
  let following := Bisect.bisectLeft clock.sends arrivalUtcNanos
  match Bisect.bisectRight clock.receives arrivalUtcNanos with
  | 0 => none
  | prior + 1 =>
      if clock.samples.length ≤ following then none
      else if following = prior + 1 then
        if clock.validPair prior then some (prior, following) else none
      else if following = prior + 2 then
        -- inside the middle sample's own measurement both pairs must hold
        if clock.validPair prior && clock.validPair (prior + 1) then some (prior, following)
        else none
      else none

def boundFor (arrivalUtcNanos : ℤ) : Option ArrivalClockBoundEvidenceV1 :=
  match clock.bracket arrivalUtcNanos with
  | none => none
  | some (prior, following) =>
      let used := (clock.samples.drop prior).take (following + 1 - prior)
      match (used.map (·.venueMinusHostUpperNanos)).max?, used.head?, used.getLast? with
      | some upper, some first, some last => some ⟨upper, first.sampleHash, last.sampleHash⟩
      | _, _, _ => none

/-! ## The bracket of an arrival -/

variable {clock} {i j prior following : ℕ} {a b : ClockOffsetSampleEvidenceV1} {arrival : ℤ}

theorem samples_sequential : clock.samples.Pairwise fun previous following =>
    previous.hostReceiveUtcNanos ≤ following.hostSendUtcNanos := by
  have htrans : IsTrans ClockOffsetSampleEvidenceV1 fun previous following =>
      previous.hostReceiveUtcNanos ≤ following.hostSendUtcNanos :=
    ⟨fun _ b _ hab hbc => hab.trans (b.send_le_receive.trans hbc)⟩
  exact List.isChain_iff_pairwise.mp clock.sequential

theorem receives_sorted : clock.receives.Pairwise (· ≤ ·) := by
  refine List.pairwise_map.mpr (samples_sequential.imp fun {a b} hab => ?_)
  exact hab.trans b.send_le_receive

theorem sends_sorted : clock.sends.Pairwise (· ≤ ·) := by
  refine List.pairwise_map.mpr (samples_sequential.imp fun {a b} hab => ?_)
  exact a.send_le_receive.trans hab

theorem lt_bisect_receives (ha : clock.samples[i]? = some a) :
    i < Bisect.bisectRight clock.receives arrival ↔ a.hostReceiveUtcNanos ≤ arrival :=
  Bisect.lt_bisectRight receives_sorted (by simp [receives, ha])

theorem lt_bisect_sends (ha : clock.samples[i]? = some a) :
    i < Bisect.bisectLeft clock.sends arrival ↔ a.hostSendUtcNanos < arrival :=
  Bisect.lt_bisectLeft sends_sorted (by simp [sends, ha])

theorem exists_pair (h : clock.validPair i = true) : ∃ first second,
    clock.samples[i]? = some first ∧ clock.samples[i + 1]? = some second ∧
      ∀ barrier ∈ clock.barriers, ¬ Separates barrier first second := by
  unfold validPair validPairs at h
  cases hpair : (clock.samples.zipWith clock.pairOk clock.samples.tail)[i]? with
  | none =>
      rw [hpair] at h
      cases h
  | some ok =>
      rw [hpair, Option.getD_some] at h
      subst h
      obtain ⟨first, second, hfirst, hsecond, hok⟩ := List.getElem?_zipWith_eq_some.mp hpair
      refine ⟨first, second, hfirst, by rwa [List.getElem?_tail] at hsecond, ?_⟩
      intro barrier hbarrier hseparates
      unfold pairOk at hok
      split at hok
      · cases hok
      · rw [Bool.not_eq_true', List.any_eq_false] at hok
        exact hok barrier hbarrier (decide_eq_true hseparates)

/-- The bracket of an arrival: it lies between two samples in sequence, of which it is
between the receipt of the first and the sending of the second, or in the measurement of
the sample between them. -/
theorem bracket_eq_some (h : clock.bracket arrival = some (prior, following)) :
    (following = prior + 1 ∧ clock.validPair prior = true ∨
      following = prior + 2 ∧ clock.validPair prior = true ∧ clock.validPair (prior + 1) = true) ∧
    (∀ a, clock.samples[prior]? = some a → a.hostReceiveUtcNanos ≤ arrival) ∧
    (∀ b, clock.samples[following]? = some b → arrival ≤ b.hostSendUtcNanos) := by
  unfold bracket at h
  dsimp only at h
  split at h
  · cases h
  · rename_i prior' hprior
    split at h
    · cases h
    · have hbounds : (∀ a, clock.samples[prior']? = some a → a.hostReceiveUtcNanos ≤ arrival) ∧
          ∀ b, clock.samples[Bisect.bisectLeft clock.sends arrival]? = some b →
            arrival ≤ b.hostSendUtcNanos := by
        refine ⟨fun a ha => (lt_bisect_receives ha).mp (by omega), fun b hb => ?_⟩
        exact not_lt.mp fun hlt => (lt_irrefl _ ((lt_bisect_sends hb).mpr hlt)).elim
      split at h
      · rename_i hfollowing
        split at h
        · rename_i hvalid
          cases h
          exact ⟨.inl ⟨hfollowing, hvalid⟩, hbounds⟩
        · cases h
      · split at h
        · rename_i hfollowing
          split at h
          · rename_i hvalid
            cases h
            exact ⟨.inr ⟨hfollowing, (Bool.and_eq_true_iff.mp hvalid)⟩, hbounds⟩
          · cases h
        · cases h

theorem upper_le_boundFor {bound : ArrivalClockBoundEvidenceV1}
    (h : clock.boundFor arrival = some bound) : ∃ prior following,
    clock.bracket arrival = some (prior, following) ∧
      ∀ i a, prior ≤ i → i ≤ following → clock.samples[i]? = some a →
        a.venueMinusHostUpperNanos ≤ bound.venueMinusHostUpperBoundNanos := by
  unfold boundFor at h
  split at h
  · cases h
  · rename_i prior following hbracket
    refine ⟨prior, following, hbracket, fun i a hprior hfollowing ha => ?_⟩
    have hmem : a.venueMinusHostUpperNanos ∈
        ((clock.samples.drop prior).take (following + 1 - prior)).map
          (·.venueMinusHostUpperNanos) := by
      refine List.mem_map_of_mem (List.mem_of_getElem? (i := i - prior) ?_)
      rw [List.getElem?_take_of_lt (by omega), List.getElem?_drop, Nat.add_sub_cancel' hprior, ha]
    dsimp only at h
    split at h
    · rename_i upper first last hupper _ _
      cases h
      exact (List.max?_eq_some_iff.mp hupper).2 _ hmem
    · cases h

/-! ## Knowledge instants bound the venue time -/

/-- `reading` is the host instant, inside each sample, at which the server clock was read:
the venue is ahead of the host by `offset` there, and its reading is a whole number of
nanoseconds. -/
def ReadAt (clock : SessionClockEvidenceV1) (offset : ℝ → ℝ) (reading : ℕ → ℝ) : Prop :=
  ∀ i sample, clock.samples[i]? = some sample →
    (sample.hostSendUtcNanos : ℝ) ≤ reading i ∧ reading i ≤ sample.hostReceiveUtcNanos ∧
      sample.serverUtcNanos = ⌊reading i + offset (reading i)⌋

/-- `offset` rises or falls throughout between the readings of two samples in sequence that
no barrier separates. -/
def DriftsBetween (clock : SessionClockEvidenceV1) (offset : ℝ → ℝ) (reading : ℕ → ℝ) : Prop :=
  ∀ i first second, clock.samples[i]? = some first → clock.samples[i + 1]? = some second →
    (∀ barrier ∈ clock.barriers, ¬ Separates barrier first second) →
      MonotoneOn offset (Set.Icc (reading i) (reading (i + 1))) ∨
        AntitoneOn offset (Set.Icc (reading i) (reading (i + 1)))

variable {offset : ℝ → ℝ} {reading : ℕ → ℝ} {h : ℤ}

theorem le_max_of_drift {f : ℝ → ℝ} {s t x : ℝ}
    (hf : MonotoneOn f (Set.Icc s t) ∨ AntitoneOn f (Set.Icc s t)) (hs : s ≤ x) (ht : x ≤ t) :
    f x ≤ max (f s) (f t) := by
  rcases hf with hf | hf
  · exact le_max_of_le_right (hf ⟨hs, ht⟩ ⟨hs.trans ht, le_rfl⟩ ht)
  · exact le_max_of_le_left (hf ⟨le_rfl, hs.trans ht⟩ ⟨hs, ht⟩ hs)

/-- A sample bounds the offset at its reading: the measurement and the resolution of the
host clock make up for where in the measurement it was and for the fraction it dropped. -/
theorem offset_le_upper (hread : clock.ReadAt offset reading)
    (ha : clock.samples[i]? = some a) : offset (reading i) ≤ a.venueMinusHostUpperNanos := by
  obtain ⟨hsend, -, hserver⟩ := hread i a ha
  have hfloor := Int.lt_floor_add_one (reading i + offset (reading i))
  rw [← hserver] at hfloor
  have hresolution : (1 : ℝ) ≤ a.hostClockResolutionNanos := by exact_mod_cast a.resolution_pos
  rw [a.venueMinusHostUpperNanos_eq]
  push_cast
  linarith

theorem offset_le_of_pair (hread : clock.ReadAt offset reading)
    (hdrift : clock.DriftsBetween offset reading) (hvalid : clock.validPair i = true)
    {x : ℝ} (hlow : reading i ≤ x) (hhigh : x ≤ reading (i + 1)) {bound : ℤ}
    (hbound : ∀ j a, i ≤ j → j ≤ i + 1 → clock.samples[j]? = some a →
      a.venueMinusHostUpperNanos ≤ bound) : offset x ≤ bound := by
  obtain ⟨first, second, hfirst, hsecond, hbarriers⟩ := exists_pair hvalid
  have hle := le_max_of_drift (hdrift i first second hfirst hsecond hbarriers) hlow hhigh
  have hfirst' : (first.venueMinusHostUpperNanos : ℝ) ≤ bound := by
    exact_mod_cast hbound i first le_rfl (Nat.le_succ i) hfirst
  have hsecond' : (second.venueMinusHostUpperNanos : ℝ) ≤ bound := by
    exact_mod_cast hbound (i + 1) second (Nat.le_succ i) le_rfl hsecond
  calc offset x ≤ max (offset (reading i)) (offset (reading (i + 1))) := hle
    _ ≤ bound := max_le ((offset_le_upper hread hfirst).trans hfirst')
        ((offset_le_upper hread hsecond).trans hsecond')

theorem offset_le_boundFor (hread : clock.ReadAt offset reading)
    (hdrift : clock.DriftsBetween offset reading) {bound : ArrivalClockBoundEvidenceV1}
    (hb : clock.boundFor h = some bound) : offset h ≤ bound.venueMinusHostUpperBoundNanos := by
  obtain ⟨prior, following, hbracket, hupper⟩ := upper_le_boundFor hb
  obtain ⟨hcases, hprior, hfollowing⟩ := bracket_eq_some hbracket
  -- the arrival is after a reading of the first sample and before one of the last
  have hlow : ∀ a, clock.samples[prior]? = some a → reading prior ≤ h := by
    intro a ha
    exact (hread prior a ha).2.1.trans (by exact_mod_cast hprior a ha)
  have hhigh : ∀ b, clock.samples[following]? = some b → (h : ℝ) ≤ reading following := by
    intro b hb
    exact le_trans (by exact_mod_cast hfollowing b hb) (hread following b hb).1
  rcases hcases with ⟨rfl, hvalid⟩ | ⟨rfl, hvalid, hvalid'⟩
  · obtain ⟨first, second, hfirst, hsecond, -⟩ := exists_pair hvalid
    exact offset_le_of_pair hread hdrift hvalid (hlow first hfirst) (hhigh second hsecond) hupper
  · -- inside the middle sample: the arrival is on one side of its reading
    obtain ⟨first, _, hfirst, -, -⟩ := exists_pair hvalid
    obtain ⟨_, second, -, hsecond, -⟩ := exists_pair hvalid'
    rcases le_total (h : ℝ) (reading (prior + 1)) with hmiddle | hmiddle
    · refine offset_le_of_pair hread hdrift hvalid (hlow first hfirst) hmiddle ?_
      exact fun j a hj hj' => hupper j a hj (by omega)
    · refine offset_le_of_pair hread hdrift hvalid' hmiddle (hhigh second hsecond) ?_
      exact fun j a hj hj' => hupper j a (by omega) hj'

end SessionClockEvidenceV1

theorem le_ceilMicrosV1 (nanos : ℤ) : (nanos : ℝ) / 1000 ≤ ceilMicrosV1 nanos := by
  have hceil : nanos ≤ 1000 * ceilMicrosV1 nanos := by
    unfold ceilMicrosV1
    omega
  have : (nanos : ℝ) ≤ 1000 * ceilMicrosV1 nanos := by exact_mod_cast hceil
  linarith

/-- A knowledge instant is never before the venue time of its arrival. -/
theorem venue_time_le_marketKnowledgeMicrosV1 (clock : SessionClockEvidenceV1) (offset : ℝ → ℝ)
    (reading : ℕ → ℝ) (hread : clock.ReadAt offset reading)
    (hdrift : clock.DriftsBetween offset reading) (h : ℤ) (bound : ArrivalClockBoundEvidenceV1)
    (hb : clock.boundFor h = some bound) :
    ((h : ℝ) + offset h) / 1000 ≤
      marketKnowledgeMicrosV1 h bound.venueMinusHostUpperBoundNanos := by
  have hoffset := SessionClockEvidenceV1.offset_le_boundFor hread hdrift hb
  have hmax : (bound.venueMinusHostUpperBoundNanos : ℝ) ≤
      (max 0 bound.venueMinusHostUpperBoundNanos : ℤ) := by exact_mod_cast le_max_right _ _
  unfold marketKnowledgeMicrosV1
  push_cast
  have harrival := le_ceilMicrosV1 h
  have hbound := le_ceilMicrosV1 (max 0 bound.venueMinusHostUpperBoundNanos)
  linarith

def fallingClock : SessionClockEvidenceV1 where
  sessionId := 0
  samples := [⟨0, 3, -47, 1, 3, "a", by decide, by decide, by decide⟩,
    ⟨101, 104, 3, 1, 104, "b", by decide, by decide, by decide⟩]
  barriers := []
  sequential := by decide

theorem venue_time_le_marketKnowledgeMicrosV1_falling :
    ∃ bound, fallingClock.boundFor 50 = some bound ∧
      (((50 : ℤ) : ℝ) + (fun x : ℝ => -48 - x / 2) (50 : ℤ)) / 1000 ≤
        marketKnowledgeMicrosV1 50 bound.venueMinusHostUpperBoundNanos := by
  have hread : fallingClock.ReadAt (fun x => -48 - x / 2) (fun i => if i = 0 then 2 else 102) := by
    intro i sample hsample
    match i, hsample with
    | 0, hsample =>
        cases hsample
        exact ⟨by norm_num, by norm_num, (Int.floor_eq_iff.mpr (by norm_num)).symm⟩
    | 1, hsample =>
        cases hsample
        exact ⟨by norm_num, by norm_num, (Int.floor_eq_iff.mpr (by norm_num)).symm⟩
  have hdrift : fallingClock.DriftsBetween (fun x => -48 - x / 2)
      (fun i => if i = 0 then 2 else 102) := by
    intro i first second _ _ _
    refine .inr fun x _ y _ hxy => ?_
    show -48 - y / 2 ≤ -48 - x / 2
    linarith
  obtain ⟨bound, hb⟩ := Option.isSome_iff_exists.mp
    (show (fallingClock.boundFor 50).isSome = true by decide +kernel)
  exact ⟨bound, hb, venue_time_le_marketKnowledgeMicrosV1 _ _ _ hread hdrift 50 bound hb⟩

end T4

end TradePlatform
