/-
# `TradePlatform.ClockIntervals` — the intervals of a session whose arrivals have a bound

`admissible_intervals` merges the pairs of samples by index, where `bound_for` brackets an
arrival by bisection.  The two agree on every arrival, except where a sample that was sent
and received in one instant stands at the end of an admissible pair: the intervals hold that
instant, and no bracket does.
-/
import TradePlatform.ClockEvidence
import TradePlatform.Lib.Intervals

namespace TradePlatform

namespace T4

open Intervals

namespace SessionClockEvidenceV1

variable (clock : SessionClockEvidenceV1)

/-! ## The intervals -/

/-- `self._samples[index].host_receive_utc_nanos`; the indices are those of pairs. -/
def receiveAt (index : ℕ) : ℤ := clock.receives.getD index 0

def sendAt (index : ℕ) : ℤ := clock.sends.getD index 0

/-- One pair of the loop: it extends the last interval, where the pair before is admissible and
the interval ends at the sample between them. -/
def admitPair (intervals : List (ℤ × ℤ)) (index : ℕ) : List (ℤ × ℤ) :=
  if clock.validPair index then
    match intervals.getLast? with
    | some last =>
        if 0 < index ∧ clock.validPair (index - 1) = true ∧ last.2 = clock.sendAt index then
          intervals.dropLast ++ [(last.1, clock.sendAt (index + 1))]
        else intervals ++ [(clock.receiveAt index, clock.sendAt (index + 1))]
    | none => intervals ++ [(clock.receiveAt index, clock.sendAt (index + 1))]
  else intervals

def admissibleIntervals : List (ℤ × ℤ) :=
  ((List.range clock.validPairs.length).foldl clock.admitPair []).filter fun interval =>
    interval.1 ≤ interval.2

def Admits (arrival : ℤ) : Prop :=
  ∃ interval ∈ clock.admissibleIntervals, interval.1 ≤ arrival ∧ arrival ≤ interval.2

/-- A sample that was sent and received at `arrival` is the end of an admissible pair. -/
def InstantBesidePair (arrival : ℤ) : Prop :=
  ∃ i < clock.samples.length, clock.sendAt i = arrival ∧ clock.receiveAt i = arrival ∧
    (clock.validPair i = true ∨ ∃ k, i = k + 1 ∧ clock.validPair k = true)

/-! ## The samples by their index -/

variable {clock} {i j k : ℕ} {arrival : ℤ} {intervals : List (ℤ × ℤ)}

theorem sendAt_eq {a : ClockOffsetSampleEvidenceV1} (ha : clock.samples[i]? = some a) :
    clock.sendAt i = a.hostSendUtcNanos := by
  simp [sendAt, sends, ha]

theorem receiveAt_eq {a : ClockOffsetSampleEvidenceV1} (ha : clock.samples[i]? = some a) :
    clock.receiveAt i = a.hostReceiveUtcNanos := by
  simp [receiveAt, receives, ha]

theorem sendAt_le_receiveAt (hi : i < clock.samples.length) :
    clock.sendAt i ≤ clock.receiveAt i := by
  have ha := List.getElem?_eq_getElem hi
  rw [sendAt_eq ha, receiveAt_eq ha]
  exact (clock.samples[i]).send_le_receive

theorem receiveAt_le_sendAt (hij : i < j) (hj : j < clock.samples.length) :
    clock.receiveAt i ≤ clock.sendAt j := by
  have ha := List.getElem?_eq_getElem (hij.trans hj)
  have hb := List.getElem?_eq_getElem hj
  rw [receiveAt_eq ha, sendAt_eq hb]
  exact List.pairwise_iff_getElem.mp samples_sequential i j (hij.trans hj) hj hij

theorem receiveAt_mono (hij : i ≤ j) (hj : j < clock.samples.length) :
    clock.receiveAt i ≤ clock.receiveAt j := by
  rcases hij.eq_or_lt with rfl | hij
  · exact le_rfl
  · exact (receiveAt_le_sendAt hij hj).trans (sendAt_le_receiveAt hj)

theorem sendAt_mono (hij : i ≤ j) (hj : j < clock.samples.length) :
    clock.sendAt i ≤ clock.sendAt j := by
  rcases hij.eq_or_lt with rfl | hij
  · exact le_rfl
  · exact (sendAt_le_receiveAt (hij.trans hj)).trans (receiveAt_le_sendAt hij hj)

theorem validPairs_length : clock.validPairs.length = clock.samples.length - 1 := by
  simp [validPairs]

theorem lt_length_of_validPair (h : clock.validPair i = true) : i + 1 < clock.samples.length := by
  obtain ⟨_, _, _, hsecond, _⟩ := exists_pair h
  exact (List.getElem?_eq_some_iff.mp hsecond).1

theorem validPair_iff : clock.validPair i = true ↔ clock.validPairs[i]? = some true := by
  unfold validPair
  cases clock.validPairs[i]? with
  | none => simp
  | some ok => simp

theorem pairOk_congr {first second first' second' : ClockOffsetSampleEvidenceV1}
    (hreceive : first.hostReceiveUtcNanos = first'.hostReceiveUtcNanos)
    (hsend : second.hostSendUtcNanos = second'.hostSendUtcNanos) :
    clock.pairOk first second = clock.pairOk first' second' := by
  have hseparates : ∀ barrier,
      Separates barrier first second ↔ Separates barrier first' second' := by
    intro barrier
    rw [Separates, Separates, hreceive, hsend]
  simp only [pairOk, hreceive, hsend, hseparates]

theorem validPair_congr (hi : i + 1 < clock.samples.length) (hj : j + 1 < clock.samples.length)
    (hreceive : clock.receiveAt i = clock.receiveAt j)
    (hsend : clock.sendAt (i + 1) = clock.sendAt (j + 1)) :
    clock.validPair i = clock.validPair j := by
  have hpair : ∀ k (hk : k + 1 < clock.samples.length), clock.validPair k =
      clock.pairOk (clock.samples[k]) (clock.samples[k + 1]) := by
    intro k hk
    simp [validPair, validPairs, List.getElem?_zipWith, List.getElem?_tail,
      List.getElem?_eq_getElem hk, List.getElem?_eq_getElem (Nat.lt_of_succ_lt hk)]
  rw [receiveAt_eq (List.getElem?_eq_getElem (Nat.lt_of_succ_lt hi)),
    receiveAt_eq (List.getElem?_eq_getElem (Nat.lt_of_succ_lt hj))] at hreceive
  rw [sendAt_eq (List.getElem?_eq_getElem hi), sendAt_eq (List.getElem?_eq_getElem hj)] at hsend
  rw [hpair i hi, hpair j hj]
  exact pairOk_congr hreceive hsend

/-! ## The intervals are those of the maximal blocks of admissible pairs -/

def spanOf (clock : SessionClockEvidenceV1) (block : ℕ × ℕ) : ℤ × ℤ :=
  (clock.receiveAt block.1, clock.sendAt (block.1 + block.2))

/-- What the loop has laid down before pair `i`, with the interval of an open block last. -/
def laidDown (clock : SessionClockEvidenceV1) (intervals : List (ℤ × ℤ)) (i : ℕ) :
    Option ℕ → List (ℤ × ℤ)
  | none => intervals
  | some start => intervals ++ [(clock.receiveAt start, clock.sendAt i)]

theorem foldl_admitPair {open? : Option ℕ} {rest : List Bool}
    (hrest : clock.validPairs.drop i = rest)
    (hopen : OpenBlock clock.validPairs i open?) :
    (List.range' i rest.length).foldl clock.admitPair (clock.laidDown intervals i open?) =
      intervals ++ (blocksFrom open? i rest).map clock.spanOf := by
  induction rest generalizing i open? intervals with
  | nil =>
      cases open? with
      | none => simp [laidDown, blocksFrom]
      | some start =>
          have hend : start + (i - start) = i := Nat.add_sub_cancel' hopen.1.le
          simp [laidDown, blocksFrom, spanOf, hend]
  | cons flag rest ih =>
      have hflag : clock.validPairs[i]? = some flag := by
        rw [← Nat.add_zero i, ← List.getElem?_drop, hrest]
        rfl
      have hnext : clock.validPairs.drop (i + 1) = rest := by
        rw [← List.drop_drop, hrest]
        rfl
      have hvalid : clock.validPair i = flag := by rw [validPair, hflag, Option.getD_some]
      rw [List.length_cons, List.range'_succ, List.foldl_cons]
      cases flag with
      | false =>
          have hstep : ∀ laid, clock.admitPair laid i = laid := by
            intro laid
            rw [admitPair, hvalid, if_neg Bool.false_ne_true]
          rw [hstep]
          cases open? with
          | none => exact @ih (i + 1) intervals none hnext (.inr hflag)
          | some start =>
              have hend : start + (i - start) = i := Nat.add_sub_cancel' hopen.1.le
              have hrun := @ih (i + 1) (intervals ++ [(clock.receiveAt start, clock.sendAt i)]) none
                hnext (.inr hflag)
              rw [laidDown] at hrun
              rw [laidDown, hrun, blocksFrom, if_neg Bool.false_ne_true, List.map_cons, spanOf,
                hend, List.append_assoc, List.singleton_append]
      | true =>
          cases open? with
          | none =>
              -- no interval ends at this sample through an admissible pair
              have hstep : clock.admitPair intervals i =
                  intervals ++ [(clock.receiveAt i, clock.sendAt (i + 1))] := by
                rw [admitPair, hvalid, if_pos rfl]
                split
                · refine if_neg ?_
                  rintro ⟨hpos, hbefore, -⟩
                  rcases hopen with rfl | hfalse
                  · exact absurd hpos (lt_irrefl 0)
                  · rw [validPair, hfalse] at hbefore
                    cases hbefore
                · rfl
              have hopen' : OpenBlock clock.validPairs (i + 1) (some i) := by
                refine ⟨Nat.lt_succ_self i, fun k hk hk' => ?_, hopen⟩
                rwa [show k = i by omega]
              rw [laidDown, hstep]
              exact @ih (i + 1) intervals (some i) hnext hopen'
          | some start =>
              obtain ⟨hlt, hall, hfirst⟩ := hopen
              have hbefore : clock.validPair (i - 1) = true :=
                validPair_iff.mpr (hall (i - 1) (by omega) (by omega))
              have hstep : clock.admitPair
                  (intervals ++ [(clock.receiveAt start, clock.sendAt i)]) i =
                    intervals ++ [(clock.receiveAt start, clock.sendAt (i + 1))] := by
                rw [admitPair, hvalid, if_pos rfl, List.getLast?_concat]
                dsimp only
                rw [if_pos ⟨by omega, hbefore, rfl⟩, List.dropLast_concat]
              have hopen' : OpenBlock clock.validPairs (i + 1) (some start) := by
                refine ⟨by omega, fun k hk hk' => ?_, hfirst⟩
                rcases Nat.lt_succ_iff_lt_or_eq.mp hk' with hk' | rfl
                · exact hall k hk hk'
                · exact hflag
              rw [laidDown, hstep]
              exact @ih (i + 1) intervals (some start) hnext hopen'

theorem span_le (h : MaximalBlock clock.validPairs j k) :
    j + k < clock.samples.length ∧ clock.receiveAt j ≤ clock.sendAt (j + k) := by
  have hlength : clock.validPairs.length = clock.samples.length - 1 := validPairs_length
  have hinside := h.inside
  have hnonempty := h.nonempty
  have hlt : j + k < clock.samples.length := by omega
  exact ⟨hlt, receiveAt_le_sendAt (by omega) hlt⟩

theorem admissibleIntervals_eq (clock : SessionClockEvidenceV1) : clock.admissibleIntervals =
    (blocksFrom none 0 clock.validPairs).map clock.spanOf := by
  have hloop := @foldl_admitPair clock 0 [] none clock.validPairs rfl (.inl rfl)
  rw [laidDown, ← List.range_eq_range', List.nil_append] at hloop
  rw [admissibleIntervals, hloop, List.filter_eq_self]
  intro interval hmem
  obtain ⟨block, hblock, rfl⟩ := List.mem_map.mp hmem
  exact decide_eq_true (span_le (((mem_blocksFrom _).1 block).mp hblock)).2

/-! ## The intervals are increasing and apart -/

structure Increasing (intervals : List (ℤ × ℤ)) : Prop where
  proper : ∀ interval ∈ intervals, interval.1 ≤ interval.2
  apart : intervals.Pairwise fun a b => a.1 < b.1 ∧ a.2 ≤ b.1 ∧ a.2 < b.2

theorem span_apart (h : MaximalBlock clock.validPairs i j) {i' j' : ℕ}
    (h' : MaximalBlock clock.validPairs i' j') (hlt : i + j < i') :
    clock.receiveAt i < clock.receiveAt i' ∧ clock.sendAt (i + j) ≤ clock.receiveAt i' ∧
      clock.sendAt (i + j) < clock.sendAt (i' + j') := by
  obtain ⟨hend, hspan⟩ := span_le h
  obtain ⟨hend', hspan'⟩ := span_le h'
  have hlast : i' < clock.samples.length := by omega
  have hsend := sendAt_le_receiveAt hend
  have hreceive := receiveAt_mono hlt.le hlast
  -- the pair after the block, and the last before it and the first of the next
  have hseam : clock.validPair (i + j) = false := by
    have hinside := h'.inside
    rcases h.after with hall | hfalse
    · have := h'.nonempty
      omega
    · rw [validPair, hfalse, Option.getD_some]
  have hnonempty := h.nonempty
  have hnonempty' := h'.nonempty
  have hfirst : clock.validPair i = true :=
    validPair_iff.mpr (h.all i le_rfl (by omega))
  have hlater : clock.validPair (i' + (j' - 1)) = true :=
    validPair_iff.mpr (h'.all _ (by omega) (by omega))
  have hmiddle : clock.receiveAt (i + j) ≤ clock.sendAt (i + j + 1) :=
    receiveAt_le_sendAt (Nat.lt_succ_self _) (by omega)
  have hmiddle' := sendAt_mono (by omega : i + j + 1 ≤ i') hlast
  have hat := sendAt_le_receiveAt hlast
  refine ⟨?_, hsend.trans hreceive, ?_⟩
  · refine lt_of_le_of_ne (receiveAt_mono (by omega) hlast) fun heq => ?_
    -- everything from the first receipt to the last stands at one instant
    have hlow : clock.receiveAt i ≤ clock.sendAt (i + 1) :=
      receiveAt_le_sendAt (Nat.lt_succ_self _) (by omega)
    have hup := sendAt_mono (by omega : i + 1 ≤ i + j) hend
    have hcongr : clock.validPair i = clock.validPair (i + j) :=
      validPair_congr (by omega) (by omega) (by omega) (by omega)
    rw [hfirst, hseam] at hcongr
    cases hcongr
  · refine lt_of_le_of_ne (sendAt_mono (by omega) hend') fun heq => ?_
    have hlow : clock.receiveAt i' ≤ clock.receiveAt (i' + (j' - 1)) :=
      receiveAt_mono (Nat.le_add_right _ _) (by omega)
    have hsame : i' + (j' - 1) + 1 = i' + j' := by omega
    have hup : clock.receiveAt (i' + (j' - 1)) ≤ clock.sendAt (i' + j') :=
      receiveAt_le_sendAt (by omega) hend'
    have hcongr : clock.validPair (i' + (j' - 1)) = clock.validPair (i + j) :=
      validPair_congr (by omega) (by omega) (by omega) (by rw [hsame]; omega)
    rw [hlater, hseam] at hcongr
    cases hcongr

theorem increasing_admissibleIntervals (clock : SessionClockEvidenceV1) :
    Increasing clock.admissibleIntervals := by
  obtain ⟨hmem, hpairwise⟩ := mem_blocksFrom clock.validPairs
  rw [admissibleIntervals_eq]
  constructor
  · intro interval hinterval
    obtain ⟨block, hblock, rfl⟩ := List.mem_map.mp hinterval
    exact (span_le ((hmem block).mp hblock)).2
  · refine List.pairwise_map.mpr (hpairwise.imp_of_mem ?_)
    intro block block' hblock hblock' hlt
    exact span_apart ((hmem block).mp hblock) ((hmem block').mp hblock') hlt

/-! ## Brackets -/

/-- An arrival lies in an interval where it lies between two samples that admissible pairs
join. -/
theorem admits_iff : clock.Admits arrival ↔ ∃ first last, first < last ∧
    (∀ k, first ≤ k → k < last → clock.validPair k = true) ∧
      clock.receiveAt first ≤ arrival ∧ arrival ≤ clock.sendAt last := by
  obtain ⟨hmem, -⟩ := mem_blocksFrom clock.validPairs
  rw [Admits, admissibleIntervals_eq]
  constructor
  · rintro ⟨interval, hinterval, hlow, hhigh⟩
    obtain ⟨block, hblock, rfl⟩ := List.mem_map.mp hinterval
    have hblock := (hmem block).mp hblock
    refine ⟨block.1, block.1 + block.2, ?_, fun k hk hk' => ?_, hlow, hhigh⟩
    · have := hblock.nonempty
      omega
    · exact validPair_iff.mpr (hblock.all k hk hk')
  · rintro ⟨first, last, hlt, hall, hlow, hhigh⟩
    obtain ⟨block, hblock, hstart, hend⟩ := @exists_block clock.validPairs _ 0 none first rfl
      (validPair_iff.mp (hall first le_rfl hlt)) (Nat.zero_le _)
    have hmaximal := (hmem block).mp hblock
    -- the block goes on as long as the pairs are admissible
    have hreach : last ≤ block.1 + block.2 := by
      by_contra hpast
      have hset := validPair_iff.mp (hall (block.1 + block.2) hend.le (not_le.mp hpast))
      exact absurd (hmaximal.lt_of_set hset le_rfl) (lt_irrefl _)
    obtain ⟨hlength, -⟩ := span_le hmaximal
    refine ⟨_, List.mem_map_of_mem hblock, ?_, ?_⟩
    · exact (receiveAt_mono hstart (by omega)).trans hlow
    · exact hhigh.trans (sendAt_mono hreach hlength)

theorem boundFor_isSome :
    (clock.boundFor arrival).isSome = true ↔ (clock.bracket arrival).isSome = true := by
  unfold boundFor
  cases hbracket : clock.bracket arrival with
  | none => simp
  | some pair =>
      obtain ⟨prior, following⟩ := pair
      obtain ⟨hcases, -, -⟩ := bracket_eq_some hbracket
      have hlt : prior < clock.samples.length := by
        rcases hcases with ⟨-, hvalid⟩ | ⟨-, hvalid, -⟩
        · exact Nat.lt_of_succ_lt (lt_length_of_validPair hvalid)
        · exact Nat.lt_of_succ_lt (lt_length_of_validPair hvalid)
      have hwidth : following + 1 - prior = following - prior + 1 := by
        rcases hcases with ⟨rfl, -⟩ | ⟨rfl, -, -⟩ <;> omega
      have hused : (clock.samples.drop prior).take (following + 1 - prior) ≠ [] := by
        rw [hwidth, List.drop_eq_getElem_cons hlt, List.take_succ_cons]
        exact List.cons_ne_nil _ _
      dsimp only
      generalize (clock.samples.drop prior).take (following + 1 - prior) = used at hused ⊢
      cases used with
      | nil => exact absurd rfl hused
      | cons first used => simp [List.getLast?_cons]

theorem lt_bisect_receiveAt (hi : i < clock.samples.length) :
    i < Bisect.bisectRight clock.receives arrival ↔ clock.receiveAt i ≤ arrival := by
  have ha := List.getElem?_eq_getElem hi
  rw [receiveAt_eq ha]
  exact lt_bisect_receives ha

theorem lt_bisect_sendAt (hi : i < clock.samples.length) :
    i < Bisect.bisectLeft clock.sends arrival ↔ clock.sendAt i < arrival := by
  have ha := List.getElem?_eq_getElem hi
  rw [sendAt_eq ha]
  exact lt_bisect_sends ha

theorem bracket_isSome_iff {prior following : ℕ}
    (hprior : Bisect.bisectRight clock.receives arrival = prior + 1)
    (hfollowing : Bisect.bisectLeft clock.sends arrival = following) :
    (clock.bracket arrival).isSome = true ↔ following < clock.samples.length ∧
      (following = prior + 1 ∧ clock.validPair prior = true ∨
        following = prior + 2 ∧ clock.validPair prior = true ∧
          clock.validPair (prior + 1) = true) := by
  unfold bracket
  rw [hprior, hfollowing]
  dsimp only
  by_cases hlength : clock.samples.length ≤ following
  · simp [hlength]
  rw [if_neg hlength]
  have hlt := not_le.mp hlength
  by_cases hnext : following = prior + 1
  · rw [if_pos hnext]
    by_cases hvalid : clock.validPair prior = true <;> simp [hvalid, hnext ▸ hlt, hnext]
  rw [if_neg hnext]
  by_cases hmiddle : following = prior + 2
  · rw [if_pos hmiddle]
    by_cases hvalid : clock.validPair prior = true <;>
      by_cases hvalid' : clock.validPair (prior + 1) = true <;>
        simp [hvalid, hvalid', hmiddle ▸ hlt, hmiddle]
  · simp [hmiddle, hnext]

theorem admits_of_bracket (h : (clock.bracket arrival).isSome = true) : clock.Admits arrival := by
  obtain ⟨⟨prior, following⟩, hbracket⟩ := Option.isSome_iff_exists.mp h
  obtain ⟨hcases, hlow, hhigh⟩ := bracket_eq_some hbracket
  refine admits_iff.mpr ⟨prior, following, ?_⟩
  have hends : following < clock.samples.length → prior < following →
      clock.receiveAt prior ≤ arrival ∧ arrival ≤ clock.sendAt following := by
    intro hfollowing hlt
    have ha := List.getElem?_eq_getElem (hlt.trans hfollowing)
    have hb := List.getElem?_eq_getElem hfollowing
    rw [receiveAt_eq ha, sendAt_eq hb]
    exact ⟨hlow _ ha, hhigh _ hb⟩
  rcases hcases with ⟨rfl, hvalid⟩ | ⟨rfl, hvalid, hvalid'⟩
  · refine ⟨Nat.lt_succ_self _, fun k hk hk' => ?_,
      hends (lt_length_of_validPair hvalid) (Nat.lt_succ_self _)⟩
    rwa [show k = prior by omega]
  · refine ⟨by omega, fun k hk hk' => ?_, hends (lt_length_of_validPair hvalid') (by omega)⟩
    rcases (by omega : k = prior ∨ k = prior + 1) with rfl | rfl
    · exact hvalid
    · exact hvalid'

theorem InstantBesidePair.admits (h : clock.InstantBesidePair arrival) :
    clock.Admits arrival ∧ ¬ (clock.bracket arrival).isSome = true := by
  obtain ⟨i, hi, hsend, hreceive, hpair⟩ := h
  constructor
  · rcases hpair with hvalid | ⟨k, rfl, hvalid⟩
    · refine admits_iff.mpr ⟨i, i + 1, Nat.lt_succ_self i, fun k hk hk' => ?_, hreceive.le, ?_⟩
      · rwa [show k = i by omega]
      · rw [← hreceive]
        exact receiveAt_le_sendAt (Nat.lt_succ_self i) (lt_length_of_validPair hvalid)
    · refine admits_iff.mpr ⟨k, k + 1, Nat.lt_succ_self k, fun l hl hl' => ?_, ?_, hsend.ge⟩
      · rwa [show l = k by omega]
      · rw [← hsend]
        exact receiveAt_le_sendAt (Nat.lt_succ_self k) hi
  · -- the sample was received by then, and it was not sent before
    have hreceived := (lt_bisect_receiveAt hi).mpr hreceive.le
    have hsent : ¬ i < Bisect.bisectLeft clock.sends arrival := fun hlt =>
      absurd ((lt_bisect_sendAt hi).mp hlt) hsend.not_lt
    obtain ⟨prior, hprior⟩ := Nat.exists_eq_add_one.mpr (Nat.zero_lt_of_lt hreceived)
    rw [bracket_isSome_iff hprior rfl]
    rintro ⟨-, ⟨hnext, -⟩ | ⟨hnext, -⟩⟩ <;> omega

theorem bracket_of_admits (h : clock.Admits arrival)
    (hinstant : ¬ clock.InstantBesidePair arrival) :
    (clock.bracket arrival).isSome = true := by
  obtain ⟨first, last, hlt, hall, hlow, hhigh⟩ := admits_iff.mp h
  have hlength : last < clock.samples.length := by
    have := lt_length_of_validPair (hall (last - 1) (by omega) (by omega))
    omega
  have hreceived := (lt_bisect_receiveAt (hlt.trans hlength)).mpr hlow
  obtain ⟨prior, hprior⟩ := Nat.exists_eq_add_one.mpr (Nat.zero_lt_of_lt hreceived)
  have hcount : Bisect.bisectRight clock.receives arrival ≤ clock.receives.length :=
    Bisect.bisectRight_le_length receives_sorted
  have hbound : prior < clock.samples.length := by
    rw [hprior] at hcount
    simpa [receives] using hcount
  have hpriorle : clock.receiveAt prior ≤ arrival :=
    (lt_bisect_receiveAt hbound).mp (hprior ▸ Nat.lt_succ_self prior)
  obtain ⟨following, hfollowing⟩ : ∃ f, Bisect.bisectLeft clock.sends arrival = f := ⟨_, rfl⟩
  have hle : following ≤ last := by
    by_contra hgt
    exact absurd ((lt_bisect_sendAt hlength).mp (by omega)) (not_lt.mpr hhigh)
  have hsent : arrival ≤ clock.sendAt following := by
    refine not_lt.mp fun hlt => ?_
    have := (lt_bisect_sendAt (hle.trans_lt hlength)).mpr hlt
    omega
  -- no sample of the stretch was received and sent at once
  have hpriorlt : prior < last := by
    by_contra hge
    have hmono := receiveAt_mono (not_lt.mp hge) hbound
    have hwidth := sendAt_le_receiveAt hlength
    exact hinstant ⟨last, hlength, by omega, by omega, .inr ⟨last - 1, by omega,
      hall (last - 1) (by omega) (by omega)⟩⟩
  have hfollowinggt : prior < following := by
    by_contra hge
    rcases Nat.lt_or_ge following first with hbefore | hafter
    · have hmono := sendAt_mono hbefore.le (hlt.trans hlength)
      have hwidth := sendAt_le_receiveAt (hlt.trans hlength)
      exact hinstant ⟨first, hlt.trans hlength, by omega, by omega, .inl (hall first le_rfl hlt)⟩
    · have hmono := receiveAt_mono (not_lt.mp hge) hbound
      have hwidth := sendAt_le_receiveAt (hle.trans_lt hlength)
      exact hinstant ⟨following, hle.trans_lt hlength, by omega, by omega,
        .inl (hall following hafter (by omega))⟩
  have hfirst : first ≤ prior := by omega
  rw [bracket_isSome_iff hprior hfollowing]
  refine ⟨hle.trans_lt hlength, ?_⟩
  rcases Nat.lt_or_ge following (prior + 2) with hnext | hpast
  · exact .inl ⟨by omega, hall prior hfirst hpriorlt⟩
  · -- the sample after the prior one was not received by then
    have hmiddle : ¬ clock.receiveAt (prior + 1) ≤ arrival := fun hle' => by
      have := (lt_bisect_receiveAt (by omega)).mpr hle'
      omega
    have hnot : ¬ prior + 2 < following := fun hlt' => by
      have hsend := (lt_bisect_sendAt (by omega)).mp (hfollowing ▸ hlt')
      have hchain : clock.receiveAt (prior + 1) ≤ clock.sendAt (prior + 2) :=
        receiveAt_le_sendAt (Nat.lt_succ_self _) (by omega)
      exact hmiddle (hchain.trans hsend.le)
    exact .inr ⟨by omega, hall prior hfirst hpriorlt, hall (prior + 1) (by omega) (by omega)⟩

/-- An arrival has a bound exactly where an interval holds it, and the intervals are
increasing, unless a sample sent and received at the arrival stands beside an admissible
pair. -/
theorem boundFor_iff_admits (clock : SessionClockEvidenceV1) (arrival : ℤ) :
    (((clock.boundFor arrival).isSome = true ↔ clock.Admits arrival) ∧
      Increasing clock.admissibleIntervals) ↔ ¬ clock.InstantBesidePair arrival := by
  rw [boundFor_isSome, and_iff_left (increasing_admissibleIntervals clock)]
  constructor
  · intro hiff hinstant
    obtain ⟨hadmits, hnone⟩ := hinstant.admits
    exact hnone (hiff.mpr hadmits)
  · intro hinstant
    exact ⟨admits_of_bracket, fun hadmits => bracket_of_admits hadmits hinstant⟩

end SessionClockEvidenceV1

def instantSamples : List ClockOffsetSampleEvidenceV1 :=
  [⟨0, 0, 0, 1, 0, "a", le_rfl, le_rfl, le_rfl⟩,
    ⟨100, 100, 100, 1, 100, "b", le_rfl, le_rfl, le_rfl⟩]

/-- The interval of the two samples holds its ends, and its ends have no bound. -/
theorem instant_has_no_bound : ∃ clock,
    SessionClockEvidenceV1.init 0 instantSamples [] = .ok clock ∧
      clock.admissibleIntervals = [(0, 100)] ∧
        clock.Admits 0 ∧ clock.boundFor 0 = none ∧ clock.boundFor 100 = none := by
  refine ⟨⟨0, instantSamples, [], by decide⟩, rfl, ?_, ⟨(0, 100), ?_, le_rfl, by decide⟩, ?_, ?_⟩
  · decide +kernel
  · decide +kernel
  · decide +kernel
  · decide +kernel

end T4

end TradePlatform
