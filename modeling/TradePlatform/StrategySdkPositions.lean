/-
# `TradePlatform.StrategySdkPositions` — the position held over each bar

`execution_indices_v1` and `held_positions_v1`: a decision made at the close of a bar fills at
the first open past that close and the lag, if that bar is of the same segment; the position
is carried forward inside a segment and is flat over its last bar.  The columns are of
`int64`, so a close and a lag are added in 64 bits.

The held positions of a window are flat over its last bar, and over its first one where no
decision falls due before the first open.  Between two opens the equity earns the position
times the move of the open, less the cost of the change that was filled at the first of them.
-/
import TradePlatform.StrategySdk
import TradePlatform.Lib.Bisect
import TradePlatform.Lib.Dict
import TradePlatform.Lib.Latest
import TradePlatform.Lib.MachineInt
import TradePlatform.Lib.Replay

namespace TradePlatform

namespace StrategySdk

open MachineInt

/-! ## The loops of the source -/

section Positions

variable (bars : BarsV1) (targets : ℕ → ℤ) (lagUs : ℤ)

def BarsV1.opens : List ℤ := (List.range bars.size).map bars.openUs

def dueAt (i : ℕ) : ℤ := int64 (bars.closeUs i + lagUs)

/-- The bar whose open fills the decision of bar `i`; `none` for `-1`. -/
def executionIndex (i : ℕ) : Option ℕ :=
  let j := Bisect.bisectRight bars.opens (dueAt bars lagUs i)
  if j < bars.size ∧ bars.segment j = bars.segment i then some j else none

/-- `execution_indices_v1`: a lag that is no `int64` cannot be added to the column. -/
def executionIndicesV1 : Except Exn (ℕ → Option ℕ) :=
  if Fits lagUs then .ok (executionIndex bars lagUs)
  else .error .arithmeticError

def fileDecision (execIndex : ℕ → Option ℕ) (pending : Dict ℕ ℤ) (i : ℕ) : Dict ℕ ℤ :=
  match execIndex i with
  | some j => pending.set j (targets i)
  | none => pending

/-- The decisions of the first `n` bars, by the bar whose open fills them. -/
def pendingDecisions (execIndex : ℕ → Option ℕ) (n : ℕ) : Dict ℕ ℤ :=
  (List.range n).foldl (fileDecision targets execIndex) .empty

def LastOfSegment (j : ℕ) : Prop := j + 1 = bars.size ∨ bars.segment (j + 1) ≠ bars.segment j

instance (j : ℕ) : Decidable (LastOfSegment bars j) := inferInstanceAs (Decidable (_ ∨ _))

def currentPosition (pending : Dict ℕ ℤ) : ℕ → ℤ
  | 0 => pending.getD 0 0
  | j + 1 =>
      pending.getD (j + 1)
        (if bars.segment (j + 1) ≠ bars.segment j then 0 else currentPosition pending j)

def heldPositionsV1 : Except Exn (List ℤ) := do
  let execIndex ← executionIndicesV1 bars lagUs
  let pending := pendingDecisions targets execIndex bars.size
  return (List.range bars.size).map fun j =>
    if LastOfSegment bars j then 0 else currentPosition bars pending j

end Positions

/-! ## The rule -/

section Rule

variable (bars : BarsV1) (targets : ℕ → ℤ) (lagUs : ℤ)

/-- Bar `i` is of the segment of bar `j` and its decision is due before the open of `j`. -/
def DecidesFor (j i : ℕ) : Prop :=
  bars.segment i = bars.segment j ∧ bars.closeUs i + lagUs < bars.openUs j

instance (j i : ℕ) : Decidable (DecidesFor bars lagUs j i) := inferInstanceAs (Decidable (_ ∧ _))

/-- No bar of an earlier segment opens past the instant at which the decision of `i` is due. -/
def FillsInside (i : ℕ) : Prop :=
  ∀ k < bars.size, bars.segment k < bars.segment i → bars.openUs k ≤ bars.closeUs i + lagUs

instance (i : ℕ) : Decidable (FillsInside bars lagUs i) :=
  inferInstanceAs (Decidable (∀ k < bars.size, _))

/-- Flat over the last bar of a segment, else the target of the latest of the bars that
decide, and flat where there is none. -/
def heldBy (decides : ℕ → ℕ → Prop) [∀ j, DecidablePred (decides j)] (j : ℕ) : ℤ :=
  if LastOfSegment bars j then 0 else (latest (decides j) bars.size).elim 0 targets

structure BarsV1.Ordered : Prop where
  opens : ∀ i j, i < j → j < bars.size → bars.openUs i < bars.openUs j
  closes : ∀ i j, i ≤ j → j < bars.size → bars.closeUs i ≤ bars.closeUs j
  segments : Monotone bars.segment

end Rule

/-! ## The decisions of a window -/

variable {bars : BarsV1} {targets : ℕ → ℤ} {lagUs : ℤ} {i j k : ℕ} {exec : ℕ → Option ℕ}

theorem segmentsOf_monotone (breaks : ℕ → Bool) : Monotone (segmentsOf breaks) :=
  monotone_nat_of_le_succ fun _ => Nat.le_add_right _ _

theorem BarsV1.fromRows_columns {κ : Type} [DecidableEq κ] {rows : List Row}
    {keys : Option (List κ)} (h : BarsV1.fromRows rows keys = .ok bars) :
    (rows.map Row.barOpenAt).Pairwise (· < ·) ∧ bars.size = rows.length ∧
      Monotone bars.segment ∧ ∀ i (hi : i < rows.length),
        bars.openUs i = rows[i].barOpenAt ∧ bars.closeUs i = rows[i].barCloseAt := by
  unfold BarsV1.fromRows at h
  dsimp only at h
  obtain ⟨-, h⟩ := Except.of_ite_error h
  obtain ⟨-, h⟩ := Except.of_ite_error h
  obtain ⟨hopens, h⟩ := Except.of_ite_error h
  obtain ⟨ticks, _, h⟩ := Except.bind_eq_ok.mp h
  cases Except.pure_eq_ok.mp h
  exact ⟨not_not.mp hopens, rfl, segmentsOf_monotone _, fun i hi => by simp [hi]⟩

theorem BarsV1.fromRows_ordered {κ : Type} [DecidableEq κ] {rows : List Row}
    {keys : Option (List κ)} (h : BarsV1.fromRows rows keys = .ok bars)
    (hcloses : (rows.map Row.barCloseAt).Pairwise (· ≤ ·)) : bars.Ordered := by
  obtain ⟨hopens, hsize, hsegments, hcolumns⟩ := BarsV1.fromRows_columns h
  refine ⟨fun i j hij hj => ?_, fun i j hij hj => ?_, hsegments⟩ <;> rw [hsize] at hj
  · rw [(hcolumns i (hij.trans hj)).1, (hcolumns j hj).1]
    exact List.pairwise_iff_getElem.mp (List.pairwise_map.mp hopens) i j (hij.trans hj) hj hij
  · rcases hij.eq_or_lt with rfl | hij
    · exact le_rfl
    · rw [(hcolumns i (hij.trans hj)).2, (hcolumns j hj).2]
      exact List.pairwise_iff_getElem.mp (List.pairwise_map.mp hcloses) i j (hij.trans hj) hj hij

theorem BarsV1.opens_pairwise (h : bars.Ordered) : bars.opens.Pairwise (· ≤ ·) := by
  refine List.pairwise_map.mpr (List.pairwise_lt_range.imp_of_mem ?_)
  intro i j _ hj hij
  exact (h.opens i j hij (List.mem_range.mp hj)).le

theorem lt_bisectRight_opens (h : bars.Ordered) (hk : k < bars.size) {x : ℤ} :
    k < Bisect.bisectRight bars.opens x ↔ bars.openUs k ≤ x := by
  refine Bisect.lt_bisectRight (BarsV1.opens_pairwise h) ?_
  simp [BarsV1.opens, hk]

theorem executionIndex_eq_some (h : bars.Ordered) :
    executionIndex bars lagUs i = some j ↔
      j < bars.size ∧ bars.segment j = bars.segment i ∧ dueAt bars lagUs i < bars.openUs j ∧
        ∀ k < j, bars.openUs k ≤ dueAt bars lagUs i := by
  have hcount := fun k (hk : k < bars.size) =>
    lt_bisectRight_opens h hk (x := dueAt bars lagUs i)
  simp only [executionIndex, Option.ite_none_right_eq_some, Option.some_inj]
  constructor
  · rintro ⟨⟨hsize, hsegment⟩, rfl⟩
    refine ⟨hsize, hsegment, not_le.mp fun hle => ?_, fun k hk => ?_⟩
    · exact absurd ((hcount _ hsize).mpr hle) (lt_irrefl _)
    · exact (hcount k (hk.trans hsize)).mp hk
  · rintro ⟨hsize, hsegment, hopen, hbefore⟩
    have hle : Bisect.bisectRight bars.opens (dueAt bars lagUs i) ≤ j := not_lt.mp fun hlt =>
      absurd ((hcount j hsize).mp hlt) (not_le.mpr hopen)
    have hge : j ≤ Bisect.bisectRight bars.opens (dueAt bars lagUs i) := by
      by_contra hlt
      have hlt := not_le.mp hlt
      exact absurd ((hcount _ (hlt.trans hsize)).mpr (hbefore _ hlt)) (lt_irrefl _)
    rw [le_antisymm hle hge]
    exact ⟨⟨hsize, hsegment⟩, rfl⟩

theorem executionIndex_mono (h : bars.Ordered)
    (hmono : ∀ i j, i ≤ j → j < bars.size → dueAt bars lagUs i ≤ dueAt bars lagUs j)
    {i i' j j' : ℕ} (hi : i < bars.size)
    (hexec : executionIndex bars lagUs i = some j) (hexec' : executionIndex bars lagUs i' = some j')
    (hlt : j < j') : i ≤ i' := by
  by_contra hle
  obtain ⟨-, -, hopen, -⟩ := (executionIndex_eq_some h).mp hexec
  obtain ⟨-, -, -, hbefore⟩ := (executionIndex_eq_some h).mp hexec'
  have hdue := hmono i' i (not_le.mp hle).le hi
  have := hbefore j hlt
  omega

theorem get?_fileDecision {pending : Dict ℕ ℤ} :
    (fileDecision targets exec pending i).get? j =
      if exec i = some j then some (targets i) else pending.get? j := by
  unfold fileDecision
  cases exec i with
  | none => simp
  | some j' => simp [Dict.get?_set]

theorem get?_pendingDecisions (exec : ℕ → Option ℕ) (n j : ℕ) :
    (pendingDecisions targets exec n).get? j =
      (latest (fun i => exec i = some j) n).map targets := by
  induction n with
  | zero => rfl
  | succ n ih =>
      rw [pendingDecisions, List.range_succ, List.foldl_concat, get?_fileDecision, latest]
      split
      · rfl
      · exact ih

/-! ## What is carried forward -/

/-- The decision of bar `i` fills in the segment of bar `j`, at its open or before. -/
def FilledBy (bars : BarsV1) (exec : ℕ → Option ℕ) (j i : ℕ) : Prop :=
  ∃ f ∈ exec i, f ≤ j ∧ bars.segment f = bars.segment j

instance (exec : ℕ → Option ℕ) (j i : ℕ) : Decidable (FilledBy bars exec j i) :=
  inferInstanceAs (Decidable (∃ f ∈ exec i, _))

/-- After the open of a bar the position is the target of the latest decision filled in its
segment so far. -/
theorem currentPosition_eq {n : ℕ} (hsegments : Monotone bars.segment)
    (hmono : ∀ i < n, ∀ i' < n, ∀ f f', exec i = some f → exec i' = some f' → f < f' → i ≤ i') :
    currentPosition bars (pendingDecisions targets exec n) j =
      (latest (FilledBy bars exec j) n).elim 0 targets := by
  induction j with
  | zero =>
      have hfirst : ∀ i < n, FilledBy bars exec 0 i ↔ exec i = some 0 := by
        intro i _
        constructor
        · rintro ⟨f, hf, hle, -⟩
          rw [← Nat.le_zero.mp hle]
          exact hf
        · intro hf
          exact ⟨0, hf, le_rfl, rfl⟩
      rw [currentPosition, Dict.getD, get?_pendingDecisions, latest_congr hfirst]
      cases latest (fun i => exec i = some 0) n <;> rfl
  | succ j ih =>
      rw [currentPosition, Dict.getD, get?_pendingDecisions]
      have hsplit : ∀ i < n, FilledBy bars exec (j + 1) i ↔
          (bars.segment (j + 1) = bars.segment j ∧ FilledBy bars exec j i) ∨
            exec i = some (j + 1) := by
        intro i _
        constructor
        · rintro ⟨f, hf, hle, hsegment⟩
          rcases Nat.le_succ_iff.mp hle with hle | rfl
          · -- segments do not decrease, so the one between is the same
            have hlow := hsegments hle
            have hhigh := hsegments (Nat.le_succ j)
            have hsame : bars.segment (j + 1) = bars.segment j :=
              le_antisymm (hsegment ▸ hlow) hhigh
            exact .inl ⟨hsame, f, hf, hle, hsegment.trans hsame⟩
          · exact .inr hf
        · rintro (⟨hsame, f, hf, hle, hsegment⟩ | hf)
          · exact ⟨f, hf, hle.trans (Nat.le_succ j), hsegment.trans hsame.symm⟩
          · exact ⟨j + 1, hf, le_rfl, rfl⟩
      rw [latest_congr hsplit, latest_or fun i hi k hk hq hp => ?_]
      · cases hpending : latest (fun i => exec i = some (j + 1)) n with
        | some i => rfl
        | none =>
            rw [Option.none_or, Option.map_none, Option.getD_none]
            split
            · next hbreak =>
                rw [latest_eq_none.mpr fun i _ h => hbreak h.1]
                rfl
            · next hsame =>
                rw [ih]
                congr 1
                exact latest_congr fun i _ => (and_iff_right (not_not.mp hsame)).symm
      · obtain ⟨-, f, hf, hle, -⟩ := hp
        exact hmono k hk i hi f (j + 1) hf hq (Nat.lt_succ_of_le hle)

/-! ## The position held -/

/-- What has filled by the open of bar `j` are the decisions for it that fill inside their
segment. -/
theorem filledBy_executionIndex (h : bars.Ordered)
    (hdue : dueAt bars lagUs i = bars.closeUs i + lagUs)
    (hj : j < bars.size) : FilledBy bars (executionIndex bars lagUs) j i ↔
      DecidesFor bars lagUs j i ∧ FillsInside bars lagUs i := by
  constructor
  · rintro ⟨f, hf, hle, hsegment⟩
    obtain ⟨hsize, hsame, hopen, hbefore⟩ := (executionIndex_eq_some h).mp hf
    rw [hdue] at hopen hbefore
    refine ⟨⟨hsame.symm.trans hsegment, ?_⟩, fun k _ hlt => ?_⟩
    · rcases hle.eq_or_lt with rfl | hlt
      · exact hopen
      · exact hopen.trans (h.opens f j hlt hj)
    · refine hbefore k (not_le.mp fun hge => ?_)
      exact absurd (h.segments hge) (not_le.mpr (hsame ▸ hlt))
  · rintro ⟨⟨hsegment, hopen⟩, hinside⟩
    rw [← hdue] at hopen
    -- the first open past the instant
    have hcount := fun k (hk : k < bars.size) =>
      lt_bisectRight_opens h hk (x := dueAt bars lagUs i)
    have hle : Bisect.bisectRight bars.opens (dueAt bars lagUs i) ≤ j := not_lt.mp fun hlt =>
      absurd ((hcount j hj).mp hlt) (not_le.mpr hopen)
    have hsize := hle.trans_lt hj
    have hsame : bars.segment (Bisect.bisectRight bars.opens (dueAt bars lagUs i)) =
        bars.segment i := by
      refine le_antisymm ((h.segments hle).trans hsegment.ge) (not_lt.mp fun hlt => ?_)
      have hopened := hinside _ hsize hlt
      rw [← hdue] at hopened
      exact absurd ((hcount _ hsize).mpr hopened) (lt_irrefl _)
    exact ⟨_, if_pos ⟨hsize, hsame⟩, hle, hsame.trans hsegment⟩

theorem fillsInside_of_closes (h : bars.Ordered) (hlag : 0 ≤ lagUs) (hi : i < bars.size)
    (hcloses : bars.openUs i ≤ bars.closeUs i) : FillsInside bars lagUs i := by
  intro k _ hlt
  have hki : k < i := not_le.mp fun hle => absurd (h.segments hle) (not_le.mpr hlt)
  have hopens := h.opens k i hki hi
  omega

theorem heldPositionsV1_eq (h : bars.Ordered) (hlag : Fits lagUs)
    (hfits : ∀ i < bars.size, Fits (bars.closeUs i + lagUs)) :
    heldPositionsV1 bars targets lagUs = .ok ((List.range bars.size).map
      (heldBy bars targets fun j i => DecidesFor bars lagUs j i ∧ FillsInside bars lagUs i)) := by
  have hdue : ∀ i < bars.size, dueAt bars lagUs i = bars.closeUs i + lagUs := fun i hi =>
    (hfits i hi).int64_eq
  have hmono : ∀ i j, i ≤ j → j < bars.size → dueAt bars lagUs i ≤ dueAt bars lagUs j := by
    intro i j hij hj
    rw [hdue i (hij.trans_lt hj), hdue j hj]
    exact Int.add_le_add_right (h.closes i j hij hj) lagUs
  rw [heldPositionsV1, executionIndicesV1, if_pos hlag]
  refine congrArg Except.ok (List.map_congr_left fun j hj => ?_)
  have hj := List.mem_range.mp hj
  rw [heldBy, currentPosition_eq h.segments fun i hi i' _ f f' hf hf' hlt =>
    executionIndex_mono h hmono hi hf hf' hlt,
    latest_congr fun i hi => filledBy_executionIndex h (hdue i hi) hj]

/-- Outside the last bars, a bar holds the target of the latest bar of its segment whose
decision is due before its open and fills inside the segment.  Where no bar closes before it
opens, every decision due inside a segment fills there. -/
theorem heldPositionsV1_rule (h : bars.Ordered) (hlag : 0 ≤ lagUs ∧ Fits lagUs)
    (hfits : ∀ i < bars.size, Fits (bars.closeUs i + lagUs)) :
    heldPositionsV1 bars targets lagUs = .ok ((List.range bars.size).map
        (heldBy bars targets fun j i => DecidesFor bars lagUs j i ∧ FillsInside bars lagUs i)) ∧
      ((∀ i < bars.size, bars.openUs i ≤ bars.closeUs i) →
        heldPositionsV1 bars targets lagUs = .ok ((List.range bars.size).map
          (heldBy bars targets fun j i => DecidesFor bars lagUs j i))) := by
  have heq := @heldPositionsV1_eq bars targets lagUs h hlag.2 hfits
  refine ⟨heq, fun hcloses => heq.trans (congrArg Except.ok (List.map_congr_left fun j _ => ?_))⟩
  rw [heldBy, heldBy, latest_congr fun i hi =>
    and_iff_left (fillsInside_of_closes h hlag.1 hi (hcloses i hi))]

def sampleBars (opens closes : List ℤ) (segments : List ℕ) : BarsV1 where
  size := opens.length
  openUs := (opens.getD · 0)
  closeUs := (closes.getD · 0)
  segment := (segments.getD · (segments.foldl max 0))
  segmentStart := 0
  openD := 1
  highD := 1
  lowD := 1
  closeD := 1
  closeTicks := 0
  closeScale := 1
  closeCentre := 1
  segmentStart_zero := rfl
  segmentStart_succ := fun _ => .inr rfl

/-- Four bars of one segment, and the decision of the first. -/
theorem heldPositionsV1_rule_sample :
    let bars := sampleBars [0, 60, 120, 180] [60, 120, 180, 240] []
    let targets : ℕ → ℤ := fun i => if i = 0 then 1 else 0
    heldPositionsV1 bars targets 2 = .ok ((List.range bars.size).map
        (heldBy bars targets fun j i => DecidesFor bars 2 j i)) ∧
      heldPositionsV1 bars targets 2 = .ok [0, 0, 1, 0] := by
  refine ⟨(heldPositionsV1_rule ⟨?_, ?_, ?_⟩ ⟨by decide, by decide⟩ ?_).2 ?_, by decide +kernel⟩
  · intro i j hij hj
    change j < 4 at hj
    interval_cases j <;> interval_cases i <;> decide
  · intro i j hij hj
    change j < 4 at hj
    interval_cases j <;> interval_cases i <;> decide
  · exact fun _ _ _ => le_rfl
  · decide
  · decide

def seamBars : BarsV1 := sampleBars [0, 100, 200] [-5, -3, 250] [0, 1, 1]

def twoBars : BarsV1 := sampleBars [0, 60] [60, 120] []

/-- A decision that is due before the last open of an earlier segment is dropped; and beside a
lag that does not fit, a close wraps and fills at the first bar what is decided later. -/
theorem decision_is_dropped_or_early :
    (seamBars.Ordered ∧ heldPositionsV1 seamBars (fun _ => 1) 0 = .ok [0, 0, 0] ∧
      (List.range seamBars.size).map
        (heldBy seamBars (fun _ => 1) fun j i => DecidesFor seamBars 0 j i) = [0, 1, 0]) ∧
    (twoBars.Ordered ∧ heldPositionsV1 twoBars (fun _ => 1) (2 ^ 63 - 1) = .ok [1, 0] ∧
      (List.range twoBars.size).map
        (heldBy twoBars (fun _ => 1) fun j i => DecidesFor twoBars (2 ^ 63 - 1) j i) = [0, 0]) := by
  refine ⟨⟨⟨?_, ?_, ?_⟩, by decide +kernel, by decide +kernel⟩,
    ⟨?_, ?_, ?_⟩, by decide +kernel, by decide +kernel⟩
  · intro i j hij hj
    change j < 3 at hj
    interval_cases j <;> interval_cases i <;> decide
  · intro i j hij hj
    change j < 3 at hj
    interval_cases j <;> interval_cases i <;> decide
  · refine monotone_nat_of_le_succ fun n => ?_
    rcases n with - | - | - | n
    · decide
    · decide
    · decide
    · exact le_rfl
  · intro i j hij hj
    change j < 2 at hj
    obtain ⟨rfl, rfl⟩ : i = 0 ∧ j = 1 := by omega
    decide
  · intro i j hij hj
    change j < 2 at hj
    interval_cases j <;> interval_cases i <;> decide
  · exact fun _ _ _ => le_rfl

/-! ## What a window makes of the equity, bar after bar -/

/-- What `BarsV1.from_rows` has checked: there is a bar, and the opens increase. -/
structure BarsV1.Window (bars : BarsV1) : Prop where
  pos : 0 < bars.size
  opens : ∀ i j, i < j → j < bars.size → bars.openUs i < bars.openUs j

def NoneDueEarly (bars : BarsV1) (lagUs : ℤ) : Prop :=
  ∀ i < bars.size, bars.openUs 0 ≤ dueAt bars lagUs i

variable {held : List ℤ}

namespace BarsV1.Window

theorem pairwise (h : bars.Window) : bars.opens.Pairwise (· ≤ ·) := by
  refine List.pairwise_map.mpr (List.pairwise_lt_range.imp_of_mem ?_)
  intro i j _ hj hij
  exact (h.opens i j hij (List.mem_range.mp hj)).le

end BarsV1.Window

theorem getElem?_opens (h : i < bars.size) : bars.opens[i]? = some (bars.openUs i) := by
  simp [BarsV1.opens, h]

/-! ## The edges of the held positions -/

theorem heldPositionsV1_eq_ok (h : heldPositionsV1 bars targets lagUs = .ok held) :
    held = (List.range bars.size).map fun j =>
      if LastOfSegment bars j then 0
      else currentPosition bars
        (pendingDecisions targets (executionIndex bars lagUs) bars.size) j := by
  obtain ⟨exec, hexec, h⟩ := Except.bind_eq_ok.mp h
  unfold executionIndicesV1 at hexec
  split at hexec
  · rw [← Except.pure_eq_ok.mp h, Except.ok.inj hexec]
  · cases hexec

theorem heldPositionsV1_length (h : heldPositionsV1 bars targets lagUs = .ok held) :
    held.length = bars.size := by
  rw [heldPositionsV1_eq_ok h, List.length_map, List.length_range]

theorem executionIndex_ne_zero (h : bars.Window) (hdue : bars.openUs 0 ≤ dueAt bars lagUs i) :
    executionIndex bars lagUs i ≠ some 0 := by
  intro hexec
  simp only [executionIndex, Option.ite_none_right_eq_some, Option.some_inj] at hexec
  have hlt := (Bisect.lt_bisectRight h.pairwise (getElem?_opens h.pos)).mpr hdue
  rw [hexec.2] at hlt
  exact lt_irrefl 0 hlt

theorem heldPositionsV1_first (hwindow : bars.Window)
    (h : heldPositionsV1 bars targets lagUs = .ok held) (hdue : NoneDueEarly bars lagUs) :
    held.getD 0 0 = 0 := by
  have hnone : latest (fun i => executionIndex bars lagUs i = some 0) bars.size = none :=
    latest_eq_none.mpr fun i hi => executionIndex_ne_zero hwindow (hdue i hi)
  have hfirst : currentPosition bars
      (pendingDecisions targets (executionIndex bars lagUs) bars.size) 0 = 0 := by
    rw [currentPosition, Dict.getD, get?_pendingDecisions, hnone]
    rfl
  rw [heldPositionsV1_eq_ok h]
  simp [hwindow.pos, hfirst]

/-! ## Flat at the seams -/

def FirstOfSegment (bars : BarsV1) (j : ℕ) : Prop :=
  ∀ i < j, bars.segment i ≠ bars.segment j

theorem heldBy_of_first (h : bars.Ordered) (hlag : 0 ≤ lagUs) (hj : FirstOfSegment bars j)
    (hafter : ∀ i < bars.size, bars.openUs i ≤ bars.closeUs i) :
    heldBy bars targets (fun j i => DecidesFor bars lagUs j i ∧ FillsInside bars lagUs i) j =
      0 := by
  have hnone : ∀ i < bars.size, ¬ (DecidesFor bars lagUs j i ∧ FillsInside bars lagUs i) := by
    rintro i hi ⟨⟨hsegment, hdue⟩, -⟩
    have hclose := hafter i hi
    rcases lt_trichotomy i j with hlt | rfl | hlt
    · exact hj i hlt hsegment
    · omega
    · have hopen := h.opens j i hlt hi
      omega
  unfold heldBy
  rw [latest_eq_none.mpr hnone]
  split <;> rfl

/-- On the bars of rows that close no earlier than they open, nothing is held over the first bar of
a segment, nor over the last: a position never crosses a gap, whatever the targets and the lag. -/
theorem heldPositionsV1_flat {κ : Type} [DecidableEq κ] {rows : List Row}
    {keys : Option (List κ)} (h : BarsV1.fromRows rows keys = .ok bars)
    (hcloses : (rows.map Row.barCloseAt).Pairwise (· ≤ ·))
    (hafter : ∀ row ∈ rows, row.barOpenAt ≤ row.barCloseAt) (hlag : 0 ≤ lagUs ∧ Fits lagUs)
    (hfits : ∀ row ∈ rows, Fits (row.barCloseAt + lagUs)) (targets : ℕ → ℤ) :
    ∃ held, heldPositionsV1 bars targets lagUs = .ok held ∧ held.length = rows.length ∧
      ∀ j < rows.length, FirstOfSegment bars j ∨ LastOfSegment bars j → held.getD j 0 = 0 := by
  obtain ⟨-, hsize, -, hcolumns⟩ := BarsV1.fromRows_columns h
  have hordered := BarsV1.fromRows_ordered h hcloses
  have hrow : ∀ i < bars.size, bars.openUs i ≤ bars.closeUs i ∧ Fits (bars.closeUs i + lagUs) := by
    intro i hi
    rw [hsize] at hi
    rw [(hcolumns i hi).1, (hcolumns i hi).2]
    exact ⟨hafter _ (List.getElem_mem hi), hfits _ (List.getElem_mem hi)⟩
  refine ⟨_, heldPositionsV1_eq hordered hlag.2 fun i hi => (hrow i hi).2, by simp [hsize], ?_⟩
  intro j hj hedge
  rw [← hsize] at hj
  simp only [List.getD_eq_getElem?_getD, List.getElem?_map, List.getElem?_range hj,
    Option.map_some, Option.getD_some]
  rcases hedge with hfirst | hlast
  · exact heldBy_of_first hordered hlag.1 hfirst fun i hi => (hrow i hi).1
  · exact if_pos hlast

def seamRows : List Row :=
  [0, 60, 120, 180].map fun t : ℤ => ⟨t, t + 60, 100, 100, 100, 100⟩

theorem heldPositionsV1_flat_sample : ∃ bars held,
    BarsV1.fromRows seamRows (some [0, 0, 1, 1]) = .ok bars ∧
      heldPositionsV1 bars (fun _ => 1) 2 = .ok held ∧ held.length = seamRows.length ∧
      ∀ j < seamRows.length, FirstOfSegment bars j ∨ LastOfSegment bars j →
        held.getD j 0 = 0 := by
  obtain ⟨bars, h⟩ := Except.exists_of_isOk (x := BarsV1.fromRows seamRows (some [0, 0, 1, 1]))
    (by decide +kernel)
  obtain ⟨held, hheld⟩ := heldPositionsV1_flat h (by decide) (by decide)
    (⟨by decide, by decide⟩ : 0 ≤ (2 : ℤ) ∧ Fits 2) (by decide) fun _ => 1
  exact ⟨bars, held, h, hheld⟩

/-! ## The step of a bar -/

section Step

variable (bars : BarsV1) (held : List ℤ) (cost : ℚ)

/-- The position before the open of bar `k`; the window starts flat. -/
def positionBefore : ℕ → ℤ
  | 0 => 0
  | k + 1 => held.getD k 0

/-- The move from the open of bar `j` to the next open, relative to the first. -/
def openMove (j : ℕ) : ℚ :=
  if j + 1 < bars.size then bars.openD (j + 1) / bars.openD j - 1 else 0

/-- What the equity earns over bar `j`, as a fraction of itself: the position times the move,
less the cost of the change at the open. -/
def strategyStep (j : ℕ) : ℚ :=
  held.getD j 0 * openMove bars j - cost * |held.getD j 0 - positionBefore held j|

end Step

end StrategySdk

end TradePlatform
