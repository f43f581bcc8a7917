/-
# `TradePlatform.PaperIncubation` — how long a candidate has incubated

The fills of one candidate, the runs their signals link them into, and the segments of time
the runs are evidence of.  A run is what the links generate as an equivalence: the code finds
the runs one fill at a time, and what it then merges covers exactly their spans.
-/
import TradePlatform.Domain
import TradePlatform.Lib.Dict
import TradePlatform.Lib.Segments

namespace TradePlatform

namespace PaperIncubation

open Segments

inductive FillStatus where
  | filled | fillBarNotObserved | fillOpenSequenceAmbiguous
deriving DecidableEq, Repr

structure Fill where
  signalId : String
  previousSignalId : Option String
  targetFrom : ℤ
  targetTo : ℤ
  decidedAtMicros : ℤ
  fillBarOpenMicros : ℤ
  status : FillStatus
  fillPrice : Option Decimal
deriving DecidableEq

def Fill.observedMicros (item : Fill) : ℤ :=
  if item.status ≠ .fillBarNotObserved then item.fillBarOpenMicros else item.decidedAtMicros

structure Runs where
  runs : List (ℤ × ℤ)
  runOf : Dict String ℕ

def Runs.empty : Runs := ⟨[], Dict.empty⟩

def Runs.link (state : Runs) (item : Fill) : Runs :=
  match item.previousSignalId.bind (Dict.get? state.runOf) with
  | none =>
      { runs := state.runs ++ [(item.decidedAtMicros, item.observedMicros)]
        runOf := Dict.set state.runOf item.signalId state.runs.length }
  | some index =>
      { runs := state.runs.modify index fun run => (run.1, max run.2 item.observedMicros)
        runOf := Dict.set state.runOf item.signalId index }

def evidencedSegmentsV1 (items : List Fill) : List (ℤ × ℤ) :=
  merge (items.foldl Runs.link .empty).runs

/-! ## Runs, as the links generate them -/

/-- Fill `i` names the signal of fill `j`, the latest before it with that identity. -/
def Linked (items : List Fill) (j i : ℕ) : Prop :=
  j < i ∧ ∃ id, (items[i]?).bind Fill.previousSignalId = some id ∧
    (items[j]?).map Fill.signalId = some id ∧
    ∀ k, j < k → k < i → (items[k]?).map Fill.signalId ≠ some id

def SameRun (items : List Fill) : ℕ → ℕ → Prop := Relation.EqvGen (Linked items)

def instantsOf (f : Fill → ℤ) (items : List Fill) (members : Set ℕ) : Set ℤ :=
  {at_ | ∃ k ∈ members, ∃ item, items[k]? = some item ∧ f item = at_}

/-- From the first decision of `members` to their latest observed instant. -/
def IsSpan (items : List Fill) (members : Set ℕ) (segment : ℤ × ℤ) : Prop :=
  IsLeast (instantsOf Fill.decidedAtMicros items members) segment.1 ∧
    IsGreatest (instantsOf Fill.observedMicros items members) segment.2

def IsRun (items : List Fill) (segment : ℤ × ℤ) : Prop :=
  ∃ i < items.length, IsSpan items {k | SameRun items i k} segment

section Linking

variable {items done rest : List Fill} {item : Fill} {state : Runs} {ρ : ℕ → ℕ}
  {i j k n r : ℕ} {segment : ℤ × ℤ} {members : Set ℕ}

theorem Linked.lt_length (h : Linked items j i) : i < items.length := by
  obtain ⟨-, id, hnames, -⟩ := h
  obtain ⟨item, hitem, -⟩ := Option.bind_eq_some_iff.mp hnames
  exact (List.getElem?_eq_some_iff.mp hitem).1

theorem Linked.unique (h : Linked items j i) (h' : Linked items k i) : j = k := by
  obtain ⟨hj, id, hnames, hid, hlatest⟩ := h
  obtain ⟨hk, id', hnames', hid', hlatest'⟩ := h'
  obtain rfl : id = id' := Option.some.inj (hnames.symm.trans hnames')
  rcases lt_trichotomy j k with hlt | heq | hlt
  · exact absurd hid' (hlatest k hlt hk)
  · exact heq
  · exact absurd hid (hlatest' j hlt hj)

/-- What the pass has found after `n` fills, where `ρ` gives the run of each of them. -/
structure Found (items : List Fill) (n : ℕ) (state : Runs) (ρ : ℕ → ℕ) : Prop where
  known : ∀ id r, Dict.get? state.runOf id = some r →
    ∃ j < n, (items[j]?).map Fill.signalId = some id ∧
      (∀ k, j < k → k < n → (items[k]?).map Fill.signalId ≠ some id) ∧ ρ j = r
  unknown : ∀ id, Dict.get? state.runOf id = none →
    ∀ j < n, (items[j]?).map Fill.signalId ≠ some id
  linked : ∀ j i, i < n → Linked items j i → ρ i = ρ j
  same : ∀ i j, i < n → j < n → ρ i = ρ j → SameRun items i j
  bound : ∀ i < n, ρ i < state.runs.length
  spans : ∀ r segment, state.runs[r]? = some segment → IsSpan items {k | k < n ∧ ρ k = r} segment

theorem Found.empty : Found items 0 .empty id where
  known := by simp [Runs.empty]
  unknown := by simp
  linked := by simp
  same := by simp
  bound := by simp
  spans := by simp [Runs.empty]

theorem update_lt (hlt : k < n) : Function.update ρ n r k = ρ k :=
  Function.update_of_ne hlt.ne _ _

theorem Found.known_set (h : Found items n state ρ) (hitem : items[n]? = some item)
    {id : String} {r' : ℕ} (hget : Dict.get? (Dict.set state.runOf item.signalId r) id = some r') :
    ∃ j < n + 1, (items[j]?).map Fill.signalId = some id ∧
      (∀ k, j < k → k < n + 1 → (items[k]?).map Fill.signalId ≠ some id) ∧
      Function.update ρ n r j = r' := by
  rw [Dict.get?_set] at hget
  split at hget
  · next heq =>
      refine ⟨n, n.lt_succ_self, by rw [hitem, Option.map_some, heq], ?_, ?_⟩
      · intro k hk hk'
        omega
      · rw [Function.update_self]
        exact Option.some.inj hget
  · next hne =>
      obtain ⟨j, hj, hid, hlatest, hρ⟩ := h.known id r' hget
      refine ⟨j, hj.trans n.lt_succ_self, hid, ?_, by rw [update_lt hj, hρ]⟩
      intro k hk hk'
      rcases Nat.lt_succ_iff_lt_or_eq.mp hk' with hlt | rfl
      · exact hlatest k hk hlt
      · rw [hitem, Option.map_some]
        exact fun heq => hne (Option.some.inj heq)

theorem Found.unknown_set (h : Found items n state ρ) (hitem : items[n]? = some item)
    {id : String} (hget : Dict.get? (Dict.set state.runOf item.signalId r) id = none) :
    ∀ j < n + 1, (items[j]?).map Fill.signalId ≠ some id := by
  rw [Dict.get?_set] at hget
  split at hget
  · cases hget
  · next hne =>
      intro j hj
      rcases Nat.lt_succ_iff_lt_or_eq.mp hj with hlt | rfl
      · exact h.unknown id hget j hlt
      · rw [hitem, Option.map_some]
        exact fun heq => hne (Option.some.inj heq)

theorem members_update {r' : ℕ} : {k | k < n + 1 ∧ Function.update ρ n r k = r'} =
    {k | k < n ∧ ρ k = r'} ∪ {k | k = n ∧ r = r'} := by
  ext k
  simp only [Set.mem_ofPred_eq, Set.mem_union]
  constructor
  · rintro ⟨hk, hρ⟩
    rcases Nat.lt_succ_iff_lt_or_eq.mp hk with hlt | rfl
    · rw [update_lt hlt] at hρ
      exact .inl ⟨hlt, hρ⟩
    · rw [Function.update_self] at hρ
      exact .inr ⟨rfl, hρ⟩
  · rintro (⟨hlt, hρ⟩ | ⟨rfl, hρ⟩)
    · exact ⟨hlt.trans n.lt_succ_self, by rw [update_lt hlt, hρ]⟩
    · exact ⟨k.lt_succ_self, by rw [Function.update_self, hρ]⟩

theorem members_other {r' : ℕ} (hne : r ≠ r') :
    {k | k < n + 1 ∧ Function.update ρ n r k = r'} = {k | k < n ∧ ρ k = r'} := by
  rw [members_update]
  simp [hne]

theorem instantsOf_singleton (f : Fill → ℤ) (hitem : items[n]? = some item) :
    instantsOf f items {n} = {f item} := by
  ext at_
  simp [instantsOf, hitem, eq_comm]

theorem instantsOf_insert (f : Fill → ℤ) (hitem : items[n]? = some item) :
    instantsOf f items (members ∪ {n}) = Insert.insert (f item) (instantsOf f items members) := by
  ext at_
  simp only [instantsOf, Set.union_singleton, Set.mem_ofPred_eq, Set.mem_insert_iff]
  constructor
  · rintro ⟨k, rfl | hk, other, hother, rfl⟩
    · rw [hitem] at hother
      exact .inl (by rw [Option.some.inj hother])
    · exact .inr ⟨k, hk, other, hother, rfl⟩
  · rintro (rfl | ⟨k, hk, other, hother, rfl⟩)
    · exact ⟨n, .inl rfl, item, hitem, rfl⟩
    · exact ⟨k, .inr hk, other, hother, rfl⟩

theorem isSpan_singleton (hitem : items[n]? = some item) :
    IsSpan items {n} (item.decidedAtMicros, item.observedMicros) := by
  constructor
  · rw [instantsOf_singleton _ hitem]
    exact isLeast_singleton
  · rw [instantsOf_singleton _ hitem]
    exact isGreatest_singleton

theorem IsSpan.insert (h : IsSpan items members segment) (hitem : items[n]? = some item)
    (hlater : ∀ at_ ∈ instantsOf Fill.decidedAtMicros items members,
      at_ ≤ item.decidedAtMicros) :
    IsSpan items (members ∪ {n}) (segment.1, max segment.2 item.observedMicros) := by
  constructor
  · rw [instantsOf_insert _ hitem]
    have hleast := h.1.insert item.decidedAtMicros
    rwa [min_eq_right (hlater _ h.1.1)] at hleast
  · rw [instantsOf_insert _ hitem, max_comm]
    exact h.2.insert item.observedMicros

/-! ## One fill, then all of them -/

theorem Found.start (h : Found items n state ρ) (hitem : items[n]? = some item)
    (hindex : item.previousSignalId.bind (Dict.get? state.runOf) = none) :
    Found items (n + 1) (state.link item) (Function.update ρ n state.runs.length) := by
  have hnone : ∀ j, ¬ Linked items j n := by
    rintro j ⟨hlt, id, hnames, hid, -⟩
    rw [hitem, Option.bind_some] at hnames
    rw [hnames, Option.bind_some] at hindex
    exact h.unknown id hindex j hlt hid
  have hold : ∀ i < n, ρ i ≠ state.runs.length := fun i hi => (h.bound i hi).ne
  unfold Runs.link
  rw [hindex]
  refine ⟨fun id r => h.known_set hitem, fun id => h.unknown_set hitem, ?_, ?_, ?_, ?_⟩
  · intro j i hi hlinked
    rcases Nat.lt_succ_iff_lt_or_eq.mp hi with hlt | rfl
    · rw [update_lt hlt, update_lt (hlinked.1.trans hlt)]
      exact h.linked j i hlt hlinked
    · exact absurd hlinked (hnone j)
  · intro i j hi hj heq
    rcases Nat.lt_succ_iff_lt_or_eq.mp hi with hi' | rfl
    · rw [update_lt hi'] at heq
      rcases Nat.lt_succ_iff_lt_or_eq.mp hj with hj' | rfl
      · rw [update_lt hj'] at heq
        exact h.same i j hi' hj' heq
      · rw [Function.update_self] at heq
        exact absurd heq (hold i hi')
    · rw [Function.update_self] at heq
      rcases Nat.lt_succ_iff_lt_or_eq.mp hj with hj' | rfl
      · rw [update_lt hj'] at heq
        exact absurd heq.symm (hold j hj')
      · exact .refl _
  · intro i hi
    rw [List.length_append, List.length_singleton]
    rcases Nat.lt_succ_iff_lt_or_eq.mp hi with hlt | rfl
    · rw [update_lt hlt]
      exact (h.bound i hlt).trans (Nat.lt_succ_self _)
    · rw [Function.update_self]
      exact Nat.lt_succ_self _
  · intro r segment hsegment
    rcases lt_or_ge r state.runs.length with hlt | hge
    · rw [List.getElem?_append_left hlt] at hsegment
      rw [members_other hlt.ne']
      exact h.spans r segment hsegment
    · obtain rfl : r = state.runs.length := by
        have hlen := (List.getElem?_eq_some_iff.mp hsegment).1
        rw [List.length_append, List.length_singleton] at hlen
        omega
      rw [List.getElem?_concat_length] at hsegment
      have hmembers : {k | k < n ∧ ρ k = state.runs.length} = ∅ := by
        ext k
        simp only [Set.mem_ofPred_eq, Set.mem_empty_iff_false, iff_false]
        exact fun hk => hold k hk.1 hk.2
      rw [members_update, hmembers, Set.empty_union, ← Option.some.inj hsegment]
      simpa using isSpan_singleton hitem

theorem Found.extend (h : Found items n state ρ) (hitem : items[n]? = some item)
    (hordered : items.Pairwise fun a b => a.decidedAtMicros ≤ b.decidedAtMicros)
    (hindex : item.previousSignalId.bind (Dict.get? state.runOf) = some r) :
    Found items (n + 1) (state.link item) (Function.update ρ n r) := by
  obtain ⟨id, hprevious, hget⟩ := Option.bind_eq_some_iff.mp hindex
  obtain ⟨j, hj, hid, hlatest, hρ⟩ := h.known id r hget
  have hlink : Linked items j n :=
    ⟨hj, id, by rw [hitem, Option.bind_some, hprevious], hid, hlatest⟩
  unfold Runs.link
  rw [hindex]
  refine ⟨fun id r => h.known_set hitem, fun id => h.unknown_set hitem, ?_, ?_, ?_, ?_⟩
  · intro k i hi hlinked
    rcases Nat.lt_succ_iff_lt_or_eq.mp hi with hlt | rfl
    · rw [update_lt hlt, update_lt (hlinked.1.trans hlt)]
      exact h.linked k i hlt hlinked
    · rw [Function.update_self, update_lt hlinked.1, hlinked.unique hlink, hρ]
  · intro i k hi hk heq
    -- whoever is in the run is in the run of `j`
    have hjoin : ∀ i < n, ρ i = r → SameRun items i n := fun i hi heq =>
      (h.same i j hi hj (heq.trans hρ.symm)).trans _ _ _ (.rel _ _ hlink)
    rcases Nat.lt_succ_iff_lt_or_eq.mp hi with hi' | rfl
    · rw [update_lt hi'] at heq
      rcases Nat.lt_succ_iff_lt_or_eq.mp hk with hk' | rfl
      · rw [update_lt hk'] at heq
        exact h.same i k hi' hk' heq
      · rw [Function.update_self] at heq
        exact hjoin i hi' heq
    · rw [Function.update_self] at heq
      rcases Nat.lt_succ_iff_lt_or_eq.mp hk with hk' | rfl
      · rw [update_lt hk'] at heq
        exact (hjoin k hk' heq.symm).symm
      · exact .refl _
  · intro i hi
    rw [List.length_modify]
    rcases Nat.lt_succ_iff_lt_or_eq.mp hi with hlt | rfl
    · rw [update_lt hlt]
      exact h.bound i hlt
    · rw [Function.update_self, ← hρ]
      exact h.bound j hj
  · intro r' segment hsegment
    rw [List.getElem?_modify] at hsegment
    by_cases heq : r = r'
    · subst heq
      obtain ⟨run, hrun, rfl⟩ := Option.map_eq_some_iff.mp hsegment
      rw [members_update]
      simp only [and_true, Set.ofPred_eq_eq_singleton, if_true]
      refine (h.spans r run hrun).insert hitem ?_
      rintro at_ ⟨k, ⟨hk, -⟩, other, hother, rfl⟩
      obtain ⟨hkl, rfl⟩ := List.getElem?_eq_some_iff.mp hother
      obtain ⟨hnl, rfl⟩ := List.getElem?_eq_some_iff.mp hitem
      exact List.pairwise_iff_getElem.mp hordered k n hkl hnl hk
    · rw [members_other heq]
      obtain ⟨run, hrun, hmap⟩ := Option.map_eq_some_iff.mp hsegment
      rw [if_neg heq] at hmap
      exact h.spans r' segment (hrun.trans (congrArg some hmap))

theorem Found.foldl (hordered : items.Pairwise fun a b => a.decidedAtMicros ≤ b.decidedAtMicros)
    (hsplit : done ++ rest = items) (h : Found items done.length state ρ) :
    ∃ ρ, Found items items.length (rest.foldl Runs.link state) ρ := by
  induction rest generalizing done state ρ with
  | nil =>
      rw [List.append_nil] at hsplit
      exact ⟨ρ, hsplit ▸ h⟩
  | cons item rest ih =>
      have hitem : items[done.length]? = some item := by
        rw [← hsplit, List.getElem?_append_right le_rfl, Nat.sub_self, List.getElem?_cons_zero]
      have hnext : ∃ ρ, Found items (done ++ [item]).length (state.link item) ρ := by
        rw [List.length_append, List.length_singleton]
        cases hindex : item.previousSignalId.bind (Dict.get? state.runOf) with
        | none => exact ⟨_, h.start hitem hindex⟩
        | some r => exact ⟨_, h.extend hitem hordered hindex⟩
      obtain ⟨ρ', hρ'⟩ := hnext
      exact ih (by rw [List.append_assoc, List.singleton_append, hsplit]) hρ'

theorem Found.eq_of_sameRun (h : Found items items.length state ρ) (hrun : SameRun items i j) :
    ρ i = ρ j := by
  induction hrun with
  | rel j i hlinked => exact (h.linked j i hlinked.lt_length hlinked).symm
  | refl => rfl
  | symm _ _ _ ih => exact ih.symm
  | trans _ _ _ _ _ ih ih' => exact ih.trans ih'

theorem instantsOf_congr (f : Fill → ℤ) {others : Set ℕ}
    (h : ∀ k < items.length, k ∈ members ↔ k ∈ others) :
    instantsOf f items members = instantsOf f items others := by
  ext at_
  constructor
  · rintro ⟨k, hk, item, hitem, rfl⟩
    exact ⟨k, (h k (List.getElem?_eq_some_iff.mp hitem).1).mp hk, item, hitem, rfl⟩
  · rintro ⟨k, hk, item, hitem, rfl⟩
    exact ⟨k, (h k (List.getElem?_eq_some_iff.mp hitem).1).mpr hk, item, hitem, rfl⟩

theorem Found.isSpan_iff (h : Found items items.length state ρ) (hi : i < items.length) :
    IsSpan items {k | SameRun items i k} segment ↔
      IsSpan items {k | k < items.length ∧ ρ k = ρ i} segment := by
  have hsame : ∀ k < items.length,
      k ∈ {k | SameRun items i k} ↔ k ∈ {k | k < items.length ∧ ρ k = ρ i} := by
    intro k hk
    constructor
    · intro hrun
      exact ⟨hk, (h.eq_of_sameRun hrun).symm⟩
    · rintro ⟨-, heq⟩
      exact h.same i k hi hk heq.symm
  unfold IsSpan
  rw [instantsOf_congr _ hsame, instantsOf_congr _ hsame]

theorem Found.mem_runs_iff (h : Found items items.length state ρ) :
    segment ∈ state.runs ↔ IsRun items segment := by
  constructor
  · intro hmem
    obtain ⟨r, hr⟩ := List.mem_iff_getElem?.mp hmem
    have hspan := h.spans r segment hr
    obtain ⟨i, ⟨hi, rfl⟩, -⟩ := hspan.1.1
    exact ⟨i, hi, (h.isSpan_iff hi).mpr hspan⟩
  · rintro ⟨i, hi, hspan⟩
    have hget := List.getElem?_eq_getElem (h.bound i hi)
    have hfound := h.spans (ρ i) _ hget
    have hclaimed := (h.isSpan_iff hi).mp hspan
    have heq : segment = state.runs.get ⟨ρ i, h.bound i hi⟩ :=
      Prod.ext (hclaimed.1.unique hfound.1) (hclaimed.2.unique hfound.2)
    rw [heq]
    exact List.get_mem _ _

theorem mem_runs_iff
    (hordered : items.Pairwise fun a b => a.decidedAtMicros ≤ b.decidedAtMicros) :
    segment ∈ (items.foldl Runs.link .empty).runs ↔ IsRun items segment := by
  obtain ⟨ρ, h⟩ := Found.foldl hordered (List.nil_append items) .empty
  exact h.mem_runs_iff

theorem IsRun.proper (h : IsRun items segment)
    (hobserved : ∀ item ∈ items, item.decidedAtMicros ≤ item.observedMicros) :
    segment.1 ≤ segment.2 := by
  obtain ⟨i, -, hfirst, hlast⟩ := h
  obtain ⟨k, hk, item, hitem, heq⟩ := hfirst.1
  have hle := hobserved item (List.mem_of_getElem? hitem)
  have hmax := hlast.2 ⟨k, hk, item, hitem, rfl⟩
  omega

end Linking

section Segments

variable {items : List Fill} {t : ℝ}

theorem proper_runs (hordered : items.Pairwise fun a b => a.decidedAtMicros ≤ b.decidedAtMicros)
    (hobserved : ∀ item ∈ items, item.decidedAtMicros ≤ item.observedMicros) :
    Proper (items.foldl Runs.link .empty).runs := fun _ hmem =>
  ((mem_runs_iff hordered).mp hmem).proper hobserved

theorem mem_cover_evidencedSegmentsV1
    (hordered : items.Pairwise fun a b => a.decidedAtMicros ≤ b.decidedAtMicros)
    (hobserved : ∀ item ∈ items, item.decidedAtMicros ≤ item.observedMicros) :
    t ∈ cover (evidencedSegmentsV1 items) ↔ ∃ run, IsRun items run ∧ t ∈ span run := by
  rw [evidencedSegmentsV1, (merge_spec (proper_runs hordered hobserved)).2.2, mem_cover]
  constructor
  · rintro ⟨run, hrun, ht⟩
    exact ⟨run, (mem_runs_iff hordered).mp hrun, ht⟩
  · rintro ⟨run, hrun, ht⟩
    exact ⟨run, (mem_runs_iff hordered).mpr hrun, ht⟩

/-- The segments of one candidate's fills stand apart in increasing order, their lengths are
the measure of the union of the runs, no instant outside every run is counted, and the total
is at most the stretch from the first decision to the last observed instant. -/
theorem evidencedSegmentsV1_measure (items : List Fill)
    (hordered : items.Pairwise fun a b => a.decidedAtMicros ≤ b.decidedAtMicros)
    (hobserved : ∀ item ∈ items, item.decidedAtMicros ≤ item.observedMicros) :
    Proper (evidencedSegmentsV1 items) ∧ Apart (evidencedSegmentsV1 items) ∧
      MeasureTheory.volume (⋃ run ∈ {run | IsRun items run}, span run) =
        ENNReal.ofReal (total (evidencedSegmentsV1 items) : ℝ) ∧
      (∀ t, t ∈ cover (evidencedSegmentsV1 items) ↔ ∃ run, IsRun items run ∧ t ∈ span run) ∧
      ∀ first ∈ items.head?, ∀ last,
        IsGreatest {at_ | ∃ item ∈ items, item.observedMicros = at_} last →
        total (evidencedSegmentsV1 items) ≤ last - first.decidedAtMicros := by
  have hcover : ∀ t, t ∈ cover (evidencedSegmentsV1 items) ↔
      ∃ run, IsRun items run ∧ t ∈ span run := fun t =>
    mem_cover_evidencedSegmentsV1 hordered hobserved
  obtain ⟨hproper, hapart, -⟩ := merge_spec (proper_runs hordered hobserved)
  refine ⟨hproper, hapart, ?_, hcover, ?_⟩
  · have hunion : (⋃ run ∈ {run | IsRun items run}, span run) =
        cover (evidencedSegmentsV1 items) := by
      ext t
      rw [hcover, Set.mem_iUnion₂]
      simp only [Set.mem_ofPred_eq, exists_prop]
    rw [hunion]
    exact volume_cover hproper hapart
  · intro first hfirst last hlast
    have hhead : first ∈ items := List.mem_of_mem_head? hfirst
    have hstart : ∀ item ∈ items, first.decidedAtMicros ≤ item.decidedAtMicros := by
      intro item hitem
      cases items with
      | nil => cases hitem
      | cons first' items =>
          obtain rfl := Option.some.inj hfirst
          rcases List.mem_cons.mp hitem with rfl | hin
          · exact le_rfl
          · exact (List.pairwise_cons.mp hordered).1 item hin
    refine total_le hproper hapart ?_ ?_
    · exact (hobserved first hhead).trans (hlast.2 ⟨first, hhead, rfl⟩)
    · intro t ht
      obtain ⟨run, ⟨i, -, hspan⟩, hrun⟩ := (hcover t).mp ht
      obtain ⟨k, -, item, hitem, hdecided⟩ := hspan.1.1
      obtain ⟨k', -, item', hitem', hend⟩ := hspan.2.1
      have hlo := hstart item (List.mem_of_getElem? hitem)
      have hhi := hlast.2 ⟨item', List.mem_of_getElem? hitem', rfl⟩
      rw [hdecided] at hlo
      rw [hend] at hhi
      exact ⟨le_trans (by exact_mod_cast hlo) hrun.1, hrun.2.trans (by exact_mod_cast hhi)⟩

/-- A run, a restart whose run overlaps it, a late member of the first run, and a restart
after a gap. -/
def sampleFills : List Fill :=
  [⟨"a", none, 0, 1, 10, 60, .filled, some 100⟩,
    ⟨"b", none, 0, -1, 70, 120, .fillBarNotObserved, none⟩,
    ⟨"c", some "a", 1, 0, 80, 180, .filled, some 101⟩,
    ⟨"d", some "x", 0, 1, 200, 240, .fillOpenSequenceAmbiguous, none⟩]

theorem evidencedSegmentsV1_measure_sample :
    evidencedSegmentsV1 sampleFills = [(10, 180), (200, 240)] ∧
      MeasureTheory.volume (⋃ run ∈ {run | IsRun sampleFills run}, span run) =
        ENNReal.ofReal ((total (evidencedSegmentsV1 sampleFills) : ℤ) : ℝ) :=
  ⟨by decide +kernel,
    (evidencedSegmentsV1_measure sampleFills (by decide +kernel) (by decide +kernel)).2.2.1⟩

end Segments

end PaperIncubation

end TradePlatform
