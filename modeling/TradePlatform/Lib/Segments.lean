/-
# `TradePlatform.Lib.Segments` — closed segments of time, and their union

Segments with integer ends, seen as stretches of the real line.  Sorted by their starts and
merged where one starts before the last ends, they have the same union, no two of them
touch, and their lengths add up to its measure.
-/
import Mathlib
import TradePlatform.Lib.SortBy

namespace Segments

open MeasureTheory

def span (segment : ℤ × ℤ) : Set ℝ := Set.Icc (segment.1 : ℝ) segment.2

def cover (segments : List (ℤ × ℤ)) : Set ℝ := ⋃ segment ∈ segments, span segment

def total (segments : List (ℤ × ℤ)) : ℤ := (segments.map fun segment => segment.2 - segment.1).sum

def Proper (segments : List (ℤ × ℤ)) : Prop := ∀ segment ∈ segments, segment.1 ≤ segment.2

def Apart (segments : List (ℤ × ℤ)) : Prop := segments.Pairwise fun a b => a.2 < b.1

/-- A segment is laid at the end, or joined to the last where it starts before that ends. -/
def join (merged : List (ℤ × ℤ)) (segment : ℤ × ℤ) : List (ℤ × ℤ) :=
  match merged.getLast? with
  | some last =>
      if segment.1 ≤ last.2 then merged.dropLast ++ [(last.1, max last.2 segment.2)]
      else merged ++ [segment]
  | none => [segment]

def merge (segments : List (ℤ × ℤ)) : List (ℤ × ℤ) := (sortBy toLex segments).foldl join []

variable {segments merged front : List (ℤ × ℤ)} {segment last : ℤ × ℤ} {t : ℝ} {lo hi : ℤ}

theorem mem_cover : t ∈ cover segments ↔ ∃ segment ∈ segments, t ∈ span segment := by
  simp [cover]

@[simp] theorem cover_nil : cover [] = ∅ := by simp [cover]

@[simp] theorem cover_cons : cover (segment :: segments) = span segment ∪ cover segments := by
  simp [cover]

@[simp] theorem cover_append {rest : List (ℤ × ℤ)} :
    cover (segments ++ rest) = cover segments ∪ cover rest := by
  induction segments with
  | nil => simp
  | cons segment segments ih => rw [List.cons_append, cover_cons, ih, cover_cons, Set.union_assoc]

theorem cover_perm {others : List (ℤ × ℤ)} (h : segments.Perm others) :
    cover segments = cover others := by
  ext t
  rw [mem_cover, mem_cover]
  constructor
  · rintro ⟨segment, hmem, ht⟩
    exact ⟨segment, h.mem_iff.mp hmem, ht⟩
  · rintro ⟨segment, hmem, ht⟩
    exact ⟨segment, h.mem_iff.mpr hmem, ht⟩

theorem span_union (hstart : last.1 ≤ segment.1) (htouch : segment.1 ≤ last.2)
    (hproper : segment.1 ≤ segment.2) :
    span last ∪ span segment = span (last.1, max last.2 segment.2) := by
  unfold span
  rw [Set.Icc_union_Icc' (by exact_mod_cast htouch) (by exact_mod_cast hstart.trans hproper),
    min_eq_left (by exact_mod_cast hstart), Int.cast_max]

/-! ## Joining keeps the union and the gaps -/

theorem join_concat : join (front ++ [last]) segment =
    if segment.1 ≤ last.2 then front ++ [(last.1, max last.2 segment.2)]
    else front ++ [last] ++ [segment] := by
  simp [join]

/-- What holds of the segments joined so far, where those to come start at `lo` or later. -/
structure Joined (merged : List (ℤ × ℤ)) (lo : ℤ) : Prop where
  proper : Proper merged
  apart : Apart merged
  started : ∀ segment ∈ merged, segment.1 ≤ lo

theorem Joined.mono (h : Joined merged lo) (hle : lo ≤ hi) : Joined merged hi :=
  ⟨h.proper, h.apart, fun segment hmem => (h.started segment hmem).trans hle⟩

theorem Joined.join (h : Joined merged segment.1) (hproper : segment.1 ≤ segment.2) :
    Joined (join merged segment) segment.1 ∧
      cover (Segments.join merged segment) = cover merged ∪ span segment := by
  rcases List.eq_nil_or_concat merged with rfl | ⟨front, last, rfl⟩
  · refine ⟨⟨?_, List.pairwise_singleton _ _, ?_⟩, by simp [Segments.join]⟩
    · intro other hother
      rw [List.mem_singleton.mp hother]
      exact hproper
    · intro other hother
      rw [List.mem_singleton.mp hother]
  · rw [List.concat_eq_append] at h ⊢
    obtain ⟨hprop, hapart, hstarted⟩ := h
    have hlast : last ∈ front ++ [last] := by simp
    obtain ⟨hfront, -, hbefore⟩ := List.pairwise_append.mp hapart
    rw [join_concat]
    split
    · next htouch =>
        refine ⟨⟨?_, ?_, ?_⟩, ?_⟩
        · intro other hother
          rcases List.mem_append.mp hother with hin | hin
          · exact hprop other (List.mem_append_left _ hin)
          · rw [List.mem_singleton.mp hin]
            exact (hprop last hlast).trans (le_max_left _ _)
        · refine List.pairwise_append.mpr ⟨hfront, List.pairwise_singleton _ _, ?_⟩
          intro a ha b hb
          rw [List.mem_singleton.mp hb]
          exact hbefore a ha last (List.mem_singleton.mpr rfl)
        · intro other hother
          rcases List.mem_append.mp hother with hin | hin
          · exact hstarted other (List.mem_append_left _ hin)
          · rw [List.mem_singleton.mp hin]
            exact hstarted last hlast
        · rw [cover_append, cover_append, Set.union_assoc, cover_cons, cover_cons, cover_nil,
            Set.union_empty, Set.union_empty, span_union (hstarted last hlast) htouch hproper]
    · next hgap =>
        refine ⟨⟨?_, ?_, ?_⟩, ?_⟩
        · intro other hother
          rcases List.mem_append.mp hother with hin | hin
          · exact hprop other hin
          · rw [List.mem_singleton.mp hin]
            exact hproper
        · refine List.pairwise_append.mpr ⟨hapart, List.pairwise_singleton _ _, ?_⟩
          intro a ha b hb
          rw [List.mem_singleton.mp hb]
          have hend : a.2 ≤ last.2 := by
            rcases List.mem_append.mp ha with hin | hin
            · have hlt := hbefore a hin last (List.mem_singleton.mpr rfl)
              have := hprop last hlast
              omega
            · rw [List.mem_singleton.mp hin]
          omega
        · intro other hother
          rcases List.mem_append.mp hother with hin | hin
          · exact hstarted other hin
          · rw [List.mem_singleton.mp hin]
        · rw [cover_append, cover_cons, cover_nil, Set.union_empty]

theorem Joined.foldl (hsorted : segments.Pairwise fun a b => a.1 ≤ b.1)
    (hproper : Proper segments) (h : ∀ segment ∈ segments.head?, Joined merged segment.1)
    (hnil : Proper merged ∧ Apart merged) :
    Proper (segments.foldl Segments.join merged) ∧ Apart (segments.foldl Segments.join merged) ∧
      cover (segments.foldl Segments.join merged) = cover merged ∪ cover segments := by
  induction segments generalizing merged with
  | nil => exact ⟨hnil.1, hnil.2, by simp⟩
  | cons segment segments ih =>
      obtain ⟨hfirst, hrest⟩ := List.pairwise_cons.mp hsorted
      obtain ⟨hjoined, hcover⟩ := (h segment rfl).join (hproper segment List.mem_cons_self)
      have hnext : ∀ next ∈ segments.head?, Joined (Segments.join merged segment) next.1 := by
        intro next hnext
        exact hjoined.mono (hfirst next (List.mem_of_mem_head? hnext))
      obtain ⟨hprop, hapart, hall⟩ := ih hrest
        (fun other hmem => hproper other (List.mem_cons_of_mem _ hmem)) hnext
        ⟨hjoined.proper, hjoined.apart⟩
      refine ⟨hprop, hapart, ?_⟩
      rw [List.foldl_cons, hall, hcover, cover_cons, Set.union_assoc]

theorem merge_spec (hproper : Proper segments) :
    Proper (merge segments) ∧ Apart (merge segments) ∧ cover (merge segments) = cover segments := by
  have hsorted : (sortBy toLex segments).Pairwise fun a b => a.1 ≤ b.1 := by
    refine (sortBy_pairwise toLex segments).imp ?_
    intro a b hle
    rcases Prod.Lex.le_iff.mp hle with hlt | ⟨heq, -⟩
    · exact hlt.le
    · exact heq.le
  have hin : Proper (sortBy toLex segments) := fun segment hmem =>
    hproper segment (mem_sortBy.mp hmem)
  have hempty : ∀ segment ∈ (sortBy toLex segments).head?, Joined [] segment.1 := by
    intro segment _
    exact ⟨by simp [Proper], List.Pairwise.nil, by simp⟩
  obtain ⟨hprop, hapart, hcover⟩ := Joined.foldl hsorted hin hempty
    ⟨by simp [Proper], List.Pairwise.nil⟩
  refine ⟨hprop, hapart, ?_⟩
  rw [merge, hcover, cover_nil, Set.empty_union]
  exact cover_perm (sortBy_perm toLex segments)

/-! ## Lengths -/

theorem total_nonneg (h : Proper segments) : 0 ≤ total segments := by
  refine List.sum_nonneg ?_
  intro length hlength
  obtain ⟨segment, hmem, rfl⟩ := List.mem_map.mp hlength
  have := h segment hmem
  omega

theorem measurableSet_cover : MeasurableSet (cover segments) := by
  induction segments with
  | nil => rw [cover_nil]; exact MeasurableSet.empty
  | cons segment segments ih => rw [cover_cons]; exact measurableSet_Icc.union ih

theorem volume_cover (hproper : Proper segments) (hapart : Apart segments) :
    volume (cover segments) = ENNReal.ofReal (total segments : ℝ) := by
  induction segments with
  | nil => simp [total]
  | cons segment segments ih =>
      obtain ⟨hfirst, hrest⟩ := List.pairwise_cons.mp hapart
      have hin : Proper segments := fun other hmem => hproper other (List.mem_cons_of_mem _ hmem)
      have hdisjoint : Disjoint (span segment) (cover segments) := by
        refine Set.disjoint_left.mpr fun t ht hcover => ?_
        obtain ⟨other, hother, htother⟩ := mem_cover.mp hcover
        have hlt : (segment.2 : ℝ) < other.1 := by exact_mod_cast hfirst other hother
        exact absurd (ht.2.trans_lt hlt) (not_lt.mpr htother.1)
      have hlength : (0 : ℝ) ≤ segment.2 - segment.1 :=
        sub_nonneg.mpr (by exact_mod_cast hproper segment List.mem_cons_self)
      have htotal : (0 : ℝ) ≤ total segments := by exact_mod_cast total_nonneg hin
      have hsum : ((total (segment :: segments) : ℤ) : ℝ) =
          (segment.2 - segment.1) + (total segments : ℝ) := by
        simp [total]
      rw [cover_cons, measure_union hdisjoint measurableSet_cover, ih hin hrest, hsum,
        ENNReal.ofReal_add hlength htotal, span, Real.volume_Icc]

theorem total_le (hproper : Proper segments) (hapart : Apart segments) (hle : lo ≤ hi)
    (hinside : cover segments ⊆ span (lo, hi)) : total segments ≤ hi - lo := by
  have hmeasure := measure_mono (μ := volume) hinside
  rw [volume_cover hproper hapart, span, Real.volume_Icc,
    ENNReal.ofReal_le_ofReal_iff (sub_nonneg.mpr (by exact_mod_cast hle))] at hmeasure
  exact_mod_cast hmeasure

end Segments
