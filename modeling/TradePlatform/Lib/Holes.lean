/-
# `TradePlatform.Lib.Holes` — what half-open intervals leave open between them

A sweep over intervals in the order of their starts carries how far they reach, and notes a
hole where the next one starts past that.  The holes are the maximal stretches, between the
earliest start and the latest end, that no interval meets.
-/
import Mathlib

namespace Holes

variable {α : Type*} [LinearOrder α]

def Covered (intervals : List (α × α)) (t : α) : Prop :=
  ∃ interval ∈ intervals, interval.1 ≤ t ∧ t < interval.2

structure Free (intervals : List (α × α)) (hole : α × α) : Prop where
  proper : hole.1 < hole.2
  started : ∃ interval ∈ intervals, interval.1 ≤ hole.1
  unfinished : ∃ interval ∈ intervals, hole.2 ≤ interval.2
  uncovered : ∀ t, hole.1 ≤ t → t < hole.2 → ¬ Covered intervals t

def IsHole (intervals : List (α × α)) (hole : α × α) : Prop :=
  Free intervals hole ∧
    ∀ other, Free intervals other → other.1 ≤ hole.1 → hole.2 ≤ other.2 → other = hole

def sweep (reach : α) : List (α × α) → List (α × α)
  | [] => []
  | interval :: intervals =>
      if reach < interval.1 then
        (reach, interval.1) :: sweep (max reach interval.2) intervals
      else sweep (max reach interval.2) intervals

def holes : List (α × α) → List (α × α)
  | [] => []
  | interval :: intervals => sweep interval.2 intervals

variable {intervals others : List (α × α)} {interval hole other : α × α} {reach t : α}

theorem sweep_cons : sweep reach (interval :: intervals) =
    (if reach < interval.1 then [(reach, interval.1)] else []) ++
      sweep (max reach interval.2) intervals := by
  rw [sweep]
  split <;> rfl

/-! ## Where a hole starts and ends -/

theorem le_of_mem_sweep (h : hole ∈ sweep reach intervals) : reach ≤ hole.1 := by
  induction intervals generalizing reach with
  | nil => cases h
  | cons interval intervals ih =>
      rw [sweep_cons, List.mem_append] at h
      rcases h with h | h
      · split at h
        · rw [List.mem_singleton.mp h]
        · cases h
      · exact (le_max_left _ _).trans (ih h)

theorem proper_of_mem_sweep (h : hole ∈ sweep reach intervals) : hole.1 < hole.2 := by
  induction intervals generalizing reach with
  | nil => cases h
  | cons interval intervals ih =>
      rw [sweep_cons, List.mem_append] at h
      rcases h with h | h
      · split at h
        · next hlt =>
            rw [List.mem_singleton.mp h]
            exact hlt
        · cases h
      · exact ih h

theorem exists_start (h : hole ∈ sweep reach intervals) :
    ∃ interval ∈ intervals, interval.1 = hole.2 := by
  induction intervals generalizing reach with
  | nil => cases h
  | cons interval intervals ih =>
      rw [sweep_cons, List.mem_append] at h
      rcases h with h | h
      · split at h
        · rw [List.mem_singleton.mp h]
          exact ⟨interval, List.mem_cons_self, rfl⟩
        · cases h
      · obtain ⟨later, hmem, heq⟩ := ih h
        exact ⟨later, List.mem_cons_of_mem _ hmem, heq⟩

theorem exists_end (h : hole ∈ sweep reach intervals) :
    hole.1 = reach ∨ ∃ interval ∈ intervals, interval.2 = hole.1 := by
  induction intervals generalizing reach with
  | nil => cases h
  | cons interval intervals ih =>
      rw [sweep_cons, List.mem_append] at h
      rcases h with h | h
      · split at h
        · rw [List.mem_singleton.mp h]
          exact .inl rfl
        · cases h
      · rcases ih h with heq | ⟨later, hmem, heq⟩
        · rcases max_choice reach interval.2 with hmax | hmax
          · exact .inl (heq.trans hmax)
          · exact .inr ⟨interval, List.mem_cons_self, (heq.trans hmax).symm⟩
        · exact .inr ⟨later, List.mem_cons_of_mem _ hmem, heq⟩

theorem sweep_pairwise (hproper : ∀ interval ∈ intervals, interval.1 < interval.2) :
    (sweep reach intervals).Pairwise fun a b => a.2 < b.1 := by
  induction intervals generalizing reach with
  | nil => exact List.Pairwise.nil
  | cons interval intervals ih =>
      have hrest := @ih (max reach interval.2) fun i hi => hproper i (List.mem_cons_of_mem _ hi)
      rw [sweep_cons]
      refine List.pairwise_append.mpr ⟨?_, hrest, ?_⟩
      · split
        · exact List.pairwise_singleton _ _
        · exact List.Pairwise.nil
      · intro a ha b hb
        split at ha
        · rw [List.mem_singleton.mp ha]
          exact (hproper interval List.mem_cons_self).trans_le
            ((le_max_right _ _).trans (le_of_mem_sweep hb))
        · cases ha

/-! ## No interval meets a hole, and what none meets is in one -/

theorem not_covered_of_mem_sweep (hsorted : intervals.Pairwise fun a b => a.1 ≤ b.1)
    (h : hole ∈ sweep reach intervals) (hlo : hole.1 ≤ t) (hhi : t < hole.2) :
    ¬ Covered intervals t := by
  induction intervals generalizing reach with
  | nil => cases h
  | cons interval intervals ih =>
      obtain ⟨hfirst, hrest⟩ := List.pairwise_cons.mp hsorted
      rw [sweep_cons, List.mem_append] at h
      rintro ⟨i, hi, hstart, hend⟩
      rcases h with h | h
      · split at h
        · -- the hole ends at the next start, and no later interval starts before that
          rw [List.mem_singleton.mp h] at hhi
          rcases List.mem_cons.mp hi with rfl | hi
          · exact absurd hstart (not_le.mpr hhi)
          · exact absurd ((hfirst i hi).trans hstart) (not_le.mpr hhi)
        · cases h
      · rcases List.mem_cons.mp hi with rfl | hi
        · have hreach := (le_max_right reach i.2).trans (le_of_mem_sweep h)
          exact absurd (hreach.trans hlo) (not_le.mpr hend)
        · exact ih hrest h ⟨i, hi, hstart, hend⟩

theorem exists_hole (hreach : reach ≤ t) (hend : ∃ interval ∈ intervals, t < interval.2)
    (hcovered : ¬ Covered intervals t) :
    ∃ hole ∈ sweep reach intervals, hole.1 ≤ t ∧ t < hole.2 := by
  induction intervals generalizing reach with
  | nil => simp at hend
  | cons interval intervals ih =>
      have hnot : ¬ (interval.1 ≤ t ∧ t < interval.2) := fun h =>
        hcovered ⟨interval, List.mem_cons_self, h⟩
      by_cases hstart : interval.1 ≤ t
      · have hpast : interval.2 ≤ t := not_lt.mp fun h => hnot ⟨hstart, h⟩
        obtain ⟨later, hmem, hlater⟩ := hend
        have hmem : later ∈ intervals := by
          rcases List.mem_cons.mp hmem with rfl | hmem
          · exact absurd hpast (not_le.mpr hlater)
          · exact hmem
        obtain ⟨hole, hhole, hin⟩ := ih (max_le hreach hpast) ⟨later, hmem, hlater⟩ fun h =>
          hcovered (h.imp fun i hi => ⟨List.mem_cons_of_mem _ hi.1, hi.2⟩)
        refine ⟨hole, ?_, hin⟩
        rw [sweep_cons]
        exact List.mem_append_right _ hhole
      · -- the interval starts past `t`, so it closes the hole that `t` is in
        have hlt := not_le.mp hstart
        refine ⟨(reach, interval.1), ?_, hreach, hlt⟩
        rw [sweep_cons, if_pos (hreach.trans_lt hlt)]
        exact List.mem_cons_self

/-! ## The holes of sorted intervals -/

structure Sorted (intervals : List (α × α)) : Prop where
  proper : ∀ interval ∈ intervals, interval.1 < interval.2
  ordered : intervals.Pairwise fun a b => a.1 ≤ b.1

theorem holes_pairwise (h : Sorted intervals) :
    (holes intervals).Pairwise fun a b => a.2 < b.1 := by
  cases intervals with
  | nil => exact List.Pairwise.nil
  | cons interval intervals =>
      exact sweep_pairwise fun i hi => h.proper i (List.mem_cons_of_mem _ hi)

theorem free_of_mem_holes (h : Sorted intervals) (hhole : hole ∈ holes intervals) :
    Free intervals hole ∧ (∃ interval ∈ intervals, interval.2 = hole.1) ∧
      ∃ interval ∈ intervals, interval.1 = hole.2 := by
  cases intervals with
  | nil => cases hhole
  | cons interval intervals =>
      obtain ⟨hfirst, hrest⟩ := List.pairwise_cons.mp h.ordered
      have hreach : interval.2 ≤ hole.1 := le_of_mem_sweep hhole
      have hproper := h.proper interval List.mem_cons_self
      obtain ⟨next, hnext, hstart⟩ := exists_start hhole
      have hnext := List.mem_cons_of_mem interval hnext
      refine ⟨⟨proper_of_mem_sweep hhole, ?_, ?_, ?_⟩, ?_, next, hnext, hstart⟩
      · exact ⟨interval, List.mem_cons_self, hproper.le.trans hreach⟩
      · exact ⟨next, hnext, hstart ▸ (h.proper next hnext).le⟩
      · rintro t hlo hhi ⟨i, hi, hin⟩
        rcases List.mem_cons.mp hi with rfl | hi
        · exact absurd (hreach.trans hlo) (not_le.mpr hin.2)
        · exact not_covered_of_mem_sweep hrest hhole hlo hhi ⟨i, hi, hin⟩
      · rcases exists_end hhole with heq | ⟨i, hi, heq⟩
        · exact ⟨interval, List.mem_cons_self, heq.symm⟩
        · exact ⟨i, List.mem_cons_of_mem _ hi, heq⟩

theorem Free.le_of_meets (h : Sorted intervals) (hfree : Free intervals other)
    (hhole : hole ∈ holes intervals) (hlo : max hole.1 other.1 < min hole.2 other.2) :
    hole.1 ≤ other.1 ∧ other.2 ≤ hole.2 := by
  obtain ⟨-, ⟨before, hbefore, hend⟩, after, hafter, hstart⟩ := free_of_mem_holes h hhole
  obtain ⟨hlo, hhi⟩ := lt_min_iff.mp hlo
  obtain ⟨-, hother⟩ := max_lt_iff.mp hlo
  obtain ⟨hhole', -⟩ := max_lt_iff.mp hhi
  constructor
  · by_contra hlt
    -- just before the hole an interval ends, and the stretch would meet it
    have hproper := h.proper before hbefore
    refine hfree.uncovered (max before.1 other.1) (le_max_right _ _) ?_
      ⟨before, hbefore, le_max_left _ _, ?_⟩
    · exact max_lt (hproper.trans (hend ▸ hhole')) hfree.proper
    · exact max_lt hproper (hend ▸ not_le.mp hlt)
  · by_contra hlt
    refine hfree.uncovered after.1 (hstart ▸ hother.le) (hstart ▸ not_le.mp hlt)
      ⟨after, hafter, le_rfl, h.proper after hafter⟩

theorem Free.exists_hole (h : Sorted intervals) (hfree : Free intervals other) :
    ∃ hole ∈ holes intervals, hole.1 ≤ other.1 ∧ other.1 < hole.2 := by
  have hnot := hfree.uncovered other.1 le_rfl hfree.proper
  obtain ⟨last, hlast, hend⟩ := hfree.unfinished
  cases intervals with
  | nil => cases hlast
  | cons interval intervals =>
      obtain ⟨hfirst, -⟩ := List.pairwise_cons.mp h.ordered
      have hstarted : interval.1 ≤ other.1 := by
        obtain ⟨i, hi, hstart⟩ := hfree.started
        rcases List.mem_cons.mp hi with rfl | hi
        · exact hstart
        · exact (hfirst i hi).trans hstart
      have hreach : interval.2 ≤ other.1 := not_lt.mp fun hlt =>
        hnot ⟨interval, List.mem_cons_self, hstarted, hlt⟩
      refine Holes.exists_hole hreach ⟨last, ?_, hfree.proper.trans_le hend⟩ fun hcovered =>
        hnot (hcovered.imp fun i hi => ⟨List.mem_cons_of_mem _ hi.1, hi.2⟩)
      rcases List.mem_cons.mp hlast with rfl | hmem
      · exact absurd (hfree.proper.trans_le hend) (not_lt.mpr hreach)
      · exact hmem

theorem mem_holes_iff (h : Sorted intervals) : hole ∈ holes intervals ↔ IsHole intervals hole := by
  constructor
  · intro hhole
    obtain ⟨hfree, -, -⟩ := free_of_mem_holes h hhole
    refine ⟨hfree, fun other hother hlo hhi => ?_⟩
    have hmeets : max hole.1 other.1 < min hole.2 other.2 := by
      rw [max_eq_left hlo, min_eq_left hhi]
      exact hfree.proper
    obtain ⟨hlo', hhi'⟩ := hother.le_of_meets h hhole hmeets
    exact Prod.ext (le_antisymm hlo hlo') (le_antisymm hhi' hhi)
  · rintro ⟨hfree, hmaximal⟩
    obtain ⟨found, hfound, hlo, hhi⟩ := hfree.exists_hole h
    have hmeets : max found.1 hole.1 < min found.2 hole.2 := by
      rw [max_eq_right hlo]
      exact lt_min hhi hfree.proper
    obtain ⟨-, hin⟩ := hfree.le_of_meets h hfound hmeets
    rw [← hmaximal found (free_of_mem_holes h hfound).1 hlo hin]
    exact hfound

/-! ## The order of the intervals -/

theorem Covered.congr (h : ∀ interval, interval ∈ intervals ↔ interval ∈ others) :
    Covered intervals t ↔ Covered others t := by
  simp [Covered, h]

theorem Free.congr (h : ∀ interval, interval ∈ intervals ↔ interval ∈ others)
    (hfree : Free intervals hole) : Free others hole where
  proper := hfree.proper
  started := hfree.started.imp fun i hi => ⟨(h i).mp hi.1, hi.2⟩
  unfinished := hfree.unfinished.imp fun i hi => ⟨(h i).mp hi.1, hi.2⟩
  uncovered t hlo hhi hcovered := hfree.uncovered t hlo hhi ((Covered.congr h).mpr hcovered)

theorem isHole_congr (h : ∀ interval, interval ∈ intervals ↔ interval ∈ others) :
    IsHole intervals hole ↔ IsHole others hole := by
  constructor
  · rintro ⟨hfree, hmaximal⟩
    exact ⟨hfree.congr h, fun other hother =>
      hmaximal other (hother.congr fun i => (h i).symm)⟩
  · rintro ⟨hfree, hmaximal⟩
    exact ⟨hfree.congr fun i => (h i).symm, fun other hother => hmaximal other (hother.congr h)⟩

theorem holes_congr (h : Sorted intervals) (hothers : Sorted others)
    (hsame : ∀ interval, interval ∈ intervals ↔ interval ∈ others) :
    holes intervals = holes others := by
  have hstrict : ∀ {l : List (α × α)}, Sorted l →
      (holes l).Pairwise fun a b => a.1 < b.1 := by
    intro l hl
    refine (holes_pairwise hl).imp_of_mem ?_
    intro a b ha _ hab
    exact (free_of_mem_holes hl ha).1.proper.trans hab
  have hnodup : ∀ {l : List (α × α)}, Sorted l → (holes l).Nodup := fun hl =>
    (hstrict hl).imp fun hab heq => absurd (congrArg Prod.fst heq) hab.ne
  refine List.Perm.eq_of_pairwise ?_ (hstrict h) (hstrict hothers) ?_
  · intro a b _ _ hab hba
    exact absurd hab hba.not_gt
  · refine (List.perm_ext_iff_of_nodup (hnodup h) (hnodup hothers)).mpr fun hole => ?_
    rw [mem_holes_iff h, mem_holes_iff hothers, isHole_congr hsame]

end Holes
