/-
# `TradePlatform.Lib.GroupMerge` — a sorted stream, read group by group along a grid

A stream that is sorted by a key comes in groups of one key each.  To read it at the points of
a grid one drops the groups below the point and takes the group of the point, if it is next.
`advance_group` says what such a read keeps: along an increasing grid each point gets just
the elements of its key, however the groups and the grid interleave.
-/
import Mathlib

namespace GroupMerge

variable {α κ : Type*} [LinearOrder κ] (key : α → κ)

def groups : List α → List (κ × List α)
  | [] => []
  | a :: l =>
      match groups l with
      | [] => [(key a, [a])]
      | (k, g) :: gs => if key a = k then (k, a :: g) :: gs else (key a, [a]) :: (k, g) :: gs

/-- The groups below `k` are dropped; the group of `k` is taken if it is next. -/
def advance (k : κ) : List (κ × List α) → List α × List (κ × List α)
  | [] => ([], [])
  | (j, g) :: gs =>
      if j < k then advance k gs else if j = k then (g, gs) else ([], (j, g) :: gs)

def group (gs : List (κ × List α)) (k : κ) : List α :=
  (gs.filter fun g => decide (g.1 = k)).flatMap Prod.snd

variable {key} {l : List α} {gs : List (κ × List α)} {k j : κ}

theorem group_cons (g : κ × List α) (gs : List (κ × List α)) (k : κ) :
    group (g :: gs) k = (if g.1 = k then g.2 else []) ++ group gs k := by
  unfold group
  by_cases h : g.1 = k
  · simp [h]
  · simp [h]

theorem group_eq_nil (h : ∀ g ∈ gs, k < g.1) : group gs k = [] := by
  unfold group
  rw [List.filter_eq_nil_iff.mpr fun g hg => by simpa using (h g hg).ne', List.flatMap_nil]

theorem group_groups (l : List α) (k : κ) :
    group (groups key l) k = l.filter fun a => decide (key a = k) := by
  induction l with
  | nil => rfl
  | cons a l ih =>
      have hcons : group (groups key (a :: l)) k =
          (if key a = k then [a] else []) ++ group (groups key l) k := by
        rw [groups]
        split
        · rename_i hnil
          rw [hnil, group_cons]
        · rename_i j g gs hgroups
          rw [hgroups]
          split
          · rename_i heq
            rw [group_cons, group_cons, heq]
            split
            · rfl
            · rfl
          · rw [group_cons]
      rw [hcons, ih, List.filter_cons]
      by_cases h : key a = k
      · simp [h]
      · simp [h]

theorem exists_of_mem_groups {g : κ × List α} (h : g ∈ groups key l) : ∃ a ∈ l, key a = g.1 := by
  induction l generalizing g with
  | nil => cases h
  | cons a l ih =>
      rw [groups] at h
      split at h
      · rw [List.mem_singleton.mp h]
        exact ⟨a, List.mem_cons_self, rfl⟩
      · rename_i j g' gs hgroups
        have hrest : ∀ g ∈ (j, g') :: gs, ∃ b ∈ a :: l, key b = g.1 := by
          intro g hg
          obtain ⟨b, hb, hkey⟩ := ih (hgroups ▸ hg)
          exact ⟨b, List.mem_cons_of_mem _ hb, hkey⟩
        split at h
        · rcases List.mem_cons.mp h with rfl | h
          · exact hrest (j, g') List.mem_cons_self
          · exact hrest g (List.mem_cons_of_mem _ h)
        · rcases List.mem_cons.mp h with rfl | h
          · exact ⟨a, List.mem_cons_self, rfl⟩
          · exact hrest g h

theorem groups_pairwise (h : l.Pairwise fun a b => key a ≤ key b) :
    (groups key l).Pairwise fun g g' => g.1 < g'.1 := by
  induction l with
  | nil => exact .nil
  | cons a l ih =>
      obtain ⟨hfirst, hl⟩ := List.pairwise_cons.mp h
      have hgs := ih hl
      have hle : ∀ g ∈ groups key l, key a ≤ g.1 := by
        intro g hg
        obtain ⟨b, hb, hkey⟩ := exists_of_mem_groups hg
        exact hkey ▸ hfirst b hb
      rw [groups]
      split
      · exact List.pairwise_singleton _ _
      · rename_i j g gs hgroups
        rw [hgroups] at hgs hle
        obtain ⟨hhead, htail⟩ := List.pairwise_cons.mp hgs
        split
        · exact List.pairwise_cons.mpr ⟨hhead, htail⟩
        · rename_i hne
          have hlt : key a < j := lt_of_le_of_ne (hle (j, g) List.mem_cons_self) hne
          refine List.pairwise_cons.mpr ⟨fun g' hg' => ?_, hgs⟩
          rcases List.mem_cons.mp hg' with rfl | hg'
          · exact hlt
          · exact hlt.trans (hhead g' hg')

theorem advance_group (h : gs.Pairwise fun g g' => g.1 < g'.1) (k : κ) :
    (advance k gs).1 = group gs k ∧
      (advance k gs).2.Pairwise (fun g g' => g.1 < g'.1) ∧
      ∀ j, k < j → group (advance k gs).2 j = group gs j := by
  induction gs with
  | nil => exact ⟨rfl, .nil, fun _ _ => rfl⟩
  | cons g gs ih =>
      obtain ⟨i, elements⟩ := g
      obtain ⟨hhead, htail⟩ := List.pairwise_cons.mp h
      rw [advance]
      split
      · rename_i hlt
        obtain ⟨hread, hpairwise, hlater⟩ := ih htail
        refine ⟨?_, hpairwise, fun j hj => ?_⟩
        · rw [hread, group_cons, if_neg hlt.ne, List.nil_append]
        · rw [hlater j hj, group_cons, if_neg (hlt.trans hj).ne, List.nil_append]
      · split
        · rename_i heq
          refine ⟨?_, htail, fun j hj => ?_⟩
          · rw [group_cons, if_pos heq, group_eq_nil fun g hg => heq ▸ hhead g hg, List.append_nil]
          · rw [group_cons, if_neg (heq ▸ hj).ne, List.nil_append]
        · rename_i hge hne
          have hlt : k < i := lt_of_le_of_ne (not_lt.mp hge) (Ne.symm hne)
          refine ⟨(group_eq_nil ?_).symm, h, fun _ _ => rfl⟩
          rintro g' hg'
          rcases List.mem_cons.mp hg' with rfl | hg'
          · exact hlt
          · exact hlt.trans (hhead g' hg')

end GroupMerge
