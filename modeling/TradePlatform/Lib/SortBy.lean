/-
# `TradePlatform.Lib.SortBy` — sorting by a key

`sortBy key` is a stable sort.  Where the key tells the elements of a list apart the
result depends on the elements only, not on the order they came in, and a lower part of
the keys is sorted on its own.  Whether or not the key tells them apart, a filter may be
applied before the sort or after it.
-/
import Mathlib

variable {α β : Type*} [LinearOrder β] (key : α → β)

def sortBy (l : List α) : List α := l.insertionSort fun a b => key a ≤ key b

def KeyTells (l : List α) : Prop := ∀ a ∈ l, ∀ b ∈ l, key a = key b → a = b

variable {key} {l l' : List α}

theorem sortBy_perm (key : α → β) (l : List α) : (sortBy key l).Perm l :=
  List.perm_insertionSort _ l

theorem mem_sortBy {a : α} : a ∈ sortBy key l ↔ a ∈ l := (sortBy_perm key l).mem_iff

theorem sortBy_pairwise (key : α → β) (l : List α) :
    (sortBy key l).Pairwise fun a b => key a ≤ key b := by
  have htotal : Std.Total fun a b : α => key a ≤ key b := ⟨fun a b => le_total (key a) (key b)⟩
  have htrans : IsTrans α fun a b => key a ≤ key b := ⟨fun _ _ _ h h' => h.trans h'⟩
  exact List.pairwise_insertionSort _ l

theorem sortBy_eq (hkey : KeyTells key l) (hperm : l'.Perm l)
    (hsorted : l'.Pairwise fun a b => key a ≤ key b) : sortBy key l = l' := by
  refine List.Perm.eq_of_pairwise ?_ (sortBy_pairwise key l) hsorted
    ((sortBy_perm key l).trans hperm.symm)
  intro a b ha hb hab hba
  exact hkey a (mem_sortBy.mp ha) b (hperm.mem_iff.mp hb) (le_antisymm hab hba)

theorem sortBy_congr (hkey : KeyTells key l) (hperm : l.Perm l') :
    sortBy key l = sortBy key l' :=
  sortBy_eq hkey ((sortBy_perm key l').trans hperm.symm) (sortBy_pairwise key l')

omit [LinearOrder β] in
theorem KeyTells.filter (hkey : KeyTells key l) (p : α → Bool) : KeyTells key (l.filter p) :=
  fun a ha b hb => hkey a (List.mem_of_mem_filter ha) b (List.mem_of_mem_filter hb)

theorem filter_sortBy_key (key : α → β) (l : List α) (k : β) :
    (sortBy key l).filter (fun a => decide (key a = k)) = l.filter fun a => decide (key a = k) := by
  induction l with
  | nil => rfl
  | cons a l ih =>
      have hinsert : ∀ m : List α, (m.orderedInsert (fun a b => key a ≤ key b) a).filter
          (fun b => decide (key b = k)) = (a :: m).filter fun b => decide (key b = k) := by
        intro m
        induction m with
        | nil => rfl
        | cons b m ihm =>
            rw [List.orderedInsert_cons]
            split
            · rfl
            · next hlt =>
                -- `b` is passed, so its key is not that of `a`
                have hne : ¬ (key a = k ∧ key b = k) := fun h => hlt (h.1.trans h.2.symm).le
                rw [List.filter_cons, ihm, List.filter_cons, List.filter_cons, List.filter_cons]
                by_cases ha : key a = k <;> by_cases hb : key b = k <;> simp_all
      rw [sortBy, List.insertionSort_cons, hinsert, List.filter_cons, List.filter_cons]
      simp only [sortBy] at ih
      rw [ih]

theorem sortBy_filter (hkey : KeyTells key l) (p : α → Bool) :
    sortBy key (l.filter p) = (sortBy key l).filter p :=
  sortBy_eq (hkey.filter p) ((sortBy_perm key l).filter p) ((sortBy_pairwise key l).filter p)

theorem sortBy_lower (hkey : KeyTells key l) (p : α → Bool)
    (hlower : ∀ a b, p b = true → p a = false → key b ≤ key a) :
    sortBy key l = sortBy key (l.filter p) ++ sortBy key (l.filter fun a => !p a) := by
  refine sortBy_eq hkey ?_ ?_
  · exact ((sortBy_perm key _).append (sortBy_perm key _)).trans (List.filter_append_perm p l)
  · refine List.pairwise_append.mpr ⟨sortBy_pairwise key _, sortBy_pairwise key _, ?_⟩
    intro b hb a ha
    have hpb := (List.mem_filter.mp (mem_sortBy.mp hb)).2
    have hpa := (List.mem_filter.mp (mem_sortBy.mp ha)).2
    exact hlower a b hpb (by simpa using hpa)

theorem take_sortBy {first rest : List α} (hkey : KeyTells key l) (hperm : l.Perm (first ++ rest))
    (hfirst : first.Pairwise fun a b => key a ≤ key b)
    (hrest : ∀ a ∈ first, ∀ b ∈ rest, key a ≤ key b) :
    (sortBy key l).take first.length = first := by
  have hsorted : sortBy key l = first ++ sortBy key rest := by
    refine sortBy_eq hkey (((sortBy_perm key rest).append_left first).trans hperm.symm) ?_
    refine List.pairwise_append.mpr ⟨hfirst, sortBy_pairwise key rest, fun a ha b hb => ?_⟩
    exact hrest a ha b (mem_sortBy.mp hb)
  rw [hsorted, List.take_left]

theorem map_sortBy {γ : Type*} {key' : γ → β} (f : α → γ) (h : ∀ a, key' (f a) = key a)
    (l : List α) : (sortBy key l).map f = sortBy key' (l.map f) := by
  refine List.map_insertionSort _ _ f l fun a _ b _ => ?_
  rw [h, h]

/-! ## Sorted sets -/

section SortedSet

variable [DecidableEq α]

def sortedSet (key : α → β) (l : List α) : List α := sortBy key l.dedup

theorem mem_sortedSet {a : α} : a ∈ sortedSet key l ↔ a ∈ l := by
  rw [sortedSet, mem_sortBy, List.mem_dedup]

theorem sortedSet_congr (hkey : Function.Injective key) (h : ∀ a, a ∈ l ↔ a ∈ l') :
    sortedSet key l = sortedSet key l' := by
  refine sortBy_congr (fun a _ b _ hab => hkey hab) ?_
  refine (List.perm_ext_iff_of_nodup (List.nodup_dedup l) (List.nodup_dedup l')).mpr fun a => ?_
  rw [List.mem_dedup, List.mem_dedup, h]

end SortedSet

/-! ## Extremes by a key -/

/-- `min(l, key=key)`: the first of the least, or `none` where the list is empty. -/
def minBy (key : α → β) : List α → Option α
  | [] => none
  | a :: l => some (l.foldl (fun best b => if key b < key best then b else best) a)

def maxBy (key : α → β) : List α → Option α
  | [] => none
  | a :: l => some (l.foldl (fun best b => if key best < key b then b else best) a)

variable {a : α}

theorem minBy_eq_none : minBy key l = none ↔ l = [] := by
  cases l with
  | nil => simp [minBy]
  | cons a l => simp [minBy]

theorem maxBy_eq_minBy (key : α → β) (l : List α) :
    maxBy key l = minBy (fun a => OrderDual.toDual (key a)) l := by
  cases l <;> rfl

theorem minBy_eq_some (h : minBy key l = some a) : a ∈ l ∧ ∀ b ∈ l, key a ≤ key b := by
  cases l with
  | nil => cases h
  | cons c l =>
      cases h
      induction l generalizing c with
      | nil => simp
      | cons b l ih =>
          rw [List.foldl_cons]
          obtain ⟨hmem, hle⟩ := ih (if key b < key c then b else c)
          have hstart := hle _ List.mem_cons_self
          refine ⟨?_, fun d hd => ?_⟩
          · rcases List.mem_cons.mp hmem with heq | hmem
            · rw [heq]
              split <;> simp
            · exact List.mem_cons_of_mem _ (List.mem_cons_of_mem _ hmem)
          · rcases List.mem_cons.mp hd with rfl | hd
            · refine hstart.trans ?_
              split
              · rename_i hlt
                exact hlt.le
              · exact le_rfl
            · rcases List.mem_cons.mp hd with rfl | hd
              · refine hstart.trans ?_
                split
                · exact le_rfl
                · rename_i hnot
                  exact not_lt.mp hnot
              · exact hle d (List.mem_cons_of_mem _ hd)

/-! ## What a filter keeps -/

/-- An element that is not kept may be inserted or not, and one that is kept, after the
filter. -/
theorem filter_orderedInsert (p : α → Bool) (a : α)
    (hsorted : l.Pairwise fun a b => key a ≤ key b) :
    (l.orderedInsert (fun a b => key a ≤ key b) a).filter p =
      if p a then (l.filter p).orderedInsert (fun a b => key a ≤ key b) a else l.filter p := by
  induction l with
  | nil =>
      rw [List.orderedInsert_nil, List.filter_cons, List.filter_nil, List.orderedInsert_nil]
  | cons b l ih =>
      obtain ⟨hfirst, hrest⟩ := List.pairwise_cons.mp hsorted
      rw [List.orderedInsert_cons]
      split
      · next hle =>
          rw [List.filter_cons]
          split
          · -- `a` is below what is left, so it is inserted in front there too
            cases hfilter : (b :: l).filter p with
            | nil => rfl
            | cons c kept =>
                have hc : c ∈ b :: l := by
                  have hmem : c ∈ (b :: l).filter p := by
                    rw [hfilter]
                    exact List.mem_cons_self
                  exact List.mem_of_mem_filter hmem
                have hac : key a ≤ key c := by
                  rcases List.mem_cons.mp hc with rfl | hc
                  · exact hle
                  · exact hle.trans (hfirst c hc)
                rw [List.orderedInsert_cons, if_pos hac]
          · rfl
      · next hlt =>
          rw [List.filter_cons, ih hrest, List.filter_cons]
          by_cases hb : p b = true
          · rw [if_pos hb, if_pos hb]
            split
            · rw [List.orderedInsert_cons, if_neg hlt]
            · rfl
          · rw [if_neg hb, if_neg hb]

theorem filter_sortBy (key : α → β) (l : List α) (p : α → Bool) :
    (sortBy key l).filter p = sortBy key (l.filter p) := by
  induction l with
  | nil => rfl
  | cons a l ih =>
      have hinsert : sortBy key (a :: l) =
          (sortBy key l).orderedInsert (fun a b => key a ≤ key b) a := List.insertionSort_cons _ a l
      rw [hinsert, filter_orderedInsert p a (sortBy_pairwise key l), ih, List.filter_cons]
      split
      · exact (List.insertionSort_cons _ a (l.filter p)).symm
      · rfl
