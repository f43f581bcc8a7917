/-
# `TradePlatform.Lib.Dict` — dictionaries in insertion order

A dictionary is a `Table` of pairs keyed by their first component: a new key goes to the
end, a known one keeps its place.  The lemmas give what each operation does to `get?`, and
what it does to a sum over the items.
-/
import TradePlatform.Lib.Table

variable {κ ν : Type*} [DecidableEq κ]

abbrev Dict (κ ν : Type*) [DecidableEq κ] := Table (Prod.fst : κ × ν → κ)

namespace Dict

def empty : Dict κ ν := Table.empty _

def get? (d : Dict κ ν) (k : κ) : Option ν := (d.find? k).map Prod.snd

def getD (d : Dict κ ν) (k : κ) (default : ν) : ν := (get? d k).getD default

def set (d : Dict κ ν) (k : κ) (v : ν) : Dict κ ν := d.put (k, v)

def setdefault (d : Dict κ ν) (k : κ) (v : ν) : Dict κ ν :=
  if (get? d k).isSome then d else set d k v

def erase (d : Dict κ ν) (k : κ) : Dict κ ν := Table.erase d k

def values (d : Dict κ ν) : List ν := d.rows.map Prod.snd

variable {d : Dict κ ν} {k j : κ} {v : ν}

@[simp] theorem get?_empty : get? (empty : Dict κ ν) k = none := rfl

@[simp] theorem values_empty : values (empty : Dict κ ν) = [] := rfl

theorem get?_set : get? (set d k v) j = if k = j then some v else get? d j := by
  simp only [get?, set, Table.find?_put]
  split <;> rfl

@[simp] theorem get?_set_self : get? (set d k v) k = some v := by rw [get?_set, if_pos rfl]

theorem get?_set_of_ne (h : k ≠ j) : get? (set d k v) j = get? d j := by
  rw [get?_set, if_neg h]

theorem get?_setdefault :
    get? (setdefault d k v) j = if k = j then some (getD d k v) else get? d j := by
  unfold setdefault getD
  cases h : get? d k with
  | none => simp [get?_set]
  | some w =>
      by_cases hj : k = j
      · subst hj
        simp [h]
      · simp [hj]

theorem get?_erase : get? (d.erase k) j = if k = j then none else get? d j := by
  simp only [get?, erase, Table.find?_erase]
  split <;> rfl

theorem mem_rows : (k, v) ∈ d.rows ↔ get? d k = some v := by
  constructor
  · intro h
    have hf : d.find? k = some (k, v) := Table.find?_key h
    simp [get?, hf]
  · intro h
    obtain ⟨⟨k', v'⟩, hf, rfl⟩ := Option.map_eq_some_iff.mp h
    obtain rfl : k' = k := Table.key_of_find? hf
    exact Table.mem_of_find? hf

theorem get?_of_perm {d' : Dict κ ν} (hperm : d.rows.Perm d'.rows) (k : κ) :
    get? d k = get? d' k := by
  refine Option.ext fun v => ?_
  rw [← mem_rows, ← mem_rows]
  exact hperm.mem_iff

theorem mem_values : v ∈ values d ↔ ∃ k, get? d k = some v := by
  simp only [values, List.mem_map, Prod.exists, mem_rows, exists_eq_right]

theorem get?_of_not_mem (h : k ∉ d.rows.map Prod.fst) : get? d k = none := by
  cases hget : get? d k with
  | none => rfl
  | some v => exact absurd (List.mem_map_of_mem (mem_rows.mpr hget)) h

theorem rows_set_of_none (h : get? d k = none) : (set d k v).rows = d.rows ++ [(k, v)] := by
  have hf : d.find? k = none := by simpa [get?] using h
  exact Table.rows_put_of_none hf

theorem values_set_of_none (h : get? d k = none) : values (set d k v) = values d ++ [v] := by
  simp [values, rows_set_of_none h]

theorem values_perm_erase (h : get? d k = some v) :
    (values d).Perm (v :: values (d.erase k)) := by
  obtain ⟨r, hf, rfl⟩ := Option.map_eq_some_iff.mp h
  exact (Table.perm_erase hf).map Prod.snd

section Fold

variable {μ : Type*} {items : List (κ × μ)} {m : μ} {default : ν} (f : μ → ν → ν)

theorem getD_foldl_of_not_mem (h : k ∉ items.map Prod.fst) :
    getD (items.foldl (fun d i => set d i.1 (f i.2 (getD d i.1 default))) d) k default =
      getD d k default := by
  induction items generalizing d with
  | nil => rfl
  | cons i items ih =>
      rw [List.map_cons, List.mem_cons, not_or] at h
      rw [List.foldl_cons, ih h.2, getD, get?_set_of_ne (Ne.symm h.1)]
      rfl

theorem getD_foldl (hnodup : (items.map Prod.fst).Nodup) (h : (k, m) ∈ items) :
    getD (items.foldl (fun d i => set d i.1 (f i.2 (getD d i.1 default))) d) k default =
      f m (getD d k default) := by
  induction items generalizing d with
  | nil => cases h
  | cons i items ih =>
      rw [List.map_cons, List.nodup_cons] at hnodup
      rw [List.foldl_cons]
      rcases List.mem_cons.mp h with rfl | h
      · rw [getD_foldl_of_not_mem f hnodup.1, getD, get?_set_self, Option.getD_some]
      · have hne : i.1 ≠ k := by
          rintro rfl
          exact hnodup.1 (List.mem_map.mpr ⟨_, h, rfl⟩)
        rw [ih hnodup.2 h]
        simp only [getD, get?_set_of_ne hne]

end Fold

theorem sum_set {M : Type*} [AddCommGroup M] (f : κ × ν → M) :
    ((set d k v).rows.map f).sum =
      (d.rows.map f).sum + f (k, v) - (get? d k).elim 0 (fun w => f (k, w)) := by
  rw [set, Table.sum_put, get?]
  cases h : d.find? k with
  | none => simp
  | some r =>
      have hk : r.1 = k := Table.key_of_find? h
      simp [← hk]

end Dict
