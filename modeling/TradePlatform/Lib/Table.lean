/-
# `TradePlatform.Lib.Table` — rows in insertion order, one row a key

The shape shared by an SQL table with a primary key and by a dictionary: a list
of rows whose keys (a projection of the row) are pairwise different.  `put`
replaces the row that has the key in place, or appends a new one, so the order
of `rows` is the order of first insertion.  Uniqueness is a field, so a table
with two rows of one key cannot be built and no later proof re-proves it.
-/
import Mathlib

variable {κ ν : Type*} [DecidableEq κ]

structure Table {κ ν : Type*} (key : ν → κ) where
  rows : List ν
  nodup : (rows.map key).Nodup

namespace Table

variable {key : ν → κ}

def empty (key : ν → κ) : Table key := ⟨[], List.nodup_nil⟩

/-- Replace the row with the key of `row`, or append `row`. -/
def putRows (key : ν → κ) (row : ν) : List ν → List ν
  | [] => [row]
  | r :: rs => if key r = key row then row :: rs else r :: putRows key row rs

theorem map_key_putRows (row : ν) (rs : List ν) :
    (putRows key row rs).map key =
      if key row ∈ rs.map key then rs.map key else rs.map key ++ [key row] := by
  induction rs with
  | nil => simp [putRows]
  | cons r rs ih =>
      by_cases h : key r = key row
      · simp [putRows, h]
      · have h' : ¬ key row = key r := fun e => h e.symm
        simp only [putRows, if_neg h, List.map_cons, ih, List.mem_cons, h', false_or]
        split <;> rfl

def put (t : Table key) (row : ν) : Table key where
  rows := putRows key row t.rows
  nodup := by
    rw [map_key_putRows]
    split
    · exact t.nodup
    · rename_i h
      exact List.nodup_append.mpr ⟨t.nodup, List.nodup_singleton _,
        fun a ha b hb => by
          rintro rfl
          exact h (List.mem_singleton.mp hb ▸ ha)⟩

def find? (t : Table key) (k : κ) : Option ν :=
  t.rows.find? fun r => decide (key r = k)

theorem find?_eq_some {t : Table key} {k : κ} {r : ν} :
    t.find? k = some r ↔ r ∈ t.rows ∧ key r = k := by
  constructor
  · intro h
    exact ⟨List.mem_of_find?_eq_some h, by simpa using List.find?_some h⟩
  · rintro ⟨hr, rfl⟩
    cases hf : t.find? (key r) with
    | none =>
        have := List.find?_eq_none.mp hf r hr
        simp at this
    | some r' =>
        have hk : key r' = key r := by simpa using List.find?_some hf
        exact congrArg some
          (List.inj_on_of_nodup_map t.nodup (List.mem_of_find?_eq_some hf) hr hk)

theorem find?_eq_none {t : Table key} {k : κ} :
    t.find? k = none ↔ ∀ r ∈ t.rows, key r ≠ k := by
  simp [find?, List.find?_eq_none]

theorem key_of_find? {t : Table key} {k : κ} {r : ν} (h : t.find? k = some r) : key r = k :=
  (find?_eq_some.mp h).2

theorem mem_of_find? {t : Table key} {k : κ} {r : ν} (h : t.find? k = some r) : r ∈ t.rows :=
  (find?_eq_some.mp h).1

theorem find?_key {t : Table key} {r : ν} (h : r ∈ t.rows) : t.find? (key r) = some r :=
  find?_eq_some.mpr ⟨h, rfl⟩

@[simp] theorem find?_empty (k : κ) : (empty key).find? k = none := rfl

omit [DecidableEq κ] in
@[simp] theorem rows_empty : (empty key).rows = [] := rfl

theorem find?_put (t : Table key) (row : ν) (k : κ) :
    (t.put row).find? k = if key row = k then some row else t.find? k := by
  show (putRows key row t.rows).find? _ = if _ then _ else t.rows.find? _
  induction t.rows with
  | nil => by_cases h : key row = k <;> simp [putRows, h]
  | cons r rs ih =>
      by_cases h : key r = key row
      · by_cases hk : key row = k
        · simp [putRows, h, hk]
        · simp [putRows, h, hk]
      · simp only [putRows, if_neg h, List.find?_cons, ih]
        by_cases hr : key r = k
        · have hk : ¬ key row = k := fun e => h (hr.trans e.symm)
          simp [hr, hk]
        · simp [hr]

@[simp] theorem find?_put_self (t : Table key) (row : ν) :
    (t.put row).find? (key row) = some row := by
  simp [find?_put]

theorem find?_put_of_ne {t : Table key} {row : ν} {k : κ} (h : key row ≠ k) :
    (t.put row).find? k = t.find? k := by
  simp [find?_put, h]

theorem mem_put {t : Table key} {row r : ν} :
    r ∈ (t.put row).rows ↔ r = row ∨ (r ∈ t.rows ∧ key r ≠ key row) := by
  have hr : r ∈ (t.put row).rows ↔ (t.put row).find? (key r) = some r :=
    ⟨find?_key, mem_of_find?⟩
  rw [hr, find?_put]
  by_cases h : key row = key r
  · simp only [if_pos h, Option.some.injEq]
    constructor
    · exact fun e => .inl e.symm
    · rintro (rfl | ⟨_, hne⟩)
      · rfl
      · exact absurd h.symm hne
  · have hne : r ≠ row := fun e => h (congrArg key e.symm)
    simp only [if_neg h, hne, false_or]
    exact ⟨fun e => ⟨mem_of_find? e, fun e' => h e'.symm⟩, fun e => find?_key e.1⟩

theorem rows_put_of_none {t : Table key} {row : ν} (h : t.find? (key row) = none) :
    (t.put row).rows = t.rows ++ [row] := by
  have hne := find?_eq_none.mp h
  show putRows key row t.rows = t.rows ++ [row]
  revert hne
  induction t.rows with
  | nil => intro _; rfl
  | cons r rs ih =>
      intro hne
      have hr : ¬ key r = key row := hne r List.mem_cons_self
      simp only [putRows, if_neg hr, List.cons_append]
      rw [ih fun x hx => hne x (List.mem_cons_of_mem _ hx)]

theorem rows_put_of_append {t : Table key} {r row : ν} {before rest : List ν}
    (hrows : t.rows = before ++ r :: rest) (hkey : key row = key r) :
    (t.put row).rows = before ++ row :: rest := by
  have hnodup := t.nodup
  show putRows key row t.rows = _
  rw [hrows] at hnodup ⊢
  clear hrows
  induction before with
  | nil => exact if_pos hkey.symm
  | cons b before ih =>
      obtain ⟨hb, hnodup⟩ := List.nodup_cons.mp hnodup
      have hne : ¬ key b = key row := by
        intro h
        refine hb (h.trans hkey ▸ ?_)
        simp
      show putRows key row (b :: (before ++ r :: rest)) = _
      unfold putRows
      rw [if_neg hne, ih hnodup]
      rfl

def erase (t : Table key) (k : κ) : Table key where
  rows := t.rows.filter fun r => decide (key r ≠ k)
  nodup := t.nodup.sublist (List.filter_sublist.map key)

theorem mem_erase {t : Table key} {k : κ} {r : ν} :
    r ∈ (t.erase k).rows ↔ r ∈ t.rows ∧ key r ≠ k := by
  simp [erase]

theorem find?_erase (t : Table key) (k j : κ) :
    (t.erase k).find? j = if k = j then none else t.find? j := by
  by_cases hkj : k = j
  · rw [if_pos hkj]
    exact find?_eq_none.mpr fun r hr e => (mem_erase.mp hr).2 (e.trans hkj.symm)
  · rw [if_neg hkj]
    cases h : t.find? j with
    | none => exact find?_eq_none.mpr fun r hr => find?_eq_none.mp h r (mem_erase.mp hr).1
    | some r =>
        have hr := find?_eq_some.mp h
        exact find?_eq_some.mpr ⟨mem_erase.mpr ⟨hr.1, fun e => hkj (e.symm.trans hr.2)⟩, hr.2⟩

theorem perm_erase {t : Table key} {k : κ} {r : ν} (h : t.find? k = some r) :
    t.rows.Perm (r :: (t.erase k).rows) := by
  have hk : key r = k := key_of_find? h
  have hnodup : t.rows.Nodup := t.nodup.of_map key
  refine (List.perm_ext_iff_of_nodup hnodup ?_).mpr fun x => ?_
  · exact List.nodup_cons.mpr ⟨fun hr => (mem_erase.mp hr).2 hk, hnodup.filter _⟩
  · constructor
    · intro hx
      by_cases hxk : key x = k
      · have hfind := find?_key hx
        rw [hxk, h] at hfind
        rw [Option.some.inj hfind]
        exact List.mem_cons_self
      · exact List.mem_cons_of_mem _ (mem_erase.mpr ⟨hx, hxk⟩)
    · intro hx
      rcases List.mem_cons.mp hx with rfl | hx
      · exact mem_of_find? h
      · exact (mem_erase.mp hx).1

theorem sum_put {M : Type*} [AddCommGroup M] (f : ν → M) (t : Table key) (row : ν) :
    ((t.put row).rows.map f).sum =
      (t.rows.map f).sum + f row - ((t.find? (key row)).elim 0 f) := by
  show ((putRows key row t.rows).map f).sum = (t.rows.map f).sum + f row
    - ((t.rows.find? fun r => decide (key r = key row)).elim 0 f)
  induction t.rows with
  | nil => simp [putRows]
  | cons r rs ih =>
      by_cases h : key r = key row
      · simp only [putRows, if_pos h, List.map_cons, List.sum_cons, List.find?_cons,
          decide_eq_true h, Option.elim]
        abel
      · simp only [putRows, if_neg h, List.map_cons, List.sum_cons, List.find?_cons,
          decide_eq_false h, ih]
        abel

end Table
