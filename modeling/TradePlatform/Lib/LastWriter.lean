/-
# `TradePlatform.Lib.LastWriter` — the current entry of a key in an append-only log

Two readings of a log with a key on every entry: the entry that was appended last
(`last`), and the entry of greatest rank (`top`), as a query gives it that orders by a
timestamp.  They agree as long as every entry outranks the earlier ones of its key, so
the lemmas say what one append does to each.
-/
import Mathlib

namespace LastWriter

variable {α κ β : Type*} [DecidableEq κ] [LinearOrder β] (key : α → κ) (rank : α → β)

def last (k : κ) (log : List α) : Option α := (log.filter fun e => decide (key e = k)).getLast?

def better : Option α → α → Option α
  | none, e => some e
  | some m, e => if rank m < rank e then some e else some m

def best (log : List α) : Option α := log.foldl (better rank) none

def top (k : κ) (log : List α) : Option α := best rank (log.filter fun e => decide (key e = k))

def Newest (log : List α) (e : α) : Prop := ∀ x ∈ log, key x = key e → rank x < rank e

instance (log : List α) (e : α) : Decidable (Newest key rank log e) :=
  inferInstanceAs (Decidable (∀ x ∈ log, _))

variable {key rank} {k : κ} {log : List α} {e m : α}

theorem last_snoc : last key k (log ++ [e]) = if key e = k then some e else last key k log := by
  unfold last
  rw [List.filter_append]
  by_cases h : key e = k
  · simp [h]
  · simp [h]

theorem mem_of_last (h : last key k log = some e) : e ∈ log ∧ key e = k := by
  have hmem := List.mem_filter.mp (List.mem_of_getLast? h)
  exact ⟨hmem.1, by simpa using hmem.2⟩

theorem best_snoc : best rank (log ++ [e]) = better rank (best rank log) e := by
  simp [best, List.foldl_append]

theorem better_ne_none (o : Option α) : better rank o e ≠ none := by
  cases o with
  | none => simp [better]
  | some m =>
      simp only [better]
      split <;> simp

theorem best_eq_none : best rank log = none ↔ log = [] := by
  induction log using List.reverseRecOn with
  | nil => simp [best]
  | append_singleton log e _ =>
      rw [best_snoc]
      simp [better_ne_none]

theorem best_eq_some (h : best rank log = some m) : m ∈ log ∧ ∀ x ∈ log, rank x ≤ rank m := by
  induction log using List.reverseRecOn generalizing m with
  | nil => cases h
  | append_singleton log e ih =>
      rw [best_snoc] at h
      cases hb : best rank log with
      | none =>
          rw [hb] at h
          cases h
          rw [best_eq_none.mp hb]
          simp
      | some t =>
          obtain ⟨ht, hle⟩ := ih hb
          rw [hb] at h
          simp only [better] at h
          split at h
          · rename_i hlt
            cases h
            refine ⟨by simp, fun x hx => ?_⟩
            rcases List.mem_append.mp hx with hx | hx
            · exact (hle x hx).trans hlt.le
            · rw [List.mem_singleton.mp hx]
          · rename_i hge
            cases h
            refine ⟨List.mem_append_left _ ht, fun x hx => ?_⟩
            rcases List.mem_append.mp hx with hx | hx
            · exact hle x hx
            · rw [List.mem_singleton.mp hx]
              exact not_lt.mp hge

theorem mem_of_top (h : top key rank k log = some e) : e ∈ log ∧ key e = k := by
  have hmem := List.mem_filter.mp (best_eq_some h).1
  exact ⟨hmem.1, by simpa using hmem.2⟩

theorem top_snoc : top key rank k (log ++ [e]) =
    if key e = k ∧ Newest key rank log e then some e else top key rank k log := by
  unfold top
  rw [List.filter_append]
  by_cases hk : key e = k
  swap
  · simp [hk]
  subst hk
  have hsingle : [e].filter (fun x => decide (key x = key e)) = [e] := by simp
  rw [hsingle, best_snoc]
  cases hb : best rank (log.filter fun x => decide (key x = key e)) with
  | none =>
      have hnew : Newest key rank log e := by
        intro x hx hxk
        have hmem : x ∈ log.filter fun x => decide (key x = key e) :=
          List.mem_filter.mpr ⟨hx, by simpa using hxk⟩
        rw [best_eq_none.mp hb] at hmem
        cases hmem
      simp [better, hnew]
  | some m =>
      obtain ⟨hm, hle⟩ := best_eq_some hb
      have hiff : Newest key rank log e ↔ rank m < rank e := by
        constructor
        · intro h
          obtain ⟨hm, hk⟩ := List.mem_filter.mp hm
          exact h m hm (by simpa using hk)
        · intro h x hx hxk
          exact (hle x (List.mem_filter.mpr ⟨hx, by simpa using hxk⟩)).trans_lt h
      simp only [better, hiff, true_and]

end LastWriter
