/-
# `TradePlatform.Lib.Budget` — amounts charged to keys, under one limit

A list of rows, each charging an amount to a key: what is spent on a key, and when one
more row keeps every key within the limit.  The rows may be those of a table, of a log
or of a ledger.
-/
import Mathlib

namespace Budget

variable {κ ν M : Type*} [DecidableEq κ] [AddCommMonoid M]

def spent (key : ν → κ) (amount : ν → M) (rows : List ν) (k : κ) : M :=
  ((rows.filter fun row => decide (key row = k)).map amount).sum

variable {key : ν → κ} {amount : ν → M} {rows : List ν} {row : ν} {k : κ}

@[simp] theorem spent_nil : spent key amount [] k = 0 := rfl

theorem spent_snoc : spent key amount (rows ++ [row]) k =
    spent key amount rows k + if key row = k then amount row else 0 := by
  unfold spent
  rw [List.filter_append, List.map_append, List.sum_append]
  by_cases h : key row = k <;> simp [h]

variable [LE M]

def Within (key : ν → κ) (amount : ν → M) (limit : M) (rows : List ν) : Prop :=
  ∀ k, spent key amount rows k ≤ limit

variable {limit : M}

theorem within_nil [Nonempty κ] : Within key amount limit [] ↔ 0 ≤ limit := by
  constructor
  · intro h
    exact h (Classical.arbitrary κ)
  · intro h k
    exact h

theorem within_snoc_iff (h : Within key amount limit rows) :
    Within key amount limit (rows ++ [row]) ↔
      spent key amount rows (key row) + amount row ≤ limit := by
  constructor
  · intro hw
    have hk := hw (key row)
    rwa [spent_snoc, if_pos rfl] at hk
  · intro hroom k
    rw [spent_snoc]
    by_cases hk : key row = k
    · subst hk
      rwa [if_pos rfl]
    · rw [if_neg hk, add_zero]
      exact h k

end Budget
