/-
# `TradePlatform.Lib.Latest` — the last position that passes a test

`latest p n` is the last position below `n` that passes `p`, and `none` where none does.
A loop that writes on every passing position keeps what the last of them wrote.
-/
import Mathlib

def latest (p : ℕ → Prop) [DecidablePred p] : ℕ → Option ℕ
  | 0 => none
  | n + 1 => if p n then some n else latest p n

variable {p q : ℕ → Prop} [DecidablePred p] [DecidablePred q] {n i : ℕ}

theorem latest_eq_none : latest p n = none ↔ ∀ i < n, ¬ p i := by
  induction n with
  | zero => simp [latest]
  | succ n ih =>
      rw [latest]
      split
      · next hp =>
          constructor
          · intro h
            cases h
          · intro h
            exact absurd hp (h n (Nat.lt_succ_self n))
      · next hp =>
          rw [ih]
          constructor
          · intro h i hi
            rcases Nat.lt_succ_iff_lt_or_eq.mp hi with hlt | rfl
            · exact h i hlt
            · exact hp
          · intro h i hi
            exact h i (hi.trans (Nat.lt_succ_self n))

theorem latest_eq_some : latest p n = some i ↔ i < n ∧ p i ∧ ∀ k < n, p k → k ≤ i := by
  induction n with
  | zero => simp [latest]
  | succ n ih =>
      rw [latest]
      split
      · next hp =>
          constructor
          · intro h
            rw [← Option.some_inj.mp h]
            exact ⟨Nat.lt_succ_self n, hp, fun k hk _ => Nat.le_of_lt_succ hk⟩
          · rintro ⟨hi, -, hlast⟩
            rw [le_antisymm (hlast n (Nat.lt_succ_self n) hp) (Nat.le_of_lt_succ hi)]
      · next hp =>
          rw [ih]
          constructor
          · rintro ⟨hi, hpi, hlast⟩
            refine ⟨hi.trans (Nat.lt_succ_self n), hpi, fun k hk hpk => ?_⟩
            rcases Nat.lt_succ_iff_lt_or_eq.mp hk with hlt | rfl
            · exact hlast k hlt hpk
            · exact absurd hpk hp
          · rintro ⟨hi, hpi, hlast⟩
            refine ⟨?_, hpi, fun k hk => hlast k (hk.trans (Nat.lt_succ_self n))⟩
            rcases Nat.lt_succ_iff_lt_or_eq.mp hi with hlt | rfl
            · exact hlt
            · exact absurd hpi hp

theorem latest_congr (h : ∀ i < n, p i ↔ q i) : latest p n = latest q n := by
  induction n with
  | zero => rfl
  | succ n ih =>
      rw [latest, latest, ih fun i hi => h i (hi.trans (Nat.lt_succ_self n))]
      simp only [h n (Nat.lt_succ_self n)]

/-- Where what passes `q` comes after what passes `p`, the last that passes either passes `q`,
as soon as something does. -/
theorem latest_or (h : ∀ i < n, ∀ k < n, q i → p k → k ≤ i) :
    latest (fun i => p i ∨ q i) n = (latest q n).or (latest p n) := by
  cases hq : latest q n with
  | none =>
      rw [Option.none_or]
      exact latest_congr fun i hi => or_iff_left (latest_eq_none.mp hq i hi)
  | some i =>
      obtain ⟨hi, hqi, hlast⟩ := latest_eq_some.mp hq
      rw [Option.some_or]
      refine latest_eq_some.mpr ⟨hi, .inr hqi, fun k hk hpass => ?_⟩
      rcases hpass with hpk | hqk
      · exact h i hi k hk hqi hpk
      · exact hlast k hk hqk
