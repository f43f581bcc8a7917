/-
# `TradePlatform.Lib.Intervals` — half-open intervals of integers, and blocks of flags

How much of a stretch some intervals leave uncovered, counted point by point and as a
difference of lengths; and the maximal blocks of a list of flags.
-/
import Mathlib

namespace Intervals

def Inside (interval : ℤ × ℤ) (t : ℤ) : Prop := interval.1 ≤ t ∧ t < interval.2

instance (interval : ℤ × ℤ) (t : ℤ) : Decidable (Inside interval t) :=
  inferInstanceAs (Decidable (_ ∧ _))

noncomputable def uncovered (intervals : List (ℤ × ℤ)) (lo hi : ℤ) : Finset ℤ :=
  (Finset.Ico lo hi).filter fun t => ∀ interval ∈ intervals, ¬ Inside interval t

def Separate (intervals : List (ℤ × ℤ)) : Prop := intervals.Pairwise fun a b => a.2 ≤ b.1

/-- The length of the part of an interval inside `[lo, hi)`. -/
def clipped (lo hi : ℤ) (interval : ℤ × ℤ) : ℤ :=
  max 0 (min interval.2 hi - max interval.1 lo)

variable {intervals : List (ℤ × ℤ)} {interval : ℤ × ℤ} {lo hi t : ℤ}

theorem mem_uncovered : t ∈ uncovered intervals lo hi ↔
    (lo ≤ t ∧ t < hi) ∧ ∀ interval ∈ intervals, ¬ Inside interval t := by
  rw [uncovered, Finset.mem_filter, Finset.mem_Ico]

theorem uncovered_cons : uncovered (interval :: intervals) lo hi =
    uncovered intervals lo hi \ Finset.Ico (max interval.1 lo) (min interval.2 hi) := by
  ext t
  rw [Finset.mem_sdiff, mem_uncovered, mem_uncovered, Finset.mem_Ico, List.forall_mem_cons]
  unfold Inside
  constructor
  · rintro ⟨hin, hfirst, hrest⟩
    exact ⟨⟨hin, hrest⟩, fun h => hfirst (by omega)⟩
  · rintro ⟨⟨hin, hrest⟩, hout⟩
    exact ⟨hin, fun h => hout (by omega), hrest⟩

theorem card_uncovered (h : Separate intervals) (hle : lo ≤ hi) :
    ((uncovered intervals lo hi).card : ℤ) =
      hi - lo - (intervals.map (clipped lo hi)).sum := by
  induction intervals with
  | nil =>
      have hall : uncovered [] lo hi = Finset.Ico lo hi := by simp [uncovered]
      rw [hall, Int.card_Ico, List.map_nil, List.sum_nil]
      omega
  | cons interval intervals ih =>
      obtain ⟨hfirst, hrest⟩ := List.pairwise_cons.mp h
      have hsub : Finset.Ico (max interval.1 lo) (min interval.2 hi) ⊆
          uncovered intervals lo hi := by
        intro t ht
        rw [Finset.mem_Ico] at ht
        refine mem_uncovered.mpr ⟨by omega, fun other hother hin => ?_⟩
        have hsep := hfirst other hother
        have hstart := hin.1
        omega
      rw [uncovered_cons, Finset.cast_card_sdiff hsub, ih hrest, Int.card_Ico, List.map_cons,
        List.sum_cons, clipped]
      omega

/-! ## Blocks -/

/-- `n` flags from `start` on are set, and no longer stretch around them is. -/
structure MaximalBlock (flags : List Bool) (start n : ℕ) : Prop where
  nonempty : 1 ≤ n
  inside : start + n ≤ flags.length
  all : ∀ i, start ≤ i → i < start + n → flags[i]? = some true
  before : start = 0 ∨ flags[start - 1]? = some false
  after : start + n = flags.length ∨ flags[start + n]? = some false

/-- The blocks of `flags` from index `i` on, where `start` is that of an open one. -/
def blocksFrom : Option ℕ → ℕ → List Bool → List (ℕ × ℕ)
  | none, _, [] => []
  | some start, i, [] => [(start, i - start)]
  | none, i, flag :: flags => blocksFrom (if flag then some i else none) (i + 1) flags
  | some start, i, flag :: flags =>
      if flag then blocksFrom (some start) (i + 1) flags
      else (start, i - start) :: blocksFrom none (i + 1) flags

/-- What is known before index `i`: no block reaches it, or one from `start` on does. -/
def OpenBlock (flags : List Bool) (i : ℕ) : Option ℕ → Prop
  | none => i = 0 ∨ flags[i - 1]? = some false
  | some start => start < i ∧ (∀ k, start ≤ k → k < i → flags[k]? = some true) ∧
      (start = 0 ∨ flags[start - 1]? = some false)

section Blocks

variable {flags rest : List Bool} {i start n : ℕ} {block : ℕ × ℕ}

theorem MaximalBlock.not_end (h : MaximalBlock flags start n) (hopen : OpenBlock flags i none) :
    start + n ≠ i := by
  rintro rfl
  have hlast := h.all (start + n - 1) (by have := h.nonempty; omega)
    (by have := h.nonempty; omega)
  rcases hopen with hzero | hfalse
  · have := h.nonempty
    omega
  · rw [hfalse] at hlast
    cases hlast

theorem MaximalBlock.end_eq {start' : ℕ} (h : MaximalBlock flags start n)
    (hopen : OpenBlock flags i (some start')) (hend : start + n = i) : start = start' := by
  obtain ⟨hlt, hall, hbefore⟩ := hopen
  have hn := h.nonempty
  rcases lt_trichotomy start start' with hcmp | heq | hcmp
  · have htrue := h.all (start' - 1) (by omega) (by omega)
    rcases hbefore with hzero | hfalse
    · omega
    · rw [hfalse] at htrue
      cases htrue
  · exact heq
  · have htrue := hall (start - 1) (by omega) (by omega)
    rcases h.before with hzero | hfalse
    · omega
    · rw [hfalse] at htrue
      cases htrue

theorem OpenBlock.maximal (h : OpenBlock flags i (some start)) (hi : i ≤ flags.length)
    (hafter : i = flags.length ∨ flags[i]? = some false) :
    MaximalBlock flags start (i - start) := by
  obtain ⟨hlt, hall, hbefore⟩ := h
  have hend : start + (i - start) = i := by omega
  constructor
  · omega
  · omega
  · rw [hend]
    exact hall
  · exact hbefore
  · rw [hend]
    exact hafter

theorem MaximalBlock.lt_of_set (h : MaximalBlock flags start n) (hset : flags[i]? = some true)
    (hle : i ≤ start + n) : i < start + n := by
  refine lt_of_le_of_ne hle ?_
  rintro rfl
  have hlt := (List.getElem?_eq_some_iff.mp hset).1
  rcases h.after with hend | hfalse
  · omega
  · rw [hfalse] at hset
    cases hset

theorem blocksFrom_spec {open? : Option ℕ} (hrest : flags.drop i = rest) (hi : i ≤ flags.length)
    (hopen : OpenBlock flags i open?) :
    (∀ block, block ∈ blocksFrom open? i rest ↔
      MaximalBlock flags block.1 block.2 ∧ i ≤ block.1 + block.2) ∧
      (∀ block ∈ blocksFrom open? i rest, open?.getD i ≤ block.1) ∧
        (blocksFrom open? i rest).Pairwise fun a b => a.1 + a.2 < b.1 := by
  induction rest generalizing i open? with
  | nil =>
      have hlength : i = flags.length := le_antisymm hi (List.drop_eq_nil_iff.mp hrest)
      cases open? with
      | none =>
          refine ⟨fun block => ⟨nofun, fun ⟨hblock, hle⟩ => ?_⟩, nofun, .nil⟩
          have hinside := hblock.inside
          exact absurd (by omega) (hblock.not_end hopen)
      | some start =>
          refine ⟨fun block => ?_, ?_, List.pairwise_singleton _ _⟩
          · rw [blocksFrom, List.mem_singleton]
            constructor
            · rintro rfl
              exact ⟨hopen.maximal hi (.inl hlength), by have := hopen.1; omega⟩
            · rintro ⟨hblock, hle⟩
              have hinside := hblock.inside
              have hstart := hblock.end_eq hopen (by omega)
              exact Prod.ext hstart (by dsimp only; omega)
          · intro block hblock
            rw [blocksFrom, List.mem_singleton] at hblock
            rw [hblock]
            exact le_rfl
  | cons flag rest ih =>
      have hflag : flags[i]? = some flag := by
        rw [← Nat.add_zero i, ← List.getElem?_drop, hrest]
        rfl
      have hlt := (List.getElem?_eq_some_iff.mp hflag).1
      have hnext : flags.drop (i + 1) = rest := by
        rw [← List.drop_drop, hrest]
        rfl
      cases open? with
      | none =>
          cases flag with
          | true =>
              have hopen' : OpenBlock flags (i + 1) (some i) := by
                refine ⟨Nat.lt_succ_self i, fun k hk hk' => ?_, hopen⟩
                rwa [show k = i by omega]
              obtain ⟨hmem, hstart, hpairwise⟩ := ih hnext hlt hopen'
              refine ⟨fun block => (hmem block).trans ?_, hstart, hpairwise⟩
              exact ⟨fun h => ⟨h.1, by omega⟩, fun h => ⟨h.1, h.1.lt_of_set hflag h.2⟩⟩
          | false =>
              obtain ⟨hmem, hstart, hpairwise⟩ := @ih (i + 1) none hnext hlt (.inr hflag)
              refine ⟨fun block => (hmem block).trans ?_, fun block hblock => ?_, hpairwise⟩
              · refine ⟨fun h => ⟨h.1, by omega⟩, fun h => ⟨h.1, ?_⟩⟩
                have hne := h.1.not_end hopen
                omega
              · exact (Nat.le_succ i).trans (hstart block hblock)
      | some start =>
          cases flag with
          | true =>
              have hopen' : OpenBlock flags (i + 1) (some start) := by
                refine ⟨by have := hopen.1; omega, fun k hk hk' => ?_, hopen.2.2⟩
                rcases Nat.lt_succ_iff_lt_or_eq.mp hk' with hk' | rfl
                · exact hopen.2.1 k hk hk'
                · exact hflag
              obtain ⟨hmem, hstart, hpairwise⟩ := ih hnext hlt hopen'
              refine ⟨fun block => (hmem block).trans ?_, hstart, hpairwise⟩
              exact ⟨fun h => ⟨h.1, by omega⟩, fun h => ⟨h.1, h.1.lt_of_set hflag h.2⟩⟩
          | false =>
              obtain ⟨hmem, hstart, hpairwise⟩ := @ih (i + 1) none hnext hlt (.inr hflag)
              have hfirst := hopen.1
              refine ⟨fun block => ?_, fun block hblock => ?_, ?_⟩
              · refine List.mem_cons.trans ⟨?_, fun ⟨hblock, hle⟩ => ?_⟩
                · rintro (rfl | hblock)
                  · exact ⟨hopen.maximal hi (.inr hflag), by dsimp only; omega⟩
                  · obtain ⟨hblock, hle⟩ := (hmem block).mp hblock
                    exact ⟨hblock, by omega⟩
                · rcases hle.eq_or_lt with hend | hend
                  · have heq := hblock.end_eq hopen hend.symm
                    exact .inl (Prod.ext heq (by dsimp only; omega))
                  · exact .inr ((hmem block).mpr ⟨hblock, hend⟩)
              · rcases List.mem_cons.mp hblock with rfl | hblock
                · exact le_rfl
                · have hle := hstart block hblock
                  dsimp only [Option.getD] at hle ⊢
                  omega
              · refine List.pairwise_cons.mpr ⟨fun block hblock => ?_, hpairwise⟩
                have hle := hstart block hblock
                dsimp only [Option.getD] at hle ⊢
                omega

theorem exists_block {open? : Option ℕ} {k : ℕ} (hrest : flags.drop i = rest)
    (hset : flags[k]? = some true) (hk : open?.getD i ≤ k) :
    ∃ block ∈ blocksFrom open? i rest, block.1 ≤ k ∧ k < block.1 + block.2 := by
  induction rest generalizing i open? with
  | nil =>
      have hlt := (List.getElem?_eq_some_iff.mp hset).1
      have hlength := List.drop_eq_nil_iff.mp hrest
      cases open? with
      | none =>
          dsimp only [Option.getD] at hk
          omega
      | some start =>
          refine ⟨(start, i - start), List.mem_singleton.mpr rfl, hk, ?_⟩
          dsimp only [Option.getD] at hk ⊢
          omega
  | cons flag rest ih =>
      have hflag : flags[i]? = some flag := by
        rw [← Nat.add_zero i, ← List.getElem?_drop, hrest]
        rfl
      have hnext : flags.drop (i + 1) = rest := by
        rw [← List.drop_drop, hrest]
        rfl
      have hpast : flag = false → i ≤ k → i + 1 ≤ k := by
        rintro rfl hle
        refine Nat.lt_of_le_of_ne hle ?_
        rintro rfl
        rw [hflag] at hset
        cases hset
      cases open? with
      | none =>
          cases flag with
          | true => exact @ih (i + 1) (some i) hnext hk
          | false => exact @ih (i + 1) none hnext (hpast rfl hk)
      | some start =>
          cases flag with
          | true => exact @ih (i + 1) (some start) hnext hk
          | false =>
              rcases Nat.lt_or_ge k i with hlt | hge
              · refine ⟨(start, i - start), List.mem_cons_self, hk, ?_⟩
                dsimp only [Option.getD] at hk ⊢
                omega
              · obtain ⟨block, hblock, hin⟩ := @ih (i + 1) none hnext (hpast rfl hge)
                exact ⟨block, List.mem_cons_of_mem _ hblock, hin⟩

end Blocks

theorem mem_blocksFrom (flags : List Bool) :
    (∀ block, block ∈ blocksFrom none 0 flags ↔ MaximalBlock flags block.1 block.2) ∧
      (blocksFrom none 0 flags).Pairwise fun a b => a.1 + a.2 < b.1 := by
  obtain ⟨hmem, _, hpairwise⟩ := @blocksFrom_spec flags flags 0 none rfl (Nat.zero_le _) (.inl rfl)
  exact ⟨fun block => (hmem block).trans (and_iff_left (Nat.zero_le _)), hpairwise⟩

end Intervals
