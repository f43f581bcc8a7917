/-
# `TradePlatform.T4ExactSum` — when `exact_sum_v1` is exact

`exact_sum_v1` compares a total with itself quantized, and the total is computed in 60 digits:
an amount that an addition or a product rounds away is in neither.  The sum is exact, or
refused, where every summand is a multiple of the quantum, where nothing is rounded, and
where rounding cannot reach a number that could be returned.
-/
import TradePlatform.T4Normalizer
import TradePlatform.Lib.DecimalSum

namespace TradePlatform

namespace T4

/-! ## The summands -/

inductive Summand where
  | value (x : Decimal)
  | product (x y : Decimal)
deriving DecidableEq

namespace Summand

def exact : Summand → Decimal
  | value x => x
  | product x y => x * y

def computed (c : Decimal.Context) : Summand → Decimal
  | value x => x
  | product x y => c.mul x y

def Positive : Summand → Prop
  | value x => 0 < x
  | product x y => 0 < x ∧ 0 < y

instance : (s : Summand) → Decidable s.Positive
  | value _ => inferInstanceAs (Decidable (_ < _))
  | product _ _ => inferInstanceAs (Decidable (_ ∧ _))

end Summand

def exactSumOf (summands : List Summand) (name : String) : Except Exn Decimal :=
  exactSumV1 (fun c => summands.map (Summand.computed c)) name

def ReturnsExact (summands : List Summand) (name : String) : Prop :=
  ∀ v, exactSumOf summands name = .ok v → v = (summands.map Summand.exact).sum

/-! ## Where no rounding escapes -/

def OnQuantum (summands : List Summand) : Prop :=
  ∀ s ∈ summands, Decimal.OnGrid 8 s.exact

def NeedsNoRounding (summands : List Summand) : Prop :=
  (∀ s ∈ summands, s.computed sumArithmetic.toContext = s.exact) ∧
    ∀ k, sumArithmetic.toContext.Represents ((summands.map Summand.exact).take k).sum

/-- The part of the sum that a product and an addition for each summand, and one more rounding,
can be off by. -/
def reach (summands : List Summand) : ℚ :=
  ((1 + Decimal.unitError 60) ^ (summands.length + 1) - 1) * (summands.map Summand.exact).sum

/-- Every number of 8 fractional and at most 60 digits is farther from the sum than that. -/
def OutOfReach (summands : List Summand) : Prop :=
  ∀ m : ℤ, |m| < 10 ^ 60 → reach summands < |(summands.map Summand.exact).sum - m / 10 ^ 8|

/-! ## What is returned -/

variable {summands : List Summand} {name : String} {v : Decimal}

def totalOf (summands : List Summand) : Decimal :=
  (summands.map (Summand.computed sumArithmetic.toContext)).foldl sumArithmetic.add 0

def termsOf (summands : List Summand) : List (ℚ × ℚ) :=
  summands.map fun s => (s.computed sumArithmetic.toContext, s.exact)

theorem termsOf_fst : (termsOf summands).map Prod.fst =
    summands.map (Summand.computed sumArithmetic.toContext) := by
  rw [termsOf, List.map_map]
  rfl

theorem termsOf_snd : (termsOf summands).map Prod.snd = summands.map Summand.exact := by
  rw [termsOf, List.map_map]
  rfl

theorem exactSumOf_eq_ok (h : exactSumOf summands name = .ok v) :
    v = totalOf summands ∧ ∃ m : ℤ, v = m / 10 ^ 8 ∧ |m| < 10 ^ 60 := by
  unfold exactSumOf exactSumV1 at h
  dsimp only at h
  split at h
  · cases h
  · rename_i quantized hquantize
    split at h
    · cases h
    · rename_i heq
      cases h
      refine ⟨not_not.mp heq, ?_⟩
      unfold Decimal.Arithmetic.quantize Decimal.Arithmetic.scaled at hquantize
      split at hquantize
      · rename_i hdigits
        refine ⟨_, (Option.some_inj.mp hquantize).symm, ?_⟩
        have hlt := of_decide_eq_true hdigits
        rw [Int.abs_eq_natAbs]
        exact_mod_cast hlt
      · cases hquantize

theorem exact_nonneg {s : Summand} (h : s.Positive) : 0 ≤ s.exact := by
  cases s with
  | value x => exact h.le
  | product x y => exact mul_nonneg h.1.le h.2.le

/-! ### Nothing is rounded -/

theorem totalOf_of_needsNoRounding (h : NeedsNoRounding summands) :
    totalOf summands = (summands.map Summand.exact).sum := by
  have hterms : summands.map (Summand.computed sumArithmetic.toContext) =
      summands.map Summand.exact := List.map_congr_left h.1
  rw [totalOf, hterms, Decimal.foldl_add_eq fun k => by simpa using h.2 k, zero_add]

/-! ### Everything is on the grid -/

theorem gridTerm_computed {s : Summand} (hpos : s.Positive) (hgrid : Decimal.OnGrid 8 s.exact) :
    Decimal.GridTerm 60 8 (s.computed sumArithmetic.toContext, s.exact) := by
  refine ⟨exact_nonneg hpos, hgrid, ?_⟩
  cases s with
  | value x => exact .inl rfl
  | product x y =>
      rcases lt_or_ge (x * y * 10 ^ 8) (10 ^ 60) with hlt | hge
      · exact .inl (hgrid.roundSig_eq (exact_nonneg hpos) hlt)
      · exact .inr (Decimal.le_roundSig (by norm_num) hge)

theorem totalOf_of_onQuantum (hpos : ∀ s ∈ summands, s.Positive) (h : OnQuantum summands) :
    totalOf summands = (summands.map Summand.exact).sum ∨
      10 ^ 60 ≤ totalOf summands * 10 ^ 8 := by
  have hterms : ∀ t ∈ termsOf summands, Decimal.GridTerm 60 8 t := by
    intro t ht
    obtain ⟨s, hs, rfl⟩ := List.mem_map.mp ht
    exact gridTerm_computed (hpos s hs) (h s hs)
  have hstart : Decimal.GridTerm 60 8 (0, 0) := ⟨le_rfl, Decimal.OnGrid.zero, .inl rfl⟩
  obtain ⟨-, -, hvalue⟩ := Decimal.foldl_add_onGrid (by norm_num) hterms hstart
  rw [termsOf_fst, termsOf_snd, zero_add] at hvalue
  exact hvalue

/-! ### What rounding can reach -/

theorem abs_round_sub_le (z : ℚ) :
    |sumArithmetic.round z - z| ≤ Decimal.unitError 60 * |z| :=
  Decimal.abs_roundSig_sub_le (by norm_num) z

theorem off_computed (s : Summand) :
    Decimal.Off (Decimal.unitError 60) 1 (s.computed sumArithmetic.toContext) s.exact := by
  have hunit := (Decimal.unitError_pos 60).le
  cases s with
  | value x => exact (Decimal.Off.refl x).mono hunit (Nat.zero_le 1)
  | product x y =>
      have hoff := (Decimal.Off.refl (u := Decimal.unitError 60) (x * y)).rounded hunit
        abs_round_sub_le
      rw [zero_add] at hoff
      exact hoff

theorem abs_totalOf_sub_le (hpos : ∀ s ∈ summands, s.Positive) :
    |totalOf summands - (summands.map Summand.exact).sum| ≤ reach summands := by
  have hunit := (Decimal.unitError_pos 60).le
  have hterms : ∀ t ∈ termsOf summands,
      0 ≤ t.2 ∧ Decimal.Off (Decimal.unitError 60) 1 t.1 t.2 := by
    intro t ht
    obtain ⟨s, hs, rfl⟩ := List.mem_map.mp ht
    exact ⟨exact_nonneg (hpos s hs), off_computed s⟩
  have hstart : Decimal.Off (Decimal.unitError 60) (0 + 1) 0 0 := by simp [Decimal.Off]
  have hsum := Decimal.Off.foldl (c := sumArithmetic.toContext) hunit abs_round_sub_le hterms
    le_rfl hstart
  rw [termsOf_fst, termsOf_snd, termsOf, List.length_map, zero_add, zero_add] at hsum
  have hnonneg : 0 ≤ (summands.map Summand.exact).sum := by
    refine List.sum_nonneg fun x hx => ?_
    obtain ⟨s, hs, rfl⟩ := List.mem_map.mp hx
    exact exact_nonneg (hpos s hs)
  rw [Decimal.Off, abs_of_nonneg hnonneg, add_comm 1 summands.length] at hsum
  exact hsum

/-! ## The condition -/

/-- Where the summands are multiples of the quantum, where nothing is rounded, or where no
number that could be returned is in reach of the sum, the sum is exact or refused. -/
theorem exactSumOf_returnsExact (hpos : ∀ s ∈ summands, s.Positive)
    (h : OnQuantum summands ∨ NeedsNoRounding summands ∨ OutOfReach summands) :
    ReturnsExact summands name := by
  intro v hok
  obtain ⟨hv, m, hm, hdigits⟩ := exactSumOf_eq_ok hok
  rcases h with hgrid | hexact | hreach
  · rcases totalOf_of_onQuantum hpos hgrid with heq | hlarge
    · rw [hv, heq]
    · -- a total past the grid has too many digits to be quantized
      rw [← hv, hm, div_mul_cancel₀ _ (by positivity)] at hlarge
      have hcast : (10 : ℤ) ^ 60 ≤ m := by exact_mod_cast hlarge
      exact absurd (hcast.trans (le_abs_self m)) (not_le.mpr hdigits)
  · rw [hv, totalOf_of_needsNoRounding hexact]
  · have hfar := hreach m hdigits
    have hnear := abs_totalOf_sub_le hpos
    rw [← hm, hv, abs_sub_comm] at hfar
    exact absurd hnear (not_le.mpr hfar)

/-- A quantity and a product, both multiples of the quantum. -/
theorem exactSumOf_returnsExact_sample :
    exactSumOf [.value (3 / 2), .product 2 (1 / 4)] "bar_volume" = .ok 2 ∧
      ReturnsExact [.value (3 / 2), .product 2 (1 / 4)] "bar_volume" := by
  refine ⟨by decide +kernel, exactSumOf_returnsExact ?_ (.inl ?_)⟩
  · decide +kernel
  · intro s hs
    rcases List.mem_cons.mp hs with rfl | hs
    · exact ⟨150000000, by norm_num [Summand.exact]⟩
    · rw [List.mem_singleton.mp hs]
      exact ⟨50000000, by norm_num [Summand.exact]⟩

/-- Beside `1`, the value `1E-70` is rounded away, and the sum is returned without it. -/
theorem rounded_sum_is_returned :
    (∀ s ∈ [Summand.value 1, .value (1 / 10 ^ 70)], s.Positive) ∧
      exactSumOf [.value 1, .value (1 / 10 ^ 70)] "bar_volume" = .ok 1 ∧
        ¬ ReturnsExact [.value 1, .value (1 / 10 ^ 70)] "bar_volume" := by
  have hreturned : exactSumOf [.value 1, .value (1 / 10 ^ 70)] "bar_volume" = .ok 1 := by
    decide +kernel
  refine ⟨by decide +kernel, hreturned, fun h => ?_⟩
  have hsum := h 1 hreturned
  norm_num [Summand.exact] at hsum

end T4

end TradePlatform
