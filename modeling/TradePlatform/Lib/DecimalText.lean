/-
# `TradePlatform.Lib.DecimalText` — the text of a decimal tells its parts

`str(Decimal)` is injective on finite decimals: the digits before and after the point are those of
the coefficient, and the power and the number of digits after the point give the exponent
(`text_spec`).
-/
import TradePlatform.Lib.DecimalParts

namespace Decimal

namespace Parts

/-! ## Digits and what follows them -/

def NoDigitHead (text : List Char) : Prop := ∀ c ∈ text.head?, c.isDigit = false

theorem digits_inj {a b r s : List Char} (ha : ∀ c ∈ a, c.isDigit = true)
    (hb : ∀ c ∈ b, c.isDigit = true) (hr : NoDigitHead r) (hs : NoDigitHead s)
    (h : a ++ r = b ++ s) : a = b ∧ r = s := by
  have hspan : ∀ {x y : List Char}, (∀ c ∈ x, c.isDigit = true) → NoDigitHead y →
      (x ++ y).takeWhile Char.isDigit = x := by
    intro x y hx hy
    rw [List.takeWhile_append_of_pos hx]
    cases y with
    | nil => simp
    | cons c y => simp [hy c rfl]
  have hab : a = b := by rw [← hspan ha hr, h, hspan hb hs]
  subst hab
  exact ⟨rfl, List.append_cancel_left h⟩

def point (frac : List Char) : List Char := if frac = [] then [] else '.' :: frac

def power (e : ℤ) : List Char := if e = 0 then [] else 'E' :: signedText e

theorem signedText_injective {m n : ℤ} (h : signedText m = signedText n) : m = n := by
  obtain ⟨hsign, hdigits⟩ := List.cons.inj h
  have hnat : m.natAbs = n.natAbs := by
    rw [← @Nat.ofDigitChars_ten_toDigits m.natAbs, hdigits, Nat.ofDigitChars_ten_toDigits]
  by_cases hm : m < 0
  · by_cases hn : n < 0
    · omega
    · rw [if_pos hm, if_neg hn] at hsign
      exact absurd hsign (by decide)
  · by_cases hn : n < 0
    · rw [if_neg hm, if_pos hn] at hsign
      exact absurd hsign (by decide)
    · omega

theorem power_injective {m n : ℤ} (h : power m = power n) : m = n := by
  unfold power at h
  by_cases hm : m = 0
  · by_cases hn : n = 0
    · rw [hm, hn]
    · rw [if_pos hm, if_neg hn] at h
      cases h
  · by_cases hn : n = 0
    · rw [if_neg hm, if_pos hn] at h
      cases h
    · rw [if_neg hm, if_neg hn] at h
      exact signedText_injective (List.cons.inj h).2

theorem noDigitHead_power (e : ℤ) : NoDigitHead (power e) := by
  intro c hc
  unfold power at hc
  split at hc
  · cases hc
  · cases hc
    rfl

theorem point_power_injective {frac frac' : List Char} {e e' : ℤ}
    (hfrac : ∀ c ∈ frac, c.isDigit = true) (hfrac' : ∀ c ∈ frac', c.isDigit = true)
    (h : point frac ++ power e = point frac' ++ power e') : frac = frac' ∧ e = e' := by
  have hpower : ∀ {x : List Char} {n : ℤ}, power n ≠ '.' :: x := by
    intro x n heq
    unfold power at heq
    split at heq
    · cases heq
    · exact absurd (List.cons.inj heq).1 (by decide)
  unfold point at h
  by_cases hnil : frac = []
  · by_cases hnil' : frac' = []
    · rw [if_pos hnil, if_pos hnil'] at h
      exact ⟨hnil.trans hnil'.symm, power_injective h⟩
    · rw [if_pos hnil, if_neg hnil'] at h
      exact absurd h hpower
  · by_cases hnil' : frac' = []
    · rw [if_neg hnil, if_pos hnil'] at h
      exact absurd h.symm hpower
    · rw [if_neg hnil, if_neg hnil'] at h
      obtain ⟨hdigits, hpow⟩ := digits_inj hfrac hfrac' (noDigitHead_power e)
        (noDigitHead_power e') (List.cons.inj h).2
      exact ⟨hdigits, power_injective hpow⟩

theorem noDigitHead_point_power (frac : List Char) (e : ℤ) :
    NoDigitHead (point frac ++ power e) := by
  unfold point
  by_cases hnil : frac = []
  · rw [if_pos hnil]
    exact noDigitHead_power e
  · rw [if_neg hnil]
    intro c hc
    cases hc
    rfl

/-! ## The parts of the text -/

structure Written (d : Parts) (int frac : List Char) (e : ℤ) : Prop where
  text : d.text = (if d.negative then ['-'] else []) ++ (int ++ (point frac ++ power e))
  nonempty : int ≠ []
  digits : ∀ c ∈ int ++ frac, c.isDigit = true
  coefficient : Nat.ofDigitChars 10 (int ++ frac) 0 = d.coefficient
  exponent : d.exponent = e - frac.length

theorem digits_replicate_zero (n : ℕ) : ∀ c ∈ List.replicate n '0', c.isDigit = true := by
  intro c hc
  rw [List.eq_of_mem_replicate hc]
  rfl

theorem power_eq (leftdigits dotplace : ℤ) :
    (if leftdigits = dotplace then [] else 'E' :: signedText (leftdigits - dotplace)) =
      power (leftdigits - dotplace) := by
  unfold power
  by_cases h : leftdigits = dotplace
  · rw [if_pos h, if_pos (by omega)]
  · rw [if_neg h, if_neg (by omega)]

theorem text_spec (d : Parts) : ∃ int frac e, Written d int frac e := by
  have hdigit : ∀ c ∈ Nat.toDigits 10 d.coefficient, c.isDigit = true := fun c hc =>
    Nat.isDigit_of_mem_toDigits (by decide) (by decide) hc
  have hne : Nat.toDigits 10 d.coefficient ≠ [] := Nat.toDigits_ne_nil
  have hpos : 0 < (Nat.toDigits 10 d.coefficient).length := List.length_pos_of_ne_nil hne
  have hvalue : Nat.ofDigitChars 10 (Nat.toDigits 10 d.coefficient) 0 = d.coefficient :=
    Nat.ofDigitChars_ten_toDigits
  have htext : d.text = d.text := rfl
  conv_rhs at htext => unfold text
  dsimp only at htext
  generalize hdigits : Nat.toDigits 10 d.coefficient = digits at hdigit hne hpos hvalue htext
  rw [power_eq] at htext
  generalize hdot : (if d.exponent ≤ 0 ∧ -6 < d.exponent + (digits.length : ℤ) then
    d.exponent + (digits.length : ℤ) else 1) = dotplace at htext
  by_cases hsmall : dotplace ≤ 0
  · -- zeros stand between the point and the digits
    rw [if_pos hsmall, if_pos hsmall] at htext
    have hleft : d.exponent + (digits.length : ℤ) = dotplace := by
      split at hdot
      · exact hdot
      · omega
    have hfrac : List.replicate (-dotplace).toNat '0' ++ digits ≠ [] :=
      List.append_ne_nil_of_right_ne_nil _ hne
    refine ⟨['0'], List.replicate (-dotplace).toNat '0' ++ digits, 0, ?_, List.cons_ne_nil _ _,
      ?_, ?_, ?_⟩
    · rw [htext, hleft, sub_self, point, if_neg hfrac]
      simp
    · intro c hc
      simp only [List.mem_append, List.mem_singleton] at hc
      rcases hc with rfl | hc | hc
      · rfl
      · exact digits_replicate_zero _ c hc
      · exact hdigit c hc
    · rw [← List.append_assoc, Nat.ofDigitChars_append, Nat.ofDigitChars_append,
        Nat.ofDigitChars_replicate_zero]
      simpa [Nat.ofDigitChars_cons] using hvalue
    · rw [List.length_append, List.length_replicate]
      omega
  · rw [if_neg hsmall, if_neg hsmall] at htext
    by_cases hlong : (digits.length : ℤ) ≤ dotplace
    · -- no digit stands after the point, and no zero is added
      have hsame : dotplace = digits.length := by
        split at hdot
        · omega
        · omega
      rw [if_pos hlong, hsame, sub_self, Int.toNat_zero, Int.toNat_natCast,
        List.take_length] at htext
      refine ⟨digits, [], d.exponent, ?_, hne, ?_, ?_, ?_⟩
      · rw [htext, point, if_pos rfl]
        have hexp : d.exponent + (digits.length : ℤ) - digits.length = d.exponent := by omega
        rw [hexp]
        simp
      · simpa using hdigit
      · rw [List.append_nil]
        exact hvalue
      · simp
    · have htake : digits.take dotplace.toNat ++ digits.drop dotplace.toNat = digits :=
        List.take_append_drop _ _
      have hdrop : digits.drop dotplace.toNat ≠ [] := by
        intro hnil
        rw [List.drop_eq_nil_iff] at hnil
        omega
      have hzero : (dotplace - (digits.length : ℤ)).toNat = 0 := by omega
      rw [if_neg hlong, hzero, List.replicate_zero, List.append_nil] at htext
      refine ⟨digits.take dotplace.toNat, digits.drop dotplace.toNat,
        d.exponent + digits.length - dotplace, ?_, ?_, ?_, ?_, ?_⟩
      · rw [htext, point, if_neg hdrop]
        simp
      · intro hnil
        have hlength := congrArg List.length hnil
        rw [List.length_take, List.length_nil] at hlength
        omega
      · rw [htake]
        exact hdigit
      · rw [htake]
        exact hvalue
      · rw [List.length_drop]
        omega

theorem text_injective : Function.Injective text := by
  intro d d' h
  obtain ⟨int, frac, e, hd⟩ := text_spec d
  obtain ⟨int', frac', e', hd'⟩ := text_spec d'
  rw [hd.text, hd'.text] at h
  have hint : ∀ c ∈ int, c.isDigit = true := fun c hc => hd.digits c (List.mem_append_left _ hc)
  have hint' : ∀ c ∈ int', c.isDigit = true := fun c hc =>
    hd'.digits c (List.mem_append_left _ hc)
  have hminus : ∀ {x y z : List Char}, x ≠ [] → (∀ c ∈ x, c.isDigit = true) →
      x ++ y ≠ '-' :: z := by
    intro x y z hx hdigits heq
    cases x with
    | nil => exact hx rfl
    | cons c x =>
        have hc := hdigits c List.mem_cons_self
        rw [(List.cons.inj heq).1] at hc
        exact absurd hc (by decide)
  have hsigned : d.negative = d'.negative ∧
      int ++ (point frac ++ power e) = int' ++ (point frac' ++ power e') := by
    cases hneg : d.negative with
    | true =>
        cases hneg' : d'.negative with
        | true =>
            rw [hneg, hneg'] at h
            exact ⟨rfl, (List.cons.inj h).2⟩
        | false =>
            rw [hneg, hneg', if_neg Bool.false_ne_true, List.nil_append] at h
            exact absurd h.symm (hminus hd'.nonempty hint')
    | false =>
        cases hneg' : d'.negative with
        | true =>
            rw [hneg, hneg', if_neg Bool.false_ne_true, List.nil_append] at h
            exact absurd h (hminus hd.nonempty hint)
        | false =>
            rw [hneg, hneg'] at h
            exact ⟨rfl, h⟩
  obtain ⟨hnegative, hrest⟩ := hsigned
  obtain ⟨rfl, hafter⟩ := digits_inj hint hint' (noDigitHead_point_power frac e)
    (noDigitHead_point_power frac' e') hrest
  obtain ⟨rfl, rfl⟩ := point_power_injective
    (fun c hc => hd.digits c (List.mem_append_right _ hc))
    (fun c hc => hd'.digits c (List.mem_append_right _ hc)) hafter
  have hcoefficient := hd.coefficient.symm.trans hd'.coefficient
  have hexponent := hd.exponent.trans hd'.exponent.symm
  cases d
  cases d'
  simp_all

theorem mem_text {d : Parts} {c : Char} (h : c ∈ d.text) :
    c.isDigit = true ∨ c ∈ ['-', '+', '.', 'E'] := by
  obtain ⟨int, frac, e, hd⟩ := text_spec d
  rw [hd.text] at h
  have hsigned : ∀ {n : ℤ}, c ∈ signedText n → c.isDigit = true ∨ c = '-' ∨ c = '+' := by
    intro n hc
    unfold signedText at hc
    rcases List.mem_cons.mp hc with rfl | hc
    · split
      · exact .inr (.inl rfl)
      · exact .inr (.inr rfl)
    · exact .inl (Nat.isDigit_of_mem_toDigits (by decide) (by decide) hc)
  simp only [List.mem_append] at h
  rcases h with h | h | h | h
  · split at h
    · simp_all
    · cases h
  · exact .inl (hd.digits c (List.mem_append_left _ h))
  · unfold point at h
    split at h
    · cases h
    · rcases List.mem_cons.mp h with rfl | h
      · simp
      · exact .inl (hd.digits c (List.mem_append_right _ h))
  · unfold power at h
    split at h
    · cases h
    · rcases List.mem_cons.mp h with rfl | h
      · simp
      · rcases hsigned h with h | rfl | rfl
        · exact .inl h
        · simp
        · simp

end Parts

end Decimal
