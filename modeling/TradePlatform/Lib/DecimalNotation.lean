/-
# `TradePlatform.Lib.DecimalNotation` — decimals in plain notation, and what is read from a text

`format(d, "f")` writes a decimal without an exponent, and `Decimal(text)` reads a text.  What is
written is read as the same number (`number_fixedText`); a positive exponent has become zeros of
the coefficient.
-/
import TradePlatform.Lib.DecimalParts
import TradePlatform.Lib.JsonLines

namespace Decimal

namespace Parts

/-! ## Writing -/

def fixedDigits (digits : List Char) (exponent : ℤ) : List Char × List Char :=
  let dotplace := exponent + digits.length
  if dotplace < 0 then (['0'], List.replicate (-dotplace).toNat '0' ++ digits)
  else if digits.length < dotplace then
    (digits ++ List.replicate (dotplace - digits.length).toNat '0', [])
  else
    let int := digits.take dotplace.toNat
    (if int = [] then ['0'] else int, digits.drop dotplace.toNat)

def fixedText (d : Parts) : List Char :=
  let exponent := if d.coefficient = 0 ∧ 0 < d.exponent then 0 else d.exponent
  let (int, frac) := fixedDigits (Nat.toDigits 10 d.coefficient) exponent
  (if d.negative then ['-'] else []) ++ int ++ if frac = [] then [] else '.' :: frac

/-! ## Reading -/

structure Charset where
  blank : Char → Bool
  decimal : Char → Option (Fin 10)
  plain : ∀ c, c.isDigit = true ∨ c = '-' ∨ c = '.' → blank c = false

def asAscii (charset : Charset) (c : Char) : Char :=
  if c.toNat < 128 then c else (charset.decimal c).elim c fun digit => Nat.digitChar digit

def takeSign : List Char → Bool × List Char
  | '-' :: rest => (true, rest)
  | '+' :: rest => (false, rest)
  | rest => (false, rest)

def signed? (text : List Char) : Option ℤ :=
  let (negative, digits) := takeSign text
  if digits ≠ [] ∧ digits.all Char.isDigit then
    some ((if negative then -1 else 1) * Nat.ofDigitChars 10 digits 0)
  else none

def exponent? : List Char → Option ℤ
  | [] => some 0
  | e :: rest => if e = 'E' ∨ e = 'e' then signed? rest else none

def fraction : List Char → List Char × List Char
  | '.' :: rest => (rest.takeWhile Char.isDigit, rest.dropWhile Char.isDigit)
  | rest => ([], rest)

def finite? (negative : Bool) (text : List Char) : Option Parts :=
  let int := text.takeWhile Char.isDigit
  let (frac, rest) := fraction (text.dropWhile Char.isDigit)
  if int = [] ∧ frac = [] then none
  else (exponent? rest).map fun e =>
    ⟨negative, Nat.ofDigitChars 10 (int ++ frac) 0, e - frac.length⟩

def special (text : List Char) : Bool :=
  let lower := text.map Char.toLower
  let payload (mark : List Char) : Bool :=
    mark.isPrefixOf lower && (lower.drop mark.length).all Char.isDigit
  lower == "inf".toList || lower == "infinity".toList || payload "nan".toList ||
    payload "snan".toList

/-- `Decimal(text)`: `none` where the text is no number, and no value where it is not finite. -/
def number (charset : Charset) (text : List Char) : Option (Option Parts) :=
  let text := ((JsonLines.strip charset.blank text).filter (· ≠ '_')).map (asAscii charset)
  let (negative, body) := takeSign text
  if special body then some none else (finite? negative body).map some

/-! ## What is written is read -/

variable {charset : Charset} {digits int frac rest : List Char} {e : ℤ} {d : Parts}

theorem fixedDigits_spec (hdigits : ∀ c ∈ digits, c.isDigit = true) (hne : digits ≠ []) :
    (∀ c ∈ (fixedDigits digits e).1 ++ (fixedDigits digits e).2, c.isDigit = true) ∧
      (fixedDigits digits e).1 ≠ [] ∧
      Nat.ofDigitChars 10 ((fixedDigits digits e).1 ++ (fixedDigits digits e).2) 0 =
        Nat.ofDigitChars 10 digits 0 * 10 ^ e.toNat ∧
      ((fixedDigits digits e).2.length : ℤ) = -min e 0 := by
  have hlength : 0 < digits.length := List.length_pos_iff.mpr hne
  unfold fixedDigits
  dsimp only
  split
  · rename_i hneg
    refine ⟨?_, List.cons_ne_nil _ _, ?_, ?_⟩
    · intro c hc
      simp only [List.mem_append, List.mem_singleton, List.mem_replicate] at hc
      rcases hc with rfl | ⟨-, rfl⟩ | hc
      · rfl
      · rfl
      · exact hdigits c hc
    · rw [show e.toNat = 0 by omega, pow_zero, mul_one, Nat.ofDigitChars_append,
        Nat.ofDigitChars_append, Nat.ofDigitChars_replicate_zero]
      rfl
    · rw [List.length_append, List.length_replicate]
      omega
  · split
    · rename_i hlong
      refine ⟨?_, by simp [hne], ?_, by simp; omega⟩
      · intro c hc
        simp only [List.append_nil, List.mem_append, List.mem_replicate] at hc
        rcases hc with hc | ⟨-, rfl⟩
        · exact hdigits c hc
        · rfl
      · rw [List.append_nil, Nat.ofDigitChars_append, Nat.ofDigitChars_replicate_zero, mul_comm,
          show (e + digits.length - digits.length).toNat = e.toNat by omega]
    · rename_i hlo hhi
      have hsplit : digits.take (e + digits.length).toNat ++ digits.drop (e + digits.length).toNat =
        digits := List.take_append_drop _ _
      have hdrop : ((digits.drop (e + digits.length).toNat).length : ℤ) = -min e 0 := by
        rw [List.length_drop]
        omega
      rw [show e.toNat = 0 by omega, pow_zero, mul_one]
      split
      · rename_i hnil
        rw [hnil, List.nil_append] at hsplit
        rw [hsplit] at hdrop ⊢
        refine ⟨?_, List.cons_ne_nil _ _, ?_, hdrop⟩
        · intro c hc
          rcases List.mem_cons.mp hc with rfl | hc
          · rfl
          · exact hdigits c hc
        · rfl
      · rename_i hint
        refine ⟨?_, hint, ?_, hdrop⟩
        · rw [hsplit]
          exact hdigits
        · rw [hsplit]

theorem isDigit_bounds {c : Char} (h : c.isDigit = true) : 48 ≤ c.toNat ∧ c.toNat ≤ 57 := by
  unfold Char.isDigit at h
  simp only [ge_iff_le, Bool.and_eq_true, decide_eq_true_eq] at h
  exact h

def Plain (c : Char) : Prop := c.isDigit = true ∨ c = '-' ∨ c = '.'

theorem Plain.asAscii {c : Char} (h : Plain c) : asAscii charset c = c := by
  refine if_pos ?_
  rcases h with h | rfl | rfl
  · exact (isDigit_bounds h).2.trans_lt (by decide)
  · decide
  · decide

theorem Plain.ne_underscore {c : Char} (h : Plain c) : c ≠ '_' := by
  rintro rfl
  rcases h with h | h | h <;> cases h

theorem cleaned_eq {text : List Char} (h : ∀ c ∈ text, Plain c) :
    ((JsonLines.strip charset.blank text).filter (· ≠ '_')).map (asAscii charset) = text := by
  have hblank : ∀ c ∈ text, ¬ charset.blank c = true := by
    intro c hc
    rw [charset.plain c (h c hc)]
    decide
  have hstrip : JsonLines.strip charset.blank text = text := by
    rw [JsonLines.strip, List.dropWhile_eq_self_iff.mpr fun hl => hblank _ (List.getElem_mem hl),
      List.rdropWhile_eq_self_iff.mpr fun hl => hblank _ (List.getLast_mem hl)]
  rw [hstrip, List.filter_eq_self.mpr fun c hc => decide_eq_true (h c hc).ne_underscore]
  exact List.map_congr_left (fun c hc => (h c hc).asAscii) |>.trans (List.map_id' text)

theorem special_digit {c : Char} (h : c.isDigit = true) : special (c :: rest) = false := by
  obtain ⟨hlo, hhi⟩ := isDigit_bounds h
  have hlower : c.toLower = c := by
    refine dif_neg fun hcapital => ?_
    have hle : 65 ≤ c.toNat := hcapital.1
    omega
  have hi : c ≠ 'i' := by
    rintro rfl
    exact absurd hhi (by decide)
  have hn : c ≠ 'n' := by
    rintro rfl
    exact absurd hhi (by decide)
  have hs : c ≠ 's' := by
    rintro rfl
    exact absurd hhi (by decide)
  unfold special
  simp [hlower, hi, hn.symm, hs.symm, List.isPrefixOf]

theorem takeSign_digit {c : Char} (h : c.isDigit = true) :
    takeSign (c :: rest) = (false, c :: rest) := by
  unfold takeSign
  split
  · rename_i heq
    rw [(List.cons.inj heq).1] at h
    cases h
  · rename_i heq
    rw [(List.cons.inj heq).1] at h
    cases h
  · rfl

theorem finite?_point {negative : Bool} (hint : ∀ c ∈ int, c.isDigit = true) (hne : int ≠ [])
    (hfrac : ∀ c ∈ frac, c.isDigit = true) :
    finite? negative (int ++ if frac = [] then [] else '.' :: frac) =
      some ⟨negative, Nat.ofDigitChars 10 (int ++ frac) 0, -frac.length⟩ := by
  have hall : ∀ {digits : List Char}, (∀ c ∈ digits, c.isDigit = true) →
      digits.takeWhile Char.isDigit = digits ∧ digits.dropWhile Char.isDigit = [] :=
    fun h => ⟨List.takeWhile_eq_self_iff.mpr h, List.dropWhile_eq_nil_iff.mpr h⟩
  unfold finite?
  dsimp only
  rw [List.takeWhile_append_of_pos hint, List.dropWhile_append_of_pos hint]
  split
  · rename_i hnil
    subst hnil
    simp [fraction, hne, exponent?]
  · rw [List.takeWhile_cons_of_neg (by decide), List.dropWhile_cons_of_neg (by decide), fraction,
      (hall hfrac).1, (hall hfrac).2]
    simp [hne, exponent?]

theorem number_point {negative : Bool} (hint : ∀ c ∈ int, c.isDigit = true) (hne : int ≠ [])
    (hfrac : ∀ c ∈ frac, c.isDigit = true) :
    number charset ((if negative then ['-'] else []) ++
        (int ++ if frac = [] then [] else '.' :: frac)) =
      some (some ⟨negative, Nat.ofDigitChars 10 (int ++ frac) 0, -frac.length⟩) := by
  have hplain : ∀ c ∈ (if negative then ['-'] else []) ++
      (int ++ if frac = [] then [] else '.' :: frac), Plain c := by
    intro c hc
    rcases List.mem_append.mp hc with hc | hc
    · split at hc
      · exact .inr (.inl (List.mem_singleton.mp hc))
      · cases hc
    · rcases List.mem_append.mp hc with hc | hc
      · exact .inl (hint c hc)
      · split at hc
        · cases hc
        · rcases List.mem_cons.mp hc with rfl | hc
          · exact .inr (.inr rfl)
          · exact .inl (hfrac c hc)
  have hread := @finite?_point _ _ negative hint hne hfrac
  obtain ⟨c, int, rfl⟩ := List.exists_cons_of_ne_nil hne
  have hc := hint c List.mem_cons_self
  have hsign : takeSign ((if negative then ['-'] else []) ++
      (c :: int ++ if frac = [] then [] else '.' :: frac)) =
      (negative, c :: int ++ if frac = [] then [] else '.' :: frac) := by
    cases negative with
    | true => rfl
    | false => exact takeSign_digit hc
  unfold number
  rw [cleaned_eq hplain]
  dsimp only
  rw [hsign]
  dsimp only
  rw [hread, List.cons_append, special_digit hc]
  rfl

theorem number_fixedText (d : Parts) : number charset (fixedText d) =
    some (some ⟨d.negative, d.coefficient * 10 ^ d.exponent.toNat, min d.exponent 0⟩) := by
  set exponent := if d.coefficient = 0 ∧ 0 < d.exponent then 0 else d.exponent with hexponent
  have hvalue : d.coefficient * 10 ^ exponent.toNat = d.coefficient * 10 ^ d.exponent.toNat ∧
      min exponent 0 = min d.exponent 0 := by
    rw [hexponent]
    split
    · rename_i hzero
      rw [hzero.1, zero_mul, zero_mul]
      omega
    · exact ⟨rfl, rfl⟩
  have hdigits : ∀ c ∈ Nat.toDigits 10 d.coefficient, c.isDigit = true :=
    fun c hc => Nat.isDigit_of_mem_toDigits (by norm_num) le_rfl hc
  obtain ⟨hall, hne, hnumber, hlength⟩ :=
    @fixedDigits_spec _ exponent hdigits Nat.toDigits_ne_nil
  have htext : fixedText d = (if d.negative then ['-'] else []) ++
      ((fixedDigits (Nat.toDigits 10 d.coefficient) exponent).1 ++
        if (fixedDigits (Nat.toDigits 10 d.coefficient) exponent).2 = [] then []
        else '.' :: (fixedDigits (Nat.toDigits 10 d.coefficient) exponent).2) := by
    unfold fixedText
    dsimp only
    rw [List.append_assoc]
  generalize fixedDigits (Nat.toDigits 10 d.coefficient) exponent = digits at *
  obtain ⟨int, frac⟩ := digits
  dsimp only at *
  rw [Nat.ofDigitChars_ten_toDigits, hvalue.1] at hnumber
  rw [hvalue.2] at hlength
  have hint : ∀ c ∈ int, c.isDigit = true := fun c hc => hall c (List.mem_append_left _ hc)
  have hfrac : ∀ c ∈ frac, c.isDigit = true := fun c hc => hall c (List.mem_append_right _ hc)
  rw [htext, number_point hint hne hfrac, hnumber, hlength, neg_neg]

end Parts

end Decimal
