/-
# `TradePlatform.CanonicalDecimals` — the decimal texts that identities are made of

`_decimal_text` of `strategy_lab_study_v1.py` and `_canonical` of
`incubation_exit_criteria_v1.py` normalize a decimal in the default context and write it in plain
notation.  Numbers that the context holds have one text each, which is read as the same number
and is its own canonical text.  A number of more digits is rounded before it is written, one
below the exponents becomes zero, and one above them overflows, so that the texts say what was
given exactly where the context holds it (`faithful_iff`).
-/
import TradePlatform.Domain
import TradePlatform.Lib.DecimalNormal
import TradePlatform.Lib.DecimalNotation

namespace TradePlatform

open Decimal (Limits Parts)

/-! ## The code -/

theorem isSpace_of_plain {c : Char} (h : c.isDigit = true ∨ c = '-' ∨ c = '.') :
    isSpace c = false := by
  rcases h with h | rfl | rfl
  · obtain ⟨hlo, hhi⟩ := Parts.isDigit_bounds h
    simp only [isSpace, Bool.or_eq_false_iff, Bool.and_eq_false_iff, decide_eq_false_iff_not,
      beq_eq_false_iff_ne]
    omega
  · decide
  · decide

def charset (decimal : Char → Option (Fin 10)) : Parts.Charset :=
  ⟨isSpace, decimal, fun _ => isSpace_of_plain⟩

/-- `format(number.normalize(), "f")`; `decimal.Overflow` is an arithmetic error. -/
def normalizedText (number : Parts) : Except Exn String :=
  match number.normalize .default with
  | none => .error .arithmeticError
  | some normal => .ok (String.ofList normal.fixedText)

namespace StrategyLabStudy

def refuse {α : Type} (message : String) : Except Exn α := .error (.strategyLabStudyError message)

/-- What a caller may pass as a decimal; a decimal that is not finite is `none`, and `other` is a
float, a bool or anything else. -/
inductive DecimalInput where
  | decimal (number : Option Parts)
  | text (text : String)
  | int (value : ℤ)
  | other

def finiteText (number : Parts) : Except Exn String := do
  let text ← normalizedText number
  return if text = "-0" ∨ text = "0" then "0" else text

def decimalText (decimal : Char → Option (Fin 10)) (value : DecimalInput) (name : String) :
    Except Exn String :=
  match value with
  | .other => refuse (name ++ "_decimal_value_must_be_decimal_or_text")
  | .int n => finiteText ⟨decide (n < 0), n.natAbs, 0⟩
  | .decimal none => refuse (name ++ "_decimal_value_must_be_finite")
  | .decimal (some number) => finiteText number
  | .text text =>
      match Parts.number (charset decimal) text.toList with
      | none => refuse (name ++ "_decimal_value_unparseable")
      | some none => refuse (name ++ "_decimal_value_must_be_finite")
      | some (some number) => finiteText number

end StrategyLabStudy

namespace ExitCriteria

def refuse {α : Type} (message : String) : Except Exn α := .error (.exitCriteriaError message)

def decimal (digit : Char → Option (Fin 10)) (value name : String) : Except Exn Parts :=
  match Parts.number (charset digit) value.toList with
  | none => refuse (name ++ "_must_be_decimal_text")
  | some none => refuse (name ++ "_must_be_finite")
  | some (some number) => .ok number

def canonical (number : Parts) : Except Exn String := do
  let text ← normalizedText number
  return if text = "-0" ∨ text = "" then "0" else text

structure ForwardCriterionV1 where
  metric : String
  comparator : String
  threshold : String
deriving DecidableEq

def ForwardCriterionV1.postInit (digit : Char → Option (Fin 10)) (criterion : ForwardCriterionV1) :
    Except Exn ForwardCriterionV1 := do
  if criterion.metric ∉ ["net_total_return", "max_drawdown"] then
    refuse "forward_criterion_metric_unknown"
  else if criterion.comparator ∉ [">", ">=", "<", "<="] then
    refuse "forward_criterion_comparator_unknown"
  else
    let number ← decimal digit criterion.threshold "forward_criterion_threshold"
    return { criterion with threshold := ← canonical number }

end ExitCriteria

/-! ## One text for a number -/

section Texts

open Decimal.Parts StrategyLabStudy

variable {d d' r r' : Parts} {t t' : String} {digit : Char → Option (Fin 10)}

def Held (d : Parts) : Prop := Limits.default.Fits d.value

theorem fixedText_ne_nil (d : Parts) : String.ofList d.fixedText ≠ "" := by
  intro h
  have hnil : d.fixedText = [] := by
    have hlist := congrArg String.toList h
    rwa [String.toList_ofList] at hlist
  have hread := @Parts.number_fixedText (charset fun _ => none) d
  rw [hnil] at hread
  have hempty : Parts.number (charset fun _ => none) [] = none := by decide +kernel
  rw [hempty] at hread
  cases hread

theorem canonical_eq_finiteText (d : Parts) : ExitCriteria.canonical d = finiteText d := by
  have hzero : ∀ text : String, text ≠ "" →
      (if text = "-0" ∨ text = "" then "0" else text) =
        if text = "-0" ∨ text = "0" then "0" else text := by
    intro text hne
    rcases eq_or_ne text "0" with rfl | hne'
    · rfl
    · simp [hne, hne']
  unfold ExitCriteria.canonical finiteText normalizedText
  cases d.normalize .default with
  | none => rfl
  | some normal =>
      show Except.ok _ = Except.ok _
      rw [hzero _ (fixedText_ne_nil normal)]

theorem value_read (d : Parts) : (⟨d.negative, d.coefficient * 10 ^ d.exponent.toNat,
    min d.exponent 0⟩ : Parts).value = d.value := by
  refine value_eq_of_abs rfl ?_
  rcases le_total d.exponent 0 with hle | hle
  · show ((d.coefficient * 10 ^ d.exponent.toNat : ℕ) : ℚ) * 10 ^ min d.exponent 0 = _
    rw [Int.toNat_of_nonpos hle, pow_zero, mul_one, min_eq_left hle]
  · have hrescale := value_rescale hle (rfl : d.coefficient * 10 ^ (d.exponent - 0).toNat = _)
    rw [sub_zero] at hrescale
    show ((d.coefficient * 10 ^ d.exponent.toNat : ℕ) : ℚ) * 10 ^ min d.exponent 0 = _
    rw [min_eq_right hle, hrescale]

def normalText (r : Parts) : String :=
  if r.coefficient = 0 then "0" else String.ofList r.fixedText

theorem number_normalText (r : Parts) : ∃ r',
    Parts.number (charset digit) (normalText r).toList = some (some r') ∧ r'.value = r.value := by
  unfold normalText
  split
  · rename_i hzero
    refine ⟨⟨false, 0, 0⟩, ?_, ?_⟩
    · exact Parts.number_fixedText ⟨false, 0, 0⟩
    · rw [(value_eq_zero_iff r).mpr hzero]
      exact (value_eq_zero_iff _).mpr rfl
  · rw [String.toList_ofList, Parts.number_fixedText]
    exact ⟨_, rfl, value_read r⟩

theorem clean_fixedText (hnormal : r.Normal) :
    (if String.ofList r.fixedText = "-0" ∨ String.ofList r.fixedText = "0" then "0"
      else String.ofList r.fixedText) = normalText r := by
  unfold normalText
  split
  · rename_i htext
    rw [if_pos]
    have hread := @Parts.number_fixedText (charset fun _ => none) r
    have hzero : ∀ text : String, text = "-0" ∨ text = "0" →
        ∃ negative, Parts.number (charset fun _ => none) text.toList =
          some (some ⟨negative, 0, 0⟩) := by
      rintro _ (rfl | rfl)
      · exact ⟨true, by decide +kernel⟩
      · exact ⟨false, by decide +kernel⟩
    obtain ⟨negative, hnegative⟩ := hzero _ htext
    rw [String.toList_ofList, hread] at hnegative
    have hcoefficient := congrArg Parts.coefficient (Option.some.inj (Option.some.inj hnegative))
    exact (Nat.mul_eq_zero.mp hcoefficient).resolve_right (pow_ne_zero _ (by norm_num))
  · rename_i htext
    rw [if_neg]
    intro hzero
    obtain ⟨negative, coefficient, exponent⟩ := r
    obtain rfl : coefficient = 0 := hzero
    obtain rfl : exponent = 0 := by
      rcases hnormal with ⟨-, hexponent⟩ | hlast
      · exact hexponent
      · exact absurd rfl hlast
    refine htext ?_
    cases negative with
    | true => exact .inl (by decide +kernel)
    | false => exact .inr (by decide +kernel)

theorem finiteText_eq_ok : finiteText d = .ok t ↔
    ∃ r, d.normalize .default = some r ∧ normalText r = t := by
  unfold finiteText normalizedText
  cases hnormalize : d.normalize .default with
  | none => simp [Bind.bind, Except.bind]
  | some r =>
      have hclean := clean_fixedText (normalize_some hnormalize).2.2.1
      constructor
      · intro h
        exact ⟨r, rfl, hclean.symm.trans (Except.ok.inj h)⟩
      · rintro ⟨_, hr, rfl⟩
        obtain rfl := Option.some.inj hr
        exact congrArg Except.ok hclean

theorem negative_eq_of_value (hne : d.coefficient ≠ 0) (hvalue : d.value = d'.value)
    (habs : (d.coefficient : ℚ) * 10 ^ d.exponent = d'.coefficient * 10 ^ d'.exponent) :
    d.negative = d'.negative := by
  have hpos : (d.coefficient : ℚ) * 10 ^ d.exponent ≠ 0 :=
    mul_ne_zero (Nat.cast_ne_zero.mpr hne) (zpow_ne_zero _ (by norm_num))
  have hsign : (d.sign : ℚ) = d'.sign := by
    refine mul_right_cancel₀ hpos ?_
    rw [← mul_assoc, show (d.sign : ℚ) * d.coefficient * 10 ^ d.exponent = d.value from rfl,
      hvalue, habs, ← mul_assoc]
    rfl
  unfold sign at hsign
  cases hd : d.negative <;> cases hd' : d'.negative <;> rw [hd, hd'] at hsign <;>
    first | rfl | norm_num at hsign

theorem normalText_congr (hnormal : r.Normal) (hnormal' : r'.Normal) (hvalue : r.value = r'.value) :
    normalText r = normalText r' := by
  obtain ⟨hcoefficient, hexponent⟩ := hnormal.unique hnormal' (congrArg _ hvalue)
  unfold normalText
  rw [hcoefficient]
  split
  · rfl
  · rename_i hne
    have hnegative : r.negative = r'.negative :=
      negative_eq_of_value (by rwa [hcoefficient]) hvalue (by rw [hcoefficient, hexponent])
    obtain ⟨negative, coefficient, exponent⟩ := r
    obtain ⟨negative', coefficient', exponent'⟩ := r'
    dsimp only at hcoefficient hexponent hnegative
    rw [hcoefficient, hexponent, hnegative]

theorem finiteText_of_held (h : Held d) : ∃ r, r.Normal ∧ r.value = d.value ∧
    finiteText d = .ok (normalText r) := by
  obtain ⟨r, hr⟩ := normalize_of_fits h
  obtain ⟨_, _, hnormal, hkeeps⟩ := normalize_some hr
  exact ⟨r, hnormal, hkeeps h, finiteText_eq_ok.mpr ⟨r, hr, rfl⟩⟩

theorem finiteText_congr (h : Held d) (hvalue : d.value = d'.value) :
    finiteText d = finiteText d' := by
  have h' : Held d' := by
    unfold Held at h ⊢
    rwa [← hvalue]
  obtain ⟨r, hnormal, hr, htext⟩ := finiteText_of_held h
  obtain ⟨r', hnormal', hr', htext'⟩ := finiteText_of_held h'
  rw [htext, htext', normalText_congr hnormal hnormal' (by rw [hr, hr', hvalue])]

theorem finiteText_read (h : finiteText d = .ok t) : ∃ r,
    Parts.number (charset digit) t.toList = some (some r) ∧ Held r ∧ finiteText r = .ok t ∧
      (Held d → r.value = d.value) := by
  obtain ⟨normal, hnormalize, rfl⟩ := finiteText_eq_ok.mp h
  obtain ⟨_, hfits, hnormal, hkeeps⟩ := normalize_some hnormalize
  obtain ⟨r, hread, hvalue⟩ := @number_normalText digit normal
  have hheld : Held r := by
    unfold Held
    rwa [hvalue]
  obtain ⟨again, hagain, hsame, htext⟩ := finiteText_of_held hheld
  refine ⟨r, hread, hheld, ?_, fun hd => hvalue.trans (hkeeps hd)⟩
  rw [htext, normalText_congr hagain hnormal (hsame.trans hvalue)]

/-- What identities need of two decimals: each has a text that is read as the same value and is
its own canonical text, and they have one text just when they are equal.  `ofText` takes a text
as its input. -/
def Faithful (digit : Char → Option (Fin 10)) (ofNumber : Parts → Except Exn String)
    (ofText : String → Except Exn String) (d d' : Parts) : Prop :=
  ∃ t t', ofNumber d = .ok t ∧ ofNumber d' = .ok t' ∧ ofText t = .ok t ∧ ofText t' = .ok t' ∧
    (∃ r, Parts.number (charset digit) t.toList = some (some r) ∧ r.value = d.value) ∧
    (∃ r, Parts.number (charset digit) t'.toList = some (some r) ∧ r.value = d'.value) ∧
    (t = t' ↔ d.value = d'.value)

theorem not_faithful {ofNumber : Parts → Except Exn String} {ofText : String → Except Exn String}
    (ht : ofNumber d = .ok t) (hr : Parts.number (charset digit) t.toList = some (some r))
    (hvalue : r.value ≠ d.value) : ¬ Faithful digit ofNumber ofText d d' := by
  rintro ⟨_, -, ht', -, -, -, ⟨r', hr', hvalue'⟩, -⟩
  obtain rfl := Except.ok.inj (ht.symm.trans ht')
  obtain rfl := Option.some.inj (Option.some.inj (hr.symm.trans hr'))
  exact hvalue hvalue'

theorem faithful_finiteText_iff {ofText : String → Except Exn String}
    (hofText : ∀ {t r}, Parts.number (charset digit) t.toList = some (some r) →
      ofText t = finiteText r) :
    Faithful digit finiteText ofText d d' ↔ Held d ∧ Held d' := by
  constructor
  · rintro ⟨t, t', ht, ht', -, -, ⟨r, hr, hvalue⟩, ⟨r', hr', hvalue'⟩, -⟩
    have hheld : ∀ {d r : Parts} {t}, finiteText d = .ok t →
        Parts.number (charset digit) t.toList = some (some r) → r.value = d.value → Held d := by
      intro d r t ht hr hvalue
      obtain ⟨s, hs, hheld, -⟩ := @finiteText_read _ _ digit ht
      rw [hr] at hs
      obtain rfl := Option.some.inj (Option.some.inj hs)
      unfold Held at hheld ⊢
      rwa [← hvalue]
    exact ⟨hheld ht hr hvalue, hheld ht' hr' hvalue'⟩
  · rintro ⟨h, h'⟩
    obtain ⟨_, -, -, ht⟩ := finiteText_of_held h
    obtain ⟨_, -, -, ht'⟩ := finiteText_of_held h'
    obtain ⟨r, hr, -, hagain, hvalue⟩ := @finiteText_read _ _ digit ht
    obtain ⟨r', hr', -, hagain', hvalue'⟩ := @finiteText_read _ _ digit ht'
    refine ⟨_, _, ht, ht', (hofText hr).trans hagain, (hofText hr').trans hagain',
      ⟨r, hr, hvalue h⟩, ⟨r', hr', hvalue' h'⟩, fun heq => ?_, fun heq => ?_⟩
    · rw [heq, hr'] at hr
      rw [← hvalue h, ← hvalue' h', Option.some.inj (Option.some.inj hr)]
    · have hsame := finiteText_congr h heq
      rw [ht, ht'] at hsame
      exact Except.ok.inj hsame

/-- The texts of the strategy lab and of the exit criteria are faithful to two decimals just when
the context holds both: at most 28 significant digits, no smaller unit than `10 ^ -1000026`, and
less than `10 ^ 1000000`. -/
theorem faithful_iff (digit : Char → Option (Fin 10)) (name : String) (d d' : Parts) :
    (Faithful digit (fun d => decimalText digit (.decimal (some d)) name)
        (fun t => decimalText digit (.text t) name) d d' ↔ Held d ∧ Held d') ∧
      (Faithful digit ExitCriteria.canonical
        (fun t => ExitCriteria.decimal digit t name >>= ExitCriteria.canonical) d d' ↔
          Held d ∧ Held d') := by
  constructor
  · refine faithful_finiteText_iff fun {t r} hread => ?_
    rw [decimalText, hread]
  · rw [show ExitCriteria.canonical = finiteText from funext canonical_eq_finiteText]
    refine faithful_finiteText_iff fun {t r} hread => ?_
    rw [ExitCriteria.decimal, hread]
    rfl

/-- A threshold of thirty digits is approved, and a rounded one is bound. -/
theorem a_threshold_of_thirty_digits_changes :
    let digit : Char → Option (Fin 10) := fun _ => none
    let d : Parts := ⟨false, 10 ^ 29 + 1, -30⟩
    ExitCriteria.ForwardCriterionV1.postInit digit
        ⟨"max_drawdown", "<=", "0.100000000000000000000000000001"⟩ =
          .ok ⟨"max_drawdown", "<=", "0.1"⟩ ∧
      decimalText digit (.text "0.100000000000000000000000000001") "drawdown" = .ok "0.1" ∧
      Parts.number (charset digit) "0.100000000000000000000000000001".toList = some (some d) ∧
      ¬ Faithful digit (fun d => decimalText digit (.decimal (some d)) "drawdown")
        (fun t => decimalText digit (.text t) "drawdown") d d ∧
      ¬ Faithful digit ExitCriteria.canonical
        (fun t => ExitCriteria.decimal digit t "drawdown" >>= ExitCriteria.canonical) d d := by
  intro digit d
  have hread : Parts.number (charset digit) "0.1".toList = some (some ⟨false, 1, -1⟩) := by
    decide +kernel
  have hvalue : (⟨false, 1, -1⟩ : Parts).value ≠ d.value := by
    norm_num [d, Parts.value, Parts.sign]
  refine ⟨by decide +kernel, by decide +kernel, by decide +kernel, ?_, ?_⟩
  · exact not_faithful (by decide +kernel) hread hvalue
  · exact not_faithful (by decide +kernel) hread hvalue

end Texts

end TradePlatform
