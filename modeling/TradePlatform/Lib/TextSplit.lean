/-
# `TradePlatform.Lib.TextSplit` — the parts of a text

`text.split(mark)[1]` and `int(text)`, for reading a number back from the text it was put into;
`text.partition(sep)`, which cuts at the first separator, and `text.rpartition(sep)`, which cuts
at the last one.
-/
import Mathlib

namespace TextSplit

/-! ## The text after a mark -/

def after? (mark : List Char) : List Char → Option (List Char)
  | [] => if mark = [] then some [] else none
  | ch :: text =>
      if mark.isPrefixOf (ch :: text) then some ((ch :: text).drop mark.length)
      else after? mark text

/-- What precedes the first `mark`, all of it where there is none. -/
def before (mark : List Char) : List Char → List Char
  | [] => []
  | ch :: text => if mark.isPrefixOf (ch :: text) then [] else ch :: before mark text

def second? (mark text : List Char) : Option (List Char) := (after? mark text).map (before mark)

variable {mark text : List Char} {first : Char}

theorem after?_mark (rest : List Char) (hmark : mark ≠ []) :
    after? mark (mark ++ rest) = some rest := by
  cases mark with
  | nil => exact absurd rfl hmark
  | cons ch mark =>
      rw [List.cons_append, after?, ← List.cons_append, if_pos, List.drop_left]
      exact List.isPrefixOf_iff_prefix.mpr (List.prefix_append _ _)

theorem not_isPrefixOf_of_ne {ch : Char} (h : ch ≠ first) :
    (first :: mark).isPrefixOf (ch :: text) = false := by
  simp [List.isPrefixOf, h.symm]

theorem after?_append (h : first ∉ text) (rest : List Char) :
    after? (first :: mark) (text ++ rest) = after? (first :: mark) rest := by
  induction text with
  | nil => rfl
  | cons ch text ih =>
      rw [List.mem_cons, not_or] at h
      rw [List.cons_append, after?, not_isPrefixOf_of_ne (Ne.symm h.1), if_neg Bool.false_ne_true]
      exact ih h.2

theorem before_eq_self (h : first ∉ text) : before (first :: mark) text = text := by
  induction text with
  | nil => rfl
  | cons ch text ih =>
      rw [List.mem_cons, not_or] at h
      rw [before, not_isPrefixOf_of_ne (Ne.symm h.1), if_neg Bool.false_ne_true, ih h.2]

theorem before_singleton (h : first ∉ text) (rest : List Char) :
    before [first] (text ++ first :: rest) = text := by
  induction text with
  | nil => simp [before, List.isPrefixOf]
  | cons ch text ih =>
      rw [List.mem_cons, not_or] at h
      rw [List.cons_append, before, not_isPrefixOf_of_ne (Ne.symm h.1),
        if_neg Bool.false_ne_true, ih h.2]

/-! ## Integers -/

def intText (n : ℤ) : List Char := (toString n).toList

def isDigits (text : List Char) : Bool := !text.isEmpty && text.all Char.isDigit

def intOf? : List Char → Option ℤ
  | '-' :: digits => if isDigits digits then some (-(Nat.ofDigitChars 10 digits 0)) else none
  | digits => if isDigits digits then some (Nat.ofDigitChars 10 digits 0) else none

theorem intText_natCast (n : ℕ) : intText n = Nat.toDigits 10 n := by
  show (Nat.repr n).toList = _
  exact String.toList_ofList

theorem intText_negSucc (n : ℕ) : intText (Int.negSucc n) = '-' :: Nat.toDigits 10 (n + 1) := by
  unfold intText
  show ("-" ++ Nat.repr (n + 1)).toList = _
  rw [String.toList_append]
  exact congrArg _ String.toList_ofList

theorem isDigits_toDigits (n : ℕ) : isDigits (Nat.toDigits 10 n) = true := by
  have hne : Nat.toDigits 10 n ≠ [] := Nat.toDigits_ne_nil
  unfold isDigits
  rw [Bool.and_eq_true, Bool.not_eq_true', List.isEmpty_eq_false_iff, List.all_eq_true]
  exact ⟨hne, fun c hc => Nat.isDigit_of_mem_toDigits (by decide) (by decide) hc⟩

theorem isDigit_of_mem_intText {n : ℤ} {ch : Char} (h : ch ∈ intText n) :
    ch = '-' ∨ ch.isDigit = true := by
  cases n with
  | ofNat n =>
      rw [Int.ofNat_eq_natCast, intText_natCast] at h
      exact .inr (Nat.isDigit_of_mem_toDigits (by decide) (by decide) h)
  | negSucc n =>
      rw [intText_negSucc] at h
      rcases List.mem_cons.mp h with rfl | h
      · exact .inl rfl
      · exact .inr (Nat.isDigit_of_mem_toDigits (by decide) (by decide) h)

theorem intOf?_intText (n : ℤ) : intOf? (intText n) = some n := by
  cases n with
  | ofNat n =>
      rw [Int.ofNat_eq_natCast, intText_natCast]
      have hdigits := isDigits_toDigits n
      unfold intOf?
      split
      · rename_i digits heq
        rw [heq] at hdigits
        cases hdigits
      · rw [if_pos hdigits, Nat.ofDigitChars_ten_toDigits]
  | negSucc n =>
      rw [intText_negSucc]
      rw [intOf?, if_pos (isDigits_toDigits (n + 1)), Nat.ofDigitChars_ten_toDigits]
      rfl

end TextSplit

namespace TextPartition

variable {sep : Char} {a b text : List Char}

def upTo (sep : Char) (text : List Char) : List Char := text.takeWhile (· ≠ sep)

def past (sep : Char) (text : List Char) : List Char := (text.dropWhile (· ≠ sep)).tail

def folder (sep : Char) (text : List Char) : List Char := (past sep text.reverse).reverse

def base (sep : Char) (text : List Char) : List Char := (upTo sep text.reverse).reverse

theorem upTo_append (h : sep ∉ a) : upTo sep (a ++ sep :: b) = a := by
  have hall : ∀ c ∈ a, decide (c ≠ sep) = true := by
    intro c hc
    simpa using fun heq : c = sep => h (heq ▸ hc)
  rw [upTo, List.takeWhile_append_of_pos hall]
  simp

theorem past_append (h : sep ∉ a) : past sep (a ++ sep :: b) = b := by
  have hall : ∀ c ∈ a, decide (c ≠ sep) = true := by
    intro c hc
    simpa using fun heq : c = sep => h (heq ▸ hc)
  rw [past, List.dropWhile_append_of_pos hall]
  simp

theorem past_eq_nil (h : sep ∉ text) : past sep text = [] := by
  have hnone : text.dropWhile (· ≠ sep) = [] := by
    rw [List.dropWhile_eq_nil_iff]
    intro c hc
    simpa using fun heq : c = sep => h (heq ▸ hc)
  rw [past, hnone, List.tail_nil]

theorem eq_upTo_past (h : sep ∈ text) : text = upTo sep text ++ sep :: past sep text := by
  induction text with
  | nil => cases h
  | cons c text ih =>
      by_cases hc : c = sep
      · simp [upTo, past, hc]
      · have hrest := ih ((List.mem_cons.mp h).resolve_left (Ne.symm hc))
        simpa [upTo, past, hc] using hrest

theorem folder_append (h : sep ∉ b) : folder sep (a ++ sep :: b) = a := by
  have hreverse : (a ++ sep :: b).reverse = b.reverse ++ sep :: a.reverse := by simp
  rw [folder, hreverse, past_append (by simpa using h), List.reverse_reverse]

theorem base_append (h : sep ∉ b) : base sep (a ++ sep :: b) = b := by
  have hreverse : (a ++ sep :: b).reverse = b.reverse ++ sep :: a.reverse := by simp
  rw [base, hreverse, upTo_append (by simpa using h), List.reverse_reverse]

theorem eq_folder_base (h : folder sep text ≠ []) :
    text = folder sep text ++ sep :: base sep text := by
  have hmem : sep ∈ text.reverse := by
    by_contra hnot
    exact h (by rw [folder, past_eq_nil hnot, List.reverse_nil])
  have hreverse := congrArg List.reverse (eq_upTo_past hmem)
  simpa [folder, base] using hreverse

end TextPartition
