/-
# `TradePlatform.Lib.JsonText` — compact JSON texts, and texts that part

The texts of `json.dumps` with the separators `,` and `:`, built up from the texts of their
pieces.  Two texts part where they differ at some place that both have, so that nothing after
either makes them equal.  When the pieces of two arrays are equal or part, one by one, so are the
arrays, and they are equal only if all pieces are (`array_eq_or_apart`); no escape need be
decoded for that.
-/
import Mathlib

namespace JsonText

abbrev Text := List Char

/-! ## The texts -/

def hexDigit (n : ℕ) : Char := Nat.digitChar (n % 16)

def unicodeEscape (n : ℕ) : Text :=
  ['\\', 'u', hexDigit (n / 4096), hexDigit (n / 256), hexDigit (n / 16), hexDigit n]

def escape (c : Char) : Text :=
  let n := c.toNat
  if c = '"' then ['\\', '"']
  else if c = '\\' then ['\\', '\\']
  else if n = 8 then ['\\', 'b']
  else if n = 9 then ['\\', 't']
  else if n = 10 then ['\\', 'n']
  else if n = 12 then ['\\', 'f']
  else if n = 13 then ['\\', 'r']
  else if 32 ≤ n ∧ n ≤ 126 then [c]
  else if n < 0x10000 then unicodeEscape n
  else unicodeEscape (0xD800 + (n - 0x10000) / 0x400) ++
    unicodeEscape (0xDC00 + (n - 0x10000) % 0x400)

def quote (text : Text) : Text := '"' :: (text.flatMap escape ++ ['"'])

def bool (b : Bool) : Text := if b then "true".toList else "false".toList

def null : Text := "null".toList

def int (n : ℤ) : Text := (if n < 0 then ['-'] else []) ++ Nat.toDigits 10 n.natAbs

def separated : List Text → Text
  | [] => []
  | [item] => item
  | item :: items => item ++ ',' :: separated items

def array (items : List Text) : Text := '[' :: (separated items ++ [']'])

def object (fields : List (String × Text)) : Text :=
  '\x7b' :: (separated (fields.map fun x => quote x.1.toList ++ ':' :: x.2) ++ ['\x7d'])

/-! ## Texts that part -/

def Apart (a b : Text) : Prop := ∀ r r', a ++ r ≠ b ++ r'

theorem Apart.ne {a b : Text} (h : Apart a b) : a ≠ b := fun heq => h [] [] (by rw [heq])

theorem apart_of_head {a b : Text} {c d : Char} (h : c ≠ d) : Apart (c :: a) (d :: b) := by
  intro r r' heq
  exact h (List.cons.inj heq).1

theorem Apart.cons {a b : Text} (h : Apart a b) (c : Char) : Apart (c :: a) (c :: b) := by
  intro r r' heq
  exact h r r' (List.cons.inj heq).2

theorem Apart.append_left {a b : Text} (h : Apart a b) (front : Text) :
    Apart (front ++ a) (front ++ b) := by
  intro r r' heq
  rw [List.append_assoc, List.append_assoc] at heq
  exact h r r' (List.append_cancel_left heq)

theorem Apart.append {a b : Text} (h : Apart a b) (s s' : Text) : Apart (a ++ s) (b ++ s') := by
  intro r r' heq
  rw [List.append_assoc, List.append_assoc] at heq
  exact h _ _ heq

def Settled (a b : Text) : Prop := a = b ∨ Apart a b

theorem separated_eq_or_apart {as bs : List Text} (h : List.Forall₂ Settled as bs) :
    as = bs ∨ Apart (separated as) (separated bs) := by
  induction h with
  | nil => exact .inl rfl
  | @cons a b as bs hab htail ih =>
      cases htail with
      | nil =>
          rcases hab with rfl | hapart
          · exact .inl rfl
          · exact .inr hapart
      | cons =>
          rcases hab with rfl | hapart
          · rcases ih with heq | hapart
            · exact .inl (by rw [heq])
            · exact .inr ((hapart.cons ',').append_left a)
          · exact .inr (hapart.append _ _)

theorem array_eq_or_apart {as bs : List Text} (h : List.Forall₂ Settled as bs) :
    as = bs ∨ Apart (array as) (array bs) := by
  rcases separated_eq_or_apart h with heq | hapart
  · exact .inl heq
  · exact .inr ((hapart.append _ _).cons '[')

theorem flatten_eq_or_apart {as bs : List Text} (h : List.Forall₂ Settled as bs) :
    as = bs ∨ Apart as.flatten bs.flatten := by
  induction h with
  | nil => exact .inl rfl
  | @cons a b as bs hab _ ih =>
      rcases hab with rfl | hapart
      · rcases ih with heq | hapart
        · exact .inl (by rw [heq])
        · exact .inr (hapart.append_left a)
      · exact .inr (hapart.append _ _)

theorem apart_int_quote (n : ℤ) (text : Text) : Apart (int n) (quote text) := by
  by_cases h : n < 0
  · rw [int, if_pos h]
    exact apart_of_head (by decide)
  · rw [int, if_neg h, List.nil_append]
    cases hdigits : Nat.toDigits 10 n.natAbs with
    | nil => exact absurd hdigits Nat.toDigits_ne_nil
    | cons c rest =>
        have hdigit : c.isDigit = true :=
          Nat.isDigit_of_mem_toDigits (by decide) le_rfl (hdigits ▸ List.mem_cons_self)
        refine apart_of_head fun hquote => ?_
        rw [hquote] at hdigit
        exact absurd hdigit (by decide)

end JsonText
