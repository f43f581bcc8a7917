/-
# `TradePlatform.Lib.JsonReadOff` — flat JSON objects are read off

The compact text of an object of texts and nulls tells the object and where it ends: an escape
tells its character, a quoted text ends at its closing quote, and so on outwards.
-/
import TradePlatform.Lib.Codes
import TradePlatform.Lib.JsonText

namespace JsonText

open Codes

/-! ## Escapes -/

theorem hexDigit_inj {a b : ℕ} (h : hexDigit a = hexDigit b) : a % 16 = b % 16 := by
  have hdigits : ∀ i < 16, ∀ j < 16, Nat.digitChar i = Nat.digitChar j → i = j := by decide
  exact hdigits _ (Nat.mod_lt a (by decide)) _ (Nat.mod_lt b (by decide)) h

theorem unicodeEscape_append_inj {n m : ℕ} {r s : Text} (hn : n < 0x10000) (hm : m < 0x10000)
    (h : unicodeEscape n ++ r = unicodeEscape m ++ s) : n = m ∧ r = s := by
  unfold unicodeEscape at h
  simp only [List.cons_append, List.nil_append, List.cons.injEq, true_and] at h
  obtain ⟨h₃, h₂, h₁, h₀, hrest⟩ := h
  have h₃ := hexDigit_inj h₃
  have h₂ := hexDigit_inj h₂
  have h₁ := hexDigit_inj h₁
  have h₀ := hexDigit_inj h₀
  exact ⟨by omega, hrest⟩

def unescape (letter : Char) : Char :=
  if letter = '"' then '"'
  else if letter = '\\' then '\\'
  else if letter = 'b' then Char.ofNat 8
  else if letter = 't' then Char.ofNat 9
  else if letter = 'n' then Char.ofNat 10
  else if letter = 'f' then Char.ofNat 12
  else Char.ofNat 13

def high (n : ℕ) : ℕ := 0xD800 + (n - 0x10000) / 0x400
def low (n : ℕ) : ℕ := 0xDC00 + (n - 0x10000) % 0x400

theorem escape_cases (c : Char) :
    (escape c = [c] ∧ c ≠ '\\' ∧ c ≠ '"') ∨
      (∃ letter, letter ≠ 'u' ∧ escape c = ['\\', letter] ∧ unescape letter = c) ∨
      (c.toNat < 0x10000 ∧ escape c = unicodeEscape c.toNat) ∨
      (0x10000 ≤ c.toNat ∧
        escape c = unicodeEscape (high c.toNat) ++ unicodeEscape (low c.toNat)) := by
  have hof : ∀ {n : ℕ}, c.toNat = n → Char.ofNat n = c := by
    intro n hn
    rw [← hn, Char.ofNat_toNat]
  unfold escape
  dsimp only
  split
  · next hquote => exact .inr (.inl ⟨'"', by decide, rfl, hquote.symm⟩)
  · next hquote =>
    split
    · next hback => exact .inr (.inl ⟨'\\', by decide, rfl, hback.symm⟩)
    · next hback =>
      split
      · next h => exact .inr (.inl ⟨'b', by decide, rfl, hof h⟩)
      · split
        · next h => exact .inr (.inl ⟨'t', by decide, rfl, hof h⟩)
        · split
          · next h => exact .inr (.inl ⟨'n', by decide, rfl, hof h⟩)
          · split
            · next h => exact .inr (.inl ⟨'f', by decide, rfl, hof h⟩)
            · split
              · next h => exact .inr (.inl ⟨'r', by decide, rfl, hof h⟩)
              · split
                · exact .inl ⟨rfl, hback, hquote⟩
                · split
                  · next h => exact .inr (.inr (.inl ⟨h, rfl⟩))
                  · next h => exact .inr (.inr (.inr ⟨not_lt.mp h, rfl⟩))

theorem escape_head (c : Char) : ∃ d rest, escape c = d :: rest ∧ d ≠ '"' := by
  rcases escape_cases c with ⟨h, -, hne⟩ | ⟨letter, -, h, -⟩ | ⟨-, h⟩ | ⟨-, h⟩
  · exact ⟨c, [], h, hne⟩
  · exact ⟨'\\', [letter], h, by decide⟩
  · exact ⟨'\\', _, h, by decide⟩
  · exact ⟨'\\', _, h, by decide⟩

theorem toNat_ranges (c : Char) : (c.toNat < 0xD800 ∨ 0xDFFF < c.toNat) ∧ c.toNat < 0x110000 := by
  have hvalid := c.valid
  have htoNat : c.toNat = c.val.toNat := rfl
  rcases hvalid with h | ⟨hlow, hhigh⟩
  · exact ⟨.inl (htoNat ▸ h), by omega⟩
  · exact ⟨.inr (htoNat ▸ hlow), htoNat ▸ hhigh⟩

theorem high_lt {c : Char} (h : 0x10000 ≤ c.toNat) :
    high c.toNat < 0xDC00 ∧ 0xD800 ≤ high c.toNat := by
  have hrange := (toNat_ranges c).2
  unfold high
  omega

theorem low_lt (n : ℕ) : low n < 0x10000 := by
  unfold low
  omega

theorem units_inj {n m : ℕ} (hn : 0x10000 ≤ n) (hm : 0x10000 ≤ m) (hhigh : high n = high m)
    (hlow : low n = low m) : n = m := by
  unfold high at hhigh
  unfold low at hlow
  omega

theorem escape_readOff : ReadOff escape := by
  intro c d r s h
  rcases escape_cases c with ⟨hc, hback, -⟩ | ⟨letter, hu, hc, hletter⟩ | ⟨hlt, hc⟩ | ⟨hle, hc⟩
  · rcases escape_cases d with ⟨hd, -, -⟩ | ⟨letter', -, hd, -⟩ | ⟨-, hd⟩ | ⟨-, hd⟩
    · rw [hc, hd] at h
      exact List.cons.inj h
    all_goals
      rw [hc, hd] at h
      exact absurd (List.cons.inj h).1 hback
  · rcases escape_cases d with ⟨hd, hback, -⟩ | ⟨letter', -, hd, hletter'⟩ | ⟨-, hd⟩ | ⟨-, hd⟩
    · rw [hc, hd] at h
      exact absurd (List.cons.inj h).1.symm hback
    · rw [hc, hd] at h
      obtain ⟨rfl, hrest⟩ := List.cons.inj (List.cons.inj h).2
      exact ⟨hletter.symm.trans hletter', hrest⟩
    all_goals
      rw [hc, hd] at h
      exact absurd (List.cons.inj (List.cons.inj h).2).1 hu
  · rcases escape_cases d with ⟨hd, hback, -⟩ | ⟨letter', hu, hd, -⟩ | ⟨hlt', hd⟩ | ⟨hle', hd⟩
    · rw [hc, hd] at h
      exact absurd (List.cons.inj h).1.symm hback
    · rw [hc, hd] at h
      exact absurd (List.cons.inj (List.cons.inj h).2).1.symm hu
    · rw [hc, hd] at h
      obtain ⟨hn, hrest⟩ := unicodeEscape_append_inj hlt hlt' h
      exact ⟨Char.toNat_inj.mp hn, hrest⟩
    · rw [hc, hd, List.append_assoc] at h
      have hhigh := high_lt hle'
      have hrange := (toNat_ranges c).1
      obtain ⟨hn, -⟩ := unicodeEscape_append_inj hlt (by omega) h
      omega
  · have hhigh := high_lt hle
    rcases escape_cases d with ⟨hd, hback, -⟩ | ⟨letter', hu, hd, -⟩ | ⟨hlt', hd⟩ | ⟨hle', hd⟩
    · rw [hc, hd] at h
      exact absurd (List.cons.inj h).1.symm hback
    · rw [hc, hd] at h
      exact absurd (List.cons.inj (List.cons.inj h).2).1.symm hu
    · rw [hc, hd, List.append_assoc] at h
      have hrange := (toNat_ranges d).1
      obtain ⟨hn, -⟩ := unicodeEscape_append_inj (by omega) hlt' h
      omega
    · rw [hc, hd, List.append_assoc, List.append_assoc] at h
      have hhigh' := high_lt hle'
      obtain ⟨hn, hlow⟩ := unicodeEscape_append_inj (by omega) (by omega) h
      obtain ⟨hm, hrest⟩ := unicodeEscape_append_inj (low_lt _) (low_lt _) hlow
      exact ⟨Char.toNat_inj.mp (units_inj hle hle' hn hm), hrest⟩

theorem quote_readOff : ReadOff quote := (escape_readOff.stopped escape_head).cons '"'

/-! ## Objects -/

def scalar : Option String → Text
  | none => null
  | some text => quote text.toList

theorem scalar_readOff : ReadOff scalar := by
  have hquote : ReadOff fun text : String => quote text.toList :=
    quote_readOff.comp fun _ _ h => String.toList_inj.mp h
  intro a b r s h
  cases a with
  | none =>
      cases b with
      | none => exact ⟨rfl, List.append_cancel_left h⟩
      | some text => exact absurd (List.cons.inj h).1 (by decide)
  | some text =>
      cases b with
      | none => exact absurd (List.cons.inj h).1 (by decide)
      | some text' =>
          obtain ⟨rfl, hrest⟩ := hquote h
          exact ⟨rfl, hrest⟩

def member (field : String × Option String) : Text :=
  quote field.1.toList ++ ':' :: scalar field.2

theorem member_readOff : ReadOff member := by
  have hkey : ReadOff fun key : String => quote key.toList :=
    quote_readOff.comp fun _ _ h => String.toList_inj.mp h
  exact hkey.pair (scalar_readOff.cons ':')

def flatObject (fields : List (String × Option String)) : Text :=
  object (fields.map fun field => (field.1, scalar field.2))

theorem separated_map {α : Type} (f : α → Text) (a : α) (as : List α) :
    separated ((a :: as).map f) = f a ++ as.flatMap fun b => ',' :: f b := by
  induction as generalizing a with
  | nil => simp [separated]
  | cons b as ih =>
      rw [List.map_cons, List.map_cons, separated, ← List.map_cons, ih]
      · simp
      · simp

theorem flatObject_cons (field : String × Option String)
    (fields : List (String × Option String)) :
    flatObject (field :: fields) =
      '\x7b' :: (member field ++ (fields.flatMap (fun x => ',' :: member x) ++ ['\x7d'])) := by
  unfold flatObject object
  rw [List.map_map]
  show '\x7b' :: (separated ((field :: fields).map member) ++ ['\x7d']) = _
  rw [separated_map, List.append_assoc]

theorem flatObject_readOff : ReadOff flatObject := by
  have htail : ReadOff fun fields : List (String × Option String) =>
      fields.flatMap (fun x => ',' :: member x) ++ ['\x7d'] :=
    (member_readOff.cons ',').stopped fun x => ⟨',', member x, rfl, by decide⟩
  intro a b r s h
  cases a with
  | nil =>
      cases b with
      | nil => exact ⟨rfl, List.append_cancel_left h⟩
      | cons field fields =>
          rw [flatObject_cons] at h
          exact absurd (List.cons.inj (List.cons.inj h).2).1 (by decide)
  | cons field fields =>
      rw [flatObject_cons] at h
      cases b with
      | nil => exact absurd (List.cons.inj (List.cons.inj h).2).1 (by decide)
      | cons field' fields' =>
          rw [flatObject_cons] at h
          obtain ⟨heq, hrest⟩ := (member_readOff.pair htail) (a := (field, fields))
            (b := (field', fields')) (List.cons.inj h).2
          cases heq
          exact ⟨rfl, hrest⟩

end JsonText
