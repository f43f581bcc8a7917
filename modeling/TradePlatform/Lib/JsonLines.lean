/-
# `TradePlatform.Lib.JsonLines` — objects written one to a line

Texts as lists of characters, the lines of an append-only file, and the codings of a type
by JSON objects: an object is braced, stands on one line and reads back as it was written.
-/
import Mathlib

namespace JsonLines

abbrev Text := List Char

/-! ## Lines -/

/-- `for line in handle`, with an empty line after a last newline. -/
def lines (text : Text) : List Text := text.splitOn '\n'

/-- The text of `handle.write(line + "\n")`, line after line. -/
def unlines (ls : List Text) : Text := ls.flatMap (· ++ ['\n'])

@[simp] theorem unlines_nil : unlines [] = [] := rfl

theorem unlines_append (ls ls' : List Text) : unlines (ls ++ ls') = unlines ls ++ unlines ls' :=
  List.flatMap_append ..

theorem unlines_snoc (ls : List Text) (line : Text) :
    unlines (ls ++ [line]) = unlines ls ++ line ++ ['\n'] := by
  rw [unlines_append]
  simp [unlines]

theorem lines_unlines_append {ls : List Text} (h : ∀ line ∈ ls, '\n' ∉ line) (rest : Text) :
    lines (unlines ls ++ rest) = ls ++ lines rest := by
  induction ls with
  | nil => rfl
  | cons line ls ih =>
      have hline : '\n' ∉ line := h line List.mem_cons_self
      have htail : ∀ l ∈ ls, '\n' ∉ l := fun l hl => h l (List.mem_cons_of_mem _ hl)
      calc lines (unlines (line :: ls) ++ rest)
          = lines (line ++ '\n' :: (unlines ls ++ rest)) := by simp [unlines]
        _ = line :: lines (unlines ls ++ rest) :=
            List.splitOn_append_cons_self_of_not_mem hline _
        _ = line :: ls ++ lines rest := by rw [ih htail, List.cons_append]

theorem lines_unlines {ls : List Text} (h : ∀ line ∈ ls, '\n' ∉ line) :
    lines (unlines ls) = ls ++ [[]] := by
  have := lines_unlines_append h []
  rwa [List.append_nil] at this

def strip (blank : Char → Bool) (text : Text) : Text := (text.dropWhile blank).rdropWhile blank

@[simp] theorem strip_nil (blank : Char → Bool) : strip blank [] = [] := rfl

def Braced (text : Text) : Prop := ∃ inner, text = '{' :: (inner ++ ['}']) ∧ '\n' ∉ inner

theorem Braced.newline {text : Text} (h : Braced text) : '\n' ∉ text := by
  obtain ⟨inner, rfl, hinner⟩ := h
  simp [hinner]

theorem Braced.ne_nil {text : Text} (h : Braced text) : text ≠ [] := by
  obtain ⟨inner, rfl, -⟩ := h
  exact List.cons_ne_nil _ _

theorem Braced.strip {text : Text} (h : Braced text) {blank : Char → Bool}
    (hopen : blank '{' = false) (hclose : blank '}' = false) : strip blank text = text := by
  obtain ⟨inner, rfl, -⟩ := h
  have hfront : ('{' :: (inner ++ ['}'])).dropWhile blank = '{' :: inner ++ ['}'] := by
    simp [hopen]
  rw [JsonLines.strip, hfront, List.rdropWhile_concat_neg _ _ _ (by simp [hclose])]
  rfl

/-! ## Codings -/

/-- Why a text is no object of the wanted shape: it is not JSON, a key is missing, or a value
has another type or form. -/
inductive DecodeError where
  | jsonDecodeError | keyError | typeError | valueError
deriving DecidableEq, Repr

/-- The objects that stand for the values of a type: `dumps` writes one, `loads` reads one, and
white space after it does not matter. -/
structure Coding (α : Type) where
  dumps : α → Text
  loads : Text → Except DecodeError α
  braced : ∀ a, Braced (dumps a)
  loads_dumps : ∀ a, loads (dumps a) = .ok a
  loads_newline : ∀ text, loads (text ++ ['\n']) = loads text

namespace Coding

variable {α : Type}

def stroked (n : ℕ) : Text := '{' :: (List.replicate n '1' ++ ['}'])

theorem rdropWhile_stroked (n : ℕ) : (stroked n).rdropWhile (· == '\n') = stroked n := by
  unfold stroked
  rw [← List.cons_append, List.rdropWhile_concat_neg _ _ _ (by simp)]

/-- A coding of any type whose values can be counted: as many strokes as the value's number. -/
def strokes [Encodable α] : Coding α where
  dumps a := stroked (Encodable.encode a)
  loads text :=
    let object := text.rdropWhile (· == '\n')
    if object = stroked (object.length - 2) then
      match Encodable.decode (object.length - 2) with
      | some a => .ok a
      | none => .error .valueError
    else .error .jsonDecodeError
  braced a := ⟨_, rfl, by simp [List.mem_replicate]⟩
  loads_dumps a := by
    have hlength : (stroked (Encodable.encode a)).length - 2 = Encodable.encode a := by
      simp [stroked]
    dsimp only
    rw [rdropWhile_stroked, hlength, if_pos rfl, Encodable.encodek]
  loads_newline text := by
    dsimp only
    rw [List.rdropWhile_concat_pos _ _ _ (by simp)]

end Coding

/-! ## Characters and texts can be counted -/

instance encodableChar : Encodable Char :=
  Encodable.ofLeftInverse Char.toNat Char.ofNat Char.ofNat_toNat

instance encodableString : Encodable String :=
  Encodable.ofLeftInverse String.toList String.ofList fun _ => String.ofList_toList

end JsonLines
