/-
# `TradePlatform.Lib.LineLog` — an append-only log of lines, torn and continued

A log holds one JSON object a line.  An append first closes off a line that the file does not
end with, and may itself be cut off after any of its bytes; a reader takes the lines that are
objects and skips the others.  Whatever the file holds, an append adds its object to what is
read if its text is complete, and nothing otherwise: the torn part of a line is no object and
never runs into the next one.
-/
import TradePlatform.Lib.JsonLines

namespace LineLog

open JsonLines

def isLineBreak (c : Char) : Bool :=
  c ∈ ['\n', '\r', '\x0b', '\x0c', '\x1c', '\x1d', '\x1e', '\u0085', '\u2028', '\u2029']

/-- `text.splitlines()`, with an empty line after a last break and between `\r` and `\n`. -/
def splitLines (text : Text) : List Text := text.splitOnP isLineBreak

variable {α : Type} (coding : Coding α)

/-- The objects of a coding stand on one line, and no proper part of one from the front is one. -/
structure Closed : Prop where
  plain : ∀ a, ∀ c ∈ coding.dumps a, isLineBreak c = false
  torn : ∀ a n, n < (coding.dumps a).length → (coding.loads ((coding.dumps a).take n)).toOption = none

def decoded (text : Text) : List α :=
  (splitLines text).filterMap fun line => (coding.loads line).toOption

/-- What an append writes: the line, after a newline where the file does not end with one. -/
def addition (text : Text) (a : α) : Text :=
  let line := coding.dumps a ++ ['\n']
  if text ≠ [] ∧ text.getLast? ≠ some '\n' then '\n' :: line else line

def append (text : Text) (a : α) : Text := text ++ addition coding text a

def cutAppend (text : Text) (a : α) (left : ℕ) : Text :=
  text ++ (addition coding text a).take ((addition coding text a).length - left)

def Whole (left : ℕ) : Prop := left ≤ 1

instance : DecidablePred Whole := fun left => inferInstanceAs (Decidable (left ≤ 1))

variable {coding} {text : Text} {a : α}

theorem isLineBreak_newline : isLineBreak '\n' = true := by decide

theorem decoded_newline (text rest : Text) :
    decoded coding (text ++ '\n' :: rest) = decoded coding text ++ decoded coding rest := by
  unfold decoded splitLines
  rw [List.splitOnP_append_cons text rest isLineBreak_newline, List.filterMap_append]

theorem decoded_line {line : Text} (h : ∀ c ∈ line, isLineBreak c = false) :
    decoded coding line = ((coding.loads line).toOption).toList := by
  unfold decoded splitLines
  rw [List.splitOnP_eq_singleton h]
  rw [List.filterMap_cons, List.filterMap_nil]
  cases (coding.loads line).toOption with
  | none => rfl
  | some a => rfl

theorem Closed.decoded_nil (h : Closed coding) (a : α) : decoded coding [] = [] := by
  have hpos : 0 < (coding.dumps a).length :=
    List.length_pos_of_ne_nil (coding.braced a).ne_nil
  have hnone := h.torn a 0 hpos
  rw [List.take_zero] at hnone
  rw [decoded_line (by simp), hnone]
  rfl

theorem Closed.decoded_append (h : Closed coding) (a : α) {text : Text}
    (hend : ¬ (text ≠ [] ∧ text.getLast? ≠ some '\n')) (rest : Text) :
    decoded coding (text ++ rest) = decoded coding text ++ decoded coding rest := by
  rcases List.eq_nil_or_concat text with rfl | ⟨front, last, rfl⟩
  · rw [List.nil_append, h.decoded_nil a, List.nil_append]
  · rw [List.concat_eq_append] at hend ⊢
    have hlast : last = '\n' := by simpa using hend
    subst hlast
    rw [List.append_assoc, List.singleton_append, decoded_newline, decoded_newline,
      h.decoded_nil a, List.append_nil]

theorem Closed.decoded_take (h : Closed coding) (a : α) (n : ℕ) :
    decoded coding ((coding.dumps a ++ ['\n']).take n) =
      if (coding.dumps a).length ≤ n then [a] else [] := by
  split
  · rename_i hle
    have hdumps : decoded coding (coding.dumps a) = [a] := by
      rw [decoded_line (h.plain a), coding.loads_dumps]
      rfl
    rcases hle.eq_or_lt with rfl | hlt
    · rw [List.take_left, hdumps]
    · have hlength : (coding.dumps a ++ ['\n']).length ≤ n := by
        rw [List.length_append, List.length_singleton]
        exact hlt
      rw [List.take_of_length_le hlength, decoded_newline, h.decoded_nil a, List.append_nil, hdumps]
  · rename_i hlt
    have hlt := not_le.mp hlt
    have hplain : ∀ c ∈ (coding.dumps a).take n, isLineBreak c = false := by
      intro c hc
      exact h.plain a c (List.mem_of_mem_take hc)
    rw [List.take_append_of_le_length hlt.le, decoded_line hplain, h.torn a n hlt]
    rfl

theorem Closed.decoded_cutAppend (h : Closed coding) (text : Text) (a : α) (left : ℕ) :
    decoded coding (cutAppend coding text a left) =
      decoded coding text ++ if Whole left then [a] else [] := by
  have hpos : 0 < (coding.dumps a).length :=
    List.length_pos_of_ne_nil (coding.braced a).ne_nil
  have hlength : (coding.dumps a ++ ['\n']).length = (coding.dumps a).length + 1 := by simp
  unfold cutAppend addition
  dsimp only
  split
  · -- a line of the file is closed off first
    rw [List.length_cons, hlength]
    rcases Nat.lt_or_ge left ((coding.dumps a).length + 2) with hlt | hge
    · obtain ⟨n, hn⟩ : ∃ n, (coding.dumps a).length + 1 + 1 - left = n + 1 :=
        ⟨(coding.dumps a).length + 1 - left, by omega⟩
      rw [hn, List.take_succ_cons, decoded_newline, h.decoded_take a n]
      congr 1
      exact if_congr (by unfold Whole; omega) rfl rfl
    · rw [show (coding.dumps a).length + 1 + 1 - left = 0 by omega, List.take_zero,
        List.append_nil, if_neg (by unfold Whole; omega), List.append_nil]
  · rename_i hend
    rw [h.decoded_append a hend, hlength, h.decoded_take a]
    congr 1
    exact if_congr (by unfold Whole; omega) rfl rfl

theorem Closed.decoded_snoc (h : Closed coding) (text : Text) (a : α) :
    decoded coding (append coding text a) = decoded coding text ++ [a] := by
  have hcut : append coding text a = cutAppend coding text a 0 := by
    unfold append cutAppend
    rw [Nat.sub_zero, List.take_length]
  rw [hcut, h.decoded_cutAppend, if_pos (by unfold Whole; omega)]

/-! ## Strokes -/

theorem take_stroked {n m : ℕ} (h : m < (Coding.stroked n).length) :
    (Coding.stroked n).take m = ('{' :: List.replicate n '1').take m := by
  have hsplit : Coding.stroked n = ('{' :: List.replicate n '1') ++ ['}'] := rfl
  have hle : m ≤ ('{' :: List.replicate n '1').length := by
    rw [hsplit, List.length_append, List.length_singleton] at h
    exact Nat.lt_succ_iff.mp h
  rw [hsplit, List.take_append_of_le_length hle]

/-- The coding of any countable type by strokes is closed: the front of an object has no brace
at its end. -/
theorem strokes_closed [Encodable α] : Closed (Coding.strokes : Coding α) := by
  refine ⟨fun a c hc => ?_, fun a m hm => ?_⟩
  · have hchar : c = '{' ∨ c = '1' ∨ c = '}' := by
      rcases List.mem_cons.mp hc with rfl | hc
      · exact .inl rfl
      · rcases List.mem_append.mp hc with hc | hc
        · exact .inr (.inl (List.eq_of_mem_replicate hc))
        · exact .inr (.inr (List.mem_singleton.mp hc))
    rcases hchar with rfl | rfl | rfl
    · decide
    · decide
    · decide
  · have htake : (Coding.strokes.dumps a).take m =
        ('{' :: List.replicate (Encodable.encode a) '1').take m := take_stroked hm
    have hbrace : '}' ∉ (Coding.strokes.dumps a).take m := by
      rw [htake]
      intro hmem
      rcases List.mem_cons.mp (List.mem_of_mem_take hmem) with hmem | hmem
      · exact absurd hmem (by decide)
      · exact absurd (List.eq_of_mem_replicate hmem) (by decide)
    have hne : ∀ k, ((Coding.strokes.dumps a).take m).rdropWhile (· == '\n') ≠
        Coding.stroked k := by
      intro k heq
      refine hbrace ((List.rdropWhile_prefix (· == '\n') _).subset ?_)
      rw [heq]
      exact List.mem_cons_of_mem _ (List.mem_append_right _ List.mem_cons_self)
    show (if _ then _ else _ : Except DecodeError α).toOption = none
    rw [if_neg (hne _)]
    rfl

end LineLog
