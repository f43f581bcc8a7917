/-
# `TradePlatform.Lib.UuidText` — the text of a UUID, and numbers read from their digits

`str(UUID)`: the 32 hexadecimal digits of a 128-bit number in groups of 8, 4, 4, 4 and 12, with
dashes between them.  It has 36 characters and tells the number.  Digits of a base are read most
significant first: what `IsoText.digits` writes in decimals and `text` in hexadecimals is read as
the number it was written from.
-/
import TradePlatform.Lib.JsonReadOff
import TradePlatform.Lib.IsoText

namespace UuidText

/-- `n` in `width` hexadecimal digits, the most significant first. -/
def hexDigits : ℕ → ℕ → List Char
  | 0, _ => []
  | width + 1, n => JsonText.hexDigit (n / 16 ^ width) :: hexDigits width n

theorem length_hexDigits (width n : ℕ) : (hexDigits width n).length = width := by
  induction width with
  | zero => rfl
  | succ width ih => rw [hexDigits, List.length_cons, ih]

theorem hexDigits_inj {width n m : ℕ} (h : hexDigits width n = hexDigits width m) :
    n % 16 ^ width = m % 16 ^ width := by
  induction width with
  | zero => rw [pow_zero, Nat.mod_one, Nat.mod_one]
  | succ width ih =>
      obtain ⟨hdigit, hrest⟩ := List.cons.inj h
      rw [Nat.mod_pow_succ, Nat.mod_pow_succ, ih hrest, JsonText.hexDigit_inj hdigit]

theorem mem_hexDigits {width n : ℕ} {c : Char} (h : c ∈ hexDigits width n) :
    ∃ i < 16, c = Nat.digitChar i := by
  induction width with
  | zero => cases h
  | succ width ih =>
      rcases List.mem_cons.mp h with rfl | h
      · exact ⟨_, Nat.mod_lt _ (by decide), rfl⟩
      · exact ih h

def dashed (digits : List Char) : List Char :=
  digits.take 8 ++ '-' :: ((digits.drop 8).take 4 ++ '-' :: ((digits.drop 12).take 4 ++
    '-' :: ((digits.drop 16).take 4 ++ '-' :: digits.drop 20)))

def text (id : ℕ) : List Char := dashed (hexDigits 32 id)

theorem length_dashed {digits : List Char} (h : digits.length = 32) :
    (dashed digits).length = 36 := by
  simp [dashed, h]

theorem length_text (id : ℕ) : (text id).length = 36 := length_dashed (length_hexDigits 32 id)

theorem dashed_inj {a b : List Char} (ha : a.length = 32) (hb : b.length = 32)
    (h : dashed a = dashed b) : a = b := by
  unfold dashed at h
  obtain ⟨h₁, h⟩ := List.append_inj h (by simp [ha, hb])
  obtain ⟨h₂, h⟩ := List.append_inj (List.cons.inj h).2 (by simp [ha, hb])
  obtain ⟨h₃, h⟩ := List.append_inj (List.cons.inj h).2 (by simp [ha, hb])
  obtain ⟨h₄, h⟩ := List.append_inj (List.cons.inj h).2 (by simp [ha, hb])
  have h₅ := (List.cons.inj h).2
  have hgroups : ∀ l : List Char, l = l.take 8 ++ ((l.drop 8).take 4 ++ ((l.drop 12).take 4 ++
      ((l.drop 16).take 4 ++ l.drop 20))) := by
    intro l
    have hjoin : ∀ i, (l.drop i).take 4 ++ l.drop (i + 4) = l.drop i := by
      intro i
      rw [← List.drop_drop, List.take_append_drop]
    rw [hjoin 16, hjoin 12, hjoin 8, List.take_append_drop]
  rw [hgroups a, hgroups b, h₁, h₂, h₃, h₄, h₅]

theorem text_inj {a b : ℕ} (ha : a < 2 ^ 128) (hb : b < 2 ^ 128) (h : text a = text b) : a = b := by
  have hdigits := hexDigits_inj
    (dashed_inj (length_hexDigits 32 a) (length_hexDigits 32 b) h)
  have hpow : (16 : ℕ) ^ 32 = 2 ^ 128 := by norm_num
  rwa [hpow, Nat.mod_eq_of_lt ha, Nat.mod_eq_of_lt hb] at hdigits

theorem mem_text {id : ℕ} {c : Char} (h : c ∈ text id) :
    c = '-' ∨ ∃ i < 16, c = Nat.digitChar i := by
  have hdigits : ∀ {l : List Char}, l ⊆ hexDigits 32 id → c ∈ l → ∃ i < 16, c = Nat.digitChar i :=
    fun hsub hc => mem_hexDigits (hsub hc)
  simp only [text, dashed, List.mem_append, List.mem_cons] at h
  rcases h with h | rfl | h | rfl | h | rfl | h | rfl | h
  · exact .inr (hdigits (List.take_subset _ _) h)
  · exact .inl rfl
  · exact .inr (hdigits (fun _ hc => List.drop_subset _ _ (List.take_subset _ _ hc)) h)
  · exact .inl rfl
  · exact .inr (hdigits (fun _ hc => List.drop_subset _ _ (List.take_subset _ _ hc)) h)
  · exact .inl rfl
  · exact .inr (hdigits (fun _ hc => List.drop_subset _ _ (List.take_subset _ _ hc)) h)
  · exact .inl rfl
  · exact .inr (hdigits (List.drop_subset _ _) h)

end UuidText

namespace DigitReading

def digitOf? (c : Char) : Option ℕ :=
  if '0' ≤ c ∧ c ≤ '9' then some (c.toNat - 48)
  else if 'a' ≤ c ∧ c ≤ 'f' then some (c.toNat - 87)
  else if 'A' ≤ c ∧ c ≤ 'F' then some (c.toNat - 55)
  else none

def more? (base n : ℕ) (c : Char) : Option ℕ :=
  (digitOf? c).bind fun digit => if digit < base then some (base * n + digit) else none

def number? (base : ℕ) (text : List Char) : Option ℕ := text.foldlM (more? base) 0

variable {base digit : ℕ}

theorem digitOf?_digitChar (h : digit < 16) : digitOf? (Nat.digitChar digit) = some digit := by
  interval_cases digit <;> decide

theorem more?_digitChar (hbase : digit < base) (h : digit < 16) (n : ℕ) :
    more? base n (Nat.digitChar digit) = some (base * n + digit) := by
  rw [more?, digitOf?_digitChar h, Option.bind_some, if_pos hbase]

theorem foldlM_digits {width n : ℕ} (h : n < 10 ^ width) (start : ℕ) :
    (IsoText.digits width n).foldlM (more? 10) start = some (start * 10 ^ width + n) := by
  induction width generalizing n start with
  | zero =>
      obtain rfl : n = 0 := by simpa using h
      simp [IsoText.digits]
  | succ width ih =>
      have hdigit := IsoText.div_pow_lt_ten h
      rw [IsoText.digits, List.foldlM_cons, more?_digitChar hdigit (by omega), Option.bind_eq_bind,
        Option.bind_some, ih IsoText.mod_pow_lt]
      congr 1
      have hsplit := Nat.div_add_mod n (10 ^ width)
      rw [add_mul, pow_succ]
      linarith

theorem number?_digits {width n : ℕ} (h : n < 10 ^ width) :
    number? 10 (IsoText.digits width n) = some n := by
  rw [number?, foldlM_digits h, zero_mul, zero_add]

theorem foldlM_hexDigits (width n start : ℕ) :
    (UuidText.hexDigits width n).foldlM (more? 16) start =
      some (start * 16 ^ width + n % 16 ^ width) := by
  induction width generalizing start with
  | zero => simp [UuidText.hexDigits, Nat.mod_one]
  | succ width ih =>
      have hdigit : n / 16 ^ width % 16 < 16 := Nat.mod_lt _ (by decide)
      rw [UuidText.hexDigits, List.foldlM_cons, JsonText.hexDigit, more?_digitChar hdigit hdigit,
        Option.bind_eq_bind, Option.bind_some, ih, Nat.mod_pow_succ]
      congr 1
      ring

theorem more?_lt {n m : ℕ} {c : Char} (h : more? base n c = some m) : m < base * (n + 1) := by
  rw [more?, Option.bind_eq_some_iff] at h
  obtain ⟨digit, -, h⟩ := h
  split at h
  · rename_i hdigit
    cases h
    rw [Nat.mul_add, mul_one]
    exact Nat.add_lt_add_left hdigit _
  · cases h

theorem foldlM_lt {text : List Char} {start n : ℕ} (h : text.foldlM (more? base) start = some n) :
    n < base ^ text.length * (start + 1) := by
  induction text generalizing start with
  | nil =>
      cases h
      simp
  | cons c text ih =>
      rw [List.foldlM_cons, Option.bind_eq_bind, Option.bind_eq_some_iff] at h
      obtain ⟨m, hmore, h⟩ := h
      have hm := more?_lt hmore
      calc n < base ^ text.length * (m + 1) := ih h
        _ ≤ base ^ text.length * (base * (start + 1)) := Nat.mul_le_mul_left _ hm
        _ = base ^ (c :: text).length * (start + 1) := by rw [List.length_cons, pow_succ]; ring

theorem number?_lt {text : List Char} {n : ℕ} (h : number? base text = some n) :
    n < base ^ text.length := by
  simpa using foldlM_lt h

end DigitReading

namespace UuidText

open DigitReading

/-- `UUID(text).int`, where it does not raise: 32 hexadecimal digits, with dashes anywhere.  (Braces
and a `urn:uuid:` in front, which it would take off, do not stand in the texts read here.) -/
def read? (text : List Char) : Option ℕ :=
  let hex := text.filter (· ≠ '-')
  if hex.length = 32 then number? 16 hex else none

theorem dash_not_mem_hexDigits (width n : ℕ) : '-' ∉ hexDigits width n := by
  intro h
  obtain ⟨i, hi, heq⟩ := mem_hexDigits h
  interval_cases i <;> exact absurd heq (by decide)

theorem filter_dashed {hex : List Char} (h : '-' ∉ hex) : (dashed hex).filter (· ≠ '-') = hex := by
  have hkeep : ∀ l : List Char, l ⊆ hex → l.filter (· ≠ '-') = l := by
    intro l hl
    rw [List.filter_eq_self]
    intro c hc
    simpa using fun heq : c = '-' => h (heq ▸ hl hc)
  have hdash : ∀ l : List Char, ('-' :: l).filter (· ≠ '-') = l.filter (· ≠ '-') := fun l => rfl
  have hjoin : ∀ i, (hex.drop i).take 4 ++ hex.drop (i + 4) = hex.drop i := by
    intro i
    rw [← List.drop_drop, List.take_append_drop]
  have htake : ∀ i, (hex.drop i).take 4 ⊆ hex :=
    fun i _ hc => List.drop_subset _ _ (List.take_subset _ _ hc)
  rw [dashed, List.filter_append, hdash, List.filter_append, hdash, List.filter_append, hdash,
    List.filter_append, hdash, hkeep _ (List.take_subset _ _), hkeep _ (htake 8),
    hkeep _ (htake 12), hkeep _ (htake 16), hkeep _ (List.drop_subset _ _), hjoin 16, hjoin 12,
    hjoin 8, List.take_append_drop]

theorem read?_text {id : ℕ} (h : id < 2 ^ 128) : read? (text id) = some id := by
  have hpow : (16 : ℕ) ^ 32 = 2 ^ 128 := by norm_num
  have hread : number? 16 (hexDigits 32 id) = some id := by
    rw [number?, foldlM_hexDigits, zero_mul, zero_add, hpow, Nat.mod_eq_of_lt h]
  simp only [read?, text, filter_dashed (dash_not_mem_hexDigits 32 id), length_hexDigits,
    if_true, hread]

theorem read?_lt {value : List Char} {id : ℕ} (h : read? value = some id) : id < 2 ^ 128 := by
  simp only [read?] at h
  split at h
  · rename_i hlength
    have hlt := number?_lt h
    rw [hlength] at hlt
    exact hlt.trans_eq (by norm_num)
  · cases h

end UuidText
