/-
# `TradePlatform.Lib.Strptime` — a compact timestamp, written and read back

The format `%Y%m%dT%H%MZ`.  Writing gives each field its width.  Reading follows the pattern
that `strptime` makes of the format: a number may be shorter than its field, the alternatives
of a field are tried in order, and the first reading that gets through the pattern decides,
also when text is left over.  What was written to the minute is read back
(`strptime_strftime`).
-/
import TradePlatform.Lib.IsoText

namespace Strptime

open IsoText IsoText.Stamp

def digit? (ch : Char) : Option ℕ := if ch.isDigit then some (ch.toNat - '0'.toNat) else none

def two (lo hi : ℕ) : List Char → List (ℕ × List Char)
  | a :: b :: rest =>
      match digit? a, digit? b with
      | some m, some n =>
          if lo ≤ 10 * m + n ∧ 10 * m + n ≤ hi then [(10 * m + n, rest)] else []
      | _, _ => []
  | _ => []

def one (lo : ℕ) : List Char → List (ℕ × List Char)
  | a :: rest =>
      match digit? a with
      | some n => if lo ≤ n then [(n, rest)] else []
      | none => []
  | [] => []

/-- A numeric field: the two-digit alternatives of its pattern stand before the one-digit one. -/
def field (lo hi : ℕ) (text : List Char) : List (ℕ × List Char) := two lo hi text ++ one lo text

def literal (ch : Char) : List Char → List (List Char)
  | c :: rest => if c = ch then [rest] else []
  | [] => []

def yearField (text : List Char) : List (ℕ × List Char) :=
  (two 0 99 text).flatMap fun (century, text) =>
    (two 0 99 text).map fun (year, text) => (100 * century + year, text)

def dayField (text : List Char) : List (ℕ × List Char) :=
  field 1 31 text ++ (literal ' ' text).flatMap (one 1)

def readings (text : List Char) : List ((ℕ × ℕ × ℕ × ℕ × ℕ) × List Char) :=
  (yearField text).flatMap fun (year, text) =>
    (field 1 12 text).flatMap fun (month, text) =>
      (dayField text).flatMap fun (day, text) =>
        (literal 'T' text).flatMap fun text =>
          (field 0 23 text).flatMap fun (hour, text) =>
            (field 0 59 text).flatMap fun (minute, text) =>
              (literal 'Z' text).map fun text => ((year, month, day, hour, minute), text)

def clock? (year month day hour minute : ℕ) : Option Stamp :=
  if h : Shown year month day hour minute 0 0 0 then
    some (ofShown year month day hour minute 0 0 0 h)
  else none

/-- `datetime.strptime(text, "%Y%m%dT%H%MZ").replace(tzinfo=UTC)`, where it does not raise. -/
def strptime (text : List Char) : Option Stamp :=
  match (readings text).head? with
  | some ((year, month, day, hour, minute), []) => clock? year month day hour minute
  | _ => none

def strftime (x : Stamp) : List Char :=
  digits 4 x.year ++ (digits 2 x.month ++ (digits 2 x.day ++
    'T' :: (digits 2 x.hour ++ (digits 2 x.minute ++ ['Z']))))

/-! ## Reading what was written -/

theorem head?_flatMap {α β : Type*} {as : List α} {f : α → List β} {a : α} {b : β}
    (ha : as.head? = some a) (hb : (f a).head? = some b) : (as.flatMap f).head? = some b := by
  obtain ⟨rest, rfl⟩ := List.head?_eq_some_iff.mp ha
  obtain ⟨rest', hrest⟩ := List.head?_eq_some_iff.mp hb
  rw [List.flatMap_cons, hrest]
  rfl

theorem digit?_digitChar {n : ℕ} (h : n < 10) : digit? (Nat.digitChar n) = some n := by
  interval_cases n <;> decide

theorem two_digits {lo hi n : ℕ} (hn : n < 10 ^ 2) (hlo : lo ≤ n) (hhi : n ≤ hi)
    (rest : List Char) : two lo hi (digits 2 n ++ rest) = [(n, rest)] := by
  have htens : n / 10 < 10 := by omega
  have hones : n % 10 < 10 := Nat.mod_lt _ (by norm_num)
  have hvalue : 10 * (n / 10) + n % 10 = n := Nat.div_add_mod n 10
  have htext : digits 2 n ++ rest =
      Nat.digitChar (n / 10) :: Nat.digitChar (n % 10) :: rest := by simp [digits]
  rw [htext]
  simp only [two, digit?_digitChar htens, digit?_digitChar hones, hvalue]
  rw [if_pos ⟨hlo, hhi⟩]

theorem field_digits {lo hi n : ℕ} (hn : n < 10 ^ 2) (hlo : lo ≤ n) (hhi : n ≤ hi)
    (rest : List Char) : (field lo hi (digits 2 n ++ rest)).head? = some (n, rest) := by
  rw [field, two_digits hn hlo hhi]
  rfl

theorem yearField_digits {n : ℕ} (hn : n < 10 ^ 4) (rest : List Char) :
    (yearField (digits 4 n ++ rest)).head? = some (n, rest) := by
  have htext : digits 4 n ++ rest = digits 2 (n / 100) ++ (digits 2 (n % 100) ++ rest) := by
    have h1 : n / 100 / 10 = n / 1000 := Nat.div_div_eq_div_mul n 100 10
    have h2 : n / 100 % 10 = n % 1000 / 100 := by omega
    have h3 : n % 1000 % 100 = n % 100 := Nat.mod_mod_of_dvd n (by norm_num)
    simp [digits, h1, h2, h3]
  have hcentury : n / 100 < 10 ^ 2 := by omega
  have hyear : n % 100 < 10 ^ 2 := Nat.mod_lt _ (by norm_num)
  rw [htext, yearField, two_digits hcentury (Nat.zero_le _) (by omega)]
  simp only [List.flatMap_cons, List.flatMap_nil, List.append_nil]
  rw [two_digits hyear (Nat.zero_le _) (by omega)]
  simp only [List.map_cons, List.map_nil, List.head?_cons, Nat.div_add_mod]

theorem dayField_digits {n : ℕ} (hn : n < 10 ^ 2) (hlo : 1 ≤ n) (hhi : n ≤ 31)
    (rest : List Char) : (dayField (digits 2 n ++ rest)).head? = some (n, rest) := by
  rw [dayField, field, two_digits hn hlo hhi]
  rfl

theorem head?_literal (ch : Char) (rest : List Char) :
    (literal ch (ch :: rest)).head? = some rest := by
  rw [literal, if_pos rfl]
  rfl

theorem readings_strftime (x : Stamp) :
    (readings (strftime x)).head? =
      some ((x.year, x.month, x.day, x.hour, x.minute), []) := by
  have hday : x.day ≤ 31 := by
    have h := x.day_le
    simp only [daysInMonth] at h
    split_ifs at h <;> omega
  have hhour : x.hour ≤ 23 := Nat.lt_succ_iff.mp x.hour_lt
  have hminute : x.minute ≤ 59 := Nat.lt_succ_iff.mp x.minute_lt
  refine head?_flatMap (yearField_digits x.year_lt _) ?_
  refine head?_flatMap (field_digits x.month_lt x.month_pos x.month_le _) ?_
  refine head?_flatMap (dayField_digits x.day_lt x.day_pos hday _) ?_
  refine head?_flatMap (head?_literal 'T' _) ?_
  refine head?_flatMap (field_digits x.hour_lt' (Nat.zero_le _) hhour _) ?_
  exact head?_flatMap (field_digits x.minute_lt' (Nat.zero_le _) hminute _) rfl

theorem clock?_self {x : Stamp} (hsecond : x.second = 0) (hmicro : x.micro = 0)
    (hoffset : x.offset = 0) : clock? x.year x.month x.day x.hour x.minute = some x := by
  have hshown : Shown x.year x.month x.day x.hour x.minute 0 0 0 :=
    ⟨⟨x.year_pos, x.year_lt⟩, ⟨x.month_pos, x.month_le⟩, ⟨x.day_pos, x.day_le⟩, x.hour_lt,
      x.minute_lt, by norm_num, by norm_num, by norm_num⟩
  rw [clock?, dif_pos hshown]
  cases x
  simp only at hsecond hmicro hoffset
  subst hsecond hmicro hoffset
  rfl

theorem strptime_strftime {x : Stamp} (hsecond : x.second = 0) (hmicro : x.micro = 0)
    (hoffset : x.offset = 0) : strptime (strftime x) = some x := by
  simp only [strptime, readings_strftime, clock?_self hsecond hmicro hoffset]

end Strptime
