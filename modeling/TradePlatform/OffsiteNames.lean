/-
# `TradePlatform.OffsiteNames` — object names and canonical partition paths

`object_name` and `parse_object_name` of `capture_offsite.py`.  A listing is untrusted; a name is
let through only if it is the name of a partition path that the archive itself lays out: an approved
label, the layout version, and four fields whose values are tokens, a date as `isoformat` writes it
and an id as `str(UUID)` does (`parseObjectName_eq_ok`).
-/
import TradePlatform.OffsiteBackup
import TradePlatform.MarketPayloads
import TradePlatform.Lib.Replay

namespace TradePlatform

namespace Offsite

open JsonText (Text)
open MarketPayloads (Date)
open DigitReading IsoText

/-! ## Reading a date -/

/-- `year`, `month` and `day` of a date, where the calendar has it. -/
def dateOf? (year month day : ℕ) : Option Date :=
  if h : (1 ≤ year ∧ year < 10 ^ 4) ∧ (1 ≤ month ∧ month ≤ 12) ∧
      1 ≤ day ∧ day ≤ daysInMonth year month then
    some ⟨year, month, day, h.1.1, h.1.2, h.2.1.1, h.2.1.2, h.2.2.1, h.2.2.2⟩
  else none

/-- `date.fromisoformat`, of the extended form.  The basic and the week forms, which it takes as
well, are never what `isoformat` writes; the comparison that follows refuses them. -/
def fromisoformat : Text → Option Date
  | [y₃, y₂, y₁, y₀, '-', m₁, m₀, '-', d₁, d₀] =>
      (number? 10 [y₃, y₂, y₁, y₀]).bind fun year =>
        (number? 10 [m₁, m₀]).bind fun month =>
          (number? 10 [d₁, d₀]).bind fun day => dateOf? year month day
  | _ => none

theorem dateOf?_self (day : Date) : dateOf? day.year day.month day.day = some day :=
  dif_pos ⟨⟨day.year_pos, day.year_lt⟩, ⟨day.month_pos, day.month_le⟩, day.day_pos, day.day_le⟩

theorem daysInMonth_le (year month : ℕ) : daysInMonth year month ≤ 31 := by
  unfold daysInMonth
  split_ifs <;> omega

theorem fromisoformat_isoformat (day : Date) : fromisoformat day.isoformat = some day := by
  have hyear : number? 10 (digits 4 day.year) = some day.year := number?_digits day.year_lt
  have hmonth : number? 10 (digits 2 day.month) = some day.month :=
    number?_digits (by have := day.month_le; omega)
  have hday : number? 10 (digits 2 day.day) = some day.day :=
    number?_digits (by have := day.day_le; have := daysInMonth_le day.year day.month; omega)
  simp only [digits] at hyear hmonth hday
  simp only [Date.isoformat, digits, List.cons_append, List.nil_append, fromisoformat, hyear,
    hmonth, hday, Option.bind_some, dateOf?_self]

/-! ## The layout -/

def archiveLayoutVersion : Text := "v1".toList

def layoutKeys : List Text := ["exchange", "instrument", "date", "session"].map String.toList

def tokenChar (c : Char) : Bool := c.isAlphanum || c = '.' || c = '_' || c = '-'

def LayoutToken : Text → Prop
  | [] => False
  | c :: rest => c.isAlphanum ∧ rest.length ≤ 127 ∧ ∀ d ∈ rest, tokenChar d

instance : DecidablePred LayoutToken
  | [] => inferInstanceAs (Decidable False)
  | _ :: _ => inferInstanceAs (Decidable (_ ∧ _ ∧ _))

structure Layout where
  exchange : Text
  instrument : Text
  day : Date
  session : ℕ
  exchange_token : LayoutToken exchange
  instrument_token : LayoutToken instrument
  session_lt : session < 2 ^ 128

namespace Layout

variable (place : Layout)

def values : List Text :=
  [place.exchange, place.instrument, place.day.isoformat, UuidText.text place.session]

def parts : List Text :=
  archiveLayoutVersion :: List.zipWith (fun key value => key ++ '=' :: value) layoutKeys place.values

def relative : String := String.ofList (List.intercalate ['/'] place.parts)

end Layout

/-! ## Names -/

def notCanonical : Exn := .offsiteError "object_name_is_not_a_canonical_partition_path"

def layoutValue (key part : Text) : Except Exn Text :=
  if TextPartition.upTo '=' part ≠ key ∨ '=' ∉ part ∨ ¬ LayoutToken (TextPartition.past '=' part)
  then .error notCanonical
  else .ok (TextPartition.past '=' part)

def layoutValues (parts : List Text) : Except Exn (List Text) :=
  (layoutKeys.zip parts).mapM fun item => layoutValue item.1 item.2

def CanonicalValues (values : List Text) : Prop :=
  (fromisoformat (values.getD 2 [])).map Date.isoformat = some (values.getD 2 []) ∧
    (UuidText.read? (values.getD 3 [])).map UuidText.text = some (values.getD 3 [])

instance (values : List Text) : Decidable (CanonicalValues values) :=
  inferInstanceAs (Decidable (_ ∧ _))

def checkRelative (relative : Text) : Except Exn Unit := do
  let parts := relative.splitOn '/'
  if parts.length ≠ 1 + layoutKeys.length ∨ parts.head? ≠ some archiveLayoutVersion then
    .error notCanonical
  else
    let values ← layoutValues parts.tail
    if CanonicalValues values then .ok () else .error notCanonical

def tarSuffix : Text := ".tar".toList

def parseObjectName (name : String) : Except Exn (String × String) := do
  let label := TextPartition.upTo '/' name.toList
  let rest := TextPartition.past '/' name.toList
  if String.ofList label ∉ approvedRootLabelsV1 then
    .error (.offsiteError "object_label_is_not_approved")
  else if ¬ tarSuffix <:+ rest then
    .error (.offsiteError "object_name_is_not_a_partition_tar")
  else
    let relative := rest.take (rest.length - tarSuffix.length)
    checkRelative relative
    .ok (String.ofList label, String.ofList relative)

/-! ## What is a token -/

theorem LayoutToken.chars {value : Text} (h : LayoutToken value) : ∀ c ∈ value, tokenChar c := by
  cases value with
  | nil => exact h.elim
  | cons c rest =>
      intro d hd
      rcases List.mem_cons.mp hd with rfl | hd
      · simp [tokenChar, h.1]
      · exact h.2.2 d hd

theorem LayoutToken.not_mem {value : Text} (h : LayoutToken value) {sep : Char}
    (hsep : tokenChar sep = false) : sep ∉ value := by
  intro hmem
  rw [h.chars sep hmem] at hsep
  cases hsep

theorem tokenChar_digitChar {digit : ℕ} (h : digit < 16) :
    (Nat.digitChar digit).isAlphanum = true := by
  interval_cases digit <;> decide

theorem mem_digits {width n : ℕ} (h : n < 10 ^ width) {c : Char} (hc : c ∈ digits width n) :
    c.isAlphanum = true := by
  induction width generalizing n with
  | zero => cases hc
  | succ width ih =>
      rcases List.mem_cons.mp hc with rfl | hc
      · exact tokenChar_digitChar ((div_pow_lt_ten h).trans (by decide))
      · exact ih mod_pow_lt hc

theorem layoutToken_of_chars {c : Char} {rest : Text} (hc : c.isAlphanum = true)
    (hlength : rest.length ≤ 127) (h : ∀ d ∈ rest, d = '-' ∨ d.isAlphanum = true) :
    LayoutToken (c :: rest) := by
  refine ⟨hc, hlength, fun d hd => ?_⟩
  rcases h d hd with rfl | hd
  · decide
  · simp [tokenChar, hd]

theorem layoutToken_isoformat (day : Date) : LayoutToken day.isoformat := by
  have hmonth : day.month < 10 ^ 2 := by have := day.month_le; omega
  have hday : day.day < 10 ^ 2 := by
    have := day.day_le
    have := daysInMonth_le day.year day.month
    omega
  have hchars : ∀ c ∈ day.isoformat, c = '-' ∨ c.isAlphanum = true := by
    intro c hc
    simp only [Date.isoformat, List.mem_append, List.mem_cons] at hc
    rcases hc with hc | rfl | hc | rfl | hc
    · exact .inr (mem_digits day.year_lt hc)
    · exact .inl rfl
    · exact .inr (mem_digits hmonth hc)
    · exact .inl rfl
    · exact .inr (mem_digits hday hc)
  have hfirst : day.year / 10 ^ 3 < 10 := div_pow_lt_ten day.year_lt
  simp only [Date.isoformat, digits, List.cons_append] at hchars ⊢
  exact layoutToken_of_chars (tokenChar_digitChar (hfirst.trans (by decide))) (by simp)
    fun d hd => hchars d (List.mem_cons_of_mem _ hd)

theorem layoutToken_uuid (id : ℕ) : LayoutToken (UuidText.text id) := by
  have hchars : ∀ c ∈ UuidText.text id, c = '-' ∨ c.isAlphanum = true := by
    intro c hc
    rcases UuidText.mem_text hc with rfl | ⟨digit, hdigit, rfl⟩
    · exact .inl rfl
    · exact .inr (tokenChar_digitChar hdigit)
  have hlength := UuidText.length_text id
  have hhead : (UuidText.text id).head? =
      some (JsonText.hexDigit (id / 16 ^ 31)) := rfl
  cases htext : UuidText.text id with
  | nil => simp [htext] at hlength
  | cons c rest =>
      rw [htext] at hchars hlength hhead
      rw [List.length_cons] at hlength
      cases hhead
      exact layoutToken_of_chars (tokenChar_digitChar (Nat.mod_lt _ (by decide))) (by omega)
        fun d hd => hchars d (List.mem_cons_of_mem _ hd)

/-! ## What a name is read as -/

theorem layoutValue_eq_ok {key part value : Text} (hkey : '=' ∉ key) :
    layoutValue key part = .ok value ↔ part = key ++ '=' :: value ∧ LayoutToken value := by
  constructor
  · intro h
    obtain ⟨hchecks, h⟩ := Except.of_ite_error h
    cases h
    simp only [not_or, not_not] at hchecks
    obtain ⟨hupTo, hmem, htoken⟩ := hchecks
    refine ⟨?_, htoken⟩
    rw [← hupTo]
    exact TextPartition.eq_upTo_past hmem
  · rintro ⟨rfl, htoken⟩
    rw [layoutValue, TextPartition.upTo_append hkey, TextPartition.past_append hkey,
      if_neg (by simp [htoken])]

theorem layoutKeys_plain : ∀ key ∈ layoutKeys, '=' ∉ key ∧ '/' ∉ key := by decide

namespace Layout

variable (place : Layout)

theorem values_token : ∀ value ∈ place.values, LayoutToken value := by
  simp only [values, List.forall_mem_cons]
  exact ⟨place.exchange_token, place.instrument_token, layoutToken_isoformat _,
    layoutToken_uuid _, fun _ h => by cases h⟩

theorem layoutValues_parts : layoutValues place.parts.tail = .ok place.values := by
  have hvalues := place.values_token
  have hkeys := layoutKeys_plain
  rw [layoutValues, Except.mapM_iff_forall₂]
  simp only [layoutKeys, values, List.map_cons, List.map_nil, List.forall_mem_cons] at hkeys hvalues
  simp only [parts, values, layoutKeys, List.map_cons, List.map_nil, List.zipWith_cons_cons,
    List.tail_cons, List.zip_cons_cons, List.zipWith_nil_left, List.zip_nil_left]
  refine .cons ?_ (.cons ?_ (.cons ?_ (.cons ?_ .nil)))
  · exact (layoutValue_eq_ok hkeys.1.1).mpr ⟨rfl, hvalues.1⟩
  · exact (layoutValue_eq_ok hkeys.2.1.1).mpr ⟨rfl, hvalues.2.1⟩
  · exact (layoutValue_eq_ok hkeys.2.2.1.1).mpr ⟨rfl, hvalues.2.2.1⟩
  · exact (layoutValue_eq_ok hkeys.2.2.2.1.1).mpr ⟨rfl, hvalues.2.2.2.1⟩

theorem canonicalValues : CanonicalValues place.values := by
  refine ⟨?_, ?_⟩
  · simp [values, fromisoformat_isoformat]
  · simp [values, UuidText.read?_text place.session_lt]

theorem slash_not_mem : ∀ part ∈ place.parts, '/' ∉ part := by
  intro part hpart
  rcases List.mem_cons.mp hpart with rfl | hpart
  · decide
  · rw [List.mem_iff_getElem] at hpart
    obtain ⟨i, hi, rfl⟩ := hpart
    rw [List.getElem_zipWith, List.mem_append, List.mem_cons]
    rintro (h | h | h)
    · exact (layoutKeys_plain _ (List.getElem_mem _)).2 h
    · cases h
    · exact (place.values_token _ (List.getElem_mem _)).not_mem (by decide) h

theorem splitOn_relative : place.relative.toList.splitOn '/' = place.parts := by
  rw [relative, String.toList_ofList]
  exact List.splitOn_intercalate '/' place.slash_not_mem (List.cons_ne_nil _ _)

end Layout

theorem exists_layout {parts : List Text} {values : List Text}
    (hlength : parts.length = 1 + layoutKeys.length)
    (hhead : parts.head? = some archiveLayoutVersion)
    (hvalues : layoutValues parts.tail = .ok values) (hcanonical : CanonicalValues values) :
    ∃ place : Layout, parts = place.parts := by
  obtain _ | ⟨version, parts⟩ := parts
  · cases hhead
  · cases hhead
    obtain _ | ⟨p₁, _ | ⟨p₂, _ | ⟨p₃, _ | ⟨p₄, _ | ⟨p₅, parts⟩⟩⟩⟩⟩ := parts <;>
      simp [layoutKeys] at hlength
    have hkeys := layoutKeys_plain
    rw [layoutValues, Except.mapM_iff_forall₂] at hvalues
    simp only [layoutKeys, List.map_cons, List.map_nil, List.tail_cons, List.zip_cons_cons,
      List.zip_nil_left, List.forall₂_cons_left_iff, List.forall₂_nil_left_iff,
      List.forall_mem_cons] at hvalues hkeys
    obtain ⟨exchange, _, h₁, ⟨instrument, _, h₂, ⟨date, _, h₃, ⟨session, _, h₄, rfl, rfl⟩, rfl⟩,
      rfl⟩, rfl⟩ := hvalues
    obtain ⟨hdate, huuid⟩ := hcanonical
    obtain ⟨day, -, hday⟩ := Option.map_eq_some_iff.mp hdate
    obtain ⟨id, hid, hsession⟩ := Option.map_eq_some_iff.mp huuid
    obtain ⟨rfl, hexchange⟩ := (layoutValue_eq_ok hkeys.1.1).mp h₁
    obtain ⟨rfl, hinstrument⟩ := (layoutValue_eq_ok hkeys.2.1.1).mp h₂
    obtain ⟨rfl, -⟩ := (layoutValue_eq_ok hkeys.2.2.1.1).mp h₃
    obtain ⟨rfl, -⟩ := (layoutValue_eq_ok hkeys.2.2.2.1.1).mp h₄
    have hlt := UuidText.read?_lt hid
    simp only [List.getD_cons_succ, List.getD_cons_zero] at hday hsession
    subst hday hsession
    exact ⟨⟨exchange, instrument, day, id, hexchange, hinstrument, hlt⟩, rfl⟩

theorem checkRelative_eq_ok {relative : Text} :
    checkRelative relative = .ok () ↔ ∃ place : Layout, String.ofList relative = place.relative := by
  constructor
  · intro h
    obtain ⟨hparts, h⟩ := Except.of_ite_error h
    simp only [not_or, not_not] at hparts
    obtain ⟨values, hvalues, h⟩ := Except.bind_eq_ok.mp h
    have hcanonical : CanonicalValues values := by
      by_contra hnot
      rw [if_neg hnot] at h
      cases h
    obtain ⟨place, hplace⟩ := exists_layout hparts.1 hparts.2 hvalues hcanonical
    refine ⟨place, ?_⟩
    rw [Layout.relative, ← hplace, List.intercalate_splitOn]
  · rintro ⟨place, hplace⟩
    have hrelative : relative = place.relative.toList := by
      rw [← hplace, String.toList_ofList]
    have hlength : place.parts.length = 1 + layoutKeys.length := rfl
    have hhead : place.parts.head? = some archiveLayoutVersion := rfl
    rw [hrelative, checkRelative, place.splitOn_relative,
      if_neg (by simp [hlength, hhead]), place.layoutValues_parts, Except.ok_bind,
      if_pos place.canonicalValues]

theorem parseObjectName_eq_ok {name label relative : String} :
    parseObjectName name = .ok (label, relative) ↔
      label ∈ approvedRootLabelsV1 ∧ (∃ place : Layout, relative = place.relative) ∧
        name = objectName label relative := by
  constructor
  · intro h
    obtain ⟨hlabel, h⟩ := Except.of_ite_error h
    obtain ⟨hsuffix, h⟩ := Except.of_ite_error h
    obtain ⟨⟨⟩, hrelative, h⟩ := Except.bind_eq_ok.mp h
    cases h
    rw [not_not] at hlabel hsuffix
    have hslash : '/' ∈ name.toList := by
      by_contra hnot
      rw [TextPartition.past_eq_nil hnot] at hsuffix
      simp [tarSuffix] at hsuffix
    have htext := TextPartition.eq_upTo_past hslash
    obtain ⟨front, hfront⟩ := hsuffix
    have htake : (TextPartition.past '/' name.toList).take
        ((TextPartition.past '/' name.toList).length - tarSuffix.length) = front := by
      rw [← hfront, List.length_append, Nat.add_sub_cancel, List.take_left]
    rw [htake] at hrelative ⊢
    refine ⟨hlabel, checkRelative_eq_ok.mp hrelative, ?_⟩
    rw [← hfront] at htext
    apply String.toList_inj.mp
    refine htext.trans ?_
    simp [objectName, tarSuffix]
  · rintro ⟨hlabel, hplace, rfl⟩
    have hslash : '/' ∉ label.toList := by
      revert hlabel
      simp only [approvedRootLabelsV1, List.mem_cons, List.not_mem_nil, or_false]
      rintro (rfl | rfl) <;> decide
    have htext : (objectName label relative).toList =
        label.toList ++ '/' :: (relative.toList ++ tarSuffix) := by
      simp [objectName, tarSuffix]
    have hcheck : checkRelative relative.toList = .ok () :=
      checkRelative_eq_ok.mpr (by simpa using hplace)
    rw [parseObjectName, htext, TextPartition.upTo_append hslash,
      TextPartition.past_append hslash]
    simp [hlabel, hcheck]

end Offsite

end TradePlatform
