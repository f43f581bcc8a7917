/-
# `TradePlatform.MarketPayloads` — the typed payloads and their canonical tuples

The payloads of `market_observation_payloads.py`, `futures_market_observations.py`,
`crypto_market_observations.py` and `ohlcv_volume_semantics.py`: what their validators let through
(`Accepted`), the texts that a sealed dataset takes of them (`canonicalTuple`), and which of those
are free texts.  A tuple tells its payload, and the separator of a sealed line can stand in a free
text only.
-/
import TradePlatform.Domain
import TradePlatform.Lib.DecimalText
import TradePlatform.Lib.JsonLines
import TradePlatform.Lib.TextSplit
import TradePlatform.Lib.UuidText

namespace TradePlatform.MarketPayloads

open JsonText (Text)
open IsoText (Stamp digits)

/-! ## Payloads -/

structure Date where
  year : ℕ
  month : ℕ
  day : ℕ
  year_pos : 1 ≤ year := by decide
  year_lt : year < 10 ^ 4 := by decide
  month_pos : 1 ≤ month := by decide
  month_le : month ≤ 12 := by decide
  day_pos : 1 ≤ day := by decide
  day_le : day ≤ IsoText.daysInMonth year month := by decide

theorem Date.eq_iff (a b : Date) :
    (a.year = b.year ∧ a.month = b.month ∧ a.day = b.day) ↔ a = b := by
  rcases a with ⟨_, _, _⟩
  rcases b with ⟨_, _, _⟩
  simp

instance : DecidableEq Date := fun a b => decidable_of_iff _ (Date.eq_iff a b)

def Date.isoformat (date : Date) : Text :=
  digits 4 date.year ++ '-' :: (digits 2 date.month ++ '-' :: digits 2 date.day)

def orEmpty (value : Option String) : Text := value.elim [] String.toList

/-- What `text_field` lets through: a stripped text that is not empty. -/
def TextField (text : String) : Prop :=
  text ≠ "" ∧ JsonLines.strip isSpace text.toList = text.toList

inductive SettlementFinality where
  | preliminary | final
deriving DecidableEq

def SettlementFinality.value : SettlementFinality → String
  | .preliminary => "PRELIMINARY"
  | .final => "FINAL"

structure FuturesSettlementPayload where
  settlementPrice : Decimal.Parts
  priceCurrency : String
  settlementDate : Date
  settlementEffectiveAt : Stamp
  finality : SettlementFinality
  quoteUnit : String
deriving DecidableEq

namespace FuturesSettlementPayload

variable (payload : FuturesSettlementPayload)

def canonicalTuple : List Text :=
  ["futures_settlement_observations".toList, payload.settlementPrice.text,
    payload.priceCurrency.toList, payload.settlementDate.isoformat,
    payload.settlementEffectiveAt.isoformat, payload.finality.value.toList,
    payload.quoteUnit.toList]

def Accepted : Prop :=
  0 < payload.settlementPrice.value ∧ TextField payload.priceCurrency ∧
    (3 ≤ payload.priceCurrency.length ∧ payload.priceCurrency.length ≤ 12) ∧
    TextField payload.quoteUnit

def freeTexts : List String := [payload.priceCurrency, payload.quoteUnit]

end FuturesSettlementPayload

inductive OpenInterestUnit where
  | contracts | baseAsset | quoteNotional
deriving DecidableEq

def OpenInterestUnit.value : OpenInterestUnit → String
  | .contracts => "CONTRACTS"
  | .baseAsset => "BASE_ASSET"
  | .quoteNotional => "QUOTE_NOTIONAL"

structure OpenInterestPayload where
  openInterest : Decimal.Parts
  unit : OpenInterestUnit
  observedAt : Stamp
  unitAsset : Option String
deriving DecidableEq

namespace OpenInterestPayload

variable (payload : OpenInterestPayload)

def canonicalTuple : List Text :=
  ["futures_open_interest_observations".toList, payload.openInterest.text,
    payload.unit.value.toList, payload.observedAt.isoformat, orEmpty payload.unitAsset]

def Accepted : Prop :=
  0 ≤ payload.openInterest.value ∧ (payload.unit = .contracts ↔ payload.unitAsset = none) ∧
    ∀ asset ∈ payload.unitAsset, TextField asset

def freeTexts : List String := payload.unitAsset.toList

end OpenInterestPayload

structure CryptoFundingPayload where
  fundingRate : Decimal.Parts
  targetFundingAt : Stamp
  publishedAt : Stamp
  settlementAsset : String
  conventionId : Option UUID
  conventionVersion : Option ℤ
deriving DecidableEq

namespace CryptoFundingPayload

variable (payload : CryptoFundingPayload)

def canonicalTuple : List Text :=
  ["crypto_funding_observations".toList, payload.fundingRate.text,
    payload.targetFundingAt.isoformat, payload.publishedAt.isoformat,
    payload.settlementAsset.toList, payload.conventionId.elim [] UuidText.text,
    payload.conventionVersion.elim [] TextSplit.intText]

def Accepted : Prop :=
  TextField payload.settlementAsset ∧
    (2 ≤ payload.settlementAsset.length ∧ payload.settlementAsset.length ≤ 12) ∧
    ∀ id ∈ payload.conventionId, id < 2 ^ 128

def freeTexts : List String := [payload.settlementAsset]

end CryptoFundingPayload

structure CryptoReferencePricePayload where
  price : Decimal.Parts
  priceAsset : String
  observedAt : Stamp
  methodologyReference : Option String
deriving DecidableEq

namespace CryptoReferencePricePayload

variable (payload : CryptoReferencePricePayload)

def canonicalTuple : List Text :=
  ["crypto_reference_price_observations".toList, payload.price.text, payload.priceAsset.toList,
    payload.observedAt.isoformat, orEmpty payload.methodologyReference]

def Accepted : Prop :=
  0 < payload.price.value ∧ TextField payload.priceAsset ∧
    (2 ≤ payload.priceAsset.length ∧ payload.priceAsset.length ≤ 12) ∧
    ∀ methodology ∈ payload.methodologyReference, TextField methodology

def freeTexts : List String := payload.priceAsset :: payload.methodologyReference.toList

end CryptoReferencePricePayload

inductive BarVolumeUnit where
  | contracts | baseAsset | quoteAsset
deriving DecidableEq

def BarVolumeUnit.value : BarVolumeUnit → String
  | .contracts => "CONTRACTS"
  | .baseAsset => "BASE_ASSET"
  | .quoteAsset => "QUOTE_ASSET"

/-- `str.isalnum` of a character and `str.upper`, of which no more is used than that the separator
is neither a letter nor a digit. -/
structure Unicode where
  isalnum : Char → Bool
  upper : String → String
  bar : isalnum '|' = false

structure OhlcvVolumeSemantics where
  volumeUnit : BarVolumeUnit
  volumeAsset : Option String
  turnover : Decimal.Parts
  turnoverUnit : BarVolumeUnit
  turnoverAsset : Option String
  semanticVersion : String
  sourceReference : String
deriving DecidableEq

def ValidAssetCode (unicode : Unicode) (value : String) : Prop :=
  (2 ≤ value.length ∧ value.length ≤ 12) ∧ value.toList.all unicode.isalnum = true ∧
    value = unicode.upper value

/-- `_validate_unit_asset_pair`: a contract count has no asset, another unit a valid one. -/
def UnitAssetPair (unicode : Unicode) (unit : BarVolumeUnit) (asset : Option String) : Prop :=
  match unit with
  | .contracts => asset = none
  | .baseAsset | .quoteAsset => ∃ code, asset = some code ∧ ValidAssetCode unicode code

namespace OhlcvVolumeSemantics

variable (semantics : OhlcvVolumeSemantics)

def canonicalTuple : List Text :=
  ["historical_ohlcv_volume_semantics_v1".toList, semantics.volumeUnit.value.toList,
    orEmpty semantics.volumeAsset, semantics.turnover.text, semantics.turnoverUnit.value.toList,
    orEmpty semantics.turnoverAsset, semantics.semanticVersion.toList,
    semantics.sourceReference.toList]

structure Accepted (unicode : Unicode) : Prop where
  volume : UnitAssetPair unicode semantics.volumeUnit semantics.volumeAsset
  turnover : UnitAssetPair unicode semantics.turnoverUnit semantics.turnoverAsset
  nonnegative : 0 ≤ semantics.turnover.value
  version : blank semantics.semanticVersion = false
  reference : blank semantics.sourceReference = false

def freeTexts : List String := [semantics.semanticVersion, semantics.sourceReference]

end OhlcvVolumeSemantics

inductive TypedPayload where
  | settlement (payload : FuturesSettlementPayload)
  | openInterest (payload : OpenInterestPayload)
  | funding (payload : CryptoFundingPayload)
  | referencePrice (payload : CryptoReferencePricePayload)
deriving DecidableEq

namespace TypedPayload

def canonicalTuple : TypedPayload → List Text
  | .settlement payload => payload.canonicalTuple
  | .openInterest payload => payload.canonicalTuple
  | .funding payload => payload.canonicalTuple
  | .referencePrice payload => payload.canonicalTuple

def Accepted : TypedPayload → Prop
  | .settlement payload => payload.Accepted
  | .openInterest payload => payload.Accepted
  | .funding payload => payload.Accepted
  | .referencePrice payload => payload.Accepted

def freeTexts : TypedPayload → List String
  | .settlement payload => payload.freeTexts
  | .openInterest payload => payload.freeTexts
  | .funding payload => payload.freeTexts
  | .referencePrice payload => payload.freeTexts

end TypedPayload

/-! ## Texts without the separator -/

section Separator

def BarFree (text : Text) : Prop := '|' ∉ text

instance (text : Text) : Decidable (BarFree text) := inferInstanceAs (Decidable (_ ∉ _))

theorem BarFree.append {a b : Text} (ha : BarFree a) (hb : BarFree b) : BarFree (a ++ b) :=
  fun h => (List.mem_append.mp h).elim ha hb

theorem BarFree.cons {c : Char} {a : Text} (hc : c ≠ '|') (ha : BarFree a) : BarFree (c :: a) :=
  fun h => (List.mem_cons.mp h).elim (fun heq => hc heq.symm) ha

theorem barFree_nil : BarFree [] := List.not_mem_nil

theorem digitChar_ne_bar (n : ℕ) : Nat.digitChar n ≠ '|' := by
  have hsmall : ∀ i < 16, Nat.digitChar i ≠ '|' := by decide
  by_cases h : n < 16
  · exact hsmall n h
  · have hstar : Nat.digitChar n = '*' := by
      unfold Nat.digitChar
      iterate 16 rw [if_neg (by omega)]
    rw [hstar]
    decide

theorem barFree_digits (width n : ℕ) : BarFree (digits width n) := by
  induction width generalizing n with
  | zero => exact barFree_nil
  | succ width ih => exact (ih _).cons (digitChar_ne_bar _)

theorem barFree_fractionText (micro : ℕ) : BarFree (Stamp.fractionText micro) := by
  unfold Stamp.fractionText
  split
  · exact barFree_nil
  · exact (barFree_digits 6 micro).cons (by decide)

theorem barFree_offsetText (offset : ℤ) : BarFree (Stamp.offsetText offset) := by
  have hseconds : ∀ second micro, BarFree (Stamp.offsetSecondsText second micro) := by
    intro second micro
    unfold Stamp.offsetSecondsText
    split
    · exact barFree_nil
    · exact ((barFree_digits 2 second).append (barFree_fractionText micro)).cons (by decide)
  have hsign : (if offset < 0 then '-' else '+') ≠ '|' := by
    split <;> decide
  exact ((barFree_digits 2 _).append
    (((barFree_digits 2 _).append (hseconds _ _)).cons (by decide))).cons hsign

theorem barFree_isoformat (stamp : Stamp) : BarFree stamp.isoformat := by
  have htime : BarFree (digits 2 stamp.hour ++ ':' :: (digits 2 stamp.minute ++ ':' ::
      (digits 2 stamp.second ++
        (Stamp.fractionText stamp.micro ++ Stamp.offsetText stamp.offset)))) :=
    (barFree_digits 2 _).append (((barFree_digits 2 _).append (((barFree_digits 2 _).append
      ((barFree_fractionText _).append (barFree_offsetText _))).cons (by decide))).cons (by decide))
  exact (barFree_digits 4 _).append (((barFree_digits 2 _).append
    (((barFree_digits 2 _).append (htime.cons (by decide))).cons (by decide))).cons (by decide))

theorem Date.barFree_isoformat (date : Date) : BarFree date.isoformat :=
  (barFree_digits 4 _).append (((barFree_digits 2 _).append
    ((barFree_digits 2 _).cons (by decide))).cons (by decide))

theorem barFree_decimal (d : Decimal.Parts) : BarFree d.text := by
  intro hbar
  rcases Decimal.Parts.mem_text hbar with h | h
  · exact absurd h (by decide)
  · exact absurd h (by decide)

theorem barFree_uuid (id : UUID) : BarFree (UuidText.text id) := by
  intro hbar
  rcases UuidText.mem_text hbar with h | ⟨i, -, h⟩
  · exact absurd h (by decide)
  · exact digitChar_ne_bar i h.symm

theorem barFree_int (n : ℤ) : BarFree (TextSplit.intText n) := by
  intro hbar
  rcases TextSplit.isDigit_of_mem_intText hbar with h | h
  · exact absurd h (by decide)
  · exact absurd h (by decide)

theorem barFree_orEmpty {value : Option String} (h : ∀ text ∈ value, BarFree text.toList) :
    BarFree (orEmpty value) := by
  cases value with
  | none => exact barFree_nil
  | some text => exact h text rfl

end Separator

/-! ## Texts that tell their values -/

section Told

theorem Date.isoformat_injective {a b : Date} (h : a.isoformat = b.isoformat) : a = b := by
  have hday : ∀ date : Date, date.day < 10 ^ 2 := by
    intro date
    have hle := date.day_le
    unfold IsoText.daysInMonth at hle
    split_ifs at hle <;> omega
  have hmonth : ∀ date : Date, date.month < 10 ^ 2 := fun date =>
    date.month_le.trans_lt (by norm_num)
  obtain ⟨hyear, h⟩ := (IsoText.digits_append_inj a.year_lt b.year_lt).mp h
  obtain ⟨hmonth', h⟩ := (IsoText.digits_append_inj (hmonth a) (hmonth b)).mp (List.cons.inj h).2
  have hnil : digits 2 a.day ++ [] = digits 2 b.day ++ [] := by rw [(List.cons.inj h).2]
  obtain ⟨hday', -⟩ := (IsoText.digits_append_inj (hday a) (hday b)).mp hnil
  cases a
  cases b
  simp_all

theorem orEmpty_injective {a b : Option String} (ha : ∀ text ∈ a, text ≠ "")
    (hb : ∀ text ∈ b, text ≠ "") (h : orEmpty a = orEmpty b) : a = b := by
  have hne : ∀ {text : String}, text ≠ "" → text.toList ≠ [] := by
    intro text htext hnil
    exact htext (String.toList_inj.mp hnil)
  cases a with
  | none =>
      cases b with
      | none => rfl
      | some text => exact absurd h.symm (hne (hb text rfl))
  | some text =>
      cases b with
      | none => exact absurd h (hne (ha text rfl))
      | some text' => exact congrArg some (String.toList_inj.mp h)

theorem uuid_elim_injective {a b : Option UUID} (ha : ∀ id ∈ a, id < 2 ^ 128)
    (hb : ∀ id ∈ b, id < 2 ^ 128) (h : a.elim [] UuidText.text = b.elim [] UuidText.text) :
    a = b := by
  have hne : ∀ id, UuidText.text id ≠ [] := by
    intro id hnil
    have hlength := UuidText.length_text id
    rw [hnil] at hlength
    cases hlength
  cases a with
  | none =>
      cases b with
      | none => rfl
      | some id => exact absurd h.symm (hne id)
  | some id =>
      cases b with
      | none => exact absurd h (hne id)
      | some id' => exact congrArg some (UuidText.text_inj (ha id rfl) (hb id' rfl) h)

theorem intText_injective {m n : ℤ} (h : TextSplit.intText m = TextSplit.intText n) : m = n := by
  have hread := congrArg TextSplit.intOf? h
  rw [TextSplit.intOf?_intText, TextSplit.intOf?_intText] at hread
  exact Option.some.inj hread

theorem int_elim_injective {a b : Option ℤ}
    (h : a.elim [] TextSplit.intText = b.elim [] TextSplit.intText) : a = b := by
  have hne : ∀ n, TextSplit.intText n ≠ [] := by
    intro n hnil
    have hread := TextSplit.intOf?_intText n
    rw [hnil] at hread
    cases hread
  cases a with
  | none =>
      cases b with
      | none => rfl
      | some n => exact absurd h.symm (hne n)
  | some n =>
      cases b with
      | none => exact absurd h (hne n)
      | some n' => exact congrArg some (intText_injective h)

end Told

/-! ## Tuples -/

theorem SettlementFinality.value_injective {a b : SettlementFinality} (h : a.value = b.value) :
    a = b := by
  cases a <;> cases b <;> first | rfl | exact absurd h (by decide)

theorem OpenInterestUnit.value_injective {a b : OpenInterestUnit} (h : a.value = b.value) :
    a = b := by
  cases a <;> cases b <;> first | rfl | exact absurd h (by decide)

theorem BarVolumeUnit.value_injective {a b : BarVolumeUnit} (h : a.value = b.value) : a = b := by
  cases a <;> cases b <;> first | rfl | exact absurd h (by decide)

theorem SettlementFinality.barFree_value (a : SettlementFinality) : BarFree a.value.toList := by
  cases a <;> decide +kernel

theorem OpenInterestUnit.barFree_value (a : OpenInterestUnit) : BarFree a.value.toList := by
  cases a <;> decide +kernel

theorem BarVolumeUnit.barFree_value (a : BarVolumeUnit) : BarFree a.value.toList := by
  cases a <;> decide +kernel

section Tuples

variable {unicode : Unicode}

theorem FuturesSettlementPayload.canonicalTuple_injective {p q : FuturesSettlementPayload}
    (h : p.canonicalTuple = q.canonicalTuple) : p = q := by
  unfold canonicalTuple at h
  simp only [List.cons.injEq, true_and, and_true] at h
  obtain ⟨hprice, hcurrency, hdate, hat, hfinality, hunit⟩ := h
  have hprice := Decimal.Parts.text_injective hprice
  have hcurrency := String.toList_inj.mp hcurrency
  have hdate := Date.isoformat_injective hdate
  have hat := Stamp.isoformat_injective hat
  have hfinality := SettlementFinality.value_injective (String.toList_inj.mp hfinality)
  have hunit := String.toList_inj.mp hunit
  cases p
  cases q
  simp_all

theorem OpenInterestPayload.canonicalTuple_injective {p q : OpenInterestPayload}
    (hp : p.Accepted) (hq : q.Accepted) (h : p.canonicalTuple = q.canonicalTuple) : p = q := by
  unfold canonicalTuple at h
  simp only [List.cons.injEq, true_and, and_true] at h
  obtain ⟨hinterest, hunit, hat, hasset⟩ := h
  have hinterest := Decimal.Parts.text_injective hinterest
  have hunit := OpenInterestUnit.value_injective (String.toList_inj.mp hunit)
  have hat := Stamp.isoformat_injective hat
  have hasset := orEmpty_injective (fun text ht => (hp.2.2 text ht).1)
    (fun text ht => (hq.2.2 text ht).1) hasset
  cases p
  cases q
  simp_all

theorem CryptoFundingPayload.canonicalTuple_injective {p q : CryptoFundingPayload}
    (hp : p.Accepted) (hq : q.Accepted) (h : p.canonicalTuple = q.canonicalTuple) : p = q := by
  unfold canonicalTuple at h
  simp only [List.cons.injEq, true_and, and_true] at h
  obtain ⟨hrate, htarget, hpublished, hasset, hid, hversion⟩ := h
  have hrate := Decimal.Parts.text_injective hrate
  have htarget := Stamp.isoformat_injective htarget
  have hpublished := Stamp.isoformat_injective hpublished
  have hasset := String.toList_inj.mp hasset
  have hid := uuid_elim_injective hp.2.2 hq.2.2 hid
  have hversion := int_elim_injective hversion
  cases p
  cases q
  simp_all

theorem CryptoReferencePricePayload.canonicalTuple_injective {p q : CryptoReferencePricePayload}
    (hp : p.Accepted) (hq : q.Accepted) (h : p.canonicalTuple = q.canonicalTuple) : p = q := by
  unfold canonicalTuple at h
  simp only [List.cons.injEq, true_and, and_true] at h
  obtain ⟨hprice, hasset, hat, hmethodology⟩ := h
  have hprice := Decimal.Parts.text_injective hprice
  have hasset := String.toList_inj.mp hasset
  have hat := Stamp.isoformat_injective hat
  have hmethodology := orEmpty_injective (fun text ht => (hp.2.2.2 text ht).1)
    (fun text ht => (hq.2.2.2 text ht).1) hmethodology
  cases p
  cases q
  simp_all

theorem UnitAssetPair.asset {unit : BarVolumeUnit} {asset : Option String}
    (h : UnitAssetPair unicode unit asset) :
    ∀ text ∈ asset, text ≠ "" ∧ BarFree text.toList := by
  have hcode : (∃ code, asset = some code ∧ ValidAssetCode unicode code) →
      ∀ text ∈ asset, text ≠ "" ∧ BarFree text.toList := by
    rintro ⟨code, rfl, ⟨hlength, -⟩, hall, -⟩ text htext
    obtain rfl := Option.some.inj htext
    refine ⟨?_, fun hbar => ?_⟩
    · rintro rfl
      exact absurd hlength (by decide)
    · have halnum := List.all_eq_true.mp hall _ hbar
      rw [unicode.bar] at halnum
      cases halnum
  cases unit with
  | contracts =>
      obtain rfl : asset = none := h
      exact fun text htext => absurd htext (Option.not_mem_none text)
  | baseAsset => exact hcode h
  | quoteAsset => exact hcode h

theorem OhlcvVolumeSemantics.canonicalTuple_injective {p q : OhlcvVolumeSemantics}
    (hp : p.Accepted unicode) (hq : q.Accepted unicode)
    (h : p.canonicalTuple = q.canonicalTuple) : p = q := by
  unfold canonicalTuple at h
  simp only [List.cons.injEq, true_and, and_true] at h
  obtain ⟨hunit, hasset, hturnover, hunit', hasset', hversion, hreference⟩ := h
  have hunit := BarVolumeUnit.value_injective (String.toList_inj.mp hunit)
  have hasset := orEmpty_injective (fun text ht => (hp.volume.asset text ht).1)
    (fun text ht => (hq.volume.asset text ht).1) hasset
  have hturnover := Decimal.Parts.text_injective hturnover
  have hunit' := BarVolumeUnit.value_injective (String.toList_inj.mp hunit')
  have hasset' := orEmpty_injective (fun text ht => (hp.turnover.asset text ht).1)
    (fun text ht => (hq.turnover.asset text ht).1) hasset'
  have hversion := String.toList_inj.mp hversion
  have hreference := String.toList_inj.mp hreference
  cases p
  cases q
  simp_all

theorem OhlcvVolumeSemantics.barFree_canonicalTuple {p : OhlcvVolumeSemantics}
    (hp : p.Accepted unicode) (hfree : ∀ text ∈ p.freeTexts, BarFree text.toList) :
    ∀ c ∈ p.canonicalTuple, BarFree c := by
  intro c hc
  simp only [canonicalTuple, List.mem_cons, List.not_mem_nil, or_false] at hc
  rcases hc with rfl | rfl | rfl | rfl | rfl | rfl | rfl | rfl
  · decide +kernel
  · exact p.volumeUnit.barFree_value
  · exact barFree_orEmpty fun text ht => (hp.volume.asset text ht).2
  · exact barFree_decimal p.turnover
  · exact p.turnoverUnit.barFree_value
  · exact barFree_orEmpty fun text ht => (hp.turnover.asset text ht).2
  · exact hfree _ List.mem_cons_self
  · exact hfree _ (by simp [freeTexts])

namespace TypedPayload

variable {p q : TypedPayload}

theorem canonicalTuple_injective (hp : p.Accepted) (hq : q.Accepted)
    (h : p.canonicalTuple = q.canonicalTuple) : p = q := by
  have htables : ∀ {a b : String} {as bs : List Text}, a.toList :: as = b.toList :: bs → a = b :=
    fun heq => String.toList_inj.mp (List.cons.inj heq).1
  cases p with
  | settlement p =>
      cases q with
      | settlement q => rw [FuturesSettlementPayload.canonicalTuple_injective h]
      | openInterest q => exact absurd (htables h) (by decide)
      | funding q => exact absurd (htables h) (by decide)
      | referencePrice q => exact absurd (htables h) (by decide)
  | openInterest p =>
      cases q with
      | openInterest q => rw [OpenInterestPayload.canonicalTuple_injective hp hq h]
      | settlement q => exact absurd (htables h) (by decide)
      | funding q => exact absurd (htables h) (by decide)
      | referencePrice q => exact absurd (htables h) (by decide)
  | funding p =>
      cases q with
      | funding q => rw [CryptoFundingPayload.canonicalTuple_injective hp hq h]
      | settlement q => exact absurd (htables h) (by decide)
      | openInterest q => exact absurd (htables h) (by decide)
      | referencePrice q => exact absurd (htables h) (by decide)
  | referencePrice p =>
      cases q with
      | referencePrice q => rw [CryptoReferencePricePayload.canonicalTuple_injective hp hq h]
      | settlement q => exact absurd (htables h) (by decide)
      | openInterest q => exact absurd (htables h) (by decide)
      | funding q => exact absurd (htables h) (by decide)

theorem barFree_canonicalTuple (hfree : ∀ text ∈ p.freeTexts, BarFree text.toList) :
    ∀ c ∈ p.canonicalTuple, BarFree c := by
  intro c hc
  cases p with
  | settlement p =>
      simp only [canonicalTuple, FuturesSettlementPayload.canonicalTuple, List.mem_cons,
        List.not_mem_nil, or_false] at hc
      rcases hc with rfl | rfl | rfl | rfl | rfl | rfl | rfl
      · decide +kernel
      · exact barFree_decimal p.settlementPrice
      · exact hfree _ List.mem_cons_self
      · exact p.settlementDate.barFree_isoformat
      · exact barFree_isoformat p.settlementEffectiveAt
      · exact p.finality.barFree_value
      · exact hfree _ (by simp [freeTexts, FuturesSettlementPayload.freeTexts])
  | openInterest p =>
      simp only [canonicalTuple, OpenInterestPayload.canonicalTuple, List.mem_cons,
        List.not_mem_nil, or_false] at hc
      rcases hc with rfl | rfl | rfl | rfl | rfl
      · decide +kernel
      · exact barFree_decimal p.openInterest
      · exact p.unit.barFree_value
      · exact barFree_isoformat p.observedAt
      · exact barFree_orEmpty fun text ht => hfree text (Option.mem_toList.mpr ht)
  | funding p =>
      simp only [canonicalTuple, CryptoFundingPayload.canonicalTuple, List.mem_cons,
        List.not_mem_nil, or_false] at hc
      rcases hc with rfl | rfl | rfl | rfl | rfl | rfl | rfl
      · decide +kernel
      · exact barFree_decimal p.fundingRate
      · exact barFree_isoformat p.targetFundingAt
      · exact barFree_isoformat p.publishedAt
      · exact hfree _ List.mem_cons_self
      · cases p.conventionId with
        | none => exact barFree_nil
        | some id => exact barFree_uuid id
      · cases p.conventionVersion with
        | none => exact barFree_nil
        | some n => exact barFree_int n
  | referencePrice p =>
      simp only [canonicalTuple, CryptoReferencePricePayload.canonicalTuple, List.mem_cons,
        List.not_mem_nil, or_false] at hc
      rcases hc with rfl | rfl | rfl | rfl | rfl
      · decide +kernel
      · exact barFree_decimal p.price
      · exact hfree _ List.mem_cons_self
      · exact barFree_isoformat p.observedAt
      · exact barFree_orEmpty fun text ht =>
          hfree text (List.mem_cons_of_mem _ (Option.mem_toList.mpr ht))

end TypedPayload

end Tuples

end TradePlatform.MarketPayloads
