/-
# `TradePlatform.SealedMembers` — what the hash of a sealed dataset covers

`_proven_member_digest` of `historical_market_data.py` folds one line of each member into the hash:
its fields with bars between them, and nothing between one line and the next.  A line is read off
what begins with it as long as no free text has a bar in it (`line_inj`), so that the folded text
tells the members.  A bar in a free text is not escaped, and two sidecars that differ can have one
line (`canonicalLine_recut`).
-/
import TradePlatform.AcquisitionEvidence
import TradePlatform.MarketPayloads

namespace TradePlatform.SealedMembers

open JsonText (Text)
open MarketPayloads
open RawCapture (ObservationKind RawRow typedPayloadKinds)
open Acquisition (NormalizedRow digestOf memberLine)

/-! ## The code -/

/-- A row of the statement: the columns that the line takes, with what the typed tables and the
sidecar hold for the member. -/
structure MemberRow where
  normalizedObservationId : UUID
  rawPayloadSha256 : String
  observationKind : ObservationKind
  normalizedValue : List (String × Option String)
  settlement : Option FuturesSettlementPayload
  openInterest : Option OpenInterestPayload
  funding : Option CryptoFundingPayload
  referencePrice : Option CryptoReferencePricePayload
  volumeSemantics : Option OhlcvVolumeSemantics
deriving DecidableEq

namespace MemberRow

variable (row : MemberRow)

def key : Text := UuidText.text row.normalizedObservationId

/-- `_canonical` of the normalized value, an object of texts and nulls. -/
def canonical : Text := JsonText.flatObject (sortBy Prod.fst row.normalizedValue)

def typedPayloadFromRow : Option TypedPayload :=
  match row.observationKind with
  | .settlementPrice => row.settlement.map .settlement
  | .openInterest => row.openInterest.map .openInterest
  | .fundingRateRealized | .fundingRateIndicative => row.funding.map .funding
  | .markPrice | .indexPrice => row.referencePrice.map .referencePrice
  | .ohlcv | .dividend | .split | .symbolChange | .delisting => none

def sealedTypedComponents : Except Exn (List Text) :=
  if row.observationKind ∉ typedPayloadKinds then .ok []
  else
    match row.typedPayloadFromRow with
    | none => .error (.historicalMarketDataError
        ("sealed_typed_observation_missing_canonical_payload:" ++ String.ofList row.key))
    | some payload => .ok payload.canonicalTuple

def sealedVolumeSemanticsComponents : List Text :=
  row.volumeSemantics.elim [] OhlcvVolumeSemantics.canonicalTuple

def canonicalLine : Except Exn Text := do
  let typed ← row.sealedTypedComponents
  return ['|'].intercalate ([row.key, row.rawPayloadSha256.toList,
    row.observationKind.value.toList, row.canonical] ++ typed ++
      row.sealedVolumeSemanticsComponents)

end MemberRow

def foldedText (rows : List MemberRow) : Except Exn Text := do
  let lines ← rows.mapM MemberRow.canonicalLine
  return lines.flatten

/-! ## Stored members -/

section Stored

variable (unicode : Unicode) (row : MemberRow)

/-- A validated member as the tables hold it: the keys of its value in order, a typed payload for
the kinds that have one, a sidecar for bars only, each accepted by its validator. -/
structure Stored : Prop where
  id_lt : row.normalizedObservationId < 2 ^ 128
  sha256 : row.rawPayloadSha256.length = 64 ∧
    ∀ c ∈ row.rawPayloadSha256.toList, c ∈ "0123456789abcdef".toList
  ordered : row.normalizedValue.Pairwise fun a b => a.1 < b.1
  settlement : row.settlement.isSome = true ↔ row.observationKind = .settlementPrice
  openInterest : row.openInterest.isSome = true ↔ row.observationKind = .openInterest
  funding : row.funding.isSome = true ↔
    row.observationKind = .fundingRateRealized ∨ row.observationKind = .fundingRateIndicative
  referencePrice : row.referencePrice.isSome = true ↔
    row.observationKind = .markPrice ∨ row.observationKind = .indexPrice
  volumeSemantics : row.volumeSemantics.isSome = true → row.observationKind = .ohlcv
  payload : ∀ payload ∈ row.typedPayloadFromRow, payload.Accepted
  semantics : ∀ semantics ∈ row.volumeSemantics, semantics.Accepted unicode

def freeTexts : List String :=
  row.typedPayloadFromRow.elim [] TypedPayload.freeTexts ++
    row.volumeSemantics.elim [] OhlcvVolumeSemantics.freeTexts

def Plain : Prop := ∀ text ∈ freeTexts row, BarFree text.toList

structure SameEnvelope (row row' : MemberRow) : Prop where
  id : row.normalizedObservationId = row'.normalizedObservationId
  sha256 : row.rawPayloadSha256 = row'.rawPayloadSha256
  kind : row.observationKind = row'.observationKind
  value : row.normalizedValue = row'.normalizedValue

def components : List Text :=
  row.typedPayloadFromRow.elim [] TypedPayload.canonicalTuple ++
    row.sealedVolumeSemanticsComponents

def afterKey : Text :=
  row.rawPayloadSha256.toList ++ '|' :: (row.observationKind.value.toList ++
    '|' :: (row.canonical ++ (components row).flatMap ('|' :: ·)))

def line : Text := row.key ++ '|' :: afterKey row

end Stored

section Lines

variable {unicode : Unicode} {row row' : MemberRow} {rows rows' : List MemberRow} {r s : Text}

theorem intercalate_cons (a : Text) (as : List Text) :
    ['|'].intercalate (a :: as) = a ++ as.flatMap ('|' :: ·) := by
  induction as generalizing a with
  | nil => simp
  | cons b as ih =>
      rw [List.intercalate_cons_cons, ih]
      simp

theorem mem_typedPayloadKinds {kind : ObservationKind} : kind ∈ typedPayloadKinds ↔
    kind = .settlementPrice ∨ kind = .openInterest ∨
      (kind = .fundingRateRealized ∨ kind = .fundingRateIndicative) ∨
        (kind = .markPrice ∨ kind = .indexPrice) := by
  cases kind <;> decide

theorem Stored.typedPayload_isSome (h : Stored unicode row) :
    row.typedPayloadFromRow.isSome = true ↔ row.observationKind ∈ typedPayloadKinds := by
  rw [mem_typedPayloadKinds]
  unfold MemberRow.typedPayloadFromRow
  have hsettlement := h.settlement
  have hinterest := h.openInterest
  have hfunding := h.funding
  have hprice := h.referencePrice
  cases hkind : row.observationKind <;> simp_all

theorem Stored.canonicalLine (h : Stored unicode row) : row.canonicalLine = .ok (line row) := by
  have htyped : row.sealedTypedComponents =
      .ok (row.typedPayloadFromRow.elim [] TypedPayload.canonicalTuple) := by
    unfold MemberRow.sealedTypedComponents
    by_cases hkind : row.observationKind ∈ typedPayloadKinds
    · rw [if_neg (not_not.mpr hkind)]
      obtain ⟨payload, hpayload⟩ :=
        Option.isSome_iff_exists.mp (h.typedPayload_isSome.mpr hkind)
      rw [hpayload]
      rfl
    · have hnone : row.typedPayloadFromRow = none :=
        Option.not_isSome_iff_eq_none.mp fun hsome => hkind (h.typedPayload_isSome.mp hsome)
      rw [if_pos hkind, hnone]
      rfl
  unfold MemberRow.canonicalLine
  rw [htyped, Except.ok_bind]
  refine congrArg Except.ok ?_
  rw [List.append_assoc, List.cons_append, intercalate_cons]
  simp [line, afterKey, components]

theorem foldedText_stored (h : ∀ row ∈ rows, Stored unicode row) :
    foldedText rows = .ok (rows.map line).flatten := by
  have hlines : rows.mapM MemberRow.canonicalLine = .ok (rows.map line) := by
    induction rows with
    | nil => rfl
    | cons row rows ih =>
        rw [List.mapM_cons, (h row List.mem_cons_self).canonicalLine, Except.ok_bind,
          ih fun row hrow => h row (List.mem_cons_of_mem _ hrow)]
        rfl
  unfold foldedText
  rw [hlines]
  rfl

theorem continues_lines (rows : List MemberRow) :
    Codes.Continues '|' 36 (rows.map line).flatten := by
  cases rows with
  | nil => exact .inl rfl
  | cons row rows =>
      refine .inr ⟨row.key, afterKey row ++ (rows.map line).flatten, UuidText.length_text _,
        barFree_uuid _, ?_⟩
      rw [List.map_cons, List.flatten_cons, line, List.append_assoc, List.cons_append]

/-! ### Reading a line -/

theorem barFree_kind (kind : ObservationKind) : BarFree kind.value.toList := by
  cases kind <;> decide +kernel

theorem kind_value_injective {a b : ObservationKind} (h : a.value = b.value) : a = b := by
  cases a <;> cases b <;> first | rfl | exact absurd h (by decide)

theorem Stored.barFree_sha256 (h : Stored unicode row) : BarFree row.rawPayloadSha256.toList :=
  fun hbar => absurd (h.sha256.2 _ hbar) (by decide +kernel)

theorem Stored.canonical_eq (h : Stored unicode row) :
    row.canonical = JsonText.flatObject row.normalizedValue := by
  have hsorted : sortBy Prod.fst row.normalizedValue = row.normalizedValue :=
    (h.ordered.imp fun hlt => le_of_lt hlt).insertionSort_eq
  rw [MemberRow.canonical, hsorted]

theorem Stored.barFree_components (h : Stored unicode row) (hplain : Plain row) :
    ∀ c ∈ components row, BarFree c := by
  intro c hc
  unfold components at hc
  rcases List.mem_append.mp hc with hc | hc
  · cases hpayload : row.typedPayloadFromRow with
    | none =>
        rw [hpayload] at hc
        cases hc
    | some payload =>
        rw [hpayload] at hc
        refine TypedPayload.barFree_canonicalTuple (fun text ht => hplain text ?_) c hc
        rw [freeTexts, hpayload]
        exact List.mem_append_left _ ht
  · unfold MemberRow.sealedVolumeSemanticsComponents at hc
    cases hsemantics : row.volumeSemantics with
    | none =>
        rw [hsemantics] at hc
        cases hc
    | some semantics =>
        rw [hsemantics] at hc
        refine OhlcvVolumeSemantics.barFree_canonicalTuple (h.semantics semantics hsemantics)
          (fun text ht => hplain text ?_) c hc
        rw [freeTexts, hsemantics]
        exact List.mem_append_right _ ht

def typedLength : ObservationKind → ℕ
  | .settlementPrice | .fundingRateRealized | .fundingRateIndicative => 7
  | .openInterest | .markPrice | .indexPrice => 5
  | .ohlcv | .dividend | .split | .symbolChange | .delisting => 0

theorem length_typed (h : Stored unicode row) :
    (row.typedPayloadFromRow.elim [] TypedPayload.canonicalTuple).length =
      typedLength row.observationKind := by
  have hsome := h.typedPayload_isSome
  rw [mem_typedPayloadKinds] at hsome
  unfold MemberRow.typedPayloadFromRow at hsome ⊢
  cases hkind : row.observationKind with
  | settlementPrice =>
      rw [hkind] at hsome
      cases hrow : row.settlement with
      | none => simp [hrow] at hsome
      | some payload => rfl
  | openInterest =>
      rw [hkind] at hsome
      cases hrow : row.openInterest with
      | none => simp [hrow] at hsome
      | some payload => rfl
  | fundingRateRealized =>
      rw [hkind] at hsome
      cases hrow : row.funding with
      | none => simp [hrow] at hsome
      | some payload => rfl
  | fundingRateIndicative =>
      rw [hkind] at hsome
      cases hrow : row.funding with
      | none => simp [hrow] at hsome
      | some payload => rfl
  | markPrice =>
      rw [hkind] at hsome
      cases hrow : row.referencePrice with
      | none => simp [hrow] at hsome
      | some payload => rfl
  | indexPrice =>
      rw [hkind] at hsome
      cases hrow : row.referencePrice with
      | none => simp [hrow] at hsome
      | some payload => rfl
  | ohlcv => rfl
  | dividend => rfl
  | split => rfl
  | symbolChange => rfl
  | delisting => rfl

theorem Stored.components_eq (h : Stored unicode row) :
    (row.observationKind = .ohlcv → row.typedPayloadFromRow = none) ∧
      (row.observationKind ≠ .ohlcv → row.volumeSemantics = none) := by
  constructor
  · intro hkind
    unfold MemberRow.typedPayloadFromRow
    rw [hkind]
  · intro hkind
    exact Option.not_isSome_iff_eq_none.mp fun hsome => hkind (h.volumeSemantics hsome)

theorem length_components (h : Stored unicode row) (h' : Stored unicode row')
    (hkind : row.observationKind = row'.observationKind) :
    (components row).length = (components row').length ∨ components row = [] ∨
      components row' = [] := by
  by_cases hohlcv : row.observationKind = .ohlcv
  · have htyped := h.components_eq.1 hohlcv
    have htyped' := h'.components_eq.1 (hkind ▸ hohlcv)
    unfold components MemberRow.sealedVolumeSemanticsComponents
    rw [htyped, htyped']
    cases row.volumeSemantics with
    | none => exact .inr (.inl rfl)
    | some semantics =>
        cases row'.volumeSemantics with
        | none => exact .inr (.inr rfl)
        | some semantics' => exact .inl rfl
  · have hsemantics := h.components_eq.2 hohlcv
    have hsemantics' := h'.components_eq.2 (hkind ▸ hohlcv)
    unfold components MemberRow.sealedVolumeSemanticsComponents
    rw [hsemantics, hsemantics', List.length_append, List.length_append, length_typed h,
      length_typed h', hkind]
    exact .inl rfl

theorem components_inj (h : Stored unicode row) (h' : Stored unicode row')
    (hkind : row.observationKind = row'.observationKind) (hplain : Plain row)
    (hplain' : Plain row') (hr : Codes.Continues '|' 36 r) (hs : Codes.Continues '|' 36 s)
    (heq : (components row).flatMap ('|' :: ·) ++ r =
      (components row').flatMap ('|' :: ·) ++ s) :
    components row = components row' ∧ r = s := by
  have hlength : (components row).length = (components row').length := by
    rcases length_components h h' hkind with hlength | hnil | hnil
    · exact hlength
    · cases hcomponents : components row' with
      | nil => rw [hnil]
      | cons c cs =>
          rw [hnil, hcomponents, List.flatMap_nil, List.nil_append, List.flatMap_cons,
            List.cons_append, List.cons_append] at heq
          rw [heq] at hr
          exact (hr.head_ne (by decide)).elim
    · cases hcomponents : components row with
      | nil => rw [hnil]
      | cons c cs =>
          rw [hnil, hcomponents, List.flatMap_nil, List.nil_append, List.flatMap_cons,
            List.cons_append, List.cons_append] at heq
          rw [← heq] at hs
          exact (hs.head_ne (by decide)).elim
  exact Codes.fields_inj hlength (h.barFree_components hplain) (h'.barFree_components hplain')
    hr hs heq

theorem elim_injective {α : Type} {f : α → List Text} {a b : Option α} (hne : ∀ x, f x ≠ [])
    (hinj : ∀ x ∈ a, ∀ y ∈ b, f x = f y → x = y) (h : a.elim [] f = b.elim [] f) : a = b := by
  cases a with
  | none =>
      cases b with
      | none => rfl
      | some y => exact absurd h.symm (hne y)
  | some x =>
      cases b with
      | none => exact absurd h (hne x)
      | some y => rw [hinj x rfl y rfl h]

theorem typedPayload_ne_nil (payload : TypedPayload) : payload.canonicalTuple ≠ [] := by
  cases payload <;> exact List.cons_ne_nil _ _

theorem sidecars_eq (h : Stored unicode row) (h' : Stored unicode row')
    (hkind : row.observationKind = row'.observationKind)
    (heq : components row = components row') :
    row.typedPayloadFromRow = row'.typedPayloadFromRow ∧
      row.volumeSemantics = row'.volumeSemantics := by
  unfold components MemberRow.sealedVolumeSemanticsComponents at heq
  by_cases hohlcv : row.observationKind = .ohlcv
  · have htyped := h.components_eq.1 hohlcv
    have htyped' := h'.components_eq.1 (hkind ▸ hohlcv)
    rw [htyped, htyped', Option.elim_none, List.nil_append, List.nil_append] at heq
    refine ⟨htyped.trans htyped'.symm, elim_injective (fun _ => List.cons_ne_nil _ _) ?_ heq⟩
    exact fun x hx y hy => OhlcvVolumeSemantics.canonicalTuple_injective (h.semantics x hx)
      (h'.semantics y hy)
  · have hsemantics := h.components_eq.2 hohlcv
    have hsemantics' := h'.components_eq.2 (hkind ▸ hohlcv)
    rw [hsemantics, hsemantics', Option.elim_none, List.append_nil, List.append_nil] at heq
    refine ⟨elim_injective typedPayload_ne_nil ?_ heq, hsemantics.trans hsemantics'.symm⟩
    exact fun x hx y hy => TypedPayload.canonicalTuple_injective (h.payload x hx)
      (h'.payload y hy)

theorem none_of_not {α : Type} {a : Option α} {p : Prop} (h : a.isSome = true ↔ p) (hp : ¬ p) :
    a = none := Option.not_isSome_iff_eq_none.mp fun hsome => hp (h.mp hsome)

theorem eq_of_sidecars (h : Stored unicode row) (h' : Stored unicode row')
    (hsame : SameEnvelope row row')
    (htyped : row.typedPayloadFromRow = row'.typedPayloadFromRow)
    (hsemantics : row.volumeSemantics = row'.volumeSemantics) : row = row' := by
  have hkind := hsame.kind
  unfold MemberRow.typedPayloadFromRow at htyped
  have hsettlement : row.settlement = row'.settlement := by
    by_cases hk : row.observationKind = .settlementPrice
    · rw [← hkind, hk] at htyped
      exact Option.map_injective (fun _ _ => TypedPayload.settlement.inj) htyped
    · rw [none_of_not h.settlement hk, none_of_not h'.settlement (hkind ▸ hk)]
  have hinterest : row.openInterest = row'.openInterest := by
    by_cases hk : row.observationKind = .openInterest
    · rw [← hkind, hk] at htyped
      exact Option.map_injective (fun _ _ => TypedPayload.openInterest.inj) htyped
    · rw [none_of_not h.openInterest hk, none_of_not h'.openInterest (hkind ▸ hk)]
  have hfunding : row.funding = row'.funding := by
    by_cases hk : row.observationKind = .fundingRateRealized ∨
        row.observationKind = .fundingRateIndicative
    · have hinj : Function.Injective (Option.map TypedPayload.funding) :=
        Option.map_injective fun _ _ => TypedPayload.funding.inj
      rcases hk with hk | hk
      · rw [← hkind, hk] at htyped
        exact hinj htyped
      · rw [← hkind, hk] at htyped
        exact hinj htyped
    · rw [none_of_not h.funding hk, none_of_not h'.funding (hkind ▸ hk)]
  have hprice : row.referencePrice = row'.referencePrice := by
    by_cases hk : row.observationKind = .markPrice ∨ row.observationKind = .indexPrice
    · have hinj : Function.Injective (Option.map TypedPayload.referencePrice) :=
        Option.map_injective fun _ _ => TypedPayload.referencePrice.inj
      rcases hk with hk | hk
      · rw [← hkind, hk] at htyped
        exact hinj htyped
      · rw [← hkind, hk] at htyped
        exact hinj htyped
    · rw [none_of_not h.referencePrice hk, none_of_not h'.referencePrice (hkind ▸ hk)]
  obtain ⟨hid, hsha, -, hvalue⟩ := hsame
  cases row
  cases row'
  simp_all

theorem envelope_inj (h : Stored unicode row) (h' : Stored unicode row')
    (heq : line row ++ r = line row' ++ s) : SameEnvelope row row' ∧
      (components row).flatMap ('|' :: ·) ++ r =
        (components row').flatMap ('|' :: ·) ++ s := by
  unfold line afterKey at heq
  simp only [List.append_assoc, List.cons_append] at heq
  obtain ⟨hkey, heq⟩ := Codes.field_inj (barFree_uuid _) (barFree_uuid _) heq
  obtain ⟨hsha, heq⟩ := Codes.field_inj h.barFree_sha256 h'.barFree_sha256 heq
  obtain ⟨hkind, heq⟩ := Codes.field_inj (barFree_kind _) (barFree_kind _) heq
  rw [h.canonical_eq, h'.canonical_eq] at heq
  obtain ⟨hvalue, heq⟩ := JsonText.flatObject_readOff heq
  exact ⟨⟨UuidText.text_inj h.id_lt h'.id_lt hkey, String.toList_inj.mp hsha,
    kind_value_injective (String.toList_inj.mp hkind), hvalue⟩, heq⟩

/-- A line is read off unless a free text of it, or of the line that it is taken for, has the
separator in it. -/
theorem line_inj (h : Stored unicode row) (h' : Stored unicode row')
    (hplain : SameEnvelope row row' → row ≠ row' → Plain row ∧ Plain row')
    (hr : Codes.Continues '|' 36 r) (hs : Codes.Continues '|' 36 s)
    (heq : line row ++ r = line row' ++ s) : row = row' ∧ r = s := by
  by_cases hrow : row = row'
  · subst hrow
    exact ⟨rfl, List.append_cancel_left heq⟩
  · obtain ⟨hsame, htail⟩ := envelope_inj h h' heq
    obtain ⟨hfree, hfree'⟩ := hplain hsame hrow
    obtain ⟨hcomponents, hrest⟩ := components_inj h h' hsame.kind hfree hfree' hr hs htail
    obtain ⟨htyped, hsemantics⟩ := sidecars_eq h h' hsame.kind hcomponents
    exact ⟨eq_of_sidecars h h' hsame htyped hsemantics, hrest⟩

def PlainWhereApart (rows rows' : List MemberRow) : Prop :=
  ∀ row ∈ rows, ∀ row' ∈ rows', SameEnvelope row row' → row ≠ row' → Plain row ∧ Plain row'

theorem lines_inj (h : ∀ row ∈ rows, Stored unicode row) (h' : ∀ row ∈ rows', Stored unicode row)
    (hplain : PlainWhereApart rows rows')
    (heq : (rows.map line).flatten = (rows'.map line).flatten) : rows = rows' := by
  have hne : ∀ (row : MemberRow) (rest : Text), [] ≠ line row ++ rest := by
    intro row rest hnil
    have hlength := congrArg List.length hnil
    simp [line] at hlength
  induction rows generalizing rows' with
  | nil =>
      cases rows' with
      | nil => rfl
      | cons row' rows' => exact absurd heq (hne row' _)
  | cons row rows ih =>
      cases rows' with
      | nil => exact absurd heq.symm (hne row _)
      | cons row' rows' =>
          rw [List.map_cons, List.map_cons, List.flatten_cons, List.flatten_cons] at heq
          obtain ⟨rfl, hrest⟩ := line_inj (h row List.mem_cons_self) (h' row' List.mem_cons_self)
            (hplain row List.mem_cons_self row' List.mem_cons_self) (continues_lines rows)
            (continues_lines rows') heq
          rw [ih (fun x hx => h x (List.mem_cons_of_mem _ hx))
            (fun x hx => h' x (List.mem_cons_of_mem _ hx))
            (fun x hx y hy => hplain x (List.mem_cons_of_mem _ hx) y (List.mem_cons_of_mem _ hy))
            hrest]

/-- The folded text tells the members and their typed values, as long as members of one envelope
that differ have no separator in their free texts. -/
theorem foldedText_tells_members (h : ∀ row ∈ rows, Stored unicode row)
    (h' : ∀ row ∈ rows', Stored unicode row) (hplain : PlainWhereApart rows rows')
    (heq : foldedText rows = foldedText rows') : rows = rows' := by
  rw [foldedText_stored h, foldedText_stored h'] at heq
  exact lines_inj h h' hplain (Except.ok.inj heq)

/-! ## A separator that is taken for another -/

end Lines

/-! ## The digest of the store -/

section Digest

variable {texts : ScheduledAcquisition.Env} {m : NormalizedRow × RawRow} {row : MemberRow}
  {members : List (NormalizedRow × RawRow)} {rows : List MemberRow}

end Digest

/-! ### A bar whose sidecar has a bar in its version -/

namespace Sample

def unicode : Unicode where
  isalnum := Char.isAlphanum
  upper text := String.ofList (text.toList.map Char.toUpper)
  bar := by decide

def sha256 : String := String.ofList (List.replicate 64 '0')

def value : List (String × Option String) :=
  [("close", some "1"), ("high", some "1"), ("interval", some "1h"), ("low", some "1"),
    ("open", some "1"), ("volume", some "2")]

theorem sha256_hex : sha256.length = 64 ∧
    ∀ c ∈ sha256.toList, c ∈ "0123456789abcdef".toList := by
  have hzero : '0' ∈ "0123456789abcdef".toList := by decide
  unfold sha256
  rw [String.length_ofList, List.length_replicate, String.toList_ofList]
  refine ⟨rfl, fun c hc => ?_⟩
  rwa [List.eq_of_mem_replicate hc]

theorem value_ordered : value.Pairwise fun a b => a.1 < b.1 := by decide +kernel

def barRow (version reference : String) : MemberRow where
  normalizedObservationId := 7
  rawPayloadSha256 := sha256
  observationKind := .ohlcv
  normalizedValue := value
  settlement := none
  openInterest := none
  funding := none
  referencePrice := none
  volumeSemantics := some {
    volumeUnit := .baseAsset
    volumeAsset := some "BTC"
    turnover := ⟨false, 2, 0⟩
    turnoverUnit := .quoteAsset
    turnoverAsset := some "USDT"
    semanticVersion := version
    sourceReference := reference }

theorem barRow_stored {version reference : String} (hversion : blank version = false)
    (hreference : blank reference = false) : Stored unicode (barRow version reference) where
  id_lt := by
    show 7 < 2 ^ 128
    decide
  sha256 := sha256_hex
  ordered := value_ordered
  settlement := by simp [barRow]
  openInterest := by simp [barRow]
  funding := by simp [barRow]
  referencePrice := by simp [barRow]
  volumeSemantics := fun _ => rfl
  payload := nofun
  semantics := by
    intro semantics hsemantics
    obtain rfl := Option.some.inj hsemantics
    refine ⟨⟨"BTC", rfl, ?_⟩, ⟨"USDT", rfl, ?_⟩, ?_, hversion, hreference⟩
    · exact ⟨by decide +kernel, by decide +kernel, by decide +kernel⟩
    · exact ⟨by decide +kernel, by decide +kernel, by decide +kernel⟩
    · norm_num [Decimal.Parts.value, Decimal.Parts.sign]

end Sample

/-- Two bars that differ in the version of their sidecar, and so in the text that is folded. -/
theorem foldedText_tells_versions :
    foldedText [Sample.barRow "v1" "kline"] ≠ foldedText [Sample.barRow "v2" "kline"] := by
  have hfree : ∀ version ∈ ["v1", "v2"], Plain (Sample.barRow version "kline") := by
    unfold Plain
    decide +kernel
  intro heq
  have hsame : [Sample.barRow "v1" "kline"] = [Sample.barRow "v2" "kline"] := by
    refine @foldedText_tells_members Sample.unicode _ _ ?_ ?_ ?_ heq
    · intro row hrow
      obtain rfl := List.mem_singleton.mp hrow
      exact Sample.barRow_stored (by decide) (by decide)
    · intro row hrow
      obtain rfl := List.mem_singleton.mp hrow
      exact Sample.barRow_stored (by decide) (by decide)
    · intro row hrow row' hrow' _ _
      obtain rfl := List.mem_singleton.mp hrow
      obtain rfl := List.mem_singleton.mp hrow'
      exact ⟨hfree _ (by simp), hfree _ (by simp)⟩
  exact absurd hsame (by decide)

/-- One folded text of two bars: the first bar in the version is taken for the separator. -/
theorem one_text_of_two_sidecars :
    Stored Sample.unicode (Sample.barRow "v1|bybit" "kline") ∧
      Stored Sample.unicode (Sample.barRow "v1" "bybit|kline") ∧
      Sample.barRow "v1|bybit" "kline" ≠ Sample.barRow "v1" "bybit|kline" ∧
      foldedText [Sample.barRow "v1|bybit" "kline"] =
        foldedText [Sample.barRow "v1" "bybit|kline"] := by
  have h := @Sample.barRow_stored "v1|bybit" "kline" (by decide) (by decide)
  have h' := @Sample.barRow_stored "v1" "bybit|kline" (by decide) (by decide)
  refine ⟨h, h', by decide, ?_⟩
  decide +kernel

end TradePlatform.SealedMembers
