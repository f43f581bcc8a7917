/-
# `TradePlatform.T4MarkResolution` — what a resolved mark price proves

A result of `resolve_settlement_mark_price_v1` names the one supplied segment whose cited rows lie in
complete hours of its session, its price is that of every supplied mark stamped at the instant, and
where there is none its candidates are the closest marks of the segment (`Resolved`).  The datasets
are sorted before anything depends on their order, so that an order of them changes nothing.
-/
import TradePlatform.T4MarkPrice

namespace TradePlatform

namespace T4Mark

open HourlyAcceptance (HourlyAcceptanceV1 hourNanos)
open IsoText (Stamp)

/-! ## The order of the rows -/

theorem checkNext_ok {previous row : T4TickerRowClockV1} (h : checkNext previous row = .ok ()) :
    previous.exchangeTsMillis ≤ row.exchangeTsMillis := by
  rw [checkNext] at h
  split at h
  · obtain ⟨hsame, -⟩ := Except.of_ite_error h
    rw [not_or, not_not] at hsame
    exact hsame.1.2.1.ge
  · obtain ⟨hlt, -⟩ := Except.of_ite_error h
    simp only [not_or, not_lt] at hlt
    exact hlt.2.2

theorem checkOrderFrom_ok {previous : Option T4TickerRowClockV1} {rows : List T4TickerRowClockV1}
    (h : checkOrderFrom previous rows = .ok ()) :
    (previous.toList ++ rows).Pairwise fun a b => a.exchangeTsMillis ≤ b.exchangeTsMillis := by
  induction rows generalizing previous with
  | nil => cases previous <;> simp
  | cons row rows ih =>
      obtain ⟨-, h⟩ := Except.of_ite_error h
      obtain ⟨⟨⟩, hnext, hrest⟩ := Except.bind_eq_ok.mp h
      have hpairwise := ih hrest
      cases previous with
      | none => simpa using hpairwise
      | some previous =>
          have hle := checkNext_ok hnext
          have hrow := (List.pairwise_cons.mp hpairwise).1
          refine List.pairwise_cons.mpr ⟨fun other hother => ?_, hpairwise⟩
          rcases List.mem_cons.mp hother with rfl | hother
          · exact hle
          · exact hle.trans (hrow other hother)

namespace T4MarkEvidenceDatasetV1

variable (dataset : T4MarkEvidenceDatasetV1)

theorem marks_pairwise :
    dataset.marks.Pairwise fun a b => a.exchangeTsMillis ≤ b.exchangeTsMillis := by
  have hrows := checkOrderFrom_ok dataset.order
  have hclocks := (hrows.sublist List.filter_sublist :
    (dataset.tickerRows.filter fun row => decide (row.component = componentMark)).Pairwise _)
  rw [← dataset.marks_clock, List.pairwise_map] at hclocks
  exact hclocks

end T4MarkEvidenceDatasetV1

section Ends

variable {α : Type} {key : α → ℤ} {l : List α} {a : α}

theorem le_getLast (hsorted : l.Pairwise fun a b => key a ≤ key b) (h : l.getLast? = some a) :
    ∀ b ∈ l, key b ≤ key a := by
  obtain ⟨front, rfl⟩ := List.getLast?_eq_some_iff.mp h
  intro b hb
  rcases List.mem_append.mp hb with hb | hb
  · exact (List.pairwise_append.mp hsorted).2.2 b hb a List.mem_cons_self
  · rw [List.mem_singleton.mp hb]

theorem head_le (hsorted : l.Pairwise fun a b => key a ≤ key b) (h : l.head? = some a) :
    ∀ b ∈ l, key a ≤ key b := by
  obtain ⟨rest, rfl⟩ := List.head?_eq_some_iff.mp h
  intro b hb
  rcases List.mem_cons.mp hb with rfl | hb
  · exact le_rfl
  · exact (List.pairwise_cons.mp hsorted).1 b hb

end Ends

/-! ## Hours -/

variable {acceptance : HourlyAcceptanceV1} {symbol : String} {instant : ℤ} {knownBy : Stamp}
  {dataset other : T4MarkEvidenceDatasetV1} {datasets ordered : List T4MarkEvidenceDatasetV1}

def InCompleteHour (acceptance : HourlyAcceptanceV1) (symbol : String) (sessionId : UUID)
    (row : T4TickerRowClockV1) : Prop :=
  ∃ item ∈ acceptance.symbols, item.symbol = symbol ∧ ∃ segment ∈ item.segments,
    segment.hourStartUtcNanos = hourStartOf row.arrivalUtcNanos ∧ segment.complete = true ∧
      segment.sessionId = some sessionId

theorem segmentEvidence_ok {sessionId : UUID} {hourStart : ℤ}
    {segment : HourlyAcceptance.HourlySegmentV1} {evidence : T4HourEvidenceV1}
    (h : segmentEvidence acceptance sessionId hourStart segment = .ok evidence) :
    segment.hourStartUtcNanos = hourStart ∧ segment.complete = true ∧
      segment.sessionId = some sessionId := by
  obtain ⟨hstart, h⟩ := Except.of_ite_error h
  obtain ⟨hcomplete, h⟩ := Except.of_ite_error h
  cases hsession : segment.sessionId with
  | none => simp [hsession, refuse] at h
  | some proven =>
      cases hunproven : segment.unprovenNanos with
      | none => simp [hsession, hunproven, refuse] at h
      | some unproven =>
          simp only [hsession, hunproven] at h
          obtain ⟨hproven, -⟩ := Except.of_ite_error h
          rw [not_not.mp hproven]
          exact ⟨not_not.mp hstart, by simpa using hcomplete, rfl⟩

theorem hour_ok {sessionId : UUID} {row : T4TickerRowClockV1} {evidence : T4HourEvidenceV1}
    (h : hour acceptance symbol sessionId row.arrivalUtcNanos = .ok evidence) :
    InCompleteHour acceptance symbol sessionId row := by
  rw [hour] at h
  split at h
  · rename_i item hitems
    have hitem : item ∈ acceptance.symbols.filter fun item => decide (item.symbol = symbol) := by
      rw [hitems]
      exact List.mem_cons_self
    obtain ⟨hmem, hsymbol⟩ := List.mem_filter.mp hitem
    split at h
    · cases h
    · obtain ⟨-, h⟩ := Except.of_ite_error h
      obtain ⟨-, h⟩ := Except.of_ite_error h
      split at h
      · cases h
      · rename_i segment hsegment
        exact ⟨item, hmem, of_decide_eq_true hsymbol, segment, List.mem_of_getElem? hsegment,
          segmentEvidence_ok h⟩
  · cases h

theorem hoursOf_ok {rows : List T4TickerRowClockV1} {hours : List T4HourEvidenceV1}
    (h : hoursOf acceptance symbol dataset rows = .ok hours) :
    ∀ row ∈ rows, ∃ evidence,
      hour acceptance symbol dataset.sessionId row.arrivalUtcNanos = .ok evidence := by
  intro row hrow
  rw [hoursOf] at h
  cases hmap : rows.mapM fun row =>
      hour acceptance symbol dataset.sessionId row.arrivalUtcNanos with
  | error error => simp [hmap, Except.map] at h
  | ok found =>
      obtain ⟨evidence, -, hevidence⟩ := (Except.mapM_iff_forall₂.mp hmap).exists_of_mem hrow
      exact ⟨evidence, hevidence⟩

theorem hoursOf_of_rows {rows : List T4TickerRowClockV1}
    (h : ∀ row ∈ rows, ∃ evidence,
      hour acceptance symbol dataset.sessionId row.arrivalUtcNanos = .ok evidence) :
    ∃ hours, hoursOf acceptance symbol dataset rows = .ok hours := by
  have hnonempty : Nonempty T4HourEvidenceV1 := ⟨⟨0, 0, 0, 0⟩⟩
  choose! evidence hevidence using h
  rw [hoursOf, Except.mapM_eq_ok hevidence]
  exact ⟨_, rfl⟩

/-! ## Datasets that prove the instant -/

def Proves (acceptance : HourlyAcceptanceV1) (symbol : String) (instant : ℤ)
    (dataset : T4MarkEvidenceDatasetV1) : Prop :=
  ∃ found, bracket dataset instant = some found ∧ ∀ row ∈ found.cited, ∃ evidence,
    hour acceptance symbol dataset.sessionId row.arrivalUtcNanos = .ok evidence

theorem mem_bracketingOf {item : T4MarkEvidenceDatasetV1 × Bracket} :
    item ∈ bracketingOf instant ordered ↔
      item.1 ∈ ordered ∧ bracket item.1 instant = some item.2 := by
  obtain ⟨dataset, found⟩ := item
  simp only [bracketingOf, List.mem_filterMap, Option.map_eq_some_iff, Prod.mk.injEq]
  constructor
  · rintro ⟨dataset', hmem, found', hfound, rfl, rfl⟩
    exact ⟨hmem, hfound⟩
  · rintro ⟨hmem, hfound⟩
    exact ⟨dataset, hmem, found, hfound, rfl, rfl⟩

theorem judge_right {item : T4MarkEvidenceDatasetV1 × Bracket} {accepted : Accepted}
    (h : judge acceptance symbol item = .ok (.inr accepted)) :
    accepted.dataset = item.1 ∧ accepted.found = item.2 ∧
      hoursOf acceptance symbol item.1 item.2.cited = .ok accepted.hours := by
  rw [judge] at h
  split at h
  · rename_i hours hhours
    cases h
    exact ⟨rfl, rfl, hhours⟩
  · cases h
  · cases h

theorem judge_of_proved {item : T4MarkEvidenceDatasetV1 × Bracket}
    (h : ∀ row ∈ item.2.cited, ∃ evidence,
      hour acceptance symbol item.1.sessionId row.arrivalUtcNanos = .ok evidence) :
    ∃ accepted, judge acceptance symbol item = .ok (.inr accepted) := by
  obtain ⟨hours, hhours⟩ := hoursOf_of_rows h
  rw [judge, hhours]
  exact ⟨_, rfl⟩

structure OneAccepted (acceptance : HourlyAcceptanceV1) (symbol : String) (instant : ℤ)
    (ordered : List T4MarkEvidenceDatasetV1) (accepted : Accepted) : Prop where
  mem : accepted.dataset ∈ ordered
  found : bracket accepted.dataset instant = some accepted.found
  hours : ∀ row ∈ accepted.found.cited, ∃ evidence,
    hour acceptance symbol accepted.dataset.sessionId row.arrivalUtcNanos = .ok evidence
  only : ∀ other ∈ ordered, Proves acceptance symbol instant other → other = accepted.dataset

theorem resolveOrdered_ok {result : T4SettlementMarkPriceV1}
    (h : resolveOrdered acceptance symbol instant ordered knownBy = .ok result) :
    ∃ accepted, OneAccepted acceptance symbol instant ordered accepted ∧
      conclude acceptance symbol instant ordered knownBy accepted = .ok result := by
  obtain ⟨-, h⟩ := Except.of_ite_error h
  obtain ⟨judged, hjudged, h⟩ := Except.bind_eq_ok.mp h
  have hpairs := Except.mapM_iff_forall₂.mp hjudged
  split at h
  · rename_i accepted haccepted
    have hmem : accepted ∈ judged.filterMap Sum.getRight? := by
      rw [haccepted]
      exact List.mem_cons_self
    obtain ⟨verdict, hverdict, hright⟩ := List.mem_filterMap.mp hmem
    obtain rfl := Sum.getRight?_eq_some_iff.mp hright
    obtain ⟨item, hitem, hjudge⟩ := hpairs.flip.exists_of_mem hverdict
    obtain ⟨hdataset, hfound, hhours⟩ := judge_right hjudge
    obtain ⟨hordered, hbracket⟩ := mem_bracketingOf.mp hitem
    refine ⟨accepted, ⟨hdataset ▸ hordered, by rw [hdataset, hfound, hbracket], ?_, ?_⟩, h⟩
    · rw [hdataset, hfound]
      exact hoursOf_ok hhours
    · rintro other hother ⟨found, hbracket', hproved⟩
      have hitem' : (other, found) ∈ bracketingOf instant ordered :=
        mem_bracketingOf.mpr ⟨hother, hbracket'⟩
      obtain ⟨verdict', hverdict', hjudge'⟩ := hpairs.exists_of_mem hitem'
      obtain ⟨accepted', haccepted'⟩ := @judge_of_proved acceptance symbol (other, found) hproved
      rw [hjudge'] at haccepted'
      cases haccepted'
      have hmem' : accepted' ∈ judged.filterMap Sum.getRight? :=
        List.mem_filterMap.mpr ⟨_, hverdict', rfl⟩
      rw [haccepted, List.mem_singleton] at hmem'
      rw [← hmem', (judge_right hjudge').1]
  · cases h
  · cases h
  · cases h

/-! ## The candidates -/

def ClosestBefore (instant : ℤ) (dataset : T4MarkEvidenceDatasetV1)
    (mark : T4MarkObservationV1) : Prop :=
  mark ∈ dataset.marks ∧ mark.exchangeTsMillis < instant ∧
    ∀ other ∈ dataset.marks, other.exchangeTsMillis < instant →
      other.exchangeTsMillis ≤ mark.exchangeTsMillis

def ClosestAfter (instant : ℤ) (dataset : T4MarkEvidenceDatasetV1)
    (mark : T4MarkObservationV1) : Prop :=
  mark ∈ dataset.marks ∧ instant < mark.exchangeTsMillis ∧
    ∀ other ∈ dataset.marks, instant < other.exchangeTsMillis →
      mark.exchangeTsMillis ≤ other.exchangeTsMillis

def Candidate (instant : ℤ) (dataset : T4MarkEvidenceDatasetV1) (near : T4NearbyMarkV1) : Prop :=
  near.offsetMillis = near.observation.exchangeTsMillis - instant ∧
    match near.side with
    | .before => ClosestBefore instant dataset near.observation
    | .after => ClosestAfter instant dataset near.observation

theorem candidatesOf_sound :
    ∀ near ∈ candidatesOf instant dataset, Candidate instant dataset near := by
  have hsorted := dataset.marks_pairwise
  intro near hnear
  simp only [candidatesOf, List.mem_append, Option.mem_toList,
    Option.map_eq_some_iff] at hnear
  rcases hnear with ⟨mark, hlast, rfl⟩ | ⟨mark, hhead, rfl⟩
  · have hmem := List.mem_of_getLast? hlast
    rw [List.mem_filter, decide_eq_true_eq] at hmem
    have hle := le_getLast (hsorted.sublist List.filter_sublist) hlast
    exact ⟨rfl, hmem.1, hmem.2, fun other hother hlt =>
      hle other (List.mem_filter.mpr ⟨hother, decide_eq_true hlt⟩)⟩
  · have hmem := List.mem_of_head? hhead
    rw [List.mem_filter, decide_eq_true_eq] at hmem
    have hle := head_le (hsorted.sublist List.filter_sublist) hhead
    exact ⟨rfl, hmem.1, hmem.2, fun other hother hlt =>
      hle other (List.mem_filter.mpr ⟨hother, decide_eq_true hlt⟩)⟩

theorem candidatesOf_before {mark : T4MarkObservationV1} (hmem : mark ∈ dataset.marks)
    (hlt : mark.exchangeTsMillis < instant) :
    ∃ near ∈ candidatesOf instant dataset, near.side = .before := by
  have hmark : mark ∈ dataset.marks.filter fun mark => decide (mark.exchangeTsMillis < instant) :=
    List.mem_filter.mpr ⟨hmem, decide_eq_true hlt⟩
  obtain ⟨last, hlast⟩ : ∃ last, (dataset.marks.filter fun mark =>
      decide (mark.exchangeTsMillis < instant)).getLast? = some last :=
    ⟨_, List.getLast?_eq_some_getLast (List.ne_nil_of_mem hmark)⟩
  refine ⟨⟨.before, last.exchangeTsMillis - instant, last⟩, ?_, rfl⟩
  rw [candidatesOf, hlast]
  exact List.mem_append_left _ List.mem_cons_self

theorem candidatesOf_after {mark : T4MarkObservationV1} (hmem : mark ∈ dataset.marks)
    (hlt : instant < mark.exchangeTsMillis) :
    ∃ near ∈ candidatesOf instant dataset, near.side = .after := by
  have hmark : mark ∈ dataset.marks.filter fun mark => decide (instant < mark.exchangeTsMillis) :=
    List.mem_filter.mpr ⟨hmem, decide_eq_true hlt⟩
  obtain ⟨first, hhead⟩ : ∃ first, (dataset.marks.filter fun mark =>
      decide (instant < mark.exchangeTsMillis)).head? = some first :=
    ⟨_, List.head?_eq_some_head (List.ne_nil_of_mem hmark)⟩
  refine ⟨⟨.after, first.exchangeTsMillis - instant, first⟩, ?_, rfl⟩
  rw [candidatesOf, hhead]
  exact List.mem_append_right _ List.mem_cons_self

/-! ## What a result says -/

theorem le_foldl_max (l : List ℤ) (start : ℤ) :
    start ≤ l.foldl max start ∧ ∀ x ∈ l, x ≤ l.foldl max start := by
  induction l generalizing start with
  | nil => simp
  | cons y l ih =>
      obtain ⟨hstart, hrest⟩ := ih (max start y)
      rw [List.foldl_cons]
      refine ⟨(le_max_left start y).trans hstart, fun x hx => ?_⟩
      rcases List.mem_cons.mp hx with rfl | hx
      · exact (le_max_right start x).trans hstart
      · exact hrest x hx

theorem le_knowableAtMicros (result : T4SettlementMarkPriceV1) :
    ∀ row ∈ result.cited, row.marketKnowledgeMicros ≤ result.knowableAtMicros := by
  obtain ⟨hstart, hrest⟩ := le_foldl_max
    (result.cited.tail.map T4TickerRowClockV1.marketKnowledgeMicros)
    result.bracketBefore.marketKnowledgeMicros
  intro row hrow
  rcases List.mem_cons.mp hrow with rfl | hrow
  · exact hstart
  · exact hrest _ (List.mem_map_of_mem hrow)

structure Resolved (acceptance : HourlyAcceptanceV1) (symbol : String) (instant : ℤ)
    (knownBy : Stamp) (datasets : List T4MarkEvidenceDatasetV1)
    (result : T4SettlementMarkPriceV1) : Prop where
  mem : result.dataset ∈ datasets
  proves : Proves acceptance symbol instant result.dataset
  only : ∀ other ∈ datasets, Proves acceptance symbol instant other → other = result.dataset
  hours : ∀ row ∈ result.cited, InCompleteHour acceptance symbol result.dataset.sessionId row
  exact_iff : result.status = .exactVenueTimestampMatch ↔
    ∃ mark ∈ result.dataset.marks, mark.exchangeTsMillis = instant
  price : result.status = .exactVenueTimestampMatch →
    ∃ price, result.markPrice = some price ∧ ∀ dataset ∈ datasets, ∀ mark ∈ dataset.marks,
      mark.exchangeTsMillis = instant → mark.price = price
  none_at : result.status = .nearbyOnlyUnresolvedSelectionConvention →
    ∀ dataset ∈ datasets, ∀ mark ∈ dataset.marks, mark.exchangeTsMillis ≠ instant
  candidates : result.status = .nearbyOnlyUnresolvedSelectionConvention →
    (∀ near ∈ result.nearby, Candidate instant result.dataset near) ∧
    ((∃ mark ∈ result.dataset.marks, mark.exchangeTsMillis < instant) →
      ∃ near ∈ result.nearby, near.side = .before) ∧
    ((∃ mark ∈ result.dataset.marks, instant < mark.exchangeTsMillis) →
      ∃ near ∈ result.nearby, near.side = .after)
  known : ∃ known, knownByMicros knownBy = .ok known ∧
    ∀ row ∈ result.cited, row.marketKnowledgeMicros ≤ known

theorem bracket_exact {found : Bracket} (h : bracket dataset instant = some found) :
    found.exact = dataset.marks.filter fun mark => decide (mark.exchangeTsMillis = instant) := by
  rw [bracket] at h
  split at h
  · cases h
    rfl
  · cases h

theorem mem_othersOf {mark : T4MarkObservationV1} : mark ∈ othersOf instant ordered dataset ↔
    ∃ item ∈ ordered, item.datasetVersionId ≠ dataset.datasetVersionId ∧ mark ∈ item.marks ∧
      mark.exchangeTsMillis = instant := by
  simp only [othersOf, List.mem_flatMap, List.mem_filter, decide_eq_true_eq, and_assoc]

theorem price_mem {accepted : Accepted}
    (hone : OneAccepted acceptance symbol instant ordered accepted)
    (htells : KeyTells T4MarkEvidenceDatasetV1.datasetVersionId ordered)
    (hagree : ∀ mark ∈ othersOf instant ordered accepted.dataset,
      mark.price ∈ accepted.found.exact.map T4MarkObservationV1.price) :
    ∀ dataset ∈ ordered, ∀ mark ∈ dataset.marks, mark.exchangeTsMillis = instant →
      mark.price ∈ accepted.found.exact.map T4MarkObservationV1.price := by
  intro dataset hdataset mark hmark hinstant
  by_cases hid : dataset.datasetVersionId = accepted.dataset.datasetVersionId
  · obtain rfl := htells dataset hdataset accepted.dataset hone.mem hid
    rw [bracket_exact hone.found]
    exact List.mem_map_of_mem (List.mem_filter.mpr ⟨hmark, decide_eq_true hinstant⟩)
  · exact hagree mark (mem_othersOf.mpr ⟨dataset, hdataset, hid, hmark, hinstant⟩)

theorem conclude_ok {accepted : Accepted} {result : T4SettlementMarkPriceV1}
    (h : conclude acceptance symbol instant ordered knownBy accepted = .ok result) :
    (accepted.found.exact.map T4MarkObservationV1.price).dedup.length ≤ 1 ∧
      (∀ mark ∈ othersOf instant ordered accepted.dataset,
        mark.price ∈ accepted.found.exact.map T4MarkObservationV1.price) ∧
      resultOf acceptance symbol instant accepted
        (othersOf instant ordered accepted.dataset) = .ok result ∧
      ∃ known, knownByMicros knownBy = .ok known ∧ result.knowableAtMicros ≤ known := by
  obtain ⟨hone, h⟩ := Except.of_ite_error h
  obtain ⟨hagree, h⟩ := Except.of_ite_error h
  obtain ⟨result', hresult, h⟩ := Except.bind_eq_ok.mp h
  obtain ⟨known, hknown, h⟩ := Except.bind_eq_ok.mp h
  obtain ⟨hle, h⟩ := Except.of_ite_error h
  cases h
  refine ⟨not_lt.mp hone, fun mark hmark => ?_, hresult, known, hknown, not_lt.mp hle⟩
  by_contra hnot
  exact hagree ⟨mark, hmark, fun hmem => hnot (List.mem_dedup.mp hmem)⟩

theorem eq_of_dedup_length {l : List Decimal} (h : l.dedup.length ≤ 1) {a b : Decimal}
    (ha : a ∈ l) (hb : b ∈ l) : a = b := by
  rw [← List.mem_dedup] at ha hb
  match l.dedup, h, ha, hb with
  | [c], _, ha, hb => rw [List.mem_singleton.mp ha, List.mem_singleton.mp hb]
  | _ :: _ :: _, h, _, _ => simp at h

theorem resolved_of_accepted {accepted : Accepted} {result : T4SettlementMarkPriceV1}
    (hone : OneAccepted acceptance symbol instant ordered accepted)
    (htells : KeyTells T4MarkEvidenceDatasetV1.datasetVersionId ordered)
    (h : conclude acceptance symbol instant ordered knownBy accepted = .ok result) :
    Resolved acceptance symbol instant knownBy ordered result := by
  obtain ⟨hprices, hagree, hresult, known, hknown, hle⟩ := conclude_ok h
  have hprice := price_mem hone htells hagree
  have hexact := bracket_exact hone.found
  have hproves : Proves acceptance symbol instant accepted.dataset :=
    ⟨accepted.found, hone.found, hone.hours⟩
  have hrows : ∀ row ∈ accepted.found.cited,
      InCompleteHour acceptance symbol accepted.dataset.sessionId row := by
    intro row hrow
    obtain ⟨evidence, hevidence⟩ := hone.hours row hrow
    exact hour_ok hevidence
  have hknowledge : ∀ row ∈ result.cited, row.marketKnowledgeMicros ≤ known :=
    fun row hrow => (le_knowableAtMicros result row hrow).trans hle
  rw [resultOf] at hresult
  split at hresult
  · rename_i mark rest hmarks
    cases hresult
    have hmark : mark ∈ accepted.found.exact := hmarks ▸ List.mem_cons_self
    rw [hexact, List.mem_filter, decide_eq_true_eq] at hmark
    exact {
      mem := hone.mem
      proves := hproves
      only := hone.only
      hours := fun row hrow => hrows row (by
        simpa [T4SettlementMarkPriceV1.cited, Bracket.cited] using hrow)
      exact_iff := ⟨fun _ => ⟨mark, hmark⟩, fun _ => rfl⟩
      price := fun _ => ⟨mark.price, rfl, fun dataset hdataset other hother hinstant =>
        eq_of_dedup_length hprices (hprice dataset hdataset other hother hinstant)
          (hmarks ▸ List.mem_cons_self)⟩
      none_at := fun hstatus => by cases hstatus
      candidates := fun hstatus => by cases hstatus
      known := ⟨known, hknown, hknowledge⟩ }
  · rename_i hmarks
    obtain ⟨extra, hextra, hresult⟩ := Except.bind_eq_ok.mp hresult
    cases hresult
    have hnone : ∀ dataset ∈ ordered, ∀ mark ∈ dataset.marks, mark.exchangeTsMillis ≠ instant := by
      intro dataset hdataset mark hmark hinstant
      have hmem := hprice dataset hdataset mark hmark hinstant
      rw [hmarks] at hmem
      cases hmem
    exact {
      mem := hone.mem
      proves := hproves
      only := hone.only
      hours := fun row hrow => by
        rcases List.mem_cons.mp hrow with rfl | hrow
        · exact hrows _ List.mem_cons_self
        · rcases List.mem_cons.mp hrow with rfl | hrow
          · exact hrows _ (List.mem_cons_of_mem _ List.mem_cons_self)
          · obtain ⟨near, hnear, rfl⟩ := List.mem_map.mp hrow
            obtain ⟨evidence, hevidence⟩ := hoursOf_ok hextra _ (List.mem_map_of_mem hnear)
            exact hour_ok hevidence
      exact_iff := ⟨fun hstatus => (by cases hstatus),
        fun ⟨mark, hmark, hinstant⟩ => absurd hinstant (hnone _ hone.mem mark hmark)⟩
      price := fun hstatus => by cases hstatus
      none_at := fun _ => hnone
      candidates := fun _ => ⟨candidatesOf_sound,
        fun ⟨_, hmem, hlt⟩ => candidatesOf_before hmem hlt,
        fun ⟨_, hmem, hlt⟩ => candidatesOf_after hmem hlt⟩
      known := ⟨known, hknown, hknowledge⟩ }

/-! ## Resolution -/

theorem keyTells_of_dedup
    (h : (datasets.map T4MarkEvidenceDatasetV1.datasetVersionId).dedup.length = datasets.length) :
    KeyTells T4MarkEvidenceDatasetV1.datasetVersionId datasets := by
  have hnodup : (datasets.map T4MarkEvidenceDatasetV1.datasetVersionId).Nodup := by
    rw [← List.dedup_eq_self]
    exact (List.dedup_sublist _).eq_of_length (h.trans (List.length_map _).symm)
  exact fun a ha b hb hab => List.inj_on_of_nodup_map hnodup ha hb hab

theorem resolve_ok {result : T4SettlementMarkPriceV1}
    (h : resolveSettlementMarkPriceV1 acceptance symbol instant datasets knownBy = .ok result) :
    Resolved acceptance symbol instant knownBy datasets result := by
  obtain ⟨-, h⟩ := Except.of_ite_error h
  obtain ⟨-, h⟩ := Except.of_ite_error h
  obtain ⟨-, h⟩ := Except.of_ite_error h
  obtain ⟨-, h⟩ := Except.of_ite_error h
  obtain ⟨hids, h⟩ := Except.of_ite_error h
  have htells := keyTells_of_dedup (not_not.mp hids)
  have hmem : ∀ item, item ∈ sortBy T4MarkEvidenceDatasetV1.datasetVersionId datasets ↔
      item ∈ datasets := fun item => mem_sortBy
  obtain ⟨accepted, hone, hconclude⟩ := resolveOrdered_ok h
  have htells' : KeyTells T4MarkEvidenceDatasetV1.datasetVersionId
      (sortBy T4MarkEvidenceDatasetV1.datasetVersionId datasets) :=
    fun a ha b hb => htells a ((hmem a).mp ha) b ((hmem b).mp hb)
  have hresolved := resolved_of_accepted hone htells' hconclude
  exact {
    mem := (hmem _).mp hresolved.mem
    proves := hresolved.proves
    only := fun other hother => hresolved.only other ((hmem other).mpr hother)
    hours := hresolved.hours
    exact_iff := hresolved.exact_iff
    price := fun hstatus => by
      obtain ⟨price, hprice, hall⟩ := hresolved.price hstatus
      exact ⟨price, hprice, fun dataset hdataset => hall dataset ((hmem dataset).mpr hdataset)⟩
    none_at := fun hstatus dataset hdataset =>
      hresolved.none_at hstatus dataset ((hmem dataset).mpr hdataset)
    candidates := hresolved.candidates
    known := hresolved.known }

theorem resolve_congr (h : datasets.Perm ordered) :
    resolveSettlementMarkPriceV1 acceptance symbol instant datasets knownBy =
      resolveSettlementMarkPriceV1 acceptance symbol instant ordered knownBy := by
  have hnil : datasets = [] ↔ ordered = [] := by
    rw [← List.length_eq_zero_iff, ← List.length_eq_zero_iff, h.length_eq]
  have hsymbols : (∃ item ∈ datasets, item.exchangeSymbol ≠ symbol) ↔
      ∃ item ∈ ordered, item.exchangeSymbol ≠ symbol := by
    simp only [h.mem_iff]
  have hids : (datasets.map T4MarkEvidenceDatasetV1.datasetVersionId).dedup.length =
      (ordered.map T4MarkEvidenceDatasetV1.datasetVersionId).dedup.length :=
    (h.map _).dedup.length_eq
  unfold resolveSettlementMarkPriceV1
  rw [hids, h.length_eq]
  refine if_congr Iff.rfl rfl (if_congr Iff.rfl rfl (if_congr hnil rfl (if_congr hsymbols rfl ?_)))
  by_cases hdistinct : (ordered.map T4MarkEvidenceDatasetV1.datasetVersionId).dedup.length =
      ordered.length
  · rw [if_neg (not_not.mpr hdistinct), if_neg (not_not.mpr hdistinct),
      sortBy_congr (keyTells_of_dedup (hids.trans (hdistinct.trans h.length_eq.symm))) h]
  · rw [if_pos hdistinct, if_pos hdistinct]

/-- A resolved mark price proves what it says, and does not depend on the order of the evidence. -/
theorem resolve_settlement_mark_price (acceptance : HourlyAcceptanceV1) (symbol : String)
    (instant : ℤ) (datasets : List T4MarkEvidenceDatasetV1) (knownBy : Stamp) :
    (∀ result, resolveSettlementMarkPriceV1 acceptance symbol instant datasets knownBy =
        .ok result → Resolved acceptance symbol instant knownBy datasets result) ∧
      ∀ ordered, datasets.Perm ordered →
        resolveSettlementMarkPriceV1 acceptance symbol instant ordered knownBy =
          resolveSettlementMarkPriceV1 acceptance symbol instant datasets knownBy :=
  ⟨fun _ => resolve_ok, fun _ h => (resolve_congr h).symm⟩

/-! ### A mark stamped at the settlement millisecond -/

def aRow (sequence ts : ℤ) : T4TickerRowClockV1 where
  observationReference := "t4-ref:h:MARK"
  component := componentMark
  messageType := "delta"
  exchangeTsMillis := ts
  sessionId := 7
  recordSequence := sequence
  recordContentHash := "h"
  arrivalUtcNanos := 1000 * ts
  clockBoundNanos := 0
  clockBoundEvidence := "e"

def threeRows : List T4TickerRowClockV1 := [aRow 1 90, aRow 2 100, aRow 3 110]

theorem threeRows_order : checkOrder threeRows = .ok () := by decide

theorem threeRows_marks : (threeRows.map fun row => (⟨row, 5⟩ : T4MarkObservationV1)).map
    T4MarkObservationV1.clock =
      threeRows.filter fun row => decide (row.component = componentMark) := by decide

def aDataset : T4MarkEvidenceDatasetV1 where
  datasetVersionId := 1
  datasetContentHash := "d"
  sourceId := 2
  sessionId := 7
  instrument := "CRYPTO:BYBIT:BTCUSDT:PERP"
  exchangeSymbol := "BTCUSDT"
  segmentClockEvidenceHash := "c"
  tickerRows := threeRows
  marks := threeRows.map fun row => ⟨row, 5⟩
  order := threeRows_order
  marks_clock := threeRows_marks

def anHour : HourlyAcceptanceV1 where
  requiredConsecutiveHours := 1
  maxUnprovenNanos := 0
  firstHourStartUtcNanos := some 0
  hoursJudged := 1
  symbols := [⟨"BTCUSDT", [⟨0, .complete, some 7, some 0, none⟩], none⟩]
  jointComplete := [true]
  runs := []

theorem oneHourLater_shown : Stamp.Shown 1970 1 1 1 0 0 0 0 := by decide

def oneHourLater : Stamp := .ofShown 1970 1 1 1 0 0 0 0 oneHourLater_shown

theorem resolve_settlement_mark_price_exact :
    ∃ result, resolveSettlementMarkPriceV1 anHour "BTCUSDT" 100 [aDataset] oneHourLater =
        .ok result ∧
      Resolved anHour "BTCUSDT" 100 oneHourLater [aDataset] result := by
  have hresolve : (resolveSettlementMarkPriceV1 anHour "BTCUSDT" 100 [aDataset]
      oneHourLater).isOk = true := by decide +kernel
  obtain ⟨result, hresult⟩ := Except.exists_of_isOk hresolve
  exact ⟨result, hresult,
    (resolve_settlement_mark_price anHour "BTCUSDT" 100 [aDataset] oneHourLater).1 result hresult⟩

end T4Mark

end TradePlatform
