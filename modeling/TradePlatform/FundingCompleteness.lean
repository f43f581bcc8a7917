/-
# `TradePlatform.FundingCompleteness` — what `COMPLETE` says of the settlements of a window

A window reported `COMPLETE`, of forward evidence or of a history of pages, lists the points of
its own grid and no others, each once.  The forward report has looked at every millisecond of the
window, at records that agree, and after the window has ended.
-/
import TradePlatform.FundingHistory

namespace TradePlatform

namespace FundingCompleteness

open Grid
open ForwardFunding (EventRecord ForwardFundingObservationV1 ForwardFundingWindowV1 FundingEventV1
  Irregularity PublishedFundingIntervalV1 conflicts instants ratesAt recorded settledEvents
  uncovered uncoveredFrom)

/-- The settlements of `[start, finish)`: the points of the grid of the first, each with one
rate. -/
structure OnGrid (intervalMs startMs finishMs : ℤ) (events : List FundingEventV1) : Prop where
  interval_pos : 0 < intervalMs
  ne_nil : events ≠ []
  oneRate : (events.map FundingEventV1.settledAtMs).Nodup
  grid : ∀ first ∈ (events.map FundingEventV1.settledAtMs).head?, ∀ t,
    t ∈ events.map FundingEventV1.settledAtMs ↔
      (startMs ≤ t ∧ t < finishMs) ∧ t ≡ first [ZMOD intervalMs]

variable {intervalMs startMs endMs asOfMicros : ℤ}

theorem onGrid_of_tight {events : List FundingEventV1} (hpos : 0 < intervalMs)
    (htight : Window.Tight intervalMs ⟨startMs, endMs, events.map FundingEventV1.settledAtMs⟩)
    (hspaced : Spaced intervalMs (events.map FundingEventV1.settledAtMs)) :
    OnGrid intervalMs startMs endMs events where
  interval_pos := hpos
  ne_nil := by
    rintro rfl
    exact htight.ne_nil rfl
  oneRate := (hspaced.sorted hpos).imp ne_of_lt
  grid := fun _ hfirst _ => htight.mem_iff hspaced hfirst

/-! ## The forward window -/

section Forward

variable {spans : List (ℤ × ℤ)} {events : List FundingEventV1}

theorem covered_of_uncoveredFrom {last : ℤ} : ∀ {cursor : ℤ},
    uncoveredFrom last cursor spans = [] → ∀ t, cursor ≤ t → t ≤ last →
      ∃ span ∈ spans, span.1 ≤ t ∧ t ≤ span.2 := by
  induction spans with
  | nil =>
      intro cursor h t hge hle
      rw [uncoveredFrom, if_pos (hge.trans hle)] at h
      cases h
  | cons span spans ih =>
      obtain ⟨first, finish⟩ := span
      intro cursor h t hge hle
      rw [uncoveredFrom] at h
      have hgap : first ≤ cursor ∧
          (last < max cursor (finish + 1) ∨
            uncoveredFrom last (max cursor (finish + 1)) spans = []) := by
        split at h <;> rename_i hlast
        · refine ⟨?_, .inl hlast⟩
          by_contra hlt
          rw [if_pos (not_le.mp hlt)] at h
          cases h
        · obtain ⟨hfirst, hrest⟩ := List.append_eq_nil_iff.mp h
          refine ⟨?_, .inr hrest⟩
          by_contra hlt
          rw [if_pos (not_le.mp hlt)] at hfirst
          cases hfirst
      by_cases hin : t ≤ finish
      · exact ⟨_, List.mem_cons_self, hgap.1.trans hge, hin⟩
      · rcases hgap.2 with hlast | hrest
        · omega
        · obtain ⟨span, hspan, hcover⟩ := ih hrest t (max_le hge (by omega)) hle
          exact ⟨span, List.mem_cons_of_mem _ hspan, hcover⟩

theorem covered_of_uncovered {last : ℤ} (h : uncovered spans startMs last = []) :
    ∀ t, startMs ≤ t → t ≤ last → ∃ span ∈ spans, span.1 ≤ t ∧ t ≤ span.2 := by
  intro t hge hle
  obtain ⟨span, hspan, hcover⟩ := covered_of_uncoveredFrom h t hge hle
  exact ⟨span, List.mem_of_mem_filter (mem_sortBy.mp hspan), hcover⟩

theorem mem_settledEvents (h : conflicts events = []) {event : FundingEventV1} :
    event ∈ settledEvents events ↔ event ∈ events := by
  have hone : ∀ at_ ∈ instants events, (ratesAt events at_).length ≤ 1 := by
    intro at_ hat
    by_contra hmore
    have hmem : at_ ∈ (instants events).filter fun at_ => 1 < (ratesAt events at_).length :=
      List.mem_filter.mpr ⟨hat, decide_eq_true (not_le.mp hmore)⟩
    rw [List.map_eq_nil_iff.mp h] at hmem
    cases hmem
  have hrates : ∀ {at_ : ℤ} {rate : String}, rate ∈ ratesAt events at_ ↔
      ⟨at_, rate⟩ ∈ events := by
    intro at_ rate
    rw [ratesAt, mem_sortedSet, List.mem_map]
    constructor
    · rintro ⟨other, hother, rfl⟩
      obtain ⟨hmem, hat⟩ := List.mem_filter.mp hother
      rwa [← of_decide_eq_true hat]
    · intro hmem
      exact ⟨_, List.mem_filter.mpr ⟨hmem, decide_eq_true rfl⟩, rfl⟩
  unfold settledEvents
  rw [List.mem_filterMap]
  constructor
  · rintro ⟨at_, -, heq⟩
    split at heq
    · rename_i rate hrate
      rw [← Option.some.inj heq, ← hrates, hrate]
      exact List.mem_singleton_self rate
    · cases heq
  · intro hmem
    have hat : event.settledAtMs ∈ instants events :=
      mem_sortedSet.mpr (List.mem_map_of_mem hmem)
    have hrate : event.rateText ∈ ratesAt events event.settledAtMs := hrates.mpr hmem
    obtain ⟨rate, hsingle⟩ := List.length_eq_one_iff.mp
      (le_antisymm (hone _ hat) (List.length_pos_of_mem hrate))
    rw [hsingle, List.mem_singleton] at hrate
    refine ⟨event.settledAtMs, hat, ?_⟩
    rw [hsingle, ← hrate]

variable {env : ForwardFunding.Env} {observations : List ForwardFundingObservationV1}
  {symbol : String} {interval : Option PublishedFundingIntervalV1}
  {window : ForwardFundingWindowV1}

theorem interval_pos_of_judge (h : ForwardFunding.judgeInterval env symbol startMs asOfMicros
    interval = .ok (.inr intervalMs)) : 0 < intervalMs := by
  unfold ForwardFunding.judgeInterval at h
  split at h
  · cases h
  · rename_i published
    split at h
    · cases h
    · split at h
      · cases h
      · obtain ⟨own, -, h⟩ := Except.bind_eq_ok.mp h
        have hjudged := Except.ok.inj h
        split_ifs at hjudged
        rw [← Sum.inr.inj hjudged]
        have hhours : (0 : ℤ) < published.hours := by exact_mod_cast published.hours_pos
        positivity

def Available (observations : List ForwardFundingObservationV1) (symbol : String)
    (asOfMicros : ℤ) (o : ForwardFundingObservationV1) : Prop :=
  o ∈ observations ∧ o.symbol = symbol ∧ o.isAvailableAt asOfMicros = true

theorem mem_availableAsOf {o : ForwardFundingObservationV1} :
    o ∈ ForwardFunding.availableAsOf env observations symbol asOfMicros ↔
      Available observations symbol asOfMicros o := by
  rw [ForwardFunding.availableAsOf, mem_sortBy, List.mem_filter, decide_eq_true_eq]
  rfl

/-- What forward evidence has shown of a window: it had ended, each of its milliseconds lies
inside the coverage of an available observation, and the settlements listed are those that the
available observations recorded inside it. -/
structure Evidenced (observations : List ForwardFundingObservationV1) (symbol : String)
    (startMs endMs asOfMicros : ℤ) (events : List FundingEventV1) : Prop where
  closed : endMs * 1000 ≤ asOfMicros
  covered : ∀ t, startMs ≤ t → t < endMs → ∃ o, Available observations symbol asOfMicros o ∧
    o.coverageMs.1 ≤ t ∧ t ≤ o.coverageMs.2
  recorded : ∀ event, event ∈ events ↔
    (∃ o, Available observations symbol asOfMicros o ∧ event ∈ o.events) ∧
      startMs ≤ event.settledAtMs ∧ event.settledAtMs < endMs

theorem forward_complete
    (h : ForwardFunding.forwardFundingWindowAsOfV1 env observations symbol startMs endMs
      asOfMicros interval = .ok window)
    (hcomplete : window.identity.completeness = .complete intervalMs) :
    OnGrid intervalMs startMs endMs (window.identity.events.map EventRecord.event) ∧
      Evidenced observations symbol startMs endMs asOfMicros
        (window.identity.events.map EventRecord.event) := by
  obtain ⟨htight, hspaced⟩ := FundingEvidence.window_complete h hcomplete
  obtain ⟨-, -, h⟩ := Except.bind_eq_ok.mp h
  obtain ⟨-, h⟩ := Except.of_ite_error h
  obtain ⟨early, hearly, h⟩ := Except.bind_eq_ok.mp h
  obtain ⟨judged, hjudged, h⟩ := Except.bind_eq_ok.mp h
  obtain ⟨late, -, h⟩ := Except.bind_eq_ok.mp h
  obtain ⟨records, hrecords, h⟩ := Except.bind_eq_ok.mp h
  obtain rfl := Except.ok.inj h
  obtain ⟨hnone, rfl⟩ := FundingEvidence.completenessOf_complete hcomplete
  obtain ⟨rfl, -⟩ := List.append_eq_nil_iff.mp hnone
  have hcoverage := List.forall₂_nil_right_iff.mp (Except.mapM_iff_forall₂.mp hearly)
  obtain ⟨hrest, hconflicts⟩ := List.append_eq_nil_iff.mp hcoverage
  obtain ⟨hclosed, huncovered⟩ := List.append_eq_nil_iff.mp hrest
  dsimp only at htight hspaced ⊢
  rw [FundingEvidence.settledAtMs_of_records hrecords] at htight hspaced
  rw [FundingEvidence.events_of_records hrecords]
  refine ⟨onGrid_of_tight (interval_pos_of_judge hjudged) htight hspaced, ?_, ?_, ?_⟩
  · by_contra hopen
    rw [if_pos (not_le.mp hopen)] at hclosed
    cases hclosed
  · intro t hge hlt
    obtain ⟨span, hspan, hcover⟩ := covered_of_uncovered huncovered t hge (Int.le_sub_one_of_lt hlt)
    obtain ⟨o, ho, rfl⟩ := List.mem_map.mp hspan
    exact ⟨o, mem_availableAsOf.mp ho, hcover⟩
  · intro event
    rw [mem_settledEvents hconflicts, recorded, List.mem_filter, List.mem_flatMap,
      decide_eq_true_eq]
    simp only [mem_availableAsOf]

end Forward

/-! ## Both reports -/

open FundingHistory (Date FundingHistoryV1 build dayMs dayStartMs pageEvents)

/-- A window reported complete with an interval lists, each with one rate, the points of its
window on the grid of the first.  A forward window is evidenced besides; a historical one lists
the records of its pages. -/
theorem complete_windows (env : FundingHistory.Env) :
    (∀ observations symbol startMs endMs asOfMicros interval window intervalMs,
      ForwardFunding.forwardFundingWindowAsOfV1 env.evidence observations symbol startMs endMs
          asOfMicros interval = .ok window →
        window.identity.completeness = .complete intervalMs →
          OnGrid intervalMs startMs endMs (window.identity.events.map EventRecord.event) ∧
            Evidenced observations symbol startMs endMs asOfMicros
              (window.identity.events.map EventRecord.event)) ∧
    ∀ (symbol : String) (first last : Date) pages history intervalMs,
      build env symbol first last pages = .ok history →
        history.identity.completeness = .complete intervalMs →
          OnGrid intervalMs (dayStartMs first) (dayStartMs last + dayMs)
              (history.identity.events.map EventRecord.event) ∧
            ∀ event, event ∈ history.identity.events.map EventRecord.event ↔
              ∃ page ∈ pages, ∃ parsed, pageEvents env symbol page = .ok parsed ∧
                event ∈ parsed := by
  constructor
  · intro observations symbol startMs endMs asOfMicros interval window intervalMs h hcomplete
    exact forward_complete h hcomplete
  · intro symbol first last pages history intervalMs h hcomplete
    obtain ⟨hpos, htight, hspaced, days, hdays, hevents⟩ :=
      FundingHistory.build_complete h hcomplete
    have hsettled : history.identity.events.map EventRecord.settledAtMs =
        (history.identity.events.map EventRecord.event).map FundingEventV1.settledAtMs := by
      rw [List.map_map]
      rfl
    rw [hsettled] at htight hspaced
    refine ⟨onGrid_of_tight hpos htight hspaced, fun event => ?_⟩
    rw [hevents, List.mem_flatten]
    constructor
    · rintro ⟨parsed, hparsed, hmem⟩
      obtain ⟨page, hpage, hok⟩ := Except.mem_of_mapM hdays hparsed
      exact ⟨page, hpage, parsed, hok, hmem⟩
    · rintro ⟨page, hpage, parsed, hok, hmem⟩
      obtain ⟨parsed', hparsed', hok'⟩ := Except.exists_of_mem_mapM hdays hpage
      rw [hok] at hok'
      exact ⟨parsed', hparsed', Except.ok.inj hok' ▸ hmem⟩

/-! ### A forward window of hourly settlements, and a day of two settlements -/

namespace Settled

open ForwardFunding FundingHistory

def page : Json :=
  .obj [("retCode", .int 0), ("result", .obj [("category", .str "linear"),
    ("list", .arr (["0", "43200000"].map fun stamp => .obj [("symbol", .str "BTCUSDT"),
      ("fundingRate", .str "0.1"), ("fundingRateTimestamp", .str stamp)]))])]

def isupper (text : String) : Bool :=
  (text.toList.all fun ch => !ch.isLower) && text.toList.any Char.isUpper

theorem not_isLower {text : String} {ch : Char} (h : isupper text = true)
    (hch : ch ∈ text.toList) : ch.isLower = false := by
  have hall := List.all_eq_true.mp (Bool.and_eq_true_iff.mp h).1 ch hch
  rwa [Bool.not_eq_true'] at hall

def codec : FundingHistory.Env where
  evidence := { FundingEvidence.Seam.codec with
    loads := fun body =>
      if body = [3] then some page else FundingEvidence.Seam.codec.loads body }
  isalnum := fun text => text.toList.all Char.isAlphanum
  isupper := isupper
  identityHash := fun _ => "h"
  provenanceHash := fun _ => "p"
  not_isLower := not_isLower

def url : String := ForwardFunding.fundingHistoryUrlV1 "BTCUSDT" 0 86399999

def history : FundingHistoryV1 where
  identity :=
    { symbol := "BTCUSDT"
      firstUtcDay := 719163
      lastUtcDay := 719163
      events := [⟨0, "t", "0.1"⟩, ⟨43200000, "t", "0.1"⟩]
      completeness := .complete 43200000 }
  contentHash := "h"
  pages := [⟨url, "s"⟩]
  provenanceHash := "p"

theorem build_eq : build codec "BTCUSDT" 719163 719163 [(url, [3])] = .ok history := by
  decide +kernel

theorem window_eq :
    forwardFundingWindowAsOfV1 codec.evidence [FundingEvidence.Seam.observation false] "BTCUSDT"
      3600000 10800000 10800000000 (some FundingEvidence.Seam.interval) =
        .ok ⟨FundingEvidence.Seam.windowIdentity false, "w"⟩ := by
  rfl

end Settled

theorem complete_windows_settled :
    OnGrid 3600000 3600000 10800000
        ((FundingEvidence.Seam.windowIdentity false).events.map EventRecord.event) ∧
      OnGrid 43200000 0 86400000
        (Settled.history.identity.events.map EventRecord.event) :=
  ⟨((complete_windows Settled.codec).1 _ _ _ _ _ _ _ _ Settled.window_eq rfl).1,
    ((complete_windows Settled.codec).2 _ _ _ _ _ _ Settled.build_eq rfl).1⟩

end FundingCompleteness

end TradePlatform
