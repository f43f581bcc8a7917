/-
# `TradePlatform.PaperFundingCoverage` — what a covered holding misses

A `COMPLETE` funding window proves its own spacing and its own edges.  The report joins
windows that touch, and at a seam the two edge inequalities leave a gap of more than nothing
and less than two intervals: the settlements of a merged run are one interval apart exactly
where the windows' grids are one.
-/
import TradePlatform.ForwardFundingAsOf
import TradePlatform.PaperFundingEvidence
import TradePlatform.Lib.Grid

namespace TradePlatform

namespace FundingEvidence

open Grid

/-! ## What a complete window proves -/

section Window

variable {env : ForwardFunding.Env} {observations : List ForwardFunding.ForwardFundingObservationV1}
  {symbol : String} {startMs endMs asOfMicros : ℤ}
  {interval : Option ForwardFunding.PublishedFundingIntervalV1}
  {window : ForwardFunding.ForwardFundingWindowV1} {intervalMs : ℤ}

theorem spaced_of_spacings {events : List ForwardFunding.FundingEventV1}
    (h : ForwardFunding.spacings intervalMs events = []) :
    Spaced intervalMs (events.map ForwardFunding.FundingEventV1.settledAtMs) := by
  induction events with
  | nil => exact List.IsChain.nil
  | cons a events ih =>
      cases events with
      | nil => exact List.IsChain.singleton _
      | cons b events =>
          rw [ForwardFunding.spacings, List.append_eq_nil_iff] at h
          refine List.isChain_cons_cons.mpr ⟨?_, ih h.2⟩
          by_contra hne
          rw [if_pos hne] at h
          cases h.1

theorem settledEvents_inside {available : List ForwardFunding.ForwardFundingObservationV1}
    {event : ForwardFunding.FundingEventV1}
    (h : event ∈ ForwardFunding.settledEvents
      (ForwardFunding.recorded available startMs endMs)) :
    startMs ≤ event.settledAtMs ∧ event.settledAtMs < endMs := by
  obtain ⟨at_, hat, heq⟩ := List.mem_filterMap.mp h
  have hsettled : event.settledAtMs = at_ := by
    split at heq
    · rw [← Option.some.inj heq]
    · cases heq
  obtain ⟨other, hother, rfl⟩ := List.mem_map.mp (mem_sortedSet.mp hat)
  rw [hsettled]
  exact of_decide_eq_true (List.mem_filter.mp hother).2

theorem completenessOf_complete {irregular : List String}
    {judged : ForwardFunding.Irregularity ⊕ ℤ}
    (h : ForwardFunding.completenessOf irregular judged = .complete intervalMs) :
    irregular = [] ∧ judged = .inr intervalMs := by
  unfold ForwardFunding.completenessOf at h
  split at h
  · exact ⟨rfl, by rw [ForwardFunding.Completeness.complete.inj h]⟩
  · cases h

theorem tight_of_intervalIrregularities {events : List ForwardFunding.FundingEventV1}
    (h : ForwardFunding.intervalIrregularities startMs endMs events (.inr intervalMs) = [])
    (hinside : ∀ event ∈ events, startMs ≤ event.settledAtMs ∧ event.settledAtMs < endMs) :
    let w : Window := ⟨startMs, endMs, events.map ForwardFunding.FundingEventV1.settledAtMs⟩
    w.Tight intervalMs ∧ Spaced intervalMs w.instants := by
  unfold ForwardFunding.intervalIrregularities at h
  simp only [Sum.elim_inr, List.nil_append, List.append_eq_nil_iff] at h
  obtain ⟨hcount, hregular⟩ := h
  cases events with
  | nil => cases hcount
  | cons first events =>
      unfold ForwardFunding.regularity at hregular
      rw [List.head?_cons, List.getLast?_eq_some_getLast (List.cons_ne_nil first events)]
        at hregular
      simp only [List.append_eq_nil_iff] at hregular
      obtain ⟨⟨hspacing, hleading⟩, htrailing⟩ := hregular
      refine ⟨.of_edges ?_ rfl (by rw [List.getLast?_map, List.getLast?_eq_some_getLast
        (List.cons_ne_nil first events), Option.map_some]) ?_ ?_, spaced_of_spacings hspacing⟩
      · intro t ht
        obtain ⟨event, hevent, rfl⟩ := List.mem_map.mp ht
        exact hinside event hevent
      · by_contra hge
        rw [if_pos (not_lt.mp hge)] at hleading
        cases hleading
      · by_contra hlt
        rw [if_pos (not_le.mp hlt)] at htrailing
        cases htrailing

theorem events_of_records {events : List ForwardFunding.FundingEventV1}
    {records : List ForwardFunding.EventRecord}
    (h : events.mapM (ForwardFunding.eventRecord env) = .ok records) :
    records.map ForwardFunding.EventRecord.event = events := by
  have hmap : List.Forall₂ (fun record event => ForwardFunding.EventRecord.event record = event)
      records events := by
    refine ((Except.mapM_iff_forall₂.mp h).imp fun event record hrecord => ?_).flip
    unfold ForwardFunding.eventRecord at hrecord
    cases htext : ForwardFunding.isoMs env event.settledAtMs with
    | error e => rw [htext] at hrecord; cases hrecord
    | ok text =>
        rw [htext] at hrecord
        rw [← Except.ok.inj hrecord]
        rfl
  rw [← List.forall₂_eq_eq_eq, List.forall₂_map_left_iff]
  exact hmap

theorem settledAtMs_of_records {events : List ForwardFunding.FundingEventV1}
    {records : List ForwardFunding.EventRecord}
    (h : events.mapM (ForwardFunding.eventRecord env) = .ok records) :
    records.map ForwardFunding.EventRecord.settledAtMs =
      events.map ForwardFunding.FundingEventV1.settledAtMs := by
  rw [← events_of_records h, List.map_map]
  rfl

theorem window_complete
    (h : ForwardFunding.forwardFundingWindowAsOfV1 env observations symbol startMs endMs
      asOfMicros interval = .ok window)
    (hcomplete : window.identity.completeness = .complete intervalMs) :
    let w : Window := ⟨startMs, endMs,
      window.identity.events.map ForwardFunding.EventRecord.settledAtMs⟩
    w.Tight intervalMs ∧ Spaced intervalMs w.instants := by
  obtain ⟨-, -, h⟩ := Except.bind_eq_ok.mp h
  obtain ⟨-, h⟩ := Except.of_ite_error h
  obtain ⟨early, -, h⟩ := Except.bind_eq_ok.mp h
  obtain ⟨judged, -, h⟩ := Except.bind_eq_ok.mp h
  obtain ⟨late, hlate, h⟩ := Except.bind_eq_ok.mp h
  obtain ⟨records, hrecords, h⟩ := Except.bind_eq_ok.mp h
  obtain rfl := Except.ok.inj h
  obtain ⟨hnone, rfl⟩ := completenessOf_complete hcomplete
  obtain ⟨-, rfl⟩ := List.append_eq_nil_iff.mp hnone
  have hregular := List.forall₂_nil_right_iff.mp (Except.mapM_iff_forall₂.mp hlate)
  have htight := tight_of_intervalIrregularities hregular fun event => settledEvents_inside
  rw [← settledAtMs_of_records hrecords] at htight
  exact htight

end Window

/-! ## Merged runs -/

/-- The bridge carries what its funding window proves: the window's status and its instants, and
where the window is complete the interval that all of them share. -/
def CarriesWindow (env : ForwardFunding.Env) (intervalMs : ℤ)
    (bridge : ForwardFundingPriceBridgeV1) : Prop :=
  ∃ observations interval window,
    ForwardFunding.forwardFundingWindowAsOfV1 env observations bridge.identity.symbol
        bridge.identity.startMs bridge.identity.endMsExclusive bridge.identity.asOfMicros
        interval = .ok window ∧
      bridge.identity.fundingWindow.status = window.identity.completeness.status ∧
      bridge.identity.settlements.map SettlementRecord.settledAtMs =
        window.identity.events.map ForwardFunding.EventRecord.settledAtMs ∧
      ∀ own, window.identity.completeness = .complete own → own = intervalMs

def completeBridges (bridges : List ForwardFundingPriceBridgeV1) :
    List ForwardFundingPriceBridgeV1 :=
  bridges.filter fun bridge => bridge.identity.fundingWindow.status = fundingWindowComplete

abbrev MergedRun := ForwardFundingPriceBridgeV1 × List ForwardFundingPriceBridgeV1

def mergedRuns : List ForwardFundingPriceBridgeV1 → List MergedRun
  | [] => []
  | bridge :: bridges =>
      match mergedRuns bridges with
      | [] => [(bridge, [])]
      | (first, others) :: runs =>
          if first.identity.startMs = bridge.identity.endMsExclusive then
            (bridge, first :: others) :: runs
          else (bridge, []) :: (first, others) :: runs

namespace MergedRun

variable (run : MergedRun)

def bridges : List ForwardFundingPriceBridgeV1 := run.1 :: run.2

def last : ForwardFundingPriceBridgeV1 := run.bridges.getLast (List.cons_ne_nil _ _)

/-- `[start, end)` in micros, as `_covered_runs` reports it. -/
def span : ℤ × ℤ := (run.1.identity.startMs * 1000, run.last.identity.endMsExclusive * 1000)

end MergedRun

def windowOf (bridge : ForwardFundingPriceBridgeV1) : Window :=
  ⟨bridge.identity.startMs, bridge.identity.endMsExclusive,
    bridge.identity.settlements.map SettlementRecord.settledAtMs⟩

def MergedRun.instants (run : MergedRun) : List ℤ :=
  Window.instantsOf (run.bridges.map windowOf)

theorem mem_of_mergedRuns {bridges : List ForwardFundingPriceBridgeV1} {run : MergedRun}
    (h : run ∈ mergedRuns bridges) : ∀ bridge ∈ run.bridges, bridge ∈ bridges := by
  induction bridges generalizing run with
  | nil => cases h
  | cons first bridges ih =>
      unfold mergedRuns at h
      cases hrest : mergedRuns bridges with
      | nil =>
          rw [hrest] at h
          obtain rfl := List.mem_singleton.mp h
          intro bridge hbridge
          rw [List.mem_singleton.mp hbridge]
          exact List.mem_cons_self
      | cons next runs =>
          obtain ⟨second, others⟩ := next
          rw [hrest] at h ih
          dsimp only at h
          split at h
          · rcases List.mem_cons.mp h with rfl | h
            · intro bridge hbridge
              rcases List.mem_cons.mp hbridge with rfl | hbridge
              · exact List.mem_cons_self
              · exact List.mem_cons_of_mem _ (ih List.mem_cons_self bridge hbridge)
            · intro bridge hbridge
              exact List.mem_cons_of_mem _ (ih (List.mem_cons_of_mem _ h) bridge hbridge)
          · rcases List.mem_cons.mp h with rfl | h
            · intro bridge hbridge
              rw [List.mem_singleton.mp hbridge]
              exact List.mem_cons_self
            · intro bridge hbridge
              exact List.mem_cons_of_mem _ (ih h bridge hbridge)

theorem touching_of_mergedRuns {bridges : List ForwardFundingPriceBridgeV1} {run : MergedRun}
    (h : run ∈ mergedRuns bridges) : (run.bridges.map windowOf).IsChain Window.Touching := by
  induction bridges generalizing run with
  | nil => cases h
  | cons first bridges ih =>
      unfold mergedRuns at h
      cases hrest : mergedRuns bridges with
      | nil =>
          rw [hrest] at h
          obtain rfl := List.mem_singleton.mp h
          exact List.IsChain.singleton _
      | cons next runs =>
          obtain ⟨second, others⟩ := next
          rw [hrest] at h ih
          dsimp only at h
          split at h
          · rename_i htouch
            rcases List.mem_cons.mp h with rfl | h
            · exact List.isChain_cons_cons.mpr ⟨htouch.symm, ih List.mem_cons_self⟩
            · exact ih (List.mem_cons_of_mem _ h)
          · rcases List.mem_cons.mp h with rfl | h
            · exact List.IsChain.singleton _
            · exact ih h

/-- What the runs become when windows follow a run that ends at `finish`. -/
def absorb (start finish : ℤ) (bridges : List ForwardFundingPriceBridgeV1) : List (ℤ × ℤ) :=
  match mergedRuns bridges with
  | [] => [(start, finish)]
  | run :: runs =>
      if run.span.1 = finish then (start, run.span.2) :: runs.map MergedRun.span
      else (start, finish) :: (run :: runs).map MergedRun.span

theorem absorb_cons {start finish : ℤ} {bridge : ForwardFundingPriceBridgeV1}
    {bridges : List ForwardFundingPriceBridgeV1} :
    absorb start finish (bridge :: bridges) =
      if bridge.identity.startMs * 1000 = finish then
        absorb start (bridge.identity.endMsExclusive * 1000) bridges
      else (start, finish) ::
        absorb (bridge.identity.startMs * 1000) (bridge.identity.endMsExclusive * 1000) bridges := by
  unfold absorb
  rw [mergedRuns]
  cases mergedRuns bridges with
  | nil => rfl
  | cons next runs =>
      obtain ⟨second, others⟩ := next
      dsimp only
      by_cases htouch : second.identity.startMs = bridge.identity.endMsExclusive
      · have hspan : (MergedRun.span (second, others)).1 =
            bridge.identity.endMsExclusive * 1000 := by
          rw [← htouch]
          rfl
        have hlast : (MergedRun.span (bridge, second :: others)).2 =
            (MergedRun.span (second, others)).2 := rfl
        rw [if_pos htouch, if_pos hspan, if_pos hspan]
        dsimp only
        rw [hlast]
        rfl
      · have hspan : ¬ (MergedRun.span (second, others)).1 =
            bridge.identity.endMsExclusive * 1000 := by
          intro heq
          exact htouch (mul_right_cancel₀ (by norm_num) heq)
        rw [if_neg htouch, if_neg hspan, if_neg hspan]
        rfl

theorem absorb_eq_map_span (bridge : ForwardFundingPriceBridgeV1)
    (bridges : List ForwardFundingPriceBridgeV1) :
    absorb (bridge.identity.startMs * 1000) (bridge.identity.endMsExclusive * 1000) bridges =
      (mergedRuns (bridge :: bridges)).map MergedRun.span := by
  unfold absorb
  rw [mergedRuns]
  cases mergedRuns bridges with
  | nil => rfl
  | cons next runs =>
      obtain ⟨second, others⟩ := next
      dsimp only
      by_cases htouch : second.identity.startMs = bridge.identity.endMsExclusive
      · have hspan : (MergedRun.span (second, others)).1 =
            bridge.identity.endMsExclusive * 1000 := by
          rw [← htouch]
          rfl
        rw [if_pos htouch, if_pos hspan]
        rfl
      · have hspan : ¬ (MergedRun.span (second, others)).1 =
            bridge.identity.endMsExclusive * 1000 := by
          intro heq
          exact htouch (mul_right_cancel₀ (by norm_num) heq)
        rw [if_neg htouch, if_neg hspan]
        rfl

theorem extendRuns_of_incomplete {runs : List (ℤ × ℤ)} {bridge : ForwardFundingPriceBridgeV1}
    (h : bridge.identity.fundingWindow.status ≠ fundingWindowComplete) :
    extendRuns runs bridge = runs :=
  if_pos h

theorem extendRuns_nil {bridge : ForwardFundingPriceBridgeV1}
    (h : bridge.identity.fundingWindow.status = fundingWindowComplete) :
    extendRuns [] bridge =
      [(bridge.identity.startMs * 1000, bridge.identity.endMsExclusive * 1000)] :=
  if_neg (not_not.mpr h)

theorem extendRuns_snoc {runs : List (ℤ × ℤ)} {start finish : ℤ}
    {bridge : ForwardFundingPriceBridgeV1}
    (h : bridge.identity.fundingWindow.status = fundingWindowComplete) :
    extendRuns (runs ++ [(start, finish)]) bridge =
      if bridge.identity.startMs * 1000 = finish then
        runs ++ [(start, bridge.identity.endMsExclusive * 1000)]
      else (runs ++ [(start, finish)]) ++
        [(bridge.identity.startMs * 1000, bridge.identity.endMsExclusive * 1000)] := by
  unfold extendRuns
  rw [if_neg (not_not.mpr h)]
  dsimp only
  rw [List.getLast?_append_of_ne_nil _ (by simp), List.getLast?_singleton]
  dsimp only
  rw [List.dropLast_concat]

theorem foldl_extendRuns {runs : List (ℤ × ℤ)} {start finish : ℤ}
    {bridges : List ForwardFundingPriceBridgeV1} :
    bridges.foldl extendRuns (runs ++ [(start, finish)]) =
      runs ++ absorb start finish (completeBridges bridges) := by
  induction bridges generalizing runs start finish with
  | nil => rfl
  | cons bridge bridges ih =>
      rw [List.foldl_cons]
      by_cases hstatus : bridge.identity.fundingWindow.status = fundingWindowComplete
      · have hcomplete : completeBridges (bridge :: bridges) =
            bridge :: completeBridges bridges :=
          List.filter_cons_of_pos (decide_eq_true hstatus)
        rw [extendRuns_snoc hstatus, hcomplete, absorb_cons]
        split
        · exact ih
        · rw [ih, List.append_assoc]
          rfl
      · have hcomplete : completeBridges (bridge :: bridges) = completeBridges bridges :=
          List.filter_cons_of_neg (by simpa using hstatus)
        rw [extendRuns_of_incomplete hstatus, hcomplete]
        exact ih

theorem coveredRuns_eq (bridges : List ForwardFundingPriceBridgeV1) :
    coveredRuns bridges = (mergedRuns (completeBridges bridges)).map MergedRun.span := by
  unfold coveredRuns
  induction bridges with
  | nil => rfl
  | cons bridge bridges ih =>
      rw [List.foldl_cons]
      by_cases hstatus : bridge.identity.fundingWindow.status = fundingWindowComplete
      · have hcomplete : completeBridges (bridge :: bridges) =
            bridge :: completeBridges bridges :=
          List.filter_cons_of_pos (decide_eq_true hstatus)
        rw [extendRuns_nil hstatus, hcomplete, ← absorb_eq_map_span]
        simpa only [List.nil_append] using
          @foldl_extendRuns [] (bridge.identity.startMs * 1000)
            (bridge.identity.endMsExclusive * 1000) bridges
      · have hcomplete : completeBridges (bridge :: bridges) = completeBridges bridges :=
          List.filter_cons_of_neg (by simpa using hstatus)
        rw [extendRuns_of_incomplete hstatus, hcomplete]
        exact ih

/-! ## A covered holding -/

theorem windowOf_proven {env : ForwardFunding.Env} {intervalMs : ℤ}
    {bridge : ForwardFundingPriceBridgeV1} (hcarries : CarriesWindow env intervalMs bridge)
    (hstatus : bridge.identity.fundingWindow.status = fundingWindowComplete) :
    (windowOf bridge).Tight intervalMs ∧ Spaced intervalMs (windowOf bridge).instants := by
  obtain ⟨observations, interval, window, hwindow, hsame, hinstants, hinterval⟩ := hcarries
  rw [hstatus] at hsame
  cases hcomplete : window.identity.completeness with
  | irregularRefused reasons =>
      rw [hcomplete] at hsame
      exact absurd hsame (by simp [fundingWindowComplete, ForwardFunding.Completeness.status])
  | complete own =>
      obtain rfl := hinterval own hcomplete
      unfold windowOf
      rw [hinstants]
      exact window_complete hwindow hcomplete

/-- The settlements of a merged run are one interval apart, and none that is due while the
position was held is missing from the record of the holding. -/
def NoneMissing (intervalMs : ℤ) (run : MergedRun) (record : HoldingRecord) : Prop :=
  Spaced intervalMs run.instants ∧
    ∀ t, record.holding.startMicros ≤ t * 1000 → t * 1000 ≤ record.holding.endMicros →
      (∃ a ∈ run.instants, t ≡ a [ZMOD intervalMs]) → t ∈ record.settlements

def Covers (run : MergedRun) (holding : Holding) : Prop :=
  run.span.1 ≤ holding.startMicros ∧ holding.endMicros < run.span.2

theorem bindHolding_ok {bridges : List ForwardFundingPriceBridgeV1} {runs : List (ℤ × ℤ)}
    {asOfMicros : ℤ} {item : Holding × ℕ}
    {bound : HoldingRecord × List BoundSettlement × List String}
    (h : bindHolding bridges runs asOfMicros item = .ok bound) :
    bound.1.holding = item.1 ∧
      bound.1.covered = (runs.any fun run =>
        run.1 ≤ item.1.startMicros ∧ item.1.endMicros < run.2) ∧
      bound.1.settlements = (settlementInstants bridges).filter fun at_ =>
        item.1.startMicros ≤ at_ * 1000 ∧ at_ * 1000 ≤ item.1.endMicros := by
  obtain ⟨-, h⟩ := Except.of_ite_error h
  obtain rfl := Except.ok.inj h
  exact ⟨rfl, rfl, rfl⟩

theorem holdingRecord_of_section {env : Env} {evidence : CandidateFundingEvidenceV1 env}
    {studyId trialId symbol : String} {holdings : List Holding} {fillsSkipped : ℕ}
    {asOfMicros : ℤ} {bindingValidationHash : Option String} {feeScheduleVerified : Bool}
    {report : FundingEvidenceSection} {record : HoldingRecord}
    (h : fundingEvidenceSectionV1 env (some evidence) studyId trialId symbol holdings fillsSkipped
      asOfMicros bindingValidationHash feeScheduleVerified = .ok report)
    (hrecord : record ∈ report.holdingIntervals) :
    record.covered = ((coveredRuns evidence.bridges).any fun run =>
        run.1 ≤ record.holding.startMicros ∧ record.holding.endMicros < run.2) ∧
      record.settlements = (settlementInstants evidence.bridges).filter fun at_ =>
        record.holding.startMicros ≤ at_ * 1000 ∧ at_ * 1000 ≤ record.holding.endMicros := by
  obtain ⟨-, h⟩ := Except.of_ite_error h
  obtain ⟨-, h⟩ := Except.of_ite_error h
  obtain ⟨-, h⟩ := Except.of_ite_error h
  obtain ⟨bound, hbound, h⟩ := Except.bind_eq_ok.mp h
  obtain rfl := Except.ok.inj h
  obtain ⟨item, hitem, rfl⟩ := List.mem_map.mp hrecord
  obtain ⟨source, -, hsource⟩ := Except.mem_of_mapM hbound hitem
  obtain ⟨hholding, hcovered, hsettlements⟩ := bindHolding_ok hsource
  rw [hholding]
  exact ⟨hcovered, hsettlements⟩

theorem mem_settlementInstants {bridges : List ForwardFundingPriceBridgeV1} {run : MergedRun}
    (hrun : run ∈ mergedRuns (completeBridges bridges)) {t : ℤ} (ht : t ∈ run.instants) :
    t ∈ settlementInstants bridges := by
  obtain ⟨window, hwindow, ht⟩ := List.mem_flatMap.mp ht
  obtain ⟨bridge, hbridge, rfl⟩ := List.mem_map.mp hwindow
  exact mem_sortedSet.mpr (List.mem_flatMap.mpr
    ⟨bridge, List.mem_of_mem_filter (mem_of_mergedRuns hrun bridge hbridge), ht⟩)

/-- For a holding that the report marks covered, the settlements of the merged run that covers
it are one published interval apart, and none that was due while the position was held is
missing, exactly where all of them lie on one grid. -/
theorem covered_noneMissing_iff {env : Env} {fundingEnv : ForwardFunding.Env} {intervalMs : ℤ}
    {evidence : CandidateFundingEvidenceV1 env} {studyId trialId symbol : String}
    {holdings : List Holding} {fillsSkipped : ℕ} {asOfMicros : ℤ}
    {bindingValidationHash : Option String} {feeScheduleVerified : Bool}
    {report : FundingEvidenceSection} {record : HoldingRecord}
    (hcarries : ∀ bridge ∈ evidence.bridges, CarriesWindow fundingEnv intervalMs bridge)
    (hreport : fundingEvidenceSectionV1 env (some evidence) studyId trialId symbol holdings
      fillsSkipped asOfMicros bindingValidationHash feeScheduleVerified = .ok report)
    (hrecord : record ∈ report.holdingIntervals) (hcovered : record.covered = true) :
    ∃ run ∈ mergedRuns (completeBridges evidence.bridges), Covers run record.holding ∧
      (NoneMissing intervalMs run record ↔ OneGrid intervalMs run.instants) := by
  obtain ⟨hmark, hsettlements⟩ := holdingRecord_of_section hreport hrecord
  rw [hmark, coveredRuns_eq] at hcovered
  obtain ⟨span, hspan, hcovers⟩ := List.any_eq_true.mp hcovered
  obtain ⟨run, hrun, rfl⟩ := List.mem_map.mp hspan
  have hcovers := of_decide_eq_true hcovers
  refine ⟨run, hrun, hcovers, fun h => h.1.oneGrid, fun hgrid => ?_⟩
  have hproven : ∀ bridge ∈ run.bridges, (windowOf bridge).Tight intervalMs ∧
      Spaced intervalMs (windowOf bridge).instants := by
    intro bridge hbridge
    have hmem := mem_of_mergedRuns hrun bridge hbridge
    exact windowOf_proven (hcarries bridge (List.mem_of_mem_filter hmem))
      (of_decide_eq_true (List.mem_filter.mp hmem).2)
  have htouch := touching_of_mergedRuns hrun
  have htight : ∀ w ∈ run.bridges.map windowOf, w.Tight intervalMs := by
    intro w hw
    obtain ⟨bridge, hbridge, rfl⟩ := List.mem_map.mp hw
    exact (hproven bridge hbridge).1
  have hspaces : ∀ w ∈ run.bridges.map windowOf, Spaced intervalMs w.instants := by
    intro w hw
    obtain ⟨bridge, hbridge, rfl⟩ := List.mem_map.mp hw
    exact (hproven bridge hbridge).2
  have hspaced := (Window.spaced_iff_oneGrid htight hspaces htouch).mpr hgrid
  refine ⟨hspaced, fun t hstart hend hdue => ?_⟩
  obtain ⟨a, ha, hmod⟩ := hdue
  have hbound : ∀ w ∈ run.bridges.map windowOf, w.start < w.finish := by
    intro w hw
    obtain ⟨s, hs⟩ := List.exists_mem_of_ne_nil _ (htight w hw).ne_nil
    exact ((htight w hw).inside s hs).1.trans_lt ((htight w hw).inside s hs).2
  have hjoin := Window.Tight.join htight htouch hbound
  have hwithin : run.1.identity.startMs ≤ t ∧ t < run.last.identity.endMsExclusive := by
    obtain ⟨hlow, hhigh⟩ := hcovers
    unfold MergedRun.span at hlow hhigh
    dsimp only at hlow hhigh
    omega
  have hfinish : (Window.join (windowOf run.1) (run.2.map windowOf)).finish =
      run.last.identity.endMsExclusive := by
    have hlast := List.getLast_map (f := windowOf) (l := run.bridges)
      (List.cons_ne_nil _ _)
    exact congrArg Window.finish hlast
  have ht : t ∈ run.instants :=
    hjoin.mem_of_due hspaced ⟨hwithin.1, hfinish ▸ hwithin.2⟩ ha hmod
  rw [hsettlements]
  exact List.mem_filter.mpr ⟨mem_settlementInstants hrun ht, decide_eq_true ⟨hstart, hend⟩⟩

/-! ## Two windows of hourly settlements, the second half an hour off the first -/

namespace Seam

open ForwardFunding

def page (first second : String) (server : ℤ) : Json :=
  .obj [("retCode", .int 0), ("time", .int server), ("result", .obj [("category", .str "linear"),
    ("list", .arr ([first, second].map fun stamp => .obj [("symbol", .str "BTCUSDT"),
      ("fundingRate", .str "0.1"), ("fundingRateTimestamp", .str stamp)]))])]

def ticker : Json :=
  .obj [("retCode", .int 0), ("time", .int 1), ("result", .obj [("category", .str "linear"),
    ("list", .arr [.obj [("symbol", .str "BTCUSDT"), ("fundingIntervalHour", .str "1")]])])]

def codec : ForwardFunding.Env where
  loads
    | [0] => some ticker
    | [1] => some (page "3600000" "7200000" 10800000)
    | [2] => some (page "12600000" "16200000" 18000000)
    | _ => none
  sha256 := fun _ => "s"
  observationHash := fun _ => "o"
  observationProvenanceHash := fun _ => "p"
  intervalHash := fun _ => "i"
  intervalProvenanceHash := fun _ => "q"
  keyHash := fun _ _ => "k"
  windowHash := fun _ => "w"
  observationUuid := fun _ => 0
  intervalUuid := fun _ => 0
  uuidText := fun _ => "u"
  isoMs := fun _ => some "t"

def clock : ObservationClockBoundV1 := ⟨0, "c"⟩

def body : Bool → Bytes
  | false => [1]
  | true => [2]

def startMs : Bool → ℤ
  | false => 3600000
  | true => 10800000

def endMs (second : Bool) : ℤ := startMs second + 7200000

def instants : Bool → List ℤ
  | false => [3600000, 7200000]
  | true => [12600000, 16200000]

def records (second : Bool) : List EventRecord := (instants second).map fun t => ⟨t, "t", "0.1"⟩

def observation (second : Bool) : ForwardFundingObservationV1 :=
  sealObservation codec ⟨"BTCUSDT", startMs second, endMs second - 1, records second⟩
    (fundingHistoryUrlV1 "BTCUSDT" (startMs second) (endMs second - 1)) "s" (endMs second)
    (endMs second * 1000000) (some clock)

def snapshot : PublishedFundingIntervalObservationV1 :=
  sealInterval codec ⟨"BTCUSDT", 1⟩ [0] 1 1000000 (some clock)

def interval : PublishedFundingIntervalV1 where
  hours := 1
  sourceReference := tickerUrl "BTCUSDT" ++ "#observation=u"
  knowledgeAtMicros := 1000
  evidence := some snapshot
  hours_pos := Nat.one_pos

def windowIdentity (second : Bool) : WindowIdentity where
  symbol := "BTCUSDT"
  startMs := startMs second
  endMsExclusive := endMs second
  asOfMicros := endMs second * 1000
  publishedInterval := intervalReference (endMs second * 1000) (some interval)
  observations := ["u"]
  events := records second
  completeness := .complete 3600000
  publishedIntervalObservations := none

theorem window_eq (second : Bool) :
    forwardFundingWindowAsOfV1 codec [observation second] "BTCUSDT" (startMs second)
      (endMs second) (endMs second * 1000) (some interval) = .ok ⟨windowIdentity second, "w"⟩ := by
  cases second
  · rfl
  · rfl

/-! Its bridges bind no price. -/

def env : FundingEvidence.Env where
  bridgeHash := fun identity => if identity.startMs = 3600000 then "a" else "b"
  decimal := fun _ => some (some (1 / 10))
  isoMs := fun _ => some "t"
  isBlank := fun text => text.isEmpty

def unboundMark : MarkRecord where
  evidenceKind := venuePublishedMarkPrice
  evidenceClass := "UNAVAILABLE"
  refusal := some "no_mark_evidence_supplied"
  meaning := none
  markPrice := none
  nearby := []
  nearbyToleranceMs := none
  resolverStatus := none
  resolutionHash := none
  knowableAtMicros := none
  unresolvedDecisions := []

def settlement (second : Bool) (at_ : ℤ) : SettlementRecord where
  settledAtMs := at_
  settledAt := "t"
  rate := "0.1"
  payerDirection := "LONGS_PAY_SHORTS"
  fundingKnowledgeAtMicros := endMs second * 1000
  fundingObservationId := "u"
  price := none
  priceRefusal := some "r"
  structuralNote := none
  evidenceKnowableAtMicros := none
  markPrice := unboundMark
  status := settlementPriceEvidenceRefused

def bridge (second : Bool) : ForwardFundingPriceBridgeV1 where
  identity := {
    schemaVersion := bridgeSchemaVersionV1
    bridgeContractHash := bridgeContractHashV1
    canonicalKey := "BYBIT:linear:BTCUSDT"
    symbol := "BTCUSDT"
    startMs := startMs second
    endMsExclusive := endMs second
    asOfMicros := endMs second * 1000
    convention := "FIRST_TRADE_OF_MINUTE_STARTING_AT_INSTANT"
    fundingWindow := ⟨"w", "COMPLETE", []⟩
    priceDatasets := []
    markEvidenceDatasets := []
    markNearbyToleranceMs := none
    markEvidenceClasses := [("UNAVAILABLE", 2)]
    settlements := (instants second).map (settlement second)
    status := "REFUSED_PRICE_EVIDENCE"
    reasons := []
    unresolvedDecisions := [unresolvedPriceConvention, "FORWARD_FUNDING_ACQUISITION:NOT_AUTHORIZED"] }
  contentHash := if second then "b" else "a"

theorem carries (second : Bool) : CarriesWindow codec 3600000 (bridge second) := by
  refine ⟨[observation second], some interval, ⟨windowIdentity second, "w"⟩, ?_, rfl, ?_, ?_⟩
  · exact window_eq second
  · cases second
    · rfl
    · rfl
  · intro own hown
    exact (Completeness.complete.inj hown).symm

theorem accepted (second : Bool) :
    acceptBridge env (bridge second) "BTCUSDT" = .ok (bridge second).identity := by
  cases second
  · decide +kernel
  · decide +kernel

def evidence : CandidateFundingEvidenceV1 env where
  studyId := "study"
  trialId := "trial"
  symbol := "BTCUSDT"
  validationHash := none
  bridges := [bridge false, bridge true]
  accepted := by
    intro item hitem
    rcases List.mem_pair.mp hitem with rfl | rfl
    · exact accepted false
    · exact accepted true
  separate := List.isChain_pair.mpr (by decide)

def holding : Holding := ⟨1, 3600000000, 17999999000, .closedByFill⟩

def record : HoldingRecord := ⟨0, holding, true, [3600000, 7200000, 12600000, 16200000]⟩

theorem section_eq : ∃ report,
    fundingEvidenceSectionV1 env (some evidence) "study" "trial" "BTCUSDT" [holding] 0
      18000000000 none false = .ok report ∧ record ∈ report.holdingIntervals := by
  refine ⟨_, rfl, ?_⟩
  decide +kernel

theorem carries_evidence : ∀ item ∈ evidence.bridges, CarriesWindow codec 3600000 item := by
  intro item hitem
  rcases List.mem_pair.mp hitem with rfl | rfl
  · exact carries false
  · exact carries true

theorem mergedRuns_eq :
    mergedRuns (completeBridges evidence.bridges) = [(bridge false, [bridge true])] := by
  decide +kernel

theorem not_spaced {run : MergedRun} (hrun : run ∈ mergedRuns (completeBridges evidence.bridges)) :
    ¬ Spaced 3600000 run.instants := by
  rw [mergedRuns_eq, List.mem_singleton] at hrun
  subst hrun
  intro hspaced
  have hgrid := hspaced.oneGrid 3600000 (by decide) 12600000 (by decide)
  exact absurd hgrid (by decide)

end Seam

theorem covered_noneMissing_iff_sample :
    ∃ run ∈ mergedRuns (completeBridges Seam.evidence.bridges), Covers run Seam.record.holding ∧
      (NoneMissing 3600000 run Seam.record ↔ OneGrid 3600000 run.instants) := by
  obtain ⟨report, hreport, hrecord⟩ := Seam.section_eq
  exact covered_noneMissing_iff Seam.carries_evidence hreport hrecord rfl

/-- Two complete windows that touch, an hour and a half apart at the seam. -/
theorem coveredSeam_missing :
    ¬ ∀ (env : Env) (fundingEnv : ForwardFunding.Env) (intervalMs : ℤ)
      (evidence : CandidateFundingEvidenceV1 env) (studyId trialId symbol : String)
      (holdings : List Holding) (fillsSkipped : ℕ) (asOfMicros : ℤ)
      (bindingValidationHash : Option String) (feeScheduleVerified : Bool)
      (report : FundingEvidenceSection) (record : HoldingRecord),
      (∀ bridge ∈ evidence.bridges, CarriesWindow fundingEnv intervalMs bridge) →
      fundingEvidenceSectionV1 env (some evidence) studyId trialId symbol holdings fillsSkipped
        asOfMicros bindingValidationHash feeScheduleVerified = .ok report →
      record ∈ report.holdingIntervals → record.covered = true →
      ∃ run ∈ mergedRuns (completeBridges evidence.bridges), Covers run record.holding ∧
        NoneMissing intervalMs run record := by
  intro hclaim
  obtain ⟨report, hreport, hrecord⟩ := Seam.section_eq
  obtain ⟨run, hrun, -, hnone⟩ := hclaim _ Seam.codec 3600000 Seam.evidence _ _ _ _ _ _ _ _ _ _
    Seam.carries_evidence hreport hrecord rfl
  exact Seam.not_spaced hrun hnone.1

end FundingEvidence

end TradePlatform
