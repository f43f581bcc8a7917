/-
# `TradePlatform.PaperIncubationChain` — which fills a candidate's report books

The role of each fill is told from the fills alone: a filled one continues the fill before it
where that is a member of a chain and named by it, and must then start from the target that one
took; any other must start from flat.  The loop of the report keeps its ledger in step with the
roles, and books a round trip exactly where a member continues one that left a position.
-/
import TradePlatform.PaperIncubationReport

namespace TradePlatform

namespace PaperIncubation

/-! ## Roles -/

inductive Role where
  | member | skipped | inconsistent
deriving DecidableEq, Repr

/-- The role of a fill that continues `before`, or continues none. -/
def judge (before : Option Fill) (item : Fill) : Option Role :=
  if item.status ≠ .filled then none
  else
    match before with
    | some earlier =>
        if item.targetFrom = earlier.targetTo then some .member else some .inconsistent
    | none => if item.targetFrom = 0 then some .member else some .skipped

def names (item earlier : Fill) : Bool :=
  decide (item.previousSignalId = some earlier.signalId)

def role (items : List Fill) : ℕ → Option Role
  | 0 => (items[0]?).bind (judge none)
  | n + 1 => (items[n + 1]?).bind fun item =>
      judge (if role items n = some .member then (items[n]?).filter (names item) else none) item

/-- The fill that the one at an index continues: the member just before it, if it names it. -/
def continued (items : List Fill) (item : Fill) : ℕ → Option Fill
  | 0 => none
  | n + 1 => if role items n = some .member then (items[n]?).filter (names item) else none

def counted (items : List Fill) (n : ℕ) (r : Role) : ℕ :=
  (List.range n).countP fun i => role items i = some r

/-- A round trip from one fill to another: both filled, the later names the earlier and starts
from the target it took, which is a position. -/
structure Trip (earlier later : Fill) (trip : RoundTrip) : Prop where
  entered : earlier.status = .filled
  exited : later.status = .filled
  named : later.previousSignalId = some earlier.signalId
  continues : later.targetFrom = earlier.targetTo
  held : earlier.targetTo ≠ 0
  direction : trip.direction = earlier.targetTo
  entry : trip.entryBarOpenMicros = earlier.fillBarOpenMicros
  exit : trip.exitBarOpenMicros = later.fillBarOpenMicros
  minutes : trip.holdingMinutes =
    (later.fillBarOpenMicros - earlier.fillBarOpenMicros) / minuteMicros
  gross : ∃ bought sold, earlier.fillPrice = some bought ∧ later.fillPrice = some sold ∧
    grossReturn earlier.targetTo sold bought = .ok trip.grossReturn

/-- The round trip ends at the fill at index `i`, and starts at the one just before it. -/
def TripAt (items : List Fill) (i : ℕ) (trip : RoundTrip) : Prop :=
  ∃ k earlier later, i = k + 1 ∧ items[k]? = some earlier ∧ items[i]? = some later ∧
    Trip earlier later trip

def closes (items : List Fill) (i : ℕ) : Bool :=
  decide (role items i = some .member) && (items[i]?).any fun later =>
    (continued items later i).any fun earlier => decide (earlier.targetTo ≠ 0)

section Ledgers

variable {items : List Fill} {item earlier : Fill} {ledger ledger' : Ledger} {n k : ℕ} {r : Role}

theorem role_eq (hitem : items[n]? = some item) :
    role items n = judge (continued items item n) item := by
  cases n with
  | zero => rw [role, hitem]; rfl
  | succ n => rw [role, hitem]; rfl

theorem filled_of_judge {before : Option Fill} (h : judge before item = some r) :
    item.status = .filled := by
  unfold judge at h
  split at h
  · cases h
  · next hstatus => exact not_not.mp hstatus

theorem judge_isSome_iff {before : Option Fill} :
    (judge before item).isSome ↔ item.status = .filled := by
  constructor
  · intro h
    obtain ⟨r, hr⟩ := Option.isSome_iff_exists.mp h
    exact filled_of_judge hr
  · intro h
    unfold judge
    rw [if_neg (not_not.mpr h)]
    split <;> split <;> rfl

theorem counted_succ :
    counted items (n + 1) r = counted items n r + if role items n = some r then 1 else 0 := by
  simp [counted, List.range_succ, List.countP_append, List.countP_cons]

theorem continued_of_member (hearlier : items[k]? = some earlier)
    (hrole : role items k = some .member) :
    continued items item (k + 1) = if names item earlier then some earlier else none := by
  rw [continued, if_pos hrole, hearlier, Option.filter_some]

/-! ## The ledger in step with the roles -/

structure Holds (ledger : Ledger) (earlier : Fill) : Prop where
  last : ledger.lastSignal = some earlier.signalId
  position : ledger.position = earlier.targetTo
  entry : ledger.entryMicros = earlier.fillBarOpenMicros
  price : earlier.fillPrice = some ledger.entryPrice
  filled : earlier.status = .filled

structure Follows (items : List Fill) (n : ℕ) (ledger : Ledger) : Prop where
  intact : ledger.chainIntact = true → ∃ k earlier, n = k + 1 ∧ items[k]? = some earlier ∧
    role items k = some .member ∧ Holds ledger earlier
  flat : ledger.chainIntact = false →
    ledger.position = 0 ∧ ∀ k, n = k + 1 → role items k ≠ some .member
  skipped : ledger.skipped = counted items n .skipped
  inconsistent : ledger.inconsistent = counted items n .inconsistent
  trips : List.Forall₂ (TripAt items) ((List.range n).filter (closes items)) ledger.roundTrips

theorem Follows.empty : Follows items 0 {} :=
  ⟨by simp, by simp, rfl, rfl, List.Forall₂.nil⟩

/-- What the check of the link leaves of a ledger: either the member that the fill continues is
still held, or nothing is. -/
structure Relinked (items : List Fill) (n : ℕ) (item : Fill) (before after : Ledger) : Prop where
  last : after.lastSignal = some item.signalId
  skipped : after.skipped = before.skipped
  inconsistent : after.inconsistent = before.inconsistent
  trips : after.roundTrips = before.roundTrips
  intact : after.chainIntact = true → ∃ k earlier, n = k + 1 ∧ items[k]? = some earlier ∧
    continued items item n = some earlier ∧ names item earlier = true ∧
    item.status = .filled ∧
    after.position = earlier.targetTo ∧ after.entryMicros = earlier.fillBarOpenMicros ∧
    earlier.fillPrice = some after.entryPrice ∧ earlier.status = .filled
  flat : after.chainIntact = false → after.position = 0 ∧
    (item.status = .filled → continued items item n = none)

theorem brokenOff_eq (ledger : Ledger) (until_ : ℤ) :
    ∃ holdings, ledger.brokenOff until_ = { ledger with holdings } := by
  unfold Ledger.brokenOff
  split
  · exact ⟨_, rfl⟩
  · exact ⟨ledger.holdings, rfl⟩

theorem Follows.relink (h : Follows items n ledger) :
    Relinked items n item ledger (ledger.relink item) := by
  unfold Ledger.relink
  dsimp only
  split
  · next hbreak =>
      obtain ⟨k, earlier, rfl, hearlier, hrole, hholds⟩ := h.intact hbreak.1
      obtain ⟨holdings, hbroken⟩ := brokenOff_eq
        { ledger with lastSignal := some item.signalId } item.decidedAtMicros
      unfold Ledger.lose
      rw [hbroken]
      refine ⟨rfl, rfl, rfl, rfl, by simp, fun _ => ⟨rfl, fun hfilled => ?_⟩⟩
      have hunlinked : ¬ ledger.Linked item :=
        hbreak.2.resolve_right (not_not.mpr hfilled)
      have hunnamed : ¬ names item earlier = true := by
        intro hnames
        have heq : item.previousSignalId = some earlier.signalId := of_decide_eq_true hnames
        exact hunlinked ⟨by rw [heq]; rfl, by rw [heq, hholds.last]⟩
      rw [continued_of_member hearlier hrole, if_neg hunnamed]
  · next hkeep =>
      refine ⟨rfl, rfl, rfl, rfl, fun hintact => ?_, fun hflat => ?_⟩
      · obtain ⟨k, earlier, rfl, hearlier, hrole, hholds⟩ := h.intact hintact
        have hlinked : ledger.Linked item := by
          by_contra hne
          exact hkeep ⟨hintact, .inl hne⟩
        have hfilled : item.status = .filled := by
          by_contra hne
          exact hkeep ⟨hintact, .inr hne⟩
        have hnames : names item earlier = true :=
          decide_eq_true (hlinked.2.trans hholds.last)
        refine ⟨k, earlier, rfl, hearlier, ?_, hnames, hfilled, hholds.position, hholds.entry,
          hholds.price, hholds.filled⟩
        rw [continued_of_member hearlier hrole, if_pos hnames]
      · obtain ⟨hposition, hnone⟩ := h.flat hflat
        refine ⟨hposition, fun _ => ?_⟩
        cases n with
        | zero => rfl
        | succ k => rw [continued, if_neg (hnone k rfl)]

/-! ## One fill -/

theorem Follows.pass (h : Follows items n ledger) (hrole : role items n ≠ some .member)
    (hflat : ledger'.chainIntact = false)
    (hposition : ledger'.position = 0) (htrips : ledger'.roundTrips = ledger.roundTrips)
    (hskipped : ledger'.skipped = ledger.skipped + if role items n = some .skipped then 1 else 0)
    (hinconsistent : ledger'.inconsistent =
      ledger.inconsistent + if role items n = some .inconsistent then 1 else 0) :
    Follows items (n + 1) ledger' := by
  refine ⟨?_, fun _ => ⟨hposition, ?_⟩, ?_, ?_, ?_⟩
  · intro hintact
    rw [hflat] at hintact
    cases hintact
  · rintro k hk
    obtain rfl : n = k := Nat.succ_injective hk
    exact hrole
  · rw [hskipped, h.skipped, counted_succ]
  · rw [hinconsistent, h.inconsistent, counted_succ]
  · have hcloses : closes items n = false := by
      rw [closes, decide_eq_false hrole, Bool.false_and]
    rw [List.range_succ, List.filter_append, List.filter_singleton, hcloses, htrips]
    simpa using h.trips

theorem close_flat {price : Decimal} {at_ : ℤ} (h : ledger.close price at_ = .ok ledger')
    (hposition : ledger.position = 0) : ledger' = ledger := by
  unfold Ledger.close at h
  rw [if_neg (not_not.mpr hposition)] at h
  exact (Except.ok.inj h).symm

theorem close_held {price : Decimal} {at_ : ℤ} (h : ledger.close price at_ = .ok ledger')
    (hposition : ledger.position ≠ 0) :
    ∃ gross, grossReturn ledger.position price ledger.entryPrice = .ok gross ∧
      ledger' = { ledger with
        roundTrips := ledger.roundTrips ++ [⟨ledger.position, ledger.entryMicros, at_,
          (at_ - ledger.entryMicros) / minuteMicros, gross⟩]
        holdings := ledger.holdings ++
          [⟨ledger.position, ledger.entryMicros, at_, .closedByFill⟩] } := by
  unfold Ledger.close at h
  rw [if_pos hposition] at h
  obtain ⟨gross, hgross, h⟩ := Except.bind_eq_ok.mp h
  exact ⟨gross, hgross, (Except.ok.inj h).symm⟩

theorem Follows.member {closed : Ledger} {price : Decimal} (h : Follows items n ledger)
    (hitem : items[n]? = some item) (hrole : role items n = some .member)
    (hprice : item.fillPrice = some price) (hintact : closed.chainIntact = true)
    (hlast : closed.lastSignal = some item.signalId) (hskipped : closed.skipped = ledger.skipped)
    (hinconsistent : closed.inconsistent = ledger.inconsistent)
    (htrips : List.Forall₂ (TripAt items) ((List.range (n + 1)).filter (closes items))
      closed.roundTrips) :
    Follows items (n + 1) { closed with
      position := item.targetTo
      entryPrice := price
      entryMicros := item.fillBarOpenMicros } := by
  have hfilled : item.status = .filled := filled_of_judge ((role_eq hitem).symm.trans hrole)
  refine ⟨fun _ => ⟨n, item, rfl, hitem, hrole, hlast, rfl, rfl, hprice, hfilled⟩, ?_, ?_, ?_,
    htrips⟩
  · intro hflat
    rw [hintact] at hflat
    cases hflat
  · show closed.skipped = _
    rw [hskipped, h.skipped, counted_succ, hrole]
    simp
  · show closed.inconsistent = _
    rw [hinconsistent, h.inconsistent, counted_succ, hrole]
    simp

theorem trips_of_not_closes (h : Follows items n ledger) (hcloses : closes items n = false) :
    List.Forall₂ (TripAt items) ((List.range (n + 1)).filter (closes items))
      ledger.roundTrips := by
  rw [List.range_succ, List.filter_append, List.filter_singleton, hcloses]
  simpa using h.trips

theorem Follows.continue {relinked : Ledger} (h : Follows items n ledger)
    (hitem : items[n]? = some item) (hlink : Relinked items n item ledger relinked)
    (hintact : relinked.chainIntact = true) (hfrom : item.targetFrom = relinked.position)
    (hbook : Ledger.book { relinked with chainIntact := true } item = .ok ledger') :
    Follows items (n + 1) ledger' := by
  obtain ⟨k, earlier, rfl, hearlier, hcontinued, hnames, hfilled, hposition, hentry, hbought,
    hentered⟩ := hlink.intact hintact
  obtain ⟨price, hprice, hbook⟩ := Except.bind_eq_ok.mp hbook
  obtain ⟨closed, hclosed, hbook⟩ := Except.bind_eq_ok.mp hbook
  have hsold : item.fillPrice = some price := by
    unfold Fill.price at hprice
    split at hprice
    · next heq => rw [heq, Except.ok.inj hprice]
    · cases hprice
  have hrole : role items (k + 1) = some .member := by
    rw [role_eq hitem, hcontinued, judge, if_neg (not_not.mpr hfilled)]
    exact if_pos (hfrom.trans hposition)
  have hcloses : closes items (k + 1) = decide (earlier.targetTo ≠ 0) := by
    rw [closes, hrole, decide_eq_true rfl, Bool.true_and, hitem, Option.any_some, hcontinued,
      Option.any_some]
  rw [← Except.ok.inj hbook]
  by_cases hheld : relinked.position = 0
  · rw [close_flat hclosed hheld]
    refine h.member hitem hrole hsold rfl hlink.last hlink.skipped hlink.inconsistent ?_
    show List.Forall₂ _ _ relinked.roundTrips
    rw [hlink.trips]
    refine trips_of_not_closes h ?_
    rw [hcloses, ← hposition, hheld]
    rfl
  · obtain ⟨gross, hgross, rfl⟩ := close_held hclosed hheld
    refine h.member hitem hrole hsold rfl hlink.last hlink.skipped hlink.inconsistent ?_
    have hto : earlier.targetTo ≠ 0 := hposition ▸ hheld
    rw [List.range_succ, List.filter_append, List.filter_singleton, hcloses, decide_eq_true hto]
    refine List.rel_append ?_ (List.Forall₂.cons ?_ .nil)
    · show List.Forall₂ _ _ relinked.roundTrips
      rw [hlink.trips]
      exact h.trips
    · refine ⟨k, earlier, item, rfl, hearlier, hitem, ?_⟩
      exact {
        entered := hentered
        exited := hfilled
        named := of_decide_eq_true hnames
        continues := hfrom.trans hposition
        held := hto
        direction := hposition
        entry := hentry
        exit := rfl
        minutes := by rw [← hentry]
        gross := ⟨_, price, hbought, hsold, hposition ▸ hgross⟩ }

theorem Follows.start {relinked : Ledger} (h : Follows items n ledger)
    (hitem : items[n]? = some item) (hlink : Relinked items n item ledger relinked)
    (hflat : relinked.chainIntact = false) (hfilled : item.status = .filled)
    (hfrom : item.targetFrom = 0)
    (hbook : Ledger.book { relinked with chainIntact := true } item = .ok ledger') :
    Follows items (n + 1) ledger' := by
  obtain ⟨hposition, hnone⟩ := hlink.flat hflat
  obtain ⟨price, hprice, hbook⟩ := Except.bind_eq_ok.mp hbook
  obtain ⟨closed, hclosed, hbook⟩ := Except.bind_eq_ok.mp hbook
  have hsold : item.fillPrice = some price := by
    unfold Fill.price at hprice
    split at hprice
    · next heq => rw [heq, Except.ok.inj hprice]
    · cases hprice
  have hrole : role items n = some .member := by
    rw [role_eq hitem, hnone hfilled, judge, if_neg (not_not.mpr hfilled)]
    exact if_pos hfrom
  have hcloses : closes items n = false := by
    rw [closes, hrole, decide_eq_true rfl, Bool.true_and, hitem, Option.any_some, hnone hfilled,
      Option.any_none]
  rw [← Except.ok.inj hbook, close_flat hclosed hposition]
  refine h.member hitem hrole hsold rfl hlink.last hlink.skipped hlink.inconsistent ?_
  show List.Forall₂ _ _ relinked.roundTrips
  rw [hlink.trips]
  exact trips_of_not_closes h hcloses

theorem Follows.add (h : Follows items n ledger) (hitem : items[n]? = some item)
    (hadd : ledger.add item = .ok ledger') : Follows items (n + 1) ledger' := by
  have hlink : Relinked items n item ledger (ledger.relink item) := h.relink
  unfold Ledger.add at hadd
  dsimp only at hadd
  generalize ledger.relink item = relinked at hlink hadd
  have hjudge := role_eq hitem
  split at hadd
  · next hunfilled =>
      obtain rfl := Except.ok.inj hadd
      have hrole : role items n = none := hjudge.trans (if_pos hunfilled)
      have hflat : relinked.chainIntact = false := by
        cases hintact : relinked.chainIntact with
        | false => rfl
        | true =>
            obtain ⟨-, -, -, -, -, -, hfilled, -⟩ := hlink.intact hintact
            exact absurd hfilled hunfilled
      refine h.pass ?_ hflat (hlink.flat hflat).1 hlink.trips ?_ ?_
      · simp [hrole]
      · simp [hrole, hlink.skipped]
      · simp [hrole, hlink.inconsistent]
  · next hstatus =>
      have hfilled : item.status = .filled := not_not.mp hstatus
      split at hadd
      · next hskip =>
          obtain rfl := Except.ok.inj hadd
          have hflat : relinked.chainIntact = false := Bool.not_eq_true _ ▸ hskip.1
          obtain ⟨hposition, hnone⟩ := hlink.flat hflat
          have hrole : role items n = some .skipped := by
            rw [hjudge, hnone hfilled, judge, if_neg hstatus]
            exact if_neg hskip.2
          refine h.pass ?_ hflat hposition hlink.trips ?_ ?_
          · simp [hrole]
          · simp [hrole, hlink.skipped]
          · simp [hrole, hlink.inconsistent]
      · next hgo =>
          split at hadd
          · next hother =>
              obtain rfl := Except.ok.inj hadd
              have hintact : relinked.chainIntact = true := by
                by_contra hne
                have hflat : relinked.chainIntact = false := Bool.not_eq_true _ ▸ hne
                have hzero : item.targetFrom = 0 := by
                  by_contra hfrom
                  exact hgo ⟨hne, hfrom⟩
                exact hother (hzero.trans (hlink.flat hflat).1.symm)
              obtain ⟨k, earlier, hk, hearlier, hcontinued, hnames, -, hposition, -⟩ :=
                hlink.intact hintact
              have hrole : role items n = some .inconsistent := by
                rw [hjudge, hcontinued, judge, if_neg hstatus]
                exact if_neg fun heq => hother (heq.trans hposition.symm)
              obtain ⟨holdings, hbroken⟩ := brokenOff_eq
                { relinked with chainIntact := true } item.decidedAtMicros
              unfold Ledger.lose
              rw [hbroken]
              refine h.pass ?_ rfl rfl hlink.trips ?_ ?_
              · simp [hrole]
              · simp [hrole, hlink.skipped]
              · simp [hrole, hlink.inconsistent]
          · next hsame =>
              have hfrom : item.targetFrom = relinked.position := not_not.mp hsame
              cases hintact : relinked.chainIntact with
              | true => exact h.continue hitem hlink hintact hfrom hadd
              | false =>
                  exact h.start hitem hlink hintact hfilled
                    (hfrom.trans (hlink.flat hintact).1) hadd

theorem Follows.replay {done rest : List Fill} (hsplit : done ++ rest = items)
    (h : Follows items done.length ledger)
    (hreplay : Replay.replay Ledger.add ledger rest = .ok ledger') :
    Follows items items.length ledger' := by
  induction rest generalizing done ledger with
  | nil =>
      rw [List.append_nil] at hsplit
      cases hreplay
      exact hsplit ▸ h
  | cons item rest ih =>
      obtain ⟨next, hadd, hreplay⟩ := Except.bind_eq_ok.mp hreplay
      have hitem : items[done.length]? = some item := by
        rw [← hsplit, List.getElem?_append_right le_rfl, Nat.sub_self, List.getElem?_cons_zero]
      have hnext : Follows items (done ++ [item]).length next := by
        rw [List.length_append, List.length_singleton]
        exact h.add hitem hadd
      exact ih (by rw [List.append_assoc, List.singleton_append, hsplit]) hnext hreplay

end Ledgers

section Reports

variable {env : FundingEvidence.Env} {livenessHash : RunnerLiveness.RunnerLivenessV1 → String}
  {studyId trialId symbol : String} {items : List Fill} {cost : CostPolicyV1} {asOfMicros : ℤ}
  {binding : Option IncubationBindingV1} {unbound : List String}
  {liveness : Option RunnerLiveness.RunnerLivenessV1}
  {funding : Option (FundingEvidence.CandidateFundingEvidenceV1 env)} {report : CandidateReport}

theorem candidateReport_ledger (h : candidateReport env livenessHash studyId trialId symbol items
    cost asOfMicros binding unbound liveness funding = .ok report) :
    ∃ ledger, Follows items items.length ledger ∧ report.roundTrips = ledger.roundTrips ∧
      report.fillsSkippedUnknownPosition = ledger.skipped ∧
      report.chainInconsistencies = ledger.inconsistent ∧
      report.closedSides = 2 * ledger.roundTrips.length ∧
      report.openPosition = if ledger.chainIntact then some ledger.position else none := by
  obtain ⟨incubation, -, h⟩ := Except.bind_eq_ok.mp h
  obtain ⟨ledger, hledger, h⟩ := Except.bind_eq_ok.mp h
  obtain ⟨elapsedDays, -, h⟩ := Except.bind_eq_ok.mp h
  obtain ⟨grossReturnSum, -, h⟩ := Except.bind_eq_ok.mp h
  obtain ⟨fundingEvidence, -, h⟩ := Except.bind_eq_ok.mp h
  obtain ⟨breakEven, -, h⟩ := Except.bind_eq_ok.mp h
  obtain ⟨net, -, h⟩ := Except.bind_eq_ok.mp h
  obtain rfl := Except.ok.inj h
  exact ⟨ledger, Follows.empty.replay (List.nil_append items) hledger, rfl, rfl, rfl, rfl, rfl⟩

/-- In every report: the round trips are those from a filled fill to the very next one, which
names it and starts from the position it took; a fill has exactly one role if it is filled and
none otherwise, and the two counts are those of their roles; two sides are closed for each round
trip; and the open position is the target of the last fill where that is a member. -/
theorem candidateReport_chain (h : candidateReport env livenessHash studyId trialId symbol items
    cost asOfMicros binding unbound liveness funding = .ok report) :
    List.Forall₂ (TripAt items) ((List.range items.length).filter (closes items))
        report.roundTrips ∧
      (∀ i item, items[i]? = some item →
        ((∃! r, role items i = some r) ↔ item.status = .filled)) ∧
      report.fillsSkippedUnknownPosition = counted items items.length .skipped ∧
      report.chainInconsistencies = counted items items.length .inconsistent ∧
      report.closedSides = 2 * report.roundTrips.length ∧
      ∀ p, report.openPosition = some p ↔ ∃ last, items.getLast? = some last ∧
        role items (items.length - 1) = some .member ∧ last.targetTo = p := by
  obtain ⟨ledger, hfollows, htrips, hskipped, hinconsistent, hsides, hopen⟩ :=
    candidateReport_ledger h
  refine ⟨htrips ▸ hfollows.trips, ?_, hskipped.trans hfollows.skipped,
    hinconsistent.trans hfollows.inconsistent, htrips ▸ hsides, ?_⟩
  · intro i item hitem
    rw [role_eq hitem, ← judge_isSome_iff, Option.isSome_iff_exists]
    constructor
    · intro hunique
      exact hunique.exists
    · rintro ⟨r, hr⟩
      exact ⟨r, hr, fun r' hr' => Option.some.inj (hr'.symm.trans hr)⟩
  · intro p
    rw [hopen]
    cases hintact : ledger.chainIntact with
    | true =>
        obtain ⟨k, earlier, hk, hearlier, hrole, hholds⟩ := hfollows.intact hintact
        have hlast : items.getLast? = some earlier := by
          rw [List.getLast?_eq_getElem?, hk, Nat.add_sub_cancel, hearlier]
        rw [if_pos rfl, hlast, hk, Nat.add_sub_cancel, hrole, hholds.position]
        simp
    | false =>
        obtain ⟨-, hnone⟩ := hfollows.flat hintact
        simp only [Bool.false_eq_true, if_false, reduceCtorEq, false_iff]
        rintro ⟨last, hlast, hrole, -⟩
        have hne : items ≠ [] := by
          rintro rfl
          cases hlast
        have hlength := List.length_pos_iff.mpr hne
        exact hnone (items.length - 1) (by omega) hrole

/-- A round trip, a reversal that is still open, a restart in a position that is skipped, and a
restart from flat. -/
def sampleChain : List Fill :=
  [⟨"a", none, 0, 1, 10, 60000000, .filled, some 100⟩,
    ⟨"b", some "a", 1, -1, 70000000, 120000000, .filled, some 102⟩,
    ⟨"c", none, 1, 0, 130000000, 180000000, .filled, some 101⟩,
    ⟨"d", some "c", 0, 1, 190000000, 240000000, .filled, some 100⟩]

def sampleFundingEnv : FundingEvidence.Env where
  bridgeHash _ := ""
  decimal _ := none
  isoMs _ := none
  isBlank _ := false

def sampleReport : Except Exn CandidateReport :=
  candidateReport sampleFundingEnv (fun _ => "") "study" "trial" "BTCUSDT" sampleChain
    ⟨none, Dict.empty, "cost"⟩ 300000000 none [] none none

theorem candidateReport_chain_sample : ∃ report, sampleReport = .ok report ∧
    report.closedSides = 2 * report.roundTrips.length ∧
    report.fillsSkippedUnknownPosition = 1 ∧ report.openPosition = some 1 := by
  obtain ⟨report, hreport⟩ :=
    Except.exists_of_isOk (show sampleReport.isOk = true by decide +kernel)
  obtain ⟨-, -, hskipped, -, hsides, hopen⟩ := candidateReport_chain hreport
  exact ⟨report, hreport, hsides, hskipped.trans (by decide +kernel),
    (hopen 1).mpr ⟨_, rfl, by decide +kernel, rfl⟩⟩

end Reports

end PaperIncubation

end TradePlatform
