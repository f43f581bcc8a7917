/-
# `TradePlatform.DatasetCompositionMembers` — the members of a composition

A dataset is its request's acquisition when its members have, kind by kind, just the events of
the window (`Exactly`).  The windows of the parents tile the window of the request, so the grid of
each kind is the grids of the parents in order, and the members of the parents together are the
acquisition of the whole window.  No event comes twice in a grid, so no member comes twice either.
-/
import TradePlatform.DatasetComposition
import TradePlatform.Lib.Grid

namespace TradePlatform.Composition

open RawCapture (ObservationKind RawRow)
open ScheduledAcquisition (Text HistoricalAcquisitionRequest oneMinute openInterestGrid
  expectedEventAts expectedEventsByKind sealedDatasetMatchesRequest allKinds acquisitionKindOrder)
open Acquisition (Database DatasetRow NormalizedRow allowedObservationKinds instantOf)

/-! ## Grids -/

def intervalOf : ObservationKind → ℤ
  | .openInterest => openInterestGrid
  | _ => oneMinute

def shiftOf : ObservationKind → ℤ
  | .openInterest => 0
  | .ohlcv => 0
  | _ => oneMinute

theorem intervalOf_pos (kind : ObservationKind) : 0 < intervalOf kind := by
  cases kind <;> simp [intervalOf, openInterestGrid, oneMinute]

theorem expectedEventAts_eq {kind : ObservationKind} {start stop : ℤ}
    (h : intervalOf kind ∣ stop - start) :
    expectedEventAts kind start stop =
      Grid.windowTicks (intervalOf kind) (shiftOf kind) start stop := by
  have hbar : ∀ n : ℕ, ((List.range n).map fun i : ℕ => start + ((i : ℤ) + 1) * oneMinute) =
      Grid.ticks oneMinute n (start + oneMinute) := fun n =>
    List.map_congr_left fun i _ => by ring
  cases kind with
  | openInterest =>
      obtain ⟨k, hk⟩ := h
      have hpos : 0 < openInterestGrid := intervalOf_pos .openInterest
      have hexact : (stop - start + openInterestGrid - 1) / openInterestGrid =
          (stop - start) / openInterestGrid := by
        have hless : (openInterestGrid - 1) / openInterestGrid = 0 :=
          Int.ediv_eq_zero_of_lt (by omega) (by omega)
        rw [hk, intervalOf, add_sub_assoc, Int.mul_add_ediv_left _ _ hpos.ne', hless, add_zero,
          Int.mul_ediv_cancel_left _ hpos.ne']
      simp only [expectedEventAts, Grid.windowTicks, Grid.ticks, intervalOf, shiftOf, hexact,
        add_zero]
  | ohlcv => simp only [expectedEventAts, Grid.windowTicks, Grid.ticks, intervalOf, shiftOf,
      add_zero]
  | _ => exact hbar _

def expectedOf (request : HistoricalAcquisitionRequest) (kind : ObservationKind) : List ℤ :=
  if kind ∈ request.orderedKinds then expectedEventAts kind request.start request.stop else []

structure Aligned (request : HistoricalAcquisitionRequest) : Prop where
  nonempty : ∃ kind, kind ∈ request.orderedKinds
  lt : request.start < request.stop
  dvd : ∀ kind ∈ request.orderedKinds, intervalOf kind ∣ request.stop - request.start

variable {acquisition : HistoricalAcquisitionRequest}

theorem Aligned.expectedOf_nodup (h : Aligned acquisition) (kind : ObservationKind) :
    (expectedOf acquisition kind).Nodup := by
  unfold expectedOf
  split
  · rename_i hkind
    rw [expectedEventAts_eq (h.dvd kind hkind)]
    exact Grid.ticks_nodup (intervalOf_pos kind).ne' _ _
  · exact List.nodup_nil

theorem Aligned.expectedEventAts_ne_nil (h : Aligned acquisition) {kind : ObservationKind}
    (hkind : kind ∈ acquisition.orderedKinds) :
    expectedEventAts kind acquisition.start acquisition.stop ≠ [] := by
  rw [expectedEventAts_eq (h.dvd kind hkind)]
  exact Grid.windowTicks_ne_nil (intervalOf_pos kind) h.lt (h.dvd kind hkind)

/-! ## The identity of members -/

def eventsOf (rows : List (NormalizedRow × RawRow)) (kind : ObservationKind) : List ℤ :=
  (rows.filter fun m => decide (m.2.observationKind = kind)).map fun m => instantOf m.2.eventAt

/-- The members are of the instrument and the symbol, and have just the events of the window. -/
structure Exactly (rows : List (NormalizedRow × RawRow))
    (request : HistoricalAcquisitionRequest) : Prop where
  instrument : ∀ m ∈ rows, m.1.instrumentId = request.instrumentId
  identifier : ∀ m ∈ rows, m.2.providerIdentifier = request.providerSymbol
  symbol : ∀ m ∈ rows, m.2.providerSymbol = request.providerSymbol
  events : ∀ kind, (eventsOf rows kind).Perm (expectedOf request kind)

theorem mem_allKinds (kind : ObservationKind) : kind ∈ allKinds := by
  cases kind <;> decide

theorem toFinset_eq_singleton {α β : Type*} [DecidableEq β] {l : List α} {f : α → β} {b : β} :
    (l.map f).toFinset = {b} ↔ l ≠ [] ∧ ∀ a ∈ l, f a = b := by
  rw [Finset.eq_singleton_iff_nonempty_unique_mem]
  simp only [List.toFinset_nonempty_iff, ne_eq, List.map_eq_nil_iff, List.mem_toFinset,
    List.mem_map, forall_exists_index, and_imp, forall_apply_eq_imp_iff₂]

theorem perm_iff_toFinset {l l' : List ℤ} (h : l'.Nodup) :
    l.Perm l' ↔ l.toFinset = l'.toFinset ∧ l.length = l'.toFinset.card := by
  constructor
  · intro hperm
    rw [List.toFinset_card_of_nodup h]
    exact ⟨List.toFinset_eq_of_perm _ _ hperm, hperm.length_eq⟩
  · rintro ⟨hset, hlength⟩
    have hnodup : l.Nodup := by
      rw [← hset, List.card_toFinset] at hlength
      exact List.dedup_eq_self.mp ((List.dedup_sublist l).eq_of_length hlength.symm)
    exact List.perm_of_nodup_nodup_toFinset_eq hnodup h hset

section View

variable {P : Type} {env : RawCapture.Env P} {db : Database env} {row : DatasetRow}

def rowsOf (db : Database env) (row : DatasetRow) : List (NormalizedRow × RawRow) :=
  row.members.filterMap db.member

theorem eventAtsByKind_eq (kind : ObservationKind) :
    (db.view row).eventAtsByKind kind =
      if eventsOf (rowsOf db row) kind = [] then none
      else some (eventsOf (rowsOf db row) kind).toFinset := by
  simp only [Database.view, eventsOf, rowsOf, List.map_eq_nil_iff]

theorem memberCountByKind_eq (kind : ObservationKind) :
    (db.view row).memberCountByKind kind = (eventsOf (rowsOf db row) kind).length := by
  simp only [Database.view, eventsOf, rowsOf, List.length_map]

theorem matches_iff (h : Aligned acquisition) :
    sealedDatasetMatchesRequest (db.view row) acquisition = true ↔
      row.normalizationVersion = acquisition.normalizationVersion ∧
        Exactly (rowsOf db row) acquisition := by
  have hevents : ∀ kind, ((db.view row).eventAtsByKind kind = expectedEventsByKind acquisition kind ∧
      (kind ∈ acquisition.orderedKinds → (db.view row).memberCountByKind kind =
        (expectedEventAts kind acquisition.start acquisition.stop).toFinset.card)) ↔
      (eventsOf (rowsOf db row) kind).Perm (expectedOf acquisition kind) := by
    intro kind
    have hnodup := h.expectedOf_nodup kind
    rw [eventAtsByKind_eq, memberCountByKind_eq]
    unfold expectedEventsByKind expectedOf at *
    by_cases hkind : kind ∈ acquisition.orderedKinds
    · have hne := h.expectedEventAts_ne_nil hkind
      simp only [hkind, if_true, forall_const] at hnodup ⊢
      rw [perm_iff_toFinset hnodup]
      by_cases hnil : eventsOf (rowsOf db row) kind = []
      · simp only [hnil, if_true, reduceCtorEq, false_and, List.toFinset_nil, false_iff, not_and]
        intro hempty
        exact absurd (List.toFinset_eq_empty_iff _ |>.mp hempty.symm) hne
      · rw [if_neg hnil, Option.some.injEq]
    · simp only [hkind, if_false, List.perm_nil, false_implies, and_true]
      by_cases hnil : eventsOf (rowsOf db row) kind = []
      · simp only [hnil, if_true]
      · simp only [hnil, if_false, reduceCtorEq]
  obtain ⟨kind, hkind⟩ := h.nonempty
  have hrows : (eventsOf (rowsOf db row) kind).Perm (expectedOf acquisition kind) →
      rowsOf db row ≠ [] := by
    intro hperm hnil
    rw [hnil] at hperm
    have hempty : expectedOf acquisition kind = [] := List.nil_perm.mp hperm
    rw [expectedOf, if_pos hkind] at hempty
    exact h.expectedEventAts_ne_nil hkind hempty
  unfold sealedDatasetMatchesRequest
  rw [decide_eq_true_eq]
  constructor
  · rintro ⟨hversion, hinstrument, hidentifier, hsymbol, hats, hcounts⟩
    exact ⟨hversion, (toFinset_eq_singleton.mp hinstrument).2,
      (toFinset_eq_singleton.mp hidentifier).2, (toFinset_eq_singleton.mp hsymbol).2,
      fun k => (hevents k).mp ⟨hats k (mem_allKinds k), hcounts k⟩⟩
  · rintro ⟨hversion, hexactly⟩
    have hne := hrows (hexactly.events kind)
    exact ⟨hversion, toFinset_eq_singleton.mpr ⟨hne, hexactly.instrument⟩,
      toFinset_eq_singleton.mpr ⟨hne, hexactly.identifier⟩,
      toFinset_eq_singleton.mpr ⟨hne, hexactly.symbol⟩,
      fun k _ => ((hevents k).mpr (hexactly.events k)).1,
      fun k hk => ((hevents k).mpr (hexactly.events k)).2 hk⟩

end View

/-! ## Windows that tile -/

structure Tiled (request : DatasetCompositionRequest) : Prop where
  nonempty : request.observationKinds.Nonempty
  allowed : request.observationKinds ⊆ allowedObservationKinds
  normalizationVersion : blank request.normalizationVersion = false
  lt : request.start.wall < request.stop.wall
  dvd : ∀ kind ∈ request.observationKinds,
    intervalOf kind ∣ request.stop.wall - request.start.wall
  parent_ne_nil : request.parents ≠ []
  parent_lt : ∀ parent ∈ request.parents, parent.start.wall < parent.stop.wall
  parent_dvd : ∀ parent ∈ request.parents, ∀ kind ∈ request.observationKinds,
    intervalOf kind ∣ parent.stop.wall - parent.start.wall
  tiles : Grid.Tiles request.start.wall request.stop.wall
    (request.parents.map fun parent => (parent.start.wall, parent.stop.wall))

theorem require_eq_ok {condition : Prop} [Decidable condition] {code : String} :
    require condition code = .ok () ↔ condition := by
  unfold require refuse
  split
  · rename_i h
    exact ⟨fun _ => h, fun _ => rfl⟩
  · rename_i h
    constructor
    · intro hok
      cases hok
    · exact fun hcondition => absurd hcondition h

theorem of_require {α : Type} {condition : Prop} [Decidable condition] {code : String}
    {rest : Except Exn α} {a : α} (h : (do require condition code; rest) = .ok a) :
    condition ∧ rest = .ok a := by
  obtain ⟨_, hcondition, hrest⟩ := Except.bind_eq_ok.mp h
  exact ⟨require_eq_ok.mp hcondition, hrest⟩

theorem validateWindow_ok {start stop : Time} {kinds : Finset ObservationKind} {name : String}
    (h : validateWindow start stop kinds name = .ok ()) :
    start.wall < stop.wall ∧ ∀ kind ∈ kinds, intervalOf kind ∣ stop.wall - start.wall := by
  obtain ⟨_, h⟩ := of_require h
  obtain ⟨_, h⟩ := of_require h
  obtain ⟨hlt, h⟩ := of_require h
  obtain ⟨_, h⟩ := of_require h
  obtain ⟨hminutes, h⟩ := of_require h
  refine ⟨hlt, fun kind hkind => ?_⟩
  have hbar : oneMinute ∣ stop.wall - start.wall := Int.dvd_of_emod_eq_zero hminutes
  cases kind with
  | openInterest =>
      rw [if_pos hkind] at h
      obtain ⟨_, h⟩ := of_require h
      exact Int.dvd_of_emod_eq_zero (require_eq_ok.mp h)
  | _ => exact hbar

theorem validateOrder_ok {parent : CompositionParent} {parents : List CompositionParent} {b : ℤ}
    (h : validateOrder (parent :: parents) = .ok ())
    (hlast : (parent :: parents).getLast?.map (fun parent => parent.stop.wall) = some b) :
    Grid.Tiles parent.start.wall b
      ((parent :: parents).map fun parent => (parent.start.wall, parent.stop.wall)) := by
  induction parents generalizing parent with
  | nil => exact ⟨rfl, Option.some.inj hlast⟩
  | cons next parents ih =>
      obtain ⟨_, h⟩ := of_require h
      obtain ⟨hle, h⟩ := of_require h
      obtain ⟨hge, h⟩ := of_require h
      have hrest := ih h hlast
      rw [← le_antisymm hle hge] at hrest
      exact ⟨rfl, hrest⟩

theorem tiled_of_valid {request : DatasetCompositionRequest}
    (h : validateCompositionRequest request = .ok ()) : Tiled request := by
  obtain ⟨_, h⟩ := of_require h
  obtain ⟨_, h⟩ := of_require h
  obtain ⟨_, h⟩ := of_require h
  obtain ⟨hkinds, h⟩ := of_require h
  obtain ⟨hallowed, h⟩ := of_require h
  obtain ⟨hversion, h⟩ := of_require h
  obtain ⟨_, hwindow, h⟩ := Except.bind_eq_ok.mp h
  obtain ⟨hmany, h⟩ := of_require h
  obtain ⟨units, hparents, h⟩ := Except.bind_eq_ok.mp h
  obtain ⟨_, h⟩ := of_require h
  obtain ⟨_, h⟩ := of_require h
  obtain ⟨_, h⟩ := of_require h
  obtain ⟨_, horder, h⟩ := Except.bind_eq_ok.mp h
  obtain ⟨hfirst, hlast⟩ := require_eq_ok.mp h
  obtain ⟨hlt, hdvd⟩ := validateWindow_ok hwindow
  have hparent : ∀ parent ∈ request.parents, parent.start.wall < parent.stop.wall ∧
      ∀ kind ∈ request.observationKinds,
        intervalOf kind ∣ parent.stop.wall - parent.start.wall := by
    intro parent hmem
    obtain ⟨_, _, hok⟩ := Except.exists_of_mem_mapM hparents hmem
    obtain ⟨_, hok⟩ := of_require hok
    obtain ⟨_, hok⟩ := of_require hok
    exact validateWindow_ok hok
  have hne : request.parents ≠ [] := by
    intro hnil
    rw [hnil] at hmany
    exact absurd hmany (by decide)
  refine ⟨Finset.nonempty_iff_ne_empty.mpr hkinds, Finset.sdiff_eq_empty_iff_subset.mp hallowed,
    hversion, hlt, hdvd, hne, fun parent hmem => (hparent parent hmem).1,
    fun parent hmem => (hparent parent hmem).2, ?_⟩
  generalize request.parents = parents at *
  cases parents with
  | nil => exact absurd rfl hne
  | cons parent parents =>
      have hstart : parent.start.wall = request.start.wall := Option.some.inj hfirst
      rw [← hstart]
      exact validateOrder_ok horder hlast

section Requests

variable {texts : ScheduledAcquisition.Env} {request : DatasetCompositionRequest}

theorem mem_orderedKinds (h : Tiled request) {version : Text} {start stop : Time}
    {kind : ObservationKind} :
    kind ∈ (acquisitionRequest texts request version start stop).orderedKinds ↔
      kind ∈ request.observationKinds := by
  change kind ∈ acquisitionKindOrder.filter (fun k => decide (k ∈ request.observationKinds)) ↔ _
  rw [List.mem_filter, decide_eq_true_eq, and_iff_right_iff_imp]
  intro hkind
  have hmem := h.allowed hkind
  simp only [allowedObservationKinds, Finset.mem_insert, Finset.mem_singleton] at hmem
  rcases hmem with rfl | rfl | rfl | rfl <;> decide

theorem Tiled.aligned_parent (h : Tiled request) {parent : CompositionParent}
    (hparent : parent ∈ request.parents) : Aligned (parentRequest texts request parent) := by
  obtain ⟨kind, hkind⟩ := h.nonempty
  refine ⟨⟨kind, (mem_orderedKinds h).mpr hkind⟩, h.parent_lt parent hparent, fun k hk => ?_⟩
  exact h.parent_dvd parent hparent k ((mem_orderedKinds h).mp hk)

theorem Tiled.aligned (h : Tiled request) : Aligned (combinedRequest texts request) := by
  obtain ⟨kind, hkind⟩ := h.nonempty
  refine ⟨⟨kind, (mem_orderedKinds h).mpr hkind⟩, h.lt, fun k hk => ?_⟩
  exact h.dvd k ((mem_orderedKinds h).mp hk)

theorem flatMap_expectedOf (h : Tiled request) (kind : ObservationKind) :
    request.parents.flatMap (fun parent => expectedOf (parentRequest texts request parent) kind) =
      expectedOf (combinedRequest texts request) kind := by
  by_cases hkind : kind ∈ request.observationKinds
  · have hgrid : ∀ parent ∈ request.parents,
        expectedOf (parentRequest texts request parent) kind =
          Grid.windowTicks (intervalOf kind) (shiftOf kind) parent.start.wall parent.stop.wall := by
      intro parent hparent
      refine (if_pos ((mem_orderedKinds h).mpr hkind)).trans ?_
      exact expectedEventAts_eq (h.parent_dvd parent hparent kind hkind)
    have hle : ∀ w ∈ request.parents.map (fun parent => (parent.start.wall, parent.stop.wall)),
        w.1 ≤ w.2 := by
      intro w hw
      obtain ⟨parent, hparent, rfl⟩ := List.mem_map.mp hw
      exact (h.parent_lt parent hparent).le
    have hdvd : ∀ w ∈ request.parents.map (fun parent => (parent.start.wall, parent.stop.wall)),
        intervalOf kind ∣ w.2 - w.1 := by
      intro w hw
      obtain ⟨parent, hparent, rfl⟩ := List.mem_map.mp hw
      exact h.parent_dvd parent hparent kind hkind
    have htiles : _ = Grid.windowTicks (intervalOf kind) (shiftOf kind) _ _ :=
      h.tiles.flatMap_windowTicks (intervalOf_pos kind) hle hdvd
    rw [List.flatMap_map] at htiles
    rw [List.flatMap_congr hgrid, htiles]
    refine Eq.trans ?_ (if_pos ((mem_orderedKinds h).mpr hkind)).symm
    exact (expectedEventAts_eq (h.dvd kind hkind)).symm
  · have hnone : ∀ {version start stop}, expectedOf
        (acquisitionRequest texts request version start stop) kind = [] := by
      intro version start stop
      exact if_neg fun hmem => hkind ((mem_orderedKinds h).mp hmem)
    rw [combinedRequest, hnone]
    exact List.flatMap_eq_nil_iff.mpr fun parent _ => hnone

end Requests

/-! ## The members of the parents together -/

section Union

theorem eventsOf_append (rows rows' : List (NormalizedRow × RawRow)) (kind : ObservationKind) :
    eventsOf (rows ++ rows') kind = eventsOf rows kind ++ eventsOf rows' kind := by
  simp only [eventsOf, List.filter_append, List.map_append]

theorem Exactly.perm {rows rows' : List (NormalizedRow × RawRow)} (h : Exactly rows acquisition)
    (hperm : rows'.Perm rows) : Exactly rows' acquisition where
  instrument m hm := h.instrument m (hperm.mem_iff.mp hm)
  identifier m hm := h.identifier m (hperm.mem_iff.mp hm)
  symbol m hm := h.symbol m (hperm.mem_iff.mp hm)
  events kind := ((hperm.filter _).map _).trans (h.events kind)

theorem nodup_of_filter {α β : Type*} [DecidableEq β] {f : α → β} {l : List α}
    (h : ∀ b, (l.filter fun a => decide (f a = b)).Nodup) : l.Nodup := by
  induction l with
  | nil => exact .nil
  | cons a l ih =>
      refine List.nodup_cons.mpr ⟨fun hmem => ?_, ih fun b => ?_⟩
      · have hlabel := h (f a)
        simp only [List.filter_cons, decide_true, if_true, List.nodup_cons, List.mem_filter,
          and_true] at hlabel
        exact hlabel.1 hmem
      · exact (h b).sublist ((List.sublist_cons_self a l).filter _)

theorem Exactly.nodup {rows : List (NormalizedRow × RawRow)} (h : Exactly rows acquisition)
    (haligned : Aligned acquisition) : rows.Nodup :=
  nodup_of_filter fun kind => List.Nodup.of_map _
    ((h.events kind).nodup_iff.mpr (haligned.expectedOf_nodup kind))

variable {texts : ScheduledAcquisition.Env} {request : DatasetCompositionRequest}

theorem exactly_flatten (h : Tiled request) {lists : List (List (NormalizedRow × RawRow))}
    (hlists : List.Forall₂ (fun parent rows => Exactly rows (parentRequest texts request parent))
      request.parents lists) :
    Exactly lists.flatten (combinedRequest texts request) := by
  have hmember : ∀ m ∈ lists.flatten, ∃ parent ∈ request.parents, ∃ rows, m ∈ rows ∧
      Exactly rows (parentRequest texts request parent) := by
    intro m hm
    obtain ⟨rows, hrows, hm⟩ := List.mem_flatten.mp hm
    obtain ⟨parent, hparent, hexactly⟩ := hlists.flip.exists_of_mem hrows
    exact ⟨parent, hparent, rows, hm, hexactly⟩
  refine ⟨fun m hm => ?_, fun m hm => ?_, fun m hm => ?_, fun kind => ?_⟩
  · obtain ⟨_, _, _, hmem, hexactly⟩ := hmember m hm
    exact hexactly.instrument m hmem
  · obtain ⟨_, _, _, hmem, hexactly⟩ := hmember m hm
    exact hexactly.identifier m hmem
  · obtain ⟨_, _, _, hmem, hexactly⟩ := hmember m hm
    exact hexactly.symbol m hmem
  · rw [← flatMap_expectedOf h]
    generalize request.parents = parents at hlists
    clear hmember
    induction hlists with
    | nil => exact .refl _
    | cons hexactly _ ih =>
        rw [List.flatten_cons, eventsOf_append, List.flatMap_cons]
        exact (hexactly.events kind).append ih

theorem nodup_of_filterMap {α β : Type*} {f : α → Option β} {l : List α}
    (hsome : ∀ a ∈ l, ∃ b, f a = some b) (h : (l.filterMap f).Nodup) : l.Nodup := by
  induction l with
  | nil => exact .nil
  | cons a l ih =>
      obtain ⟨b, hb⟩ := hsome a List.mem_cons_self
      rw [List.filterMap_cons_some hb] at h
      obtain ⟨hnew, hrest⟩ := List.nodup_cons.mp h
      refine List.nodup_cons.mpr ⟨fun hmem => hnew (List.mem_filterMap.mpr ⟨a, hmem, hb⟩), ?_⟩
      exact ih (fun a' ha' => hsome a' (List.mem_cons_of_mem _ ha')) hrest

end Union

/-! ## Proven parents -/

section Proven

variable {P : Type} {env : RawCapture.Env P} {db db' : Database env} {row : DatasetRow}
variable {texts : ScheduledAcquisition.Env} {request : DatasetCompositionRequest}
  {parent : CompositionParent}

theorem memberCount_eq : memberCount db row = (rowsOf db row).length := by
  have hcounts : (db.view row).memberCountByKind =
      fun kind => (eventsOf (rowsOf db row) kind).length := funext memberCountByKind_eq
  rw [memberCount, hcounts]
  generalize rowsOf db row = rows
  induction rows with
  | nil => rfl
  | cons m rows ih =>
      have hstep : ∀ kind, (eventsOf (m :: rows) kind).length =
          (if m.2.observationKind = kind then 1 else 0) + (eventsOf rows kind).length := by
        intro kind
        have hcons := congrArg List.length (eventsOf_append [m] rows kind)
        rw [List.length_append] at hcons
        refine hcons.trans (congrArg (· + _) ?_)
        by_cases h : m.2.observationKind = kind
        · simp [eventsOf, h]
        · simp [eventsOf, h]
      have hone : ∀ own : ObservationKind,
          (allKinds.map fun kind => if own = kind then 1 else 0).sum = 1 := by
        intro own
        cases own <;> rfl
      simp only [hstep, List.sum_map_add, ih, hone, List.length_cons]
      omega

structure ProvenParent (db : Database env) (acquisition : HistoricalAcquisitionRequest)
    (row : DatasetRow) (memberIds : List UUID) : Prop where
  ids : memberIds = datasetMemberIds row
  joined : db.Joined row
  exactly : Exactly (memberIds.filterMap db.member) acquisition

theorem proveParent_ok (h : Tiled request) (hparent : parent ∈ request.parents)
    {x : List UUID × ℤ} (hproven : proveParent texts db request parent = .ok x) :
    ∃ row, existingSealedDataset db request parent.datasetVersion = some row ∧
      ProvenParent db (parentRequest texts request parent) row x.1 := by
  unfold proveParent at hproven
  dsimp only at hproven
  cases hrow : existingSealedDataset db request parent.datasetVersion with
  | none =>
      rw [hrow] at hproven
      cases hproven
  | some row =>
      rw [hrow] at hproven
      obtain ⟨_, hproven⟩ := of_require hproven
      obtain ⟨_, hproven⟩ := of_require hproven
      obtain ⟨hmatches, hproven⟩ := of_require hproven
      obtain ⟨⟨hcount, _⟩, hproven⟩ := of_require hproven
      cases Except.pure_eq_ok.mp hproven
      refine ⟨row, rfl, rfl, ?_, ?_⟩
      · intro id hid
        rw [memberCount_eq, rowsOf, datasetMemberIds, (sortBy_perm _ _).length_eq] at hcount
        exact Option.isSome_iff_exists.mp (List.filterMap_length_eq_length.mp hcount.symm id hid)
      · have hexactly := ((matches_iff (h.aligned_parent hparent)).mp hmatches).2
        exact hexactly.perm ((sortBy_perm _ _).filterMap _)

def parentMembers (db : Database env) (request : DatasetCompositionRequest)
    (parent : CompositionParent) : List UUID :=
  (existingSealedDataset db request parent.datasetVersion).elim [] DatasetRow.members

structure Composed (texts : ScheduledAcquisition.Env) (request : DatasetCompositionRequest)
    (db : Database env) (ids : List UUID) : Prop where
  joined : ∀ id ∈ ids, ∃ m, db.member id = some m
  exactly : Exactly (ids.filterMap db.member) (combinedRequest texts request)
  nodup : ids.Nodup
  members : ids.Perm (request.parents.flatMap (parentMembers db request))

theorem composed_of_proven (h : Tiled request) {proven : List (List UUID × ℤ)}
    (hproven : request.parents.mapM (proveParent texts db request) = .ok proven) :
    Composed texts request db (proven.flatMap Prod.fst) := by
  have hall : List.Forall₂ (fun parent x => parent ∈ request.parents ∧
      proveParent texts db request parent = .ok x) request.parents proven :=
    (List.forall₂_and_left _ _).mpr ⟨fun _ hmem => hmem, Except.mapM_iff_forall₂.mp hproven⟩
  have heach : ∀ x ∈ proven, ∃ parent ∈ request.parents, ∃ row,
      existingSealedDataset db request parent.datasetVersion = some row ∧
        ProvenParent db (parentRequest texts request parent) row x.1 := by
    intro x hx
    obtain ⟨parent, hparent, hok⟩ := Except.mem_of_mapM hproven hx
    exact ⟨parent, hparent, proveParent_ok h hparent hok⟩
  have hjoined : ∀ id ∈ proven.flatMap Prod.fst, ∃ m, db.member id = some m := by
    intro id hid
    obtain ⟨x, hx, hid⟩ := List.mem_flatMap.mp hid
    obtain ⟨parent, hparent, row, _, hok⟩ := heach x hx
    rw [hok.ids] at hid
    exact hok.joined id (mem_sortBy.mp hid)
  have hexactly : Exactly ((proven.flatMap Prod.fst).filterMap db.member)
      (combinedRequest texts request) := by
    have hlists : List.Forall₂ (fun parent rows => Exactly rows (parentRequest texts request parent))
        request.parents (proven.map fun x => x.1.filterMap db.member) := by
      refine List.forall₂_map_right_iff.mpr (hall.imp ?_)
      rintro parent x ⟨hparent, hok⟩
      obtain ⟨_, _, hrow⟩ := proveParent_ok h hparent hok
      exact hrow.exactly
    have hflatten := exactly_flatten h hlists
    rwa [← List.flatMap_def, ← List.filterMap_flatMap] at hflatten
  refine ⟨hjoined, hexactly, nodup_of_filterMap hjoined (hexactly.nodup h.aligned), ?_⟩
  have hperm : List.Forall₂ (fun parent x => (Prod.fst x).Perm (parentMembers db request parent))
      request.parents proven := by
    refine hall.imp ?_
    rintro parent x ⟨hparent, hok⟩
    obtain ⟨row, hrow, hids⟩ := proveParent_ok h hparent hok
    rw [hids.ids, parentMembers, hrow]
    exact sortBy_perm _ _
  generalize request.parents = parents at hperm
  clear heach hjoined hexactly hall hproven
  induction hperm with
  | nil => exact .refl _
  | cons hx _ ih =>
      rw [List.flatMap_cons, List.flatMap_cons]
      exact hx.append ih

theorem Composed.perm {ids ids' : List UUID} (h : Composed texts request db ids)
    (hperm : ids'.Perm ids) : Composed texts request db ids' where
  joined id hid := h.joined id (hperm.mem_iff.mp hid)
  exactly := h.exactly.perm (hperm.filterMap _)
  nodup := hperm.nodup_iff.mpr h.nodup
  members := hperm.trans h.members

theorem proveParents_ok {now : ℤ} {unionIds : List UUID}
    (h : proveParents texts db request now = .ok unionIds) :
    ∃ proven, request.parents.mapM (proveParent texts db request) = .ok proven ∧
      unionIds = sortBy id (proven.flatMap Prod.fst) := by
  obtain ⟨proven, hproven, h⟩ := Except.bind_eq_ok.mp h
  obtain ⟨_, h⟩ := of_require h
  obtain ⟨_, h⟩ := of_require h
  exact ⟨proven, hproven, (Except.pure_eq_ok.mp h).symm⟩

theorem composed_of_proveParents (h : Tiled request) {now : ℤ} {unionIds : List UUID}
    (hproven : proveParents texts db request now = .ok unionIds) :
    Composed texts request db unionIds := by
  obtain ⟨proven, hmapped, rfl⟩ := proveParents_ok hproven
  exact (composed_of_proven h hmapped).perm (sortBy_perm _ _)

/-! ## Growth -/

theorem filterMap_member_eq (hle : db.Le db') {ids : List UUID}
    (hjoined : ∀ id ∈ ids, ∃ m, db.member id = some m) :
    ids.filterMap db'.member = ids.filterMap db.member := by
  refine List.filterMap_congr fun id hid => ?_
  obtain ⟨m, hm⟩ := hjoined id hid
  rw [hm, hle.member hm]

theorem proveParent_le (h : Tiled request) (hparent : parent ∈ request.parents)
    (hle : db.Le db') {x : List UUID × ℤ} (hproven : proveParent texts db request parent = .ok x) :
    proveParent texts db' request parent = .ok x := by
  obtain ⟨row, hrow, hok⟩ := proveParent_ok h hparent hproven
  have hrow' : existingSealedDataset db' request parent.datasetVersion = some row := hle.find? hrow
  have hview := hle.view hok.joined
  have hcount : memberCount db' row = memberCount db row := by
    rw [memberCount, memberCount, hview]
  unfold proveParent at hproven ⊢
  rw [hrow] at hproven
  simp only [hrow', hview, hcount]
  exact hproven

end Proven

end TradePlatform.Composition
