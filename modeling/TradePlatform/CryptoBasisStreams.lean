/-
# `TradePlatform.CryptoBasisStreams` — the streamed basis is the basis of each event

The stream ranks the evidence once, over all the events that are asked for; the calls for the
single events rank it each time.  Both keep one row of a kind, a provider and an instant, so
the group of an event in the stream has the rows that its own call finds, and the merge of the
groups with the events neither shifts nor drops one (`GroupMerge.advance_group`).  What the
calls do beside that is to write: they do what writing the results of the stream one after
another does.
-/
import TradePlatform.CryptoBasisFeatures
import TradePlatform.KnowledgeTimeDecisions

namespace TradePlatform.CryptoBasis

open RawCapture (ObservationKind)
open KnowledgeTime (EvidenceTierVerdictV1 ObservationKnowledgeV1 sampleDigests sampleVerdict)

/-! ## One call after another -/

def runEach {α : Type} (build : ℤ → Except Exn (Option α)) : List ℤ → Yielded α
  | [] => ([], none)
  | eventAt :: eventAts =>
      match build eventAt with
      | .error error => ([], some error)
      | .ok none => runEach build eventAts
      | .ok (some a) => (runEach build eventAts).cons a

/-- The results of a stream are written one after another, up to the first that is refused. -/
def writeThrough (admits : FeatureMaterializationV2 → Bool) (ended : Option Exn) :
    FeatureStore → List FeatureMaterializationV2 →
      Yielded FeatureMaterializationV2 × FeatureStore
  | store, [] => (([], ended), store)
  | store, materialization :: materializations =>
      match materializeSubject admits store materialization with
      | .error error => (([], some error), store)
      | .ok store =>
          let rest := writeThrough admits ended store materializations
          (rest.1.cons materialization, rest.2)

section RunEach

variable {α β : Type} {f g : ℤ → Except Exn (Option α)} {eventAts : List ℤ}

theorem runEach_congr (h : ∀ eventAt ∈ eventAts, f eventAt = g eventAt) :
    runEach f eventAts = runEach g eventAts := by
  induction eventAts with
  | nil => rfl
  | cons eventAt eventAts ih =>
      have hrest := ih fun e he => h e (List.mem_cons_of_mem _ he)
      rw [runEach, runEach, h eventAt List.mem_cons_self, hrest]

theorem runEach_error {error : Exn} (h : eventAts ≠ []) :
    runEach (fun _ => (.error error : Except Exn (Option α))) eventAts = ([], some error) := by
  cases eventAts with
  | nil => exact absurd rfl h
  | cons eventAt eventAts => rfl

theorem runEach_forall₂ {f : ℤ → Except Exn (Option α)} {g : ℤ → Except Exn (Option β)}
    {R : α → β → Prop}
    (hstep : ∀ eventAt x y, f eventAt = .ok x → g eventAt = .ok y →
      (x = none ∧ y = none) ∨ ∃ a b, x = some a ∧ y = some b ∧ R a b)
    (hf : (runEach f eventAts).2 = none) (hg : (runEach g eventAts).2 = none) :
    List.Forall₂ R (runEach f eventAts).1 (runEach g eventAts).1 := by
  induction eventAts with
  | nil => exact .nil
  | cons eventAt eventAts ih =>
      rw [runEach] at hf hg ⊢
      rw [runEach]
      cases hx : f eventAt with
      | error error =>
          rw [hx] at hf
          cases hf
      | ok x =>
          cases hy : g eventAt with
          | error error =>
              rw [hy] at hg
              cases hg
          | ok y =>
              rw [hx] at hf
              rw [hy] at hg
              rcases hstep eventAt x y hx hy with ⟨rfl, rfl⟩ | ⟨a, b, rfl, rfl, hab⟩
              · exact ih hf hg
              · exact .cons hab (ih hf hg)

end RunEach

/-! ## The evidence of an event -/

def ReferencePriceRow.partition (row : ReferencePriceRow) : ObservationKind × String × ℤ :=
  (row.observationKind, row.providerIdentifier, row.eventAt)

theorem ranked_and {π π' : Type} [DecidableEq π] [DecidableEq π']
    {selected p : ReferencePriceRow → Bool} {partition : ReferencePriceRow → π}
    {partition' : ReferencePriceRow → π'}
    (h : ∀ a b, p a = true →
      ((p b = true ∧ partition b = partition a) ↔ partition' b = partition' a))
    (rows : List ReferencePriceRow) :
    ranked (fun row => selected row && p row) partition rows =
      (ranked selected partition' rows).filter p := by
  unfold ranked
  rw [List.filter_filter]
  refine List.filter_congr fun row _ => ?_
  dsimp only
  cases hp : p row with
  | false => rw [Bool.and_false, Bool.false_and, Bool.false_and]
  | true =>
      rw [Bool.and_true, Bool.true_and]
      refine congrArg (selected row && ·) (decide_eq_decide.mpr ?_)
      simp only [Bool.and_eq_true]
      refine forall₂_congr fun other _ => ⟨fun hle hsel hpart => ?_, fun hle hsel hpart => ?_⟩
      · have hother := (h row other hp).mpr hpart
        exact hle ⟨hsel, hother.1⟩ hother.2
      · exact hle hsel.1 ((h row other hp).mp ⟨hsel.2, hpart⟩)

theorem selectSingleIdentity_congr {rows rows' : List ReferencePriceRow} (hperm : rows.Perm rows')
    (hnodup : (rows'.map ReferencePriceRow.providerIdentifier).Nodup) (message : String) :
    selectSingleIdentity rows message = selectSingleIdentity rows' message := by
  have hnodup' := (hperm.map ReferencePriceRow.providerIdentifier).nodup_iff.mpr hnodup
  have hlength := hperm.length_eq
  rw [selectSingleIdentity, selectSingleIdentity, hnodup.dedup, hnodup'.dedup]
  match rows, rows' with
  | [], [] => rfl
  | [a], [b] => rw [List.singleton_perm_singleton.mp hperm]
  | [], _ :: _ => simp at hlength
  | _ :: _, [] => simp at hlength
  | [_], _ :: _ :: _ => simp at hlength
  | _ :: _ :: _, [_] => simp at hlength
  | _ :: _ :: _, _ :: _ :: _ => simp

namespace Calculator

variable (c : Calculator) (call : BasisCall)

def evidence : List ReferencePriceRow :=
  ranked (visible call.instrumentId call.decisionAt) ReferencePriceRow.partition
    (c.members call.datasetVersionId)

/-- Just one row ranks first in each partition: no revision of an observation is ingested twice
at one time. -/
def UniquelyRanked : Prop := ((c.evidence call).map ReferencePriceRow.partition).Nodup

instance : Decidable (c.UniquelyRanked call) := inferInstanceAs (Decidable (List.Nodup _))

def evidenceAt (kind : ObservationKind) (eventAt : ℤ) : List ReferencePriceRow :=
  (c.evidence call).filter fun row => decide (row.observationKind = kind ∧ row.eventAt = eventAt)

variable {c call}

theorem referencePriceRows_perm (c : Calculator) (call : BasisCall) (kind : ObservationKind)
    (eventAt : ℤ) :
    (c.referencePriceRows call kind eventAt).Perm (c.evidenceAt call kind eventAt) := by
  refine (c.perm _).trans (.of_eq (ranked_and ?_ _))
  intro a b ha
  have hkey := of_decide_eq_true ha
  simp only [ReferencePriceRow.partition, Prod.mk.injEq, decide_eq_true_eq, hkey.1, hkey.2]
  tauto

theorem UniquelyRanked.providers_nodup (h : c.UniquelyRanked call) (kind : ObservationKind)
    (eventAt : ℤ) :
    ((c.evidenceAt call kind eventAt).map ReferencePriceRow.providerIdentifier).Nodup := by
  have hpartition : ((c.evidenceAt call kind eventAt).map ReferencePriceRow.partition).Nodup :=
    List.Nodup.sublist (List.filter_sublist.map _) h
  refine List.Nodup.of_map (fun provider => (kind, provider, eventAt)) ?_
  rw [List.map_map]
  refine (List.map_congr_left fun row hrow => ?_) ▸ hpartition
  obtain ⟨rfl, rfl⟩ := of_decide_eq_true (List.mem_filter.mp hrow).2
  rfl

def streamed (first last : ℤ) (row : ReferencePriceRow) : Bool :=
  decide ((row.observationKind = .markPrice ∨ row.observationKind = .indexPrice) ∧
    first ≤ row.eventAt ∧ row.eventAt ≤ last)

theorem streamRows_perm (c : Calculator) (call : BasisCall) (first last : ℤ) :
    (c.streamRows call first last).Perm ((c.evidence call).filter (streamed first last)) := by
  refine (sortBy_perm _ _).trans ((c.perm _).trans (.of_eq (ranked_and ?_ _)))
  intro a b ha
  have hkey := of_decide_eq_true ha
  simp only [ReferencePriceRow.partition, Prod.mk.injEq, decide_eq_true_eq]
  constructor
  · exact fun h => h.2
  · rintro ⟨hkind, hprovider, hevent⟩
    exact ⟨by rw [hkind, hevent]; exact hkey, hkind, hprovider, hevent⟩

theorem streamRows_event (c : Calculator) (call : BasisCall) {first last eventAt : ℤ}
    (hfirst : first ≤ eventAt) (hlast : eventAt ≤ last) :
    (((c.streamRows call first last).filter fun row => decide (row.eventAt = eventAt)).filter
        fun row => decide (row.observationKind = .markPrice)).Perm
      (c.evidenceAt call .markPrice eventAt) ∧
    (((c.streamRows call first last).filter fun row => decide (row.eventAt = eventAt)).filter
        fun row => !decide (row.observationKind = .markPrice)).Perm
      (c.evidenceAt call .indexPrice eventAt) := by
  have hperm := (streamRows_perm c call first last).filter
    fun row => decide (row.eventAt = eventAt)
  constructor
  · refine (hperm.filter _).trans (.of_eq ?_)
    rw [List.filter_filter, List.filter_filter, evidenceAt]
    refine List.filter_congr fun row _ => ?_
    unfold streamed
    rw [← Bool.decide_and, ← Bool.decide_and, decide_eq_decide]
    constructor
    · exact fun h => h.1
    · rintro ⟨hkind, rfl⟩
      exact ⟨⟨hkind, rfl⟩, .inl hkind, hfirst, hlast⟩
  · refine (hperm.filter _).trans (.of_eq ?_)
    rw [List.filter_filter, List.filter_filter, evidenceAt]
    refine List.filter_congr fun row _ => ?_
    unfold streamed
    rw [← decide_not, ← Bool.decide_and, ← Bool.decide_and, decide_eq_decide]
    constructor
    · rintro ⟨⟨hne, hevent⟩, hkind, _⟩
      exact ⟨hkind.resolve_left hne, hevent⟩
    · rintro ⟨hkind, rfl⟩
      have hne : row.observationKind ≠ .markPrice := by rw [hkind]; decide
      exact ⟨⟨hne, rfl⟩, .inr hkind, hfirst, hlast⟩

def pairAt (c : Calculator) (call : BasisCall) (eventAt : ℤ) :
    Except Exn (Option (ReferencePriceRow × ReferencePriceRow)) :=
  selectPair (c.referencePriceRows call .markPrice eventAt)
    (c.referencePriceRows call .indexPrice eventAt)

theorem pairOf_streamRows (h : c.UniquelyRanked call) {first last eventAt : ℤ}
    (hfirst : first ≤ eventAt) (hlast : eventAt ≤ last) :
    pairOf ((c.streamRows call first last).filter fun row => decide (row.eventAt = eventAt)) =
      c.pairAt call eventAt := by
  obtain ⟨hmarks, hindexes⟩ := streamRows_event c call hfirst hlast
  have hselect : ∀ {kind rows message},
      rows.Perm (c.evidenceAt call kind eventAt) →
        selectSingleIdentity rows message =
          selectSingleIdentity (c.referencePriceRows call kind eventAt) message := by
    intro kind rows message hrows
    have hperm := referencePriceRows_perm c call kind eventAt
    have hnodup := h.providers_nodup kind eventAt
    exact (selectSingleIdentity_congr hrows hnodup message).trans
      (selectSingleIdentity_congr hperm hnodup message).symm
  rw [pairOf, pairAt, selectPair, selectPair, hselect hmarks, hselect hindexes]

/-! ## The merge -/

section Merge

variable {α : Type} {build : ℤ → ReferencePriceRow → ReferencePriceRow → Except Exn (Option α)}

def buildAt (build : ℤ → ReferencePriceRow → ReferencePriceRow → Except Exn (Option α))
    (pairs : ℤ → Except Exn (Option (ReferencePriceRow × ReferencePriceRow))) (eventAt : ℤ) :
    Except Exn (Option α) := do
  match ← pairs eventAt with
  | none => return none
  | some (mark, index) => build eventAt mark index

/-- Where the groups hold the evidence of the events that are left, the loop is a call for each
of them. -/
theorem iterPairs_eq {pairs : ℤ → Except Exn (Option (ReferencePriceRow × ReferencePriceRow))}
    {gs : List (ℤ × List ReferencePriceRow)} {eventAts : List ℤ}
    (hgs : gs.Pairwise fun g g' => g.1 < g'.1) (hevents : eventAts.Pairwise (· < ·))
    (hpairs : ∀ eventAt ∈ eventAts, pairOf (GroupMerge.group gs eventAt) = pairs eventAt) :
    iterPairs build gs eventAts = runEach (buildAt build pairs) eventAts := by
  induction eventAts generalizing gs with
  | nil => rfl
  | cons eventAt eventAts ih =>
      obtain ⟨hfirst, hrest⟩ := List.pairwise_cons.mp hevents
      obtain ⟨hread, hsorted, hlater⟩ := GroupMerge.advance_group hgs eventAt
      have htail := ih hsorted hrest fun e he => by
        rw [hlater e (hfirst e he)]
        exact hpairs e (List.mem_cons_of_mem _ he)
      have hpair : pairOf (GroupMerge.advance eventAt gs).1 = pairs eventAt := by
        rw [hread]
        exact hpairs eventAt List.mem_cons_self
      rw [iterPairs, runEach, buildAt, hpair, htail]
      cases pairs eventAt with
      | error error => rfl
      | ok pair =>
          cases pair with
          | none => rfl
          | some pair => rfl

end Merge

variable {α : Type}

theorem iterWith_eq
    {build : DatasetInfo → ℤ → ReferencePriceRow → ReferencePriceRow → Except Exn (Option α)}
    (h : c.UniquelyRanked call) {eventAts : List ℤ} (hevents : eventAts.IsChain (· < ·)) :
    c.iterWith call build eventAts =
      runEach (fun eventAt => do
        let dataset ← c.loadDataset call
        buildAt (build dataset) (c.pairAt call) eventAt) eventAts := by
  have hpairwise : eventAts.Pairwise (· < ·) := List.isChain_iff_pairwise.mp hevents
  unfold iterWith
  rw [strictlyIncreasing, if_pos hevents]
  cases eventAts with
  | nil => rfl
  | cons first rest =>
      dsimp only
      cases c.loadDataset call with
      | error error => exact (runEach_error (List.cons_ne_nil first rest)).symm
      | ok dataset =>
          refine iterPairs_eq (GroupMerge.groups_pairwise (sortBy_pairwise _ _)) hpairwise ?_
          intro eventAt he
          rw [GroupMerge.group_groups]
          refine pairOf_streamRows h ?_ ?_
          · rcases List.mem_cons.mp he with rfl | he
            · exact le_refl _
            · exact ((List.pairwise_cons.mp hpairwise).1 eventAt he).le
          · exact hpairwise.imp (fun h => h.le) |>.rel_getLast he

/-! ## The writes -/

theorem materializeEach_eq (admits : FeatureMaterializationV2 → Bool) (store : FeatureStore)
    (eventAts : List ℤ) :
    c.materializeEach call admits store eventAts =
      writeThrough admits (runEach (c.buildCryptoMarkIndexBasis call) eventAts).2 store
        (runEach (c.buildCryptoMarkIndexBasis call) eventAts).1 := by
  induction eventAts generalizing store with
  | nil => rfl
  | cons eventAt eventAts ih =>
      rw [materializeEach, materializeCryptoMarkIndexBasis, runEach]
      cases c.buildCryptoMarkIndexBasis call eventAt with
      | error error => rfl
      | ok result =>
          cases result with
          | none => exact ih store
          | some materialization =>
              simp only [Except.ok_bind, Yielded.cons, writeThrough]
              cases materializeSubject admits store materialization with
              | error error => rfl
              | ok store' =>
                  simp only [Except.ok_bind, pure, Except.pure, ih store']

/-! ## The three-clock stream -/

theorem create_ok {texts : Texts} {featureId : UUID} {subjectId datasetVersion : String}
    {eventAt effectiveAt computedAt : ℤ} {inputs : List ObservationKnowledgeV1}
    {manifest : List String} {value : Option Decimal} {m : FeatureMaterializationV3}
    (h : FeatureMaterializationV3.create texts featureId subjectId datasetVersion eventAt
      effectiveAt inputs computedAt manifest value = .ok m) :
    m.eventAt = eventAt ∧ m.value = value ∧ m.sourceObservationManifest = manifest := by
  obtain ⟨knowledge, _, h⟩ := Except.bind_eq_ok.mp h
  obtain ⟨persisted, _, h⟩ := Except.bind_eq_ok.mp h
  cases h
  exact ⟨rfl, rfl, rfl⟩

/-- What a pair gives when nothing is raised: nothing if the two do not cohere, and else what
`describes` says of their basis. -/
def Outcome {α : Type} (c : Calculator) (call : BasisCall) (mark index : ReferencePriceRow)
    (describes : Decimal → α → Prop) (result : Option α) : Prop :=
  (c.coherent call mark index = .ok false ∧ result = none) ∨
    (c.coherent call mark index = .ok true ∧ ∃ value a, basisValue mark.price index.price =
      .ok value ∧ result = some a ∧ describes value a)

variable {dataset : DatasetInfo} {mark index : ReferencePriceRow} {eventAt : ℤ}

theorem basisFromPair_ok {result : Option FeatureMaterializationV2}
    (h : c.basisFromPair call dataset eventAt mark index = .ok result) :
    Outcome c call mark index (fun value m => m.eventAt = eventAt ∧ m.value = some value ∧
      m.sourceObservationManifest = c.manifestTokens call dataset mark index) result := by
  obtain ⟨coherent, hcoherent, h⟩ := Except.bind_eq_ok.mp h
  cases coherent with
  | false => exact .inl ⟨hcoherent, (Except.pure_eq_ok.mp h).symm⟩
  | true =>
      obtain ⟨_, h⟩ := Except.of_ite_error h
      obtain ⟨value, hvalue, h⟩ := Except.bind_eq_ok.mp h
      exact .inr ⟨hcoherent, value, _, hvalue, (Except.pure_eq_ok.mp h).symm, rfl, rfl, rfl⟩

theorem basisV3FromPair_ok {featureId : UUID} {computedAt : Option ℤ}
    {evidenceTier : EvidenceTierVerdictV1}
    {result : Option FeatureMaterializationV3}
    (h : c.basisV3FromPair { call with featureId, computedAt } evidenceTier dataset eventAt mark
      index = .ok result) :
    Outcome c call mark index (fun value m => m.eventAt = eventAt ∧ m.value = some value ∧
      m.sourceObservationManifest =
        c.manifestTokensV3 call evidenceTier dataset mark index) result := by
  obtain ⟨coherent, hcoherent, h⟩ := Except.bind_eq_ok.mp h
  cases coherent with
  | false => exact .inl ⟨hcoherent, (Except.pure_eq_ok.mp h).symm⟩
  | true =>
      obtain ⟨markKnowledge, _, h⟩ := Except.bind_eq_ok.mp h
      obtain ⟨indexKnowledge, _, h⟩ := Except.bind_eq_ok.mp h
      obtain ⟨_, h⟩ := Except.of_ite_error h
      obtain ⟨value, hvalue, h⟩ := Except.bind_eq_ok.mp h
      obtain ⟨m, hm, h⟩ := Except.bind_eq_ok.mp h
      obtain ⟨hevent, hm, htokens⟩ := create_ok hm
      have hsame : c.manifestTokensV3 { call with featureId, computedAt } evidenceTier dataset
          mark index = c.manifestTokensV3 call evidenceTier dataset mark index := rfl
      exact .inr ⟨hcoherent, value, m, hvalue, (Except.pure_eq_ok.mp h).symm, hevent, hm,
        htokens.trans hsame⟩

theorem Outcome.pair {α β : Type} {p : Decimal → α → Prop} {q : Decimal → β → Prop}
    {x : Option α} {y : Option β} (hx : Outcome c call mark index p x)
    (hy : Outcome c call mark index q y) :
    (x = none ∧ y = none) ∨
      ∃ a b, x = some a ∧ y = some b ∧ ∃ value, p value a ∧ q value b := by
  rcases hx with ⟨hfalse, rfl⟩ | ⟨htrue, value, a, hvalue, rfl, ha⟩
  · rcases hy with ⟨_, rfl⟩ | ⟨htrue, _⟩
    · exact .inl ⟨rfl, rfl⟩
    · exact nomatch hfalse.symm.trans htrue
  · rcases hy with ⟨hfalse, _⟩ | ⟨_, value', b, hvalue', rfl, hb⟩
    · exact nomatch htrue.symm.trans hfalse
    · cases hvalue.symm.trans hvalue'
      exact .inr ⟨a, b, rfl, rfl, value, ha, hb⟩

end Calculator

/-- The materializations of the two streams for one event: one value, of the mark and the index
that the event's own call finds, which both manifests name. -/
structure SameBasis (c : Calculator) (call : BasisCall)
    (evidenceTier : EvidenceTierVerdictV1) (m : FeatureMaterializationV2)
    (m' : FeatureMaterializationV3) : Prop where
  eventAt : m'.eventAt = m.eventAt
  value : m'.value = m.value
  evidence : ∃ dataset mark index, c.loadDataset call = .ok dataset ∧
    c.pairAt call m.eventAt = .ok (some (mark, index)) ∧
    m.sourceObservationManifest = c.manifestTokens call dataset mark index ∧
    m'.sourceObservationManifest = c.manifestTokensV3 call evidenceTier dataset mark index

namespace Calculator

variable {c : Calculator} {call : BasisCall} {eventAts : List ℤ}

theorem buildCryptoMarkIndexBasis_eq (eventAt : ℤ) :
    c.buildCryptoMarkIndexBasis call eventAt = (do
      let dataset ← c.loadDataset call
      buildAt (c.basisFromPair call dataset) (c.pairAt call) eventAt) := by
  rw [buildCryptoMarkIndexBasis]
  cases c.loadDataset call with
  | error error => rfl
  | ok dataset =>
      simp only [Except.ok_bind, buildAt, pairAt, selectPair]
      cases selectSingleIdentity (c.referencePriceRows call .markPrice eventAt)
          "ambiguous_mark_observation_identity" with
      | error error => rfl
      | ok mark =>
          cases mark with
          | none => rfl
          | some mark =>
              simp only [Except.ok_bind]
              cases selectSingleIdentity (c.referencePriceRows call .indexPrice eventAt)
                  "ambiguous_index_observation_identity" with
              | error error => rfl
              | ok index =>
                  cases index with
                  | none => rfl
                  | some index => rfl

theorem iterCryptoMarkIndexBasis_eq (h : c.UniquelyRanked call)
    (hevents : eventAts.IsChain (· < ·)) :
    c.iterCryptoMarkIndexBasis call eventAts =
      runEach (c.buildCryptoMarkIndexBasis call) eventAts :=
  (iterWith_eq h hevents).trans
    (runEach_congr fun eventAt _ => (buildCryptoMarkIndexBasis_eq eventAt).symm)

theorem sameBasis_of_ok {featureId : UUID} {computedAt : Option ℤ}
    {evidenceTier : EvidenceTierVerdictV1} {eventAt : ℤ}
    {x : Option FeatureMaterializationV2} {y : Option FeatureMaterializationV3}
    (hx : (do
      let dataset ← c.loadDataset call
      buildAt (c.basisFromPair call dataset) (c.pairAt call) eventAt) = .ok x)
    (hy : (do
      let dataset ← c.loadDataset { call with featureId, computedAt }
      buildAt (c.basisV3FromPair { call with featureId, computedAt } evidenceTier dataset)
        (c.pairAt { call with featureId, computedAt }) eventAt) = .ok y) :
    (x = none ∧ y = none) ∨
      ∃ m m', x = some m ∧ y = some m' ∧ SameBasis c call evidenceTier m m' := by
  have hsame : c.loadDataset { call with featureId, computedAt } = c.loadDataset call := rfl
  have hfound : c.pairAt { call with featureId, computedAt } eventAt = c.pairAt call eventAt := rfl
  obtain ⟨dataset, hload, hx⟩ := Except.bind_eq_ok.mp hx
  rw [hsame, hload, Except.ok_bind] at hy
  obtain ⟨pair, hpair, hx⟩ := Except.bind_eq_ok.mp hx
  rw [buildAt, hfound, hpair, Except.ok_bind] at hy
  cases pair with
  | none => exact .inl ⟨(Except.pure_eq_ok.mp hx).symm, (Except.pure_eq_ok.mp hy).symm⟩
  | some pair =>
      obtain ⟨mark, index⟩ := pair
      rcases (basisFromPair_ok hx).pair (basisV3FromPair_ok hy) with hnone | hsome
      · exact .inl hnone
      · obtain ⟨m, m', hm, hm', value, hp, hq⟩ := hsome
        refine .inr ⟨m, m', hm, hm', hq.1.trans hp.1.symm, hq.2.1.trans hp.2.1.symm, ?_⟩
        refine ⟨dataset, mark, index, hload, ?_, hp.2.2, hq.2.2⟩
        rw [hp.1]
        exact hpair

end Calculator

/-! A dataset with both prices at 0 and at 2, and only the mark between. -/

def sampleTexts : Texts where
  uuid := toString
  isoformat := toString
  utc := toString
  hashV2 _ := "".pushn 'a' 64
  hashV3 _ := "".pushn 'b' 64
  digests := sampleDigests

def sampleRow (kind : ObservationKind) (normalizedObservationId : UUID) (eventAt : ℤ)
    (price : Decimal) : ReferencePriceRow where
  observationKind := kind
  normalizedObservationId
  rawObservationId := normalizedObservationId + 100
  instrumentId := "BTC-PERP"
  providerIdentifier := "bybit"
  eventAt
  effectiveAt := eventAt
  ingestedAt := 9
  revision := 0
  normalizedAt := 10
  validated := true
  price
  priceAsset := "USDT"

def sampleCalculator : Calculator where
  texts := sampleTexts
  datasets _ := some ⟨"SEALED", 20, "content", 2⟩
  members _ :=
    [sampleRow .indexPrice 4 2 100, sampleRow .markPrice 1 0 101, sampleRow .indexPrice 2 0 100,
      sampleRow .markPrice 3 1 102, sampleRow .markPrice 5 2 99]
  specificationOrNone _ _ := .ok (some .markAndIndex)
  arrange := id
  perm _ := .refl _

def sampleCall (computedAt : Option ℤ) : BasisCall where
  featureId := 7
  instrumentId := "BTC-PERP"
  datasetVersionId := 1
  decisionAt := 30
  computedAt

end TradePlatform.CryptoBasis
