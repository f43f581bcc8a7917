/-
# `TradePlatform.DatasetCompositionRuns` — calls of `compose` between each other

Any number of calls for one request, one transaction at a time in any order, in a store that others
go on writing to.  What the parents have together does not change, so every call that proves
them finds the same union; the first seal that gets there stores it, and every other call
finds what was stored (`Inv`).  A seal is taken to store what it is given unless the version
is there: that, and that nobody else writes the version, is what `Allowed` says.
-/
import TradePlatform.DatasetCompositionMembers

namespace TradePlatform.Composition

open RawCapture (ObservationKind RawRow)
open ScheduledAcquisition (Text oneMinute bybitProviderName bybitInstrumentId bybitSymbol)
open Acquisition (Database DatasetRow NormalizedRow bybitV5SymbolNamespace sealDataset digestOf
  provenMemberDigest insertDataset)

variable {P : Type} {env : RawCapture.Env P}

/-! ## The calls and the others -/

structure System (env : RawCapture.Env P) where
  db : Database env
  calls : ℕ → Phase

inductive Action (env : RawCapture.Env P) where
  | call (i : ℕ)
  | others (db : Database env)

section Steps

variable (texts : ScheduledAcquisition.Env) (request : DatasetCompositionRequest)
  (answers : ℕ → Answers)

def step (s : System env) : Action env → System env
  | .call i =>
      let next := Phase.next texts request (answers i) s.db (s.calls i)
      ⟨next.1, Function.update s.calls i next.2⟩
  | .others db => { s with db := db }

def SealStores (a : Answers) (db : Database env) : Phase → Prop
  | .absent unionIds => db.datasets.find? (targetKey texts request) = none →
      (sealUnion texts request a db unionIds).isOk = true
  | _ => True

instance (a : Answers) (db : Database env) :
    ∀ phase, Decidable (SealStores texts request a db phase)
  | .absent _ => inferInstanceAs (Decidable (_ → _))
  | .begun => .isTrue trivial
  | .proven _ => .isTrue trivial
  | .stored _ => .isTrue trivial
  | .refused _ _ => .isTrue trivial
  | .found _ _ => .isTrue trivial
  | .returned _ => .isTrue trivial
  | .raised _ => .isTrue trivial

def Allowed (s : System env) : Action env → Prop
  | .call i => SealStores texts request (answers i) s.db (s.calls i)
  | .others db => s.db.Le db ∧
      db.datasets.find? (targetKey texts request) = s.db.datasets.find? (targetKey texts request)

/-- What may end a call with an exception: what it is told of the source, its clock, and its
feature calculators. -/
def Gate (db : Database env) (i : ℕ) (error : Exn) : Prop :=
  validateIdentity request (answers i).profile (answers i).resolved = .error error ∨
    proveParents texts db request (answers i).provenAt = .error error ∨
    request.materializeFeatures = true ∧ ∃ (db' : Database env) (id : UUID),
      (ensureFeatures (answers i).features request db' id).1 = .error error

end Steps

/-! ## The seal -/

section Seal

variable {texts : ScheduledAcquisition.Env} {request : DatasetCompositionRequest}
  {answers : Answers} {db : Database env} {ids : List UUID}

def sealedRows (db : Database env) (ids : List UUID) : List (NormalizedRow × RawRow) :=
  (sortBy id ids).filterMap db.member

theorem provenMemberDigest_eq (texts : ScheduledAcquisition.Env) {sourceId : UUID}
    {version : String} {createdAt : ℤ} :
    (∃ message, provenMemberDigest texts db sourceId version ids createdAt =
      .error (.historicalMarketDataError message)) ∨
    provenMemberDigest texts db sourceId version ids createdAt =
      digestOf texts (sealedRows db ids) := by
  unfold provenMemberDigest Acquisition.marketError
  dsimp only
  split
  · exact .inl ⟨_, rfl⟩
  split
  · exact .inl ⟨_, rfl⟩
  split
  · exact .inl ⟨_, rfl⟩
  split
  · exact .inl ⟨_, rfl⟩
  split
  · exact .inl ⟨_, rfl⟩
  · exact .inr rfl

theorem sealUnion_ok {row : DatasetRow} {db' : Database env}
    (h : sealUnion texts request answers db ids = .ok (row, db')) :
    db.datasets.find? (targetKey texts request) = none ∧ row.key = targetKey texts request ∧
      row.members = ids ∧ row.normalizationVersion = request.normalizationVersion ∧
      db' = { db with datasets := db.datasets.put row } ∧
      (digestOf texts (sealedRows db ids)).isOk = true := by
  unfold sealUnion sealDataset Acquisition.marketError at h
  obtain ⟨_, h⟩ := Except.of_ite_error h
  obtain ⟨_, h⟩ := Except.of_ite_error h
  obtain ⟨_, h⟩ := Except.of_ite_error h
  obtain ⟨digest, hdigest, h⟩ := Except.bind_eq_ok.mp h
  have hhash : (digestOf texts (sealedRows db ids)).isOk = true := by
    rcases provenMemberDigest_eq texts with ⟨message, herror⟩ | heq
    · rw [herror] at hdigest
      cases hdigest
    · rw [← heq, hdigest]
      rfl
  unfold insertDataset at h
  dsimp only at h
  split at h
  · rename_i hfree
    cases h
    exact ⟨hfree.1, rfl, rfl, rfl, rfl, hhash⟩
  · cases h

theorem sealUnion_error {error : Exn} (hhash : (digestOf texts (sealedRows db ids)).isOk = true)
    (h : sealUnion texts request answers db ids = .error error) :
    ∃ message, error = .historicalMarketDataError message := by
  unfold sealUnion sealDataset Acquisition.marketError at h
  split at h
  · cases h
    exact ⟨_, rfl⟩
  split at h
  · cases h
    exact ⟨_, rfl⟩
  split at h
  · cases h
    exact ⟨_, rfl⟩
  rcases Except.bind_eq_error.mp h with hdigest | ⟨digest, _, h⟩
  · rcases provenMemberDigest_eq texts with ⟨message, herror⟩ | heq
    · rw [herror] at hdigest
      cases hdigest
      exact ⟨message, rfl⟩
    · rw [heq] at hdigest
      rw [hdigest] at hhash
      cases hhash
  · unfold insertDataset Acquisition.marketError at h
    dsimp only at h
    split at h
    · cases h
    · cases h
      exact ⟨_, rfl⟩

theorem le_of_put {row : DatasetRow} (h : db.datasets.find? row.key = none) :
    db.Le { db with datasets := db.datasets.put row } where
  raw _ hmem := hmem
  normalized _ hmem := hmem
  datasets r hmem := by
    rw [Table.rows_put_of_none h]
    exact List.mem_append_left _ hmem

end Seal

/-! ## The invariant -/

section Invariant

variable {texts : ScheduledAcquisition.Env} {request : DatasetCompositionRequest}
  {answers : ℕ → Answers} {db₀ db db' : Database env} {unionIds : List UUID} {i : ℕ}

structure Target (texts : ScheduledAcquisition.Env) (request : DatasetCompositionRequest)
    (unionIds : List UUID) (db : Database env) (row : DatasetRow) : Prop where
  members : row.members = unionIds
  normalizationVersion : row.normalizationVersion = request.normalizationVersion
  hashed : (digestOf texts (sealedRows db unionIds)).isOk = true

def Holds (texts : ScheduledAcquisition.Env) (request : DatasetCompositionRequest)
    (answers : ℕ → Answers) (db₀ : Database env) (unionIds : List UUID) (db : Database env) (i : ℕ) :
    Phase → Prop
  | .begun => True
  | .proven ids => ids = unionIds
  | .absent ids => ids = unionIds
  | .stored ids => ids = unionIds ∧
      ∃ row, db.datasets.find? (targetKey texts request) = some row
  | .refused ids _ => ids = unionIds ∧
      ∃ row, db.datasets.find? (targetKey texts request) = some row
  | .found row _ => db.datasets.find? (targetKey texts request) = some row
  | .returned result => ∃ row, db.datasets.find? (targetKey texts request) = some row ∧
      result.datasetVersionId = row.datasetVersionId ∧
      result.datasetContentHash = row.contentHash
  | .raised error => Gate texts request answers db₀ i error

structure Grown (texts : ScheduledAcquisition.Env) (request : DatasetCompositionRequest)
    (db₀ : Database env) (unionIds : List UUID) (db : Database env) : Prop where
  le : db₀.Le db
  target : ∀ row, db.datasets.find? (targetKey texts request) = some row →
    Target texts request unionIds db row

structure Inv (texts : ScheduledAcquisition.Env) (request : DatasetCompositionRequest)
    (answers : ℕ → Answers) (db₀ : Database env) (unionIds : List UUID) (s : System env) : Prop
    extends Grown texts request db₀ unionIds s.db where
  calls : ∀ i, Holds texts request answers db₀ unionIds s.db i (s.calls i)

theorem Holds.le {phase : Phase} (h : Holds texts request answers db₀ unionIds db i phase)
    (hle : db.Le db') : Holds texts request answers db₀ unionIds db' i phase := by
  cases phase with
  | begun => trivial
  | proven ids => exact h
  | absent ids => exact h
  | stored ids =>
      obtain ⟨hids, row, hrow⟩ := h
      exact ⟨hids, row, hle.find? hrow⟩
  | refused ids message =>
      obtain ⟨hids, row, hrow⟩ := h
      exact ⟨hids, row, hle.find? hrow⟩
  | found row alreadyCompleted => exact hle.find? h
  | returned result =>
      obtain ⟨row, hrow, hresult⟩ := h
      exact ⟨row, hle.find? hrow, hresult⟩
  | raised error => exact h

structure Start (texts : ScheduledAcquisition.Env) (request : DatasetCompositionRequest)
    (db₀ : Database env) (unionIds : List UUID) : Prop where
  valid : validateCompositionRequest request = .ok ()
  proven : ∃ now, proveParents texts db₀ request now = .ok unionIds

theorem Start.composed (h : Start texts request db₀ unionIds) :
    Composed texts request db₀ unionIds := by
  obtain ⟨now, hproven⟩ := h.proven
  exact composed_of_proveParents (tiled_of_valid h.valid) hproven

theorem Start.sealedRows_eq (h : Start texts request db₀ unionIds) (hle : db₀.Le db) :
    sealedRows db unionIds = sealedRows db₀ unionIds :=
  filterMap_member_eq hle fun id hid => h.composed.joined id (mem_sortBy.mp hid)

theorem Start.composedMatches_target (h : Start texts request db₀ unionIds)
    (hgrown : Grown texts request db₀ unionIds db) {row : DatasetRow}
    (hrow : db.datasets.find? (targetKey texts request) = some row) :
    composedMatches texts db request row unionIds = true := by
  have htarget := hgrown.target row hrow
  have hexactly : Exactly (rowsOf db row) (combinedRequest texts request) := by
    rw [rowsOf, htarget.members, filterMap_member_eq hgrown.le h.composed.joined]
    exact h.composed.exactly
  have hperm : (datasetMemberIds row).Perm unionIds := htarget.members ▸ sortBy_perm _ _
  rw [composedMatches, Bool.and_eq_true, decide_eq_true_eq]
  exact ⟨(matches_iff (tiled_of_valid h.valid).aligned).mpr
    ⟨htarget.normalizationVersion, hexactly⟩, List.toFinset_eq_of_perm _ _ hperm,
    hperm.length_eq⟩

theorem Start.matching_target (h : Start texts request db₀ unionIds)
    (hgrown : Grown texts request db₀ unionIds db) {row : DatasetRow}
    (hrow : db.datasets.find? (targetKey texts request) = some row) :
    matching texts request db unionIds = some row := by
  have hfound : existingSealedDataset db request (composedDatasetVersion texts request) = some row :=
    hrow
  rw [matching, hfound, Option.filter_some, if_pos (h.composedMatches_target hgrown hrow)]

theorem Start.proofs_eq (h : Start texts request db₀ unionIds) (hle : db₀.Le db)
    {a : Answers} :
    proofs texts request a db = (do
      validateIdentity request a.profile a.resolved
      proveParents texts db₀ request a.provenAt) := by
  obtain ⟨now, hproven⟩ := h.proven
  obtain ⟨proven, hmapped, rfl⟩ := proveParents_ok hproven
  have htiled := tiled_of_valid h.valid
  have hmapped' : request.parents.mapM (proveParent texts db request) = .ok proven := by
    refine Except.mapM_iff_forall₂.mpr ?_
    have hall : List.Forall₂ (fun parent x => parent ∈ request.parents ∧
        proveParent texts db₀ request parent = .ok x) request.parents proven :=
      (List.forall₂_and_left _ _).mpr ⟨fun _ hmem => hmem, Except.mapM_iff_forall₂.mp hmapped⟩
    exact hall.imp fun parent x hx => proveParent_le htiled hx.1 hle hx.2
  rw [proofs, h.valid, Except.ok_bind, proveParents, proveParents, hmapped, hmapped']

theorem Start.proveParents_eq (h : Start texts request db₀ unionIds) {now : ℤ} {ids : List UUID}
    (hproven : proveParents texts db₀ request now = .ok ids) : ids = unionIds := by
  obtain ⟨now', hproven'⟩ := h.proven
  obtain ⟨proven, hmapped, rfl⟩ := proveParents_ok hproven
  obtain ⟨proven', hmapped', rfl⟩ := proveParents_ok hproven'
  rw [Except.ok.inj (hmapped.symm.trans hmapped')]

/-! ## The steps -/

theorem Grown.le_db (h : Grown texts request db₀ unionIds db) (hle : db.Le db')
    (hsame : db'.datasets.find? (targetKey texts request) =
      db.datasets.find? (targetKey texts request)) (hstart : Start texts request db₀ unionIds) :
    Grown texts request db₀ unionIds db' where
  le := h.le.trans hle
  target row hrow := by
    have htarget := h.target row (hsame ▸ hrow)
    refine ⟨htarget.members, htarget.normalizationVersion, ?_⟩
    rw [hstart.sealedRows_eq (h.le.trans hle), ← hstart.sealedRows_eq h.le]
    exact htarget.hashed

structure Kept (texts : ScheduledAcquisition.Env) (request : DatasetCompositionRequest)
    (answers : ℕ → Answers) (db₀ : Database env) (unionIds : List UUID) (db : Database env) (i : ℕ)
    (next : Database env × Phase) : Prop where
  le : db.Le next.1
  grown : Grown texts request db₀ unionIds next.1
  holds : Holds texts request answers db₀ unionIds next.1 i next.2

theorem Kept.same {phase : Phase} (hgrown : Grown texts request db₀ unionIds db)
    (h : Holds texts request answers db₀ unionIds db i phase) :
    Kept texts request answers db₀ unionIds db i (db, phase) :=
  ⟨.refl db, hgrown, h⟩

variable (hstart : Start texts request db₀ unionIds)

include hstart

theorem kept_begun (hgrown : Grown texts request db₀ unionIds db) :
    Kept texts request answers db₀ unionIds db i
      (Phase.next texts request (answers i) db .begun) := by
  rw [Phase.next, hstart.proofs_eq hgrown.le]
  cases hidentity : validateIdentity request (answers i).profile (answers i).resolved with
  | error error => exact .same hgrown (.inl hidentity)
  | ok _ =>
      rw [Except.ok_bind]
      cases hproven : proveParents texts db₀ request (answers i).provenAt with
      | error error => exact .same hgrown (.inr (.inl hproven))
      | ok ids => exact .same hgrown (hstart.proveParents_eq hproven)

theorem kept_proven (hgrown : Grown texts request db₀ unionIds db) :
    Kept texts request answers db₀ unionIds db i
      (Phase.next texts request (answers i) db (.proven unionIds)) := by
  rw [Phase.next]
  cases hrow : existingSealedDataset db request (composedDatasetVersion texts request) with
  | none => exact .same hgrown rfl
  | some row =>
      dsimp only
      rw [hstart.composedMatches_target hgrown hrow, if_neg Bool.true_eq_false.mp]
      exact .same hgrown hrow

theorem kept_absent (hgrown : Grown texts request db₀ unionIds db)
    (hallowed : db.datasets.find? (targetKey texts request) = none →
      (sealUnion texts request (answers i) db unionIds).isOk = true) :
    Kept texts request answers db₀ unionIds db i
      (Phase.next texts request (answers i) db (.absent unionIds)) := by
  rw [Phase.next]
  cases hseal : sealUnion texts request (answers i) db unionIds with
  | ok stored =>
      obtain ⟨row, db'⟩ := stored
      obtain ⟨hnone, hkey, hmembers, hversion, rfl, hhash⟩ := sealUnion_ok hseal
      have hle := le_of_put (hkey ▸ hnone : db.datasets.find? row.key = none)
      have hfind : (db.datasets.put row).find? (targetKey texts request) = some row := by
        rw [← hkey, Table.find?_put_self]
      refine ⟨hle, ⟨hgrown.le.trans hle, fun row' hrow' => ?_⟩, rfl, row, hfind⟩
      cases hfind.symm.trans hrow'
      refine ⟨hmembers, hversion, ?_⟩
      rw [hstart.sealedRows_eq (hgrown.le.trans hle), ← hstart.sealedRows_eq hgrown.le]
      exact hhash
  | error error =>
      cases hrow : db.datasets.find? (targetKey texts request) with
      | none =>
          have hok := hallowed hrow
          rw [hseal] at hok
          cases hok
      | some row =>
          obtain ⟨message, rfl⟩ := sealUnion_error (hgrown.target row hrow).hashed hseal
          exact .same hgrown ⟨rfl, row, hrow⟩

theorem kept_stored (hgrown : Grown texts request db₀ unionIds db)
    (hrow : ∃ row, db.datasets.find? (targetKey texts request) = some row) :
    Kept texts request answers db₀ unionIds db i
      (Phase.next texts request (answers i) db (.stored unionIds)) := by
  obtain ⟨row, hrow⟩ := hrow
  rw [Phase.next, hstart.matching_target hgrown hrow]
  exact .same hgrown hrow

theorem kept_refused (hgrown : Grown texts request db₀ unionIds db)
    (hrow : ∃ row, db.datasets.find? (targetKey texts request) = some row) (message : String) :
    Kept texts request answers db₀ unionIds db i
      (Phase.next texts request (answers i) db (.refused unionIds message)) := by
  obtain ⟨row, hrow⟩ := hrow
  rw [Phase.next, hstart.matching_target hgrown hrow]
  exact .same hgrown hrow

omit hstart in
theorem ensureFeatures_db (features : Acquisition.FeatureRun) (db : Database env) (id : UUID) :
    ∃ counts, (ensureFeatures features request db id).2 = { db with featureCounts := counts } := by
  unfold ensureFeatures
  dsimp only
  cases resolveFeatures features request with
  | error error => exact ⟨_, rfl⟩
  | ok resolved =>
      dsimp only
      split
      · exact ⟨_, rfl⟩
      split
      · exact ⟨_, rfl⟩
      unfold fillFeatures
      dsimp only
      cases features.materialized with
      | error message => exact ⟨_, rfl⟩
      | ok counts =>
          dsimp only
          split
          · exact ⟨_, rfl⟩
          · exact ⟨_, rfl⟩

theorem kept_found (hgrown : Grown texts request db₀ unionIds db) {row : DatasetRow}
    (hrow : db.datasets.find? (targetKey texts request) = some row) (alreadyCompleted : Bool) :
    Kept texts request answers db₀ unionIds db i
      (Phase.next texts request (answers i) db (.found row alreadyCompleted)) := by
  rw [Phase.next]
  cases hfeatures : request.materializeFeatures with
  | false => exact .same hgrown ⟨row, hrow, rfl, rfl⟩
  | true =>
      rw [if_neg (by decide)]
      obtain ⟨counts, hdb⟩ := ensureFeatures_db (answers i).features db row.datasetVersionId
      have hle : db.Le { db with featureCounts := counts } :=
        ⟨fun _ h => h, fun _ h => h, fun _ h => h⟩
      have hgrown' := hgrown.le_db hle rfl hstart
      cases hensure : ensureFeatures (answers i).features request db row.datasetVersionId with
      | mk found db' =>
          rw [hensure] at hdb
          cases hdb
          cases found with
          | error error =>
              refine ⟨hle, hgrown', .inr (.inr ⟨hfeatures, db, row.datasetVersionId, ?_⟩)⟩
              rw [hensure]
          | ok found => exact ⟨hle, hgrown', row, hrow, rfl, rfl⟩

theorem kept_next (hgrown : Grown texts request db₀ unionIds db) {phase : Phase}
    (h : Holds texts request answers db₀ unionIds db i phase)
    (hallowed : SealStores texts request (answers i) db phase) :
    Kept texts request answers db₀ unionIds db i
      (Phase.next texts request (answers i) db phase) := by
  cases phase with
  | begun => exact kept_begun hstart hgrown
  | proven ids =>
      obtain rfl : ids = unionIds := h
      exact kept_proven hstart hgrown
  | absent ids =>
      obtain rfl : ids = unionIds := h
      exact kept_absent hstart hgrown hallowed
  | stored ids =>
      obtain ⟨rfl, hrow⟩ := h
      exact kept_stored hstart hgrown hrow
  | refused ids message =>
      obtain ⟨rfl, hrow⟩ := h
      exact kept_refused hstart hgrown hrow message
  | found row alreadyCompleted => exact kept_found hstart hgrown h alreadyCompleted
  | returned result => exact .same hgrown h
  | raised error => exact .same hgrown h

theorem inv_step (s : System env) (a : Action env)
    (h : Inv texts request answers db₀ unionIds s) (hallowed : Allowed texts request answers s a) :
    Inv texts request answers db₀ unionIds (step texts request answers s a) := by
  cases a with
  | others db' =>
      exact ⟨h.toGrown.le_db hallowed.1 hallowed.2 hstart, fun i => (h.calls i).le hallowed.1⟩
  | call i =>
      have hkept := kept_next hstart h.toGrown (h.calls i) hallowed
      refine ⟨hkept.grown, fun j => ?_⟩
      by_cases hj : j = i
      · obtain rfl := hj
        change Holds texts request answers db₀ unionIds _ j (Function.update s.calls j _ j)
        rw [Function.update_self]
        exact hkept.holds
      · change Holds texts request answers db₀ unionIds _ j (Function.update s.calls i _ j)
        rw [Function.update_of_ne hj]
        exact (h.calls j).le hkept.le

end Invariant

/-! ## A call that is not interrupted -/

section Progress

def Phase.left : Phase → ℕ
  | .begun => 5
  | .proven _ => 4
  | .absent _ => 3
  | .stored _ => 2
  | .refused _ _ => 2
  | .found _ _ => 1
  | .returned _ => 0
  | .raised _ => 0

theorem left_next (texts : ScheduledAcquisition.Env) (request : DatasetCompositionRequest)
    (a : Answers) (db : Database env) (phase : Phase) :
    (Phase.next texts request a db phase).2.left ≤ phase.left - 1 := by
  cases phase with
  | begun =>
      rw [Phase.next]
      split <;> simp [Phase.left]
  | proven ids =>
      rw [Phase.next]
      split
      · simp [Phase.left]
      · split <;> simp [Phase.left]
  | absent ids =>
      rw [Phase.next]
      split <;> simp [Phase.left]
  | stored ids =>
      rw [Phase.next]
      split <;> simp [Phase.left]
  | refused ids message =>
      rw [Phase.next]
      split <;> simp [Phase.left]
  | found row alreadyCompleted =>
      rw [Phase.next]
      split
      · simp [Phase.left]
      · split <;> simp [Phase.left]
  | returned result => simp [Phase.next, Phase.left]
  | raised error => simp [Phase.next, Phase.left]

/-- The next `n` transactions of a call, with nobody between. -/
def alone (i n : ℕ) : List (Action env) := List.replicate n (.call i)

theorem left_alone (texts : ScheduledAcquisition.Env) (request : DatasetCompositionRequest)
    (answers : ℕ → Answers) (i n : ℕ) (s : System env) :
    ((Run.exec (step texts request answers) s (alone i n)).calls i).left ≤
      (s.calls i).left - n := by
  induction n generalizing s with
  | zero => exact le_refl _
  | succ n ih =>
      have hnext := left_next texts request (answers i) s.db (s.calls i)
      have hcall : ((step texts request answers s (.call i)).calls i).left =
          (Phase.next texts request (answers i) s.db (s.calls i)).2.left := by
        change (Function.update s.calls i _ i).left = _
        rw [Function.update_self]
      have hrest := ih (step texts request answers s (.call i))
      rw [alone, List.replicate_succ, Run.exec_cons]
      refine hrest.trans ?_
      omega

theorem ended_of_left {phase : Phase} (h : phase.left = 0) :
    (∃ result, phase = .returned result) ∨ ∃ error, phase = .raised error := by
  cases phase with
  | returned result => exact .inl ⟨result, rfl⟩
  | raised error => exact .inr ⟨error, rfl⟩
  | _ => simp [Phase.left] at h

end Progress

/-! ## The compositions agree -/

section Agreement

variable (texts : ScheduledAcquisition.Env) (request : DatasetCompositionRequest)
  (answers : ℕ → Answers)

/-- Nothing is in the way of a call: what it is told of the source, its clock, its calculators. -/
structure Passes (db₀ : Database env) (i : ℕ) : Prop where
  identity : validateIdentity request (answers i).profile (answers i).resolved = .ok ()
  proven : (proveParents texts db₀ request (answers i).provenAt).isOk = true
  features : request.materializeFeatures = false ∨ ∀ (db : Database env) (id : UUID),
    (ensureFeatures (answers i).features request db id).1.isOk = true

structure Agreement (db₀ : Database env) (unionIds : List UUID) (s : System env) : Prop where
  /-- The union is the disjoint union of the parents' members. -/
  nodup : unionIds.Nodup
  members : unionIds.Perm (request.parents.flatMap (parentMembers db₀ request))
  /-- A dataset of the version has just the union, with the grid of each kind for its events. -/
  target : ∀ row, s.db.datasets.find? (targetKey texts request) = some row →
    row.members = unionIds ∧ ∀ kind, (eventsOf (rowsOf s.db row) kind).Perm
      (expectedOf (combinedRequest texts request) kind)
  /-- The proof after a seal, and that after a seal that was refused, find the dataset. -/
  stored : ∀ i ids, s.calls i = .stored ids → (matching texts request s.db ids).isSome = true
  refused : ∀ i ids message, s.calls i = .refused ids message →
    (matching texts request s.db ids).isSome = true
  /-- Every call that has returned names the one dataset of the version. -/
  returned : ∀ i result, s.calls i = .returned result →
    ∃ row, s.db.datasets.find? (targetKey texts request) = some row ∧
      result.datasetVersionId = row.datasetVersionId ∧ result.datasetContentHash = row.contentHash
  same : ∀ i j result result', s.calls i = .returned result → s.calls j = .returned result' →
    result'.datasetVersionId = result.datasetVersionId ∧
      result'.datasetContentHash = result.datasetContentHash
  raised : ∀ i error, s.calls i = .raised error → Gate texts request answers db₀ i error
  /-- A call that nothing is in the way of returns, when it is let run. -/
  returns : ∀ i, Passes texts request answers db₀ i →
    Run.Each (step texts request answers) (Allowed texts request answers) s (alone i 5) →
      ∃ result, (Run.exec (step texts request answers) s (alone i 5)).calls i = .returned result

def initial (db₀ : Database env) : System env := ⟨db₀, fun _ => .begun⟩

variable {texts request answers} {db₀ : Database env} {unionIds : List UUID} {s : System env}

theorem inv_initial (habsent : db₀.datasets.find? (targetKey texts request) = none) :
    Inv texts request answers db₀ unionIds (initial db₀) where
  le := .refl db₀
  target row hrow := by
    have hnone : db₀.datasets.find? (targetKey texts request) = some row := hrow
    rw [habsent] at hnone
    cases hnone
  calls _ := trivial

theorem inv_exec (hstart : Start texts request db₀ unionIds)
    (h : Inv texts request answers db₀ unionIds s) {actions : List (Action env)}
    (hrun : Run.Each (step texts request answers) (Allowed texts request answers) s actions) :
    Inv texts request answers db₀ unionIds
      (Run.exec (step texts request answers) s actions) :=
  (hrun.always (fun s a hinv hallowed => inv_step hstart s a hinv hallowed) h).exec

theorem Passes.not_gate {i : ℕ} (h : Passes texts request answers db₀ i) {error : Exn} :
    ¬ Gate texts request answers db₀ i error := by
  rintro (hidentity | hproven | ⟨hfeatures, db, id, hensure⟩)
  · rw [h.identity] at hidentity
    cases hidentity
  · have hok := h.proven
    rw [hproven] at hok
    cases hok
  · rcases h.features with hnone | hall
    · rw [hnone] at hfeatures
      cases hfeatures
    · have hok := hall db id
      rw [hensure] at hok
      cases hok

theorem agreement_of_inv (hstart : Start texts request db₀ unionIds)
    (h : Inv texts request answers db₀ unionIds s) :
    Agreement texts request answers db₀ unionIds s := by
  have hreturned : ∀ i result, s.calls i = .returned result →
      ∃ row, s.db.datasets.find? (targetKey texts request) = some row ∧
        result.datasetVersionId = row.datasetVersionId ∧
        result.datasetContentHash = row.contentHash := by
    intro i result hresult
    have hcall := h.calls i
    rw [hresult] at hcall
    exact hcall
  refine
    { nodup := hstart.composed.nodup
      members := hstart.composed.members
      target := ?_
      stored := ?_
      refused := ?_
      returned := hreturned
      same := ?_
      raised := ?_
      returns := ?_ }
  · intro row hrow
    have htarget := h.target row hrow
    refine ⟨htarget.members, fun kind => ?_⟩
    rw [rowsOf, htarget.members, filterMap_member_eq h.le hstart.composed.joined]
    exact hstart.composed.exactly.events kind
  · intro i ids hphase
    have hcall := h.calls i
    rw [hphase] at hcall
    obtain ⟨rfl, row, hrow⟩ := hcall
    rw [hstart.matching_target h.toGrown hrow]
    rfl
  · intro i ids message hphase
    have hcall := h.calls i
    rw [hphase] at hcall
    obtain ⟨rfl, row, hrow⟩ := hcall
    rw [hstart.matching_target h.toGrown hrow]
    rfl
  · intro i j result result' hi hj
    obtain ⟨row, hrow, hid, hhash⟩ := hreturned i result hi
    obtain ⟨row', hrow', hid', hhash'⟩ := hreturned j result' hj
    cases hrow.symm.trans hrow'
    exact ⟨hid'.trans hid.symm, hhash'.trans hhash.symm⟩
  · intro i error hphase
    have hcall := h.calls i
    rw [hphase] at hcall
    exact hcall
  · intro i hpasses hrun
    have hleft := left_alone texts request answers i 5 s
    have hmost : (s.calls i).left ≤ 5 := by
      cases s.calls i <;> simp [Phase.left]
    rcases ended_of_left (Nat.le_zero.mp (hleft.trans (by omega))) with hended | ⟨error, herror⟩
    · exact hended
    · have hcall := (inv_exec hstart h hrun).calls i
      rw [herror] at hcall
      exact absurd hcall hpasses.not_gate

end Agreement

/-! Two sealed days of one minute each, and two calls that meet at the seal. -/

def sampleTexts : ScheduledAcquisition.Env where
  sha256 text := String.ofList (text.toList.reverse.take 16)
  identityHash _ := ""
  uuidText := toString

def sampleEnv : RawCapture.Env Unit where
  dumps _ := some "null"
  sha256 := id
  storesText _ := true
  storesJson _ := true

def sampleMinute (minute : ℤ) : ℤ := (738886 * 1440 + minute) * oneMinute

def sampleRaw (id : UUID) (minute : ℤ) : RawRow where
  rawObservationId := id
  sourceId := 1
  observationKind := .ohlcv
  providerIdentifier := bybitSymbol
  providerSymbol := bybitSymbol
  exchange := "BYBIT"
  eventAt := .aware (sampleMinute minute)
  effectiveAt := .aware (sampleMinute (minute + 1))
  ingestedAt := .aware (sampleMinute 3)
  adjustmentStatus := .raw
  revision := 0
  provenanceUri := "bybit://v5/trade-kline/linear/BTCUSDT"
  rawPayload := "null"
  rawPayloadSha256 := "null"

def sampleNormalized (id rawObservationId : UUID) : NormalizedRow where
  normalizedObservationId := id
  rawObservationId
  instrumentId := bybitInstrumentId
  normalizationVersion := "v1"
  normalizedValue := "bar"
  qualityStatus := .validated
  qualityIssues := []
  normalizedAt := sampleMinute 4
  sidecar := .ok []

def sampleParentRow (datasetVersionId : UUID) (version contentHash : String) (minute : ℤ)
    (member : UUID) : DatasetRow where
  datasetVersionId
  sourceId := 1
  version := version.toList
  normalizationVersion := "v1"
  contentHash
  validFrom := sampleMinute minute
  validUntil := sampleMinute minute
  createdAt := sampleMinute 5
  members := [member]

def sampleStore : Database sampleEnv where
  raw :=
    { table := ⟨[sampleRaw 11 0, sampleRaw 12 1], by decide⟩
      ids := by decide
      digests := by decide }
  normalized := ⟨⟨[sampleNormalized 21 11, sampleNormalized 22 12], by decide⟩, by decide⟩
  datasets :=
    ⟨[sampleParentRow 31 "day-1" "a" 0 21, sampleParentRow 32 "day-2" "b" 1 22], by decide⟩
  featureCounts _ _ := 0

def utcMinute (minute : ℤ) : Time := ⟨sampleMinute minute, some 0⟩

def sampleRequest : DatasetCompositionRequest where
  sourceId := 1
  instrumentId := bybitInstrumentId
  provider := bybitProviderName
  providerSymbol := bybitSymbol
  normalizationVersion := "v1"
  observationKinds := {.ohlcv}
  start := utcMinute 0
  stop := utcMinute 2
  parents := [⟨31, "day-1".toList, "a", utcMinute 0, utcMinute 1⟩,
    ⟨32, "day-2".toList, "b", utcMinute 1, utcMinute 2⟩]
  materializeFeatures := false

def sampleAnswers (resolved : List String) (i : ℕ) : Answers where
  profile := some ⟨bybitProviderName, bybitV5SymbolNamespace, "CRYPTO", {.ohlcv}⟩
  resolved
  provenAt := sampleMinute 6
  sealedAt := sampleMinute 7
  datasetVersionId := 40 + i
  features := ⟨.ok 0, .ok 0, .ok (0, 0), id⟩

def Phase.dataset? : Phase → Option UUID
  | .returned result => some result.datasetVersionId
  | _ => none

def turns (is : List ℕ) : List (Action sampleEnv) := is.map .call

def decideTurns (texts : ScheduledAcquisition.Env) (request : DatasetCompositionRequest)
    (answers : ℕ → Answers) : ∀ (s : System sampleEnv) (is : List ℕ),
      Decidable (Run.Each (step texts request answers) (Allowed texts request answers) s (turns is))
  | _, [] => inferInstanceAs (Decidable True)
  | s, i :: is =>
      @instDecidableAnd _ _
        (inferInstanceAs (Decidable (SealStores texts request (answers i) s.db (s.calls i))))
        (decideTurns texts request answers (step texts request answers s (.call i)) is)

instance (texts : ScheduledAcquisition.Env) (request : DatasetCompositionRequest)
    (answers : ℕ → Answers) (s : System sampleEnv) (is : List ℕ) :
    Decidable (Run.Each (step texts request answers) (Allowed texts request answers) s (turns is)) :=
  decideTurns texts request answers s is

theorem sampleRequest_valid : validateCompositionRequest sampleRequest = .ok () := by decide +kernel

theorem sampleParents_proven :
    proveParents sampleTexts sampleStore sampleRequest (sampleMinute 6) = .ok [21, 22] := by
  decide +kernel

theorem sampleTarget_absent :
    sampleStore.datasets.find? (targetKey sampleTexts sampleRequest) = none := by
  decide +kernel

end TradePlatform.Composition
