/-
# `TradePlatform.StrategyLabTrials` — the trials of a study are all different

The identity of a study holds no float, so that it always has a hash.  The indices of its search
ascend, and the identity of a trial is written so that its text gives back the parameters: with
digests that are injective, trials of two indices have two identifiers.
-/
import TradePlatform.StrategyLabStudy

namespace TradePlatform

namespace StrategyLabStudy

/-! ## Values without a float -/

def Plain (j : Json) : Prop := ∀ path, checkIdentityValue j path = .ok ()

theorem plain_str (text : String) : Plain (.str text) := fun _ => rfl

theorem plain_int (n : ℤ) : Plain (.int n) := fun _ => rfl

theorem plain_null : Plain .null := fun _ => rfl

theorem plain_arr {items : List Json} (h : ∀ item ∈ items, Plain item) : Plain (.arr items) := by
  intro path
  rw [checkIdentityValue]
  generalize 0 = i
  induction items generalizing i with
  | nil => rfl
  | cons item items ih =>
      rw [checkIdentityItems, h item List.mem_cons_self]
      exact ih (fun item hitem => h item (List.mem_cons_of_mem _ hitem)) (i + 1)

theorem plain_obj {fields : List (String × Json)} (h : ∀ field ∈ fields, Plain field.2) :
    Plain (.obj fields) := by
  intro path
  rw [checkIdentityValue]
  induction fields with
  | nil => rfl
  | cons field fields ih =>
      obtain ⟨key, value⟩ := field
      rw [checkIdentityFields, checkIdentityField, h (key, value) List.mem_cons_self]
      exact ih fun field hfield => h field (List.mem_cons_of_mem _ hfield)

theorem plain_texts (fields : List (String × String)) : Plain (.texts fields) := by
  refine plain_obj fun field hfield => ?_
  obtain ⟨_, _, rfl⟩ := List.mem_map.mp hfield
  exact plain_str _

mutual

theorem plain_of_check : ∀ {j : Json} {path : String}, checkIdentityValue j path = .ok () → Plain j
  | .float _, _, h => by
      rw [checkIdentityValue] at h
      cases h
  | .arr items, path, h => by
      rw [checkIdentityValue] at h
      exact plain_arr (plainItems_of_check h)
  | .obj fields, path, h => by
      rw [checkIdentityValue] at h
      exact plain_obj (plainFields_of_check h)
  | .null, _, _ => plain_null
  | .bool _, _, _ => fun _ => rfl
  | .int n, _, _ => plain_int n
  | .str text, _, _ => plain_str text

theorem plainItems_of_check : ∀ {items : List Json} {path : String} {i : ℕ},
    checkIdentityItems items path i = .ok () → ∀ item ∈ items, Plain item
  | [], _, _, _ => nofun
  | item :: items, path, i, h => by
      rw [checkIdentityItems] at h
      obtain ⟨_, hitem, hitems⟩ := Except.bind_eq_ok.mp h
      exact List.forall_mem_cons.mpr ⟨plain_of_check hitem, plainItems_of_check hitems⟩

theorem plainFields_of_check : ∀ {fields : List (String × Json)} {path : String},
    checkIdentityFields fields path = .ok () → ∀ field ∈ fields, Plain field.2
  | [], _, _ => nofun
  | field :: fields, path, h => by
      rw [checkIdentityFields] at h
      obtain ⟨_, hfield, hfields⟩ := Except.bind_eq_ok.mp h
      exact List.forall_mem_cons.mpr ⟨plainField_of_check hfield, plainFields_of_check hfields⟩

theorem plainField_of_check : ∀ {field : String × Json} {path : String},
    checkIdentityField field path = .ok () → Plain field.2
  | (_, _), _, h => by
      rw [checkIdentityField] at h
      exact plain_of_check h

end

theorem identityHash_of_plain {env : Env} {j : Json} (h : Plain j) :
    identityHash env j = .ok (env.sha256 (String.ofList (j.dumps fun _ => []))) := by
  rw [identityHash, canonicalIdentityJson, h]
  rfl

/-! ## The identity of a study -/

namespace StudySpecV1

variable {env : Env} (study : StudySpecV1 env)

theorem checked : (∀ policies ∈ study.policies, Plain (.obj policies)) ∧
    checkBudget study.search study.parameterSpace.cardinality = .ok () := by
  obtain ⟨_, h⟩ := Except.of_ite_error study.valid
  obtain ⟨_, hpolicies, h⟩ := Except.bind_eq_ok.mp h
  obtain ⟨_, _, h⟩ := Except.bind_eq_ok.mp h
  obtain ⟨_, _, hbudget⟩ := Except.bind_eq_ok.mp h
  refine ⟨fun policies hsome => ?_, hbudget⟩
  rw [checkPolicies, hsome] at hpolicies
  obtain ⟨_, hbind⟩ := Except.of_ite_error hpolicies
  obtain ⟨_, hjson, _⟩ := Except.bind_eq_ok.mp hbind
  obtain ⟨_, hcheck, _⟩ := Except.bind_eq_ok.mp hjson
  exact plain_of_check hcheck

theorem plain_strs (texts : List String) : Plain (.arr (texts.map .str)) := by
  refine plain_arr fun item hitem => ?_
  obtain ⟨text, _, rfl⟩ := List.mem_map.mp hitem
  exact plain_str text

theorem plain_strategy (strategy : StrategySpecV1) : Plain strategy.payload := by
  have hroles : Plain (.arr (strategy.inputRoles.map InputRoleV1.payload)) := by
    refine plain_arr fun item hitem => ?_
    obtain ⟨role, _, rfl⟩ := List.mem_map.mp hitem
    refine plain_obj ?_
    simp only [List.forall_mem_cons, List.not_mem_nil, false_implies, implies_true, and_true]
    exact ⟨plain_str _, plain_strs _⟩
  have hschema : Plain (.obj (strategy.parameterSchema.map fun x => (x.1, .str x.2.value))) := by
    refine plain_obj fun field hfield => ?_
    obtain ⟨_, _, rfl⟩ := List.mem_map.mp hfield
    exact plain_str _
  refine plain_obj ?_
  simp only [List.forall_mem_cons, List.not_mem_nil, false_implies, implies_true, and_true]
  exact ⟨plain_str _, plain_str _, plain_str _, plain_str _, hroles, hschema⟩

theorem plain_identity : Plain study.identity := by
  have hspace : Plain
      (.arr (study.parameterSpace.domains.map ParameterDomainV1.payload)) := by
    refine plain_arr fun item hitem => ?_
    obtain ⟨domain, _, rfl⟩ := List.mem_map.mp hitem
    refine plain_obj ?_
    simp only [List.forall_mem_cons, List.not_mem_nil, false_implies, implies_true, and_true]
    exact ⟨plain_str _, plain_str _, plain_strs _⟩
  have hdatasets : Plain (.arr (study.datasets.map DatasetBindingV1.payload)) := by
    refine plain_arr fun item hitem => ?_
    obtain ⟨binding, _, rfl⟩ := List.mem_map.mp hitem
    refine plain_obj ?_
    simp only [List.forall_mem_cons, List.not_mem_nil, false_implies, implies_true, and_true]
    exact ⟨plain_str _, plain_str _, plain_str _, plain_str _, plain_str _⟩
  have hsearch : Plain study.search.payload := by
    have hseed : Plain (study.search.seed.elim .null .int) := by
      cases study.search.seed with
      | none => exact plain_null
      | some seed => exact plain_int seed
    refine plain_obj ?_
    simp only [List.forall_mem_cons, List.not_mem_nil, false_implies, implies_true, and_true]
    exact ⟨plain_str _, plain_int _, hseed⟩
  have hpolicies : ∀ field ∈ study.policies.elim [] fun policies => [("policies", .obj policies)],
      Plain field.2 := by
    intro field hfield
    cases hsome : study.policies with
    | none =>
        rw [hsome] at hfield
        cases hfield
    | some policies =>
        rw [hsome] at hfield
        rw [List.mem_singleton.mp hfield]
        exact study.checked.1 policies hsome
  refine plain_obj ?_
  simp only [List.forall_mem_append, List.forall_mem_cons, List.not_mem_nil, false_implies,
    implies_true, and_true]
  exact ⟨⟨plain_str _, plain_strategy _, hspace, hdatasets, hsearch, plain_str _, plain_str _,
    plain_str _⟩, hpolicies⟩

theorem contentHash_ok : ∃ hash, study.contentHash = .ok hash :=
  ⟨_, identityHash_of_plain study.plain_identity⟩

end StudySpecV1

/-! ## The indices of a search -/

theorem seededSampleIndices_ok {env : Env} {seed : ℤ} {population : ℕ} {count : ℤ}
    (hpos : 0 < count) (hle : count ≤ population) (hmax : population ≤ maxSampledSpace) :
    ∃ indices, seededSampleIndices env seed population count = .ok indices ∧
      indices.Pairwise (· < ·) ∧ (∀ i ∈ indices, i < population) ∧
      (indices.length : ℤ) = count := by
  unfold seededSampleIndices
  rw [if_neg (not_not.mpr ⟨hpos, hle⟩), if_neg (by exact_mod_cast hmax.not_gt), Int.toNat_natCast]
  dsimp only
  generalize hranked : sortBy (fun i : ℕ => env.sha256 (toString seed ++ ":" ++ toString i))
    (List.range population) = ranked
  have hperm : ranked.Perm (List.range population) := hranked ▸ sortBy_perm _ _
  have hnodup : (ranked.take count.toNat).Nodup :=
    (hperm.nodup_iff.mpr List.nodup_range).sublist (List.take_sublist _ _)
  have hsorted := sortBy_perm id (ranked.take count.toNat)
  refine ⟨_, rfl, ?_, fun i hi => ?_, ?_⟩
  · exact (sortBy_pairwise id _).imp₂ (fun _ _ hle hne => lt_of_le_of_ne hle hne)
      (hsorted.nodup_iff.mpr hnodup)
  · have hmem := List.mem_of_mem_take (hsorted.mem_iff.mp hi)
    exact List.mem_range.mp (hperm.mem_iff.mp hmem)
  · rw [hsorted.length_eq, List.length_take, hperm.length_eq, List.length_range]
    omega

namespace StudySpecV1

variable {env : Env} (study : StudySpecV1 env)

theorem indices_ok : ∃ indices, study.indices = .ok indices ∧ indices.Pairwise (· < ·) ∧
    (∀ i ∈ indices, i < study.parameterSpace.cardinality) ∧
    (indices.length : ℤ) = study.plannedTrialCount := by
  obtain ⟨_, hbudget⟩ := Except.of_ite_error study.checked.2
  obtain ⟨hcovers, hbudget⟩ := Except.of_ite_error hbudget
  obtain ⟨hlarge, _⟩ := Except.of_ite_error hbudget
  obtain ⟨hpos, hsearch⟩ := Except.of_ite_error study.search.valid
  obtain ⟨_, hsearch⟩ := Except.of_ite_error hsearch
  obtain ⟨hseed, _⟩ := Except.of_ite_error hsearch
  unfold indices plannedTrialCount
  cases hmode : study.search.mode with
  | exhaustive =>
      exact ⟨_, rfl, List.pairwise_lt_range, fun i hi => List.mem_range.mp hi,
        by rw [List.length_range]⟩
  | seededSample =>
      cases hsome : study.search.seed with
      | none => exact absurd ⟨hmode, by rw [hsome]; rfl⟩ hseed
      | some seed =>
          have hlt := fun h => hcovers ⟨hmode, h⟩
          have hmax := fun h => hlarge ⟨hmode, h⟩
          exact seededSampleIndices_ok (not_le.mp hpos) (not_le.mp hlt).le (not_lt.mp hmax)

/-! ## The identity of a trial -/

theorem parameters_lt_schema_version : "parameters" < "schema_version" := by decide

theorem schema_version_lt_study_content_hash : "schema_version" < "study_content_hash" := by decide

theorem sortBy_three {β ν : Type} [LinearOrder β] {a b c : β} (x y z : ν) (hca : c < a)
    (hab : a < b) : sortBy Prod.fst [(a, x), (b, y), (c, z)] = [(c, z), (a, x), (b, y)] := by
  have hcb := hca.trans hab
  have hsorted : [(c, z), (a, x), (b, y)].Pairwise fun p q => p.1 < q.1 := by simp [hca, hab, hcb]
  have hnodup : ([(a, x), (b, y), (c, z)].map Prod.fst).Nodup := by
    simp [hab.ne, hca.ne', hcb.ne']
  refine sortBy_eq (fun p hp q hq => List.inj_on_of_nodup_map hnodup hp hq) ?_
    (hsorted.imp fun hlt => hlt.le)
  have hmiddle : ([(a, x), (b, y)] ++ [(c, z)]).Perm ((c, z) :: ([(a, x), (b, y)] ++ [])) :=
    List.perm_middle
  exact hmiddle.symm

theorem trialPayload_injective {hash : String} {point point' : Point}
    (hsorted : point.rows.Pairwise fun a b => a.1 < b.1)
    (hsorted' : point'.rows.Pairwise fun a b => a.1 < b.1)
    (h : (trialPayload hash point).dumps (fun _ => []) =
      (trialPayload hash point').dumps fun _ => []) : point.rows = point'.rows := by
  have htext : ∀ {point : Point}, point.rows.Pairwise (fun a b => a.1 < b.1) →
      (trialPayload hash point).dumps (fun _ => []) = '\x7b' :: (JsonText.quote
        "parameters".toList ++ ':' :: (JsonText.flatObject (point.rows.map fun field =>
          (field.1, some field.2)) ++ ',' :: (JsonText.quote "schema_version".toList ++ ':' ::
            JsonText.quote "strategy-lab-trial-v1".toList ++ ',' ::
              (JsonText.quote "study_content_hash".toList ++ ':' :: JsonText.quote hash.toList)))
        ++ ['\x7d']) := by
    intro point hsorted
    have hcanonical : (trialPayload hash point).canonical =
        .obj [("parameters", .texts point.rows), ("schema_version", .str "strategy-lab-trial-v1"),
          ("study_content_hash", .str hash)] := by
      rw [trialPayload, Json.canonical, Json.canonicalFields_eq, List.map_cons, List.map_cons,
        List.map_cons, List.map_nil, Json.canonical_texts hsorted, Json.canonical, Json.canonical]
      exact congrArg Json.obj (sortBy_three _ _ _ parameters_lt_schema_version
        schema_version_lt_study_content_hash)
    rw [Json.dumps, hcanonical, Json.dump, Json.dumpFields_eq, List.map_cons, List.map_cons,
      List.map_cons, List.map_nil, Json.dump_texts, Json.dump, Json.dump]
    simp [JsonText.object, JsonText.separated]
  rw [htext hsorted, htext hsorted'] at h
  have hrest := List.append_cancel_left (List.append_cancel_right (List.cons.inj h).2)
  obtain ⟨hfields, _⟩ := JsonText.flatObject_readOff (List.cons.inj hrest).2
  have hinjective : Function.Injective fun field : String × String => (field.1, some field.2) :=
    fun a b hab => Prod.ext (Prod.mk.inj hab).1 (Option.some.inj (Prod.mk.inj hab).2)
  exact hinjective.list_map hfields

/-! ## The trials of a study -/

def trialText (hash : String) (point : Point) : String :=
  String.ofList ((trialPayload hash point).dumps fun _ => [])

def trialOf (env : Env) (hash : String) (index : ℕ) (point : Point) (ordinal : ℤ) : TrialV1 where
  studyId := env.uuid5 ("study:" ++ hash)
  ordinal := ordinal
  spaceIndex := index
  parameters := point
  contentHash := env.sha256 (trialText hash point)
  trialId := env.uuid5 ("trial:" ++ env.sha256 (trialText hash point))

theorem plain_trialPayload (hash : String) (point : Point) : Plain (trialPayload hash point) := by
  refine plain_obj ?_
  simp only [List.forall_mem_cons, List.not_mem_nil, false_implies, implies_true, and_true]
  exact ⟨plain_str _, plain_str _, plain_texts _⟩

variable {study}

theorem trialFor_eq {hash : String} (hhash : study.contentHash = .ok hash) {point same : Point}
    {index : ℕ} (hindex : study.parameterSpace.indexOf point = .ok index)
    (hsame : study.parameterSpace.pointAt index = .ok same) (ordinal : ℤ) :
    study.trialFor point ordinal = .ok (trialOf env hash index same ordinal) := by
  rw [trialFor, hindex, Except.ok_bind, hsame, Except.ok_bind, hhash, Except.ok_bind,
    identityHash_of_plain (plain_trialPayload hash same), studyId, hhash]
  rfl

def pointOf (space : ParameterSpaceV1 env.digit) (index : ℕ) : Point :=
  (space.pointAt index).toOption.getD Dict.empty

theorem pointAt_pointOf {space : ParameterSpaceV1 env.digit} {index : ℕ}
    (h : index < space.cardinality) : space.pointAt index = .ok (pointOf space index) ∧
      (pointOf space index).rows = space.ItemsOf index ∧
      space.indexOf (pointOf space index) = .ok index := by
  obtain ⟨point, hpoint, hrows, _, hindex⟩ := space.indexOf_pointAt h
  have hsame : pointOf space index = point := by
    unfold pointOf
    rw [hpoint]
    rfl
  rw [hsame]
  exact ⟨hpoint, hrows, hindex⟩

theorem trialOf_ne (hsha : Function.Injective env.sha256) (huuid : Function.Injective env.uuid5)
    {space : ParameterSpaceV1 env.digit} {hash : String} {i j : ℕ} (hi : i < space.cardinality)
    (hj : j < space.cardinality) (hne : i ≠ j) (o o' : ℤ) :
    ¬ (pointOf space i).rows.Perm (pointOf space j).rows ∧
      (trialOf env hash i (pointOf space i) o).trialId ≠
        (trialOf env hash j (pointOf space j) o').trialId := by
  obtain ⟨_, hrowsi, hindexi⟩ := pointAt_pointOf hi
  obtain ⟨_, hrowsj, hindexj⟩ := pointAt_pointOf hj
  have hrows : (pointOf space i).rows ≠ (pointOf space j).rows := by
    intro heq
    have hsame : ∀ {p q : Point}, p.rows = q.rows → p = q := by
      rintro ⟨_, _⟩ ⟨_, _⟩ rfl
      rfl
    rw [hsame heq, hindexj] at hindexi
    exact hne (Except.ok.inj hindexi).symm
  constructor
  · intro hperm
    have hsorted : ∀ {k}, (space.ItemsOf k).Pairwise fun a b => toLex a ≤ toLex b :=
      space.itemsOf_sorted.imp fun hlt => Prod.Lex.le_iff.mpr (.inl hlt)
    rw [hrowsi, hrowsj] at hperm hrows
    exact hrows (hperm.eq_of_pairwise (fun a b _ _ hab hba => toLex.injective (le_antisymm hab hba))
      hsorted hsorted)
  · intro heq
    have htext := hsha (String.append_right_inj _ |>.mp (huuid heq))
    refine hrows (trialPayload_injective ?_ ?_ (String.ofList_injective htext))
    · rw [hrowsi]
      exact space.itemsOf_sorted
    · rw [hrowsj]
      exact space.itemsOf_sorted

theorem trials_eq {hash : String} (hhash : study.contentHash = .ok hash) {indices : List ℕ}
    (hindices : study.indices = .ok indices)
    (hlt : ∀ i ∈ indices, i < study.parameterSpace.cardinality) :
    study.trials = .ok (indices.zipIdx.map fun pair =>
      trialOf env hash pair.1 (pointOf study.parameterSpace pair.1) pair.2) := by
  rw [trials, hindices, Except.ok_bind]
  refine Except.mapM_eq_ok fun pair hpair => ?_
  obtain ⟨index, ordinal⟩ := pair
  obtain ⟨hpoint, _, hindex⟩ := pointAt_pointOf (hlt index (List.fst_mem_of_mem_zipIdx hpair))
  dsimp only
  rw [hpoint, Except.ok_bind]
  exact trialFor_eq hhash hindex hpoint ordinal

/-- In any space points and indices are inverse to each other, and any study plans as many trials
as it says: their indices ascend and their ordinals count them, their points and identifiers are
pairwise different, and each is the trial of its own parameters. -/
theorem trials_complete {digit : Char → Option (Fin 10)} (space : ParameterSpaceV1 digit)
    (study : StudySpecV1 env) (hsha : Function.Injective env.sha256)
    (huuid : Function.Injective env.uuid5) :
    (∀ index < space.cardinality, ∃ point, space.pointAt index = .ok point ∧
      space.HasPoint point ∧ space.indexOf point = .ok index) ∧
    (∀ point, space.HasPoint point → ∃ index < space.cardinality,
      space.indexOf point = .ok index ∧
        ∃ same, space.pointAt index = .ok same ∧ same.rows.Perm point.rows) ∧
    ∃ trials, study.trials = .ok trials ∧ (trials.length : ℤ) = study.plannedTrialCount ∧
      (trials.map TrialV1.spaceIndex).Pairwise (· < ·) ∧
      trials.map TrialV1.ordinal = (List.range trials.length).map (fun i : ℕ => (i : ℤ)) ∧
      trials.Pairwise (fun t t' =>
        ¬ t.parameters.rows.Perm t'.parameters.rows ∧ t.trialId ≠ t'.trialId) ∧
      ∀ trial ∈ trials, ∀ ordinal,
        study.trialFor trial.parameters ordinal = .ok { trial with ordinal := ordinal } := by
  refine ⟨fun index h => ?_, fun point => ParameterSpaceV1.pointAt_indexOf, ?_⟩
  · obtain ⟨point, hpoint, _, hhas, hindex⟩ := space.indexOf_pointAt h
    exact ⟨point, hpoint, hhas, hindex⟩
  obtain ⟨hash, hhash⟩ := study.contentHash_ok
  obtain ⟨indices, hindices, hsorted, hlt, hlength⟩ := study.indices_ok
  refine ⟨_, trials_eq hhash hindices hlt, ?_, ?_, ?_, ?_, ?_⟩
  · rw [List.length_map, List.length_zipIdx, hlength]
  · rw [List.map_map, show TrialV1.spaceIndex ∘ _ = Prod.fst from rfl, List.zipIdx_map_fst]
    exact hsorted
  · rw [List.map_map, List.length_map, List.length_zipIdx]
    show indices.zipIdx.map ((fun i : ℕ => (i : ℤ)) ∘ Prod.snd) = _
    rw [← List.map_map, List.zipIdx_map_snd, List.range_eq_range']
  · have hpairs : indices.zipIdx.Pairwise fun p q => p.1 < q.1 := by
      rw [← List.pairwise_map, List.zipIdx_map_fst]
      exact hsorted
    refine List.pairwise_map.mpr (hpairs.imp_of_mem fun {p q} hp hq hpq => ?_)
    exact trialOf_ne hsha huuid (hlt _ (List.fst_mem_of_mem_zipIdx hp))
      (hlt _ (List.fst_mem_of_mem_zipIdx hq)) hpq.ne _ _
  · intro trial htrial ordinal
    obtain ⟨pair, hpair, rfl⟩ := List.mem_map.mp htrial
    obtain ⟨hpoint, _, hindex⟩ := pointAt_pointOf (hlt pair.1 (List.fst_mem_of_mem_zipIdx hpair))
    exact trialFor_eq hhash hindex hpoint ordinal

end StudySpecV1

/-! ## A seeded study of two parameters -/

def plainEnv : Env where
  sha256 := id
  uuid5 text := Encodable.encode (text.toList.map Char.toNat)
  digit _ := none
  ownerPolicies _ _ _ _ := .ok ()

theorem lookback_valid :
    checkDomain plainEnv.digit "lookback" .integer ["10", "20", "30"] = .ok () := by decide +kernel

def lookback : ParameterDomainV1 plainEnv.digit :=
  ⟨"lookback", .integer, ["10", "20", "30"], lookback_valid⟩

theorem threshold_valid :
    checkDomain plainEnv.digit "threshold" .decimal ["0.5", "2"] = .ok () := by decide +kernel

def threshold : ParameterDomainV1 plainEnv.digit :=
  ⟨"threshold", .decimal, ["0.5", "2"], threshold_valid⟩

theorem smallSpace_valid : checkSpace [lookback, threshold] = .ok () := by decide +kernel

def smallSpace : ParameterSpaceV1 plainEnv.digit := ⟨[lookback, threshold], smallSpace_valid⟩

theorem smallSearch_valid : checkSearch .seededSample 4 (some 7) = .ok () := by decide

def smallSearch : SearchPlanV1 := ⟨.seededSample, 4, some 7, smallSearch_valid⟩

def smallDeclaration : StudyDeclaration plainEnv.digit where
  strategy := ⟨"trend", "1", "", "next-open", [⟨"bars", [.t4FirstPartyCapture]⟩],
    [("lookback", .integer), ("threshold", .decimal)]⟩
  parameterSpace := smallSpace
  datasets := [⟨"bars", 1, "", .t4FirstPartyCapture, untouchedHoldoutBoundary⟩]
  search := smallSearch
  evaluationUpperBoundExclusive := untouchedHoldoutBoundary
  numericPolicySlot := numericPolicyUnset
  costPolicySlot := costPolicyUnset
  policies := none

theorem smallDeclaration_valid : checkStudy plainEnv smallDeclaration = .ok () := by
  decide +kernel

def smallStudy : StudySpecV1 plainEnv := ⟨smallDeclaration, smallDeclaration_valid⟩

theorem smallStudy_trials_complete :
    (∀ index < smallSpace.cardinality, ∃ point, smallSpace.pointAt index = .ok point ∧
      smallSpace.HasPoint point ∧ smallSpace.indexOf point = .ok index) ∧
    (∀ point, smallSpace.HasPoint point → ∃ index < smallSpace.cardinality,
      smallSpace.indexOf point = .ok index ∧
        ∃ same, smallSpace.pointAt index = .ok same ∧ same.rows.Perm point.rows) ∧
    ∃ trials, smallStudy.trials = .ok trials ∧
      (trials.length : ℤ) = smallStudy.plannedTrialCount ∧
      (trials.map TrialV1.spaceIndex).Pairwise (· < ·) ∧
      trials.map TrialV1.ordinal = (List.range trials.length).map (fun i : ℕ => (i : ℤ)) ∧
      trials.Pairwise (fun t t' =>
        ¬ t.parameters.rows.Perm t'.parameters.rows ∧ t.trialId ≠ t'.trialId) ∧
      ∀ trial ∈ trials, ∀ ordinal,
        smallStudy.trialFor trial.parameters ordinal = .ok { trial with ordinal := ordinal } :=
  StudySpecV1.trials_complete smallSpace smallStudy (fun _ _ h => h)
    fun _ _ h => Json.encode_text_inj h

end StrategyLabStudy

end TradePlatform
