/-
# `TradePlatform.KnowledgeTimeDecisions` — what an admissible decision knew, and what it is told

A decision is made of features and these of observations.  Two things are proved of the whole
chain: an admissible decision comes after everything it was made of and claims no more than
any of its verdicts allows (`admissible_after_inputs`), and neither the order of the inputs nor
the platform's own clock changes it (`decision_invariant`).
-/
import TradePlatform.KnowledgeTime

namespace TradePlatform.KnowledgeTime

variable {d : Digests}

/-! ## One observation -/

section Observation

variable {input : ObservationInput} {item : ObservationKnowledgeV1}

theorem requireAware_eq_ok {value : DateTime} {name : String} {instant : ℤ} :
    requireAware value name = .ok instant ↔ value = .aware instant := by
  cases value with
  | aware t => simp [requireAware]
  | naive w => simp [requireAware, refuse]

theorem deriveObservationKnowledgeV1_eq_ok
    (h : deriveObservationKnowledgeV1 d input = .ok item) :
    ∃ eventAt recordedAt publicationAt arrivalAt reading,
      input.eventAt = .aware eventAt ∧ input.platformRecordedAt = .aware recordedAt ∧
      requireAware? input.arrivalAt "arrival_at" = .ok arrivalAt ∧
      tierClock input.verdict (if input.verdict.intact d then input.verdict.claim d else .none)
        eventAt recordedAt publicationAt arrivalAt input.arrivalClockBound = .ok reading ∧
      item = issueObservation d
        (observationFacts input
          (if input.verdict.intact d then input.verdict.claim d else .none) eventAt publicationAt
          arrivalAt reading.getRight? (bindingReasons d input ++ clockReasons eventAt reading))
        recordedAt := by
  unfold deriveObservationKnowledgeV1 at h
  split at h
  · cases h
  · split at h
    · cases h
    · obtain ⟨eventAt, hevent, h⟩ := Except.bind_eq_ok.mp h
      obtain ⟨recordedAt, hrecorded, h⟩ := Except.bind_eq_ok.mp h
      obtain ⟨publicationAt, -, h⟩ := Except.bind_eq_ok.mp h
      obtain ⟨arrivalAt, harrival, h⟩ := Except.bind_eq_ok.mp h
      obtain ⟨_, -, h⟩ := Except.bind_eq_ok.mp h
      obtain ⟨reading, hreading, h⟩ := Except.bind_eq_ok.mp h
      exact ⟨eventAt, recordedAt, publicationAt, arrivalAt, reading,
        requireAware_eq_ok.mp hevent, requireAware_eq_ok.mp hrecorded, harrival, hreading,
        (Except.pure_eq_ok.mp h).symm⟩

theorem ClaimCeilingV1.none_le (claim : ClaimCeilingV1) : ClaimCeilingV1.none ≤ claim := by
  cases claim <;> decide

theorem claimCeiling_le (h : deriveObservationKnowledgeV1 d input = .ok item) :
    item.claimCeiling ≤ input.verdict.claim d := by
  obtain ⟨_, _, _, _, reading, -, -, -, -, rfl⟩ := deriveObservationKnowledgeV1_eq_ok h
  have hverdict : (if input.verdict.intact d then input.verdict.claim d else .none) ≤
      input.verdict.claim d := by
    split
    · exact le_rfl
    · exact ClaimCeilingV1.none_le _
  simp only [issueObservation, observationFacts]
  split
  · exact hverdict
  · refine (min_le_left _ _).trans ?_
    split
    · exact ClaimCeilingV1.none_le _
    · exact hverdict

theorem eventAt_le_marketKnowledgeAt {knownAt : ℤ}
    (h : deriveObservationKnowledgeV1 d input = .ok item)
    (hknown : item.marketKnowledgeAt = some knownAt) : item.eventAt ≤ knownAt := by
  obtain ⟨eventAt, _, _, _, reading, -, -, -, -, rfl⟩ := deriveObservationKnowledgeV1_eq_ok h
  simp only [issueObservation, observationFacts] at hknown ⊢
  split at hknown
  · rename_i hreasons
    obtain ⟨clock, hclock, rfl⟩ := Option.map_eq_some_iff.mp hknown
    have hnone := (List.append_eq_nil_iff.mp hreasons).2
    rw [Sum.getRight?_eq_some_iff.mp hclock, clockReasons] at hnone
    by_contra hlt
    rw [if_pos (not_le.mp hlt)] at hnone
    cases hnone
  · cases hknown

def RecordedAfterArrival (input : ObservationInput) : Prop :=
  ∃ recordedAt, input.platformRecordedAt = .aware recordedAt ∧
    (input.verdict.tier = EvidenceTierV1.t4FirstPartyCapture.value →
      ∀ arrivalAt, input.arrivalAt = some (.aware arrivalAt) → arrivalAt ≤ recordedAt)

structure SameEvidence (input input' : ObservationInput) : Prop where
  same : ∃ recordedAt, input' = { input with platformRecordedAt := recordedAt }
  recorded : RecordedAfterArrival input
  recorded' : RecordedAfterArrival input'

theorem tier_of_ofValue? {text : String} {tier : EvidenceTierV1}
    (h : EvidenceTierV1.ofValue? text = some tier) : text = tier.value := by
  have hvalue := List.find?_some h
  exact (of_decide_eq_true hvalue).symm

theorem tierClock_congr {verdict : EvidenceTierVerdictV1} {claim : ClaimCeilingV1}
    {eventAt recordedAt recordedAt' : ℤ} {publicationAt arrivalAt : Option ℤ}
    {bound : Option HostClockBoundV1}
    (h : verdict.tier = EvidenceTierV1.t4FirstPartyCapture.value →
      ∀ a, arrivalAt = some a → a ≤ recordedAt ∧ a ≤ recordedAt') :
    tierClock verdict claim eventAt recordedAt publicationAt arrivalAt bound =
      tierClock verdict claim eventAt recordedAt' publicationAt arrivalAt bound := by
  unfold tierClock
  cases htier : EvidenceTierV1.ofValue? verdict.tier with
  | none => rfl
  | some tier =>
      cases tier with
      | t0Synthetic => rfl
      | t1Retrospective => rfl
      | t2EventTime => rfl
      | t3PublicationTime => rfl
      | t4FirstPartyCapture =>
          cases arrivalAt with
          | none => rfl
          | some arrivalAt =>
              obtain ⟨hle, hle'⟩ := h (tier_of_ofValue? htier) arrivalAt rfl
              cases bound with
              | none => rfl
              | some bound => simp only [if_neg (not_lt.mpr hle), if_neg (not_lt.mpr hle')]

theorem arrival_of_requireAware? {value : Option DateTime} {name : String} {arrivalAt : ℤ}
    (h : requireAware? value name = .ok (some arrivalAt)) : value = some (.aware arrivalAt) := by
  cases value with
  | none => cases h
  | some value =>
      obtain ⟨t, ht, h⟩ := Except.bind_eq_ok.mp h
      cases Except.pure_eq_ok.mp h
      rw [requireAware_eq_ok.mp ht]

theorem SameEvidence.derive {input' : ObservationInput} (hsame : SameEvidence input input')
    (h : deriveObservationKnowledgeV1 d input = .ok item) :
    ∃ item', deriveObservationKnowledgeV1 d input' = .ok item' ∧
      item.toObservationMarket = item'.toObservationMarket := by
  obtain ⟨⟨recorded', rfl⟩, ⟨recordedAt, hrecorded, hafter⟩, ⟨recordedAt', hrecorded', hafter'⟩⟩ :=
    hsame
  obtain ⟨verdict, versionId, contentHash, reference, eventAt, recorded, publicationAt, arrivalAt,
    bound⟩ := input
  dsimp only at *
  subst hrecorded hrecorded'
  unfold deriveObservationKnowledgeV1 at h ⊢
  dsimp only at h ⊢
  split at h
  · cases h
  · rename_i hreference
    rw [if_neg hreference]
    split at h
    · cases h
    · rename_i hhash
      rw [if_neg hhash]
      obtain ⟨eventAt, hevent, h⟩ := Except.bind_eq_ok.mp h
      obtain ⟨recorded, hrecorded, h⟩ := Except.bind_eq_ok.mp h
      cases DateTime.aware.inj (requireAware_eq_ok.mp hrecorded)
      obtain ⟨publicationAt, hpublication, h⟩ := Except.bind_eq_ok.mp h
      obtain ⟨arrivalAt, harrival, h⟩ := Except.bind_eq_ok.mp h
      obtain ⟨⟨⟩, hbound, h⟩ := Except.bind_eq_ok.mp h
      obtain ⟨reading, hreading, h⟩ := Except.bind_eq_ok.mp h
      have hitem := Except.pure_eq_ok.mp h
      have hafter : verdict.tier = EvidenceTierV1.t4FirstPartyCapture.value →
          ∀ a, arrivalAt = some a → a ≤ recordedAt ∧ a ≤ recordedAt' := by
        intro htier a ha
        rw [ha] at harrival
        have hvalue := arrival_of_requireAware? harrival
        exact ⟨hafter htier a hvalue, hafter' htier a hvalue⟩
      rw [tierClock_congr hafter] at hreading
      refine ⟨{ item with
        platformRecordedAt := recordedAt'
        contentHash := d.audit item.marketContentHash recordedAt' }, ?_, rfl⟩
      rw [hevent, Except.ok_bind, requireAware, Except.ok_bind, hpublication, Except.ok_bind,
        harrival, Except.ok_bind, hbound, Except.ok_bind, hreading, ← hitem]
      rfl

end Observation

/-! ## One feature -/

section Feature

variable {inputs inputs' : List ObservationMarket} {eventAt : ℤ}

theorem max?_eq_some {times : List ℤ} {latest : ℤ} :
    times.max? = some latest ↔ latest ∈ times ∧ ∀ t ∈ times, t ≤ latest :=
  List.max?_eq_some_iff

theorem max?_perm {times times' : List ℤ} (h : times.Perm times') : times.max? = times'.max? := by
  refine Option.ext fun latest => ?_
  rw [max?_eq_some, max?_eq_some, h.mem_iff]
  exact and_congr_right fun _ => forall_congr' fun t => by rw [h.mem_iff]

theorem orderedReasons_perm {reasons reasons' : List String} (h : reasons.Perm reasons') :
    orderedReasons reasons = orderedReasons reasons' :=
  sortedSet_congr Function.injective_id fun _ => h.mem_iff

theorem sortedBindings_congr {bindings bindings' : List PublicationLagBindingV1}
    (h : ∀ binding, binding ∈ bindings ↔ binding ∈ bindings') :
    sortedBindings bindings = sortedBindings bindings' := by
  refine sortedSet_congr ?_ h
  rintro ⟨id, nanos, reference⟩ ⟨id', nanos', reference'⟩ heq
  simp only [toLex_inj, Prod.mk.injEq] at heq
  obtain ⟨rfl, rfl, rfl⟩ := heq
  rfl

theorem sortedBindings_perm {bindings bindings' : List PublicationLagBindingV1}
    (h : bindings.Perm bindings') : sortedBindings bindings = sortedBindings bindings' :=
  sortedBindings_congr fun _ => h.mem_iff

theorem featureReasons_perm (h : inputs.Perm inputs') :
    (featureReasons inputs eventAt).Perm (featureReasons inputs' eventAt) := by
  have hhashes : sortedSet id (inputs.map ObservationMarket.marketContentHash) =
      sortedSet id (inputs'.map ObservationMarket.marketContentHash) :=
    sortedSet_congr Function.injective_id fun _ => (h.map _).mem_iff
  have hundefined := h.filter fun item : ObservationMarket => item.marketKnowledgeAt.isNone
  have hlatest := max?_perm (h.filterMap fun item => item.marketKnowledgeAt)
  unfold featureReasons
  dsimp only
  rw [hhashes, h.length_eq, hlatest]
  refine List.Perm.append_left _ ?_
  by_cases hnil : (inputs.filter fun item => item.marketKnowledgeAt.isNone) = []
  · have hnil' := hundefined
    rw [hnil] at hnil'
    rw [hnil, ← hnil'.nil_eq]
  · have hnil' : (inputs'.filter fun item => item.marketKnowledgeAt.isNone) ≠ [] := by
      intro heq
      rw [heq] at hundefined
      exact hnil hundefined.eq_nil
    rw [if_pos hnil, if_pos hnil']
    exact (hundefined.flatMap_right _).append_right _

theorem featureFacts_perm (h : inputs.Perm inputs') :
    featureFacts inputs eventAt = featureFacts inputs' eventAt := by
  have hreasons : (featureReasons inputs eventAt).Perm (featureReasons inputs' eventAt) :=
    featureReasons_perm h
  have hnil : featureReasons inputs eventAt = [] ↔ featureReasons inputs' eventAt = [] := by
    rw [← List.length_eq_zero_iff, ← List.length_eq_zero_iff, hreasons.length_eq]
  have hhashes : sortedSet id (inputs.map ObservationMarket.marketContentHash) =
      sortedSet id (inputs'.map ObservationMarket.marketContentHash) :=
    sortedSet_congr Function.injective_id fun _ => (h.map _).mem_iff
  simp only [featureFacts, hhashes, max?_perm (h.filterMap fun item => item.marketKnowledgeAt),
    ClaimCeilingV1.least_perm (h.map fun item => item.claimCeiling), hnil,
    sortedBindings_perm (h.filterMap ObservationMarket.lagBinding), orderedReasons_perm hreasons]

theorem featureFacts_claimCeiling_le {item : ObservationMarket} (hitem : item ∈ inputs) :
    (featureFacts inputs eventAt).claimCeiling ≤ item.claimCeiling := by
  have hleast : ClaimCeilingV1.least (inputs.map fun item => item.claimCeiling) ≤
      item.claimCeiling :=
    ClaimCeilingV1.least_le (List.mem_map.mpr ⟨item, hitem, rfl⟩)
  simp only [featureFacts]
  split
  · exact hleast
  · exact (min_le_left _ _).trans hleast

theorem featureFacts_marketKnowledgeAt {knownAt : ℤ}
    (h : (featureFacts inputs eventAt).marketKnowledgeAt = some knownAt) :
    eventAt ≤ knownAt ∧
      ∀ item ∈ inputs, ∃ t, item.marketKnowledgeAt = some t ∧ t ≤ knownAt := by
  simp only [featureFacts] at h
  split at h
  · rename_i hreasons
    have hrest := (List.append_eq_nil_iff.mp hreasons).2
    have hdefined : (inputs.filter fun item => item.marketKnowledgeAt.isNone) = [] := by
      by_contra hne
      rw [if_pos hne] at hrest
      simp at hrest
    rw [if_neg (not_not.mpr hdefined), h] at hrest
    constructor
    · by_contra hlt
      simp [not_le.mp hlt] at hrest
    · intro item hitem
      cases hknown : item.marketKnowledgeAt with
      | none =>
          have hmem : item ∈ inputs.filter fun item => item.marketKnowledgeAt.isNone :=
            List.mem_filter.mpr ⟨hitem, by rw [hknown]; rfl⟩
          rw [hdefined] at hmem
          cases hmem
      | some t =>
          exact ⟨t, rfl, (max?_eq_some.mp h).2 t (List.mem_filterMap.mpr ⟨item, hitem, hknown⟩)⟩
  · cases h

end Feature

/-! ## One decision -/

section Decision

variable {features features' : List FeatureMarket} {mode : DecisionModeV1}
  {computeLatency : Option DeclaredComputeLatencyV1} {computedAt : Option ℤ}
  {bound : Option HostClockBoundV1} {decision : DecisionTimeV1}

theorem any_perm {α : Type} {l l' : List α} (p : α → Bool) (h : l.Perm l') : l.any p = l'.any p := by
  rw [Bool.eq_iff_iff, List.any_eq_true, List.any_eq_true]
  exact exists_congr fun a => and_congr_left fun _ => h.mem_iff

theorem decisionMarketKnowledgeAt_perm (h : features.Perm features') :
    decisionMarketKnowledgeAt features = decisionMarketKnowledgeAt features' := by
  simp only [decisionMarketKnowledgeAt, any_perm _ h,
    max?_perm (h.filterMap fun item => item.marketKnowledgeAt)]

theorem decisionReasons_perm (h : features.Perm features') :
    (decisionReasons features).Perm (decisionReasons features') := by
  have hundefined := h.filter fun item : FeatureMarket => item.marketKnowledgeAt.isNone
  unfold decisionReasons
  dsimp only
  simp only [(h.map FeatureMarket.marketContentHash).nodup_iff,
    ClaimCeilingV1.least_perm (h.map fun item => item.claimCeiling)]
  refine List.Perm.append_right _ (List.Perm.append_left _ ?_)
  by_cases hnil : (features.filter fun item => item.marketKnowledgeAt.isNone) = []
  · have hnil' := hundefined
    rw [hnil] at hnil'
    rw [hnil, ← hnil'.nil_eq]
  · have hnil' : (features'.filter fun item => item.marketKnowledgeAt.isNone) ≠ [] := by
      intro heq
      rw [heq] at hundefined
      exact hnil hundefined.eq_nil
    rw [if_pos hnil, if_pos hnil']
    exact (hundefined.flatMap_right _).append_right _

theorem decisionFacts_perm (h : features.Perm features') (instant : Option (ℤ × List String)) :
    decisionFacts mode features computeLatency computedAt bound instant =
      decisionFacts mode features' computeLatency computedAt bound instant := by
  have hreasons : (decisionReasons features ++ (instant.map Prod.snd).getD []).Perm
      (decisionReasons features' ++ (instant.map Prod.snd).getD []) :=
    (decisionReasons_perm h).append_right _
  have hnil : decisionReasons features ++ (instant.map Prod.snd).getD [] = [] ↔
      decisionReasons features' ++ (instant.map Prod.snd).getD [] = [] := by
    rw [← List.length_eq_zero_iff, ← List.length_eq_zero_iff, hreasons.length_eq]
  have hhashes : sortBy id (features.map FeatureMarket.marketContentHash) =
      sortBy id (features'.map FeatureMarket.marketContentHash) :=
    sortBy_congr (fun _ _ _ _ heq => heq) (h.map _)
  simp only [decisionFacts, hhashes, decisionMarketKnowledgeAt_perm h, hnil,
    ClaimCeilingV1.least_perm (h.map fun item => item.claimCeiling),
    sortedBindings_perm (h.flatMap_right fun item => item.publicationLagBindings),
    orderedReasons_perm hreasons]

theorem issueDecision_perm (h : features.Perm features') :
    issueDecision d mode features computeLatency computedAt bound =
      issueDecision d mode features' computeLatency computedAt bound := by
  simp only [issueDecision, decisionMarketKnowledgeAt_perm h, decisionFacts_perm h]

theorem le_plusNanosRoundedUp {instant nanos later : ℤ}
    (h : plusNanosRoundedUp instant nanos = .ok later) : instant ≤ later := by
  unfold plusNanosRoundedUp at h
  split at h
  · cases h
  · cases h
    omega

theorem le_decisionInstant {marketKnowledgeAt : ℤ} {instant : ℤ × List String}
    (h : decisionInstant mode computeLatency computedAt bound marketKnowledgeAt = .ok instant) :
    marketKnowledgeAt ≤ instant.1 := by
  unfold decisionInstant at h
  split at h
  · obtain ⟨decisionAt, hat, h⟩ := Except.bind_eq_ok.mp h
    cases Except.pure_eq_ok.mp h
    exact le_plusNanosRoundedUp hat
  · obtain ⟨computedVenue, -, h⟩ := Except.bind_eq_ok.mp h
    cases Except.pure_eq_ok.mp h
    exact le_max_left _ _
  · cases h

theorem issueDecision_claimCeiling_le {item : FeatureMarket}
    (h : issueDecision d mode features computeLatency computedAt bound = .ok decision)
    (hitem : item ∈ features) : decision.claimCeiling ≤ item.claimCeiling := by
  obtain ⟨instant, -, h⟩ := Except.bind_eq_ok.mp h
  cases Except.pure_eq_ok.mp h
  exact ClaimCeilingV1.least_le (List.mem_map.mpr ⟨item, hitem, rfl⟩)

theorem issueDecision_decisionAt {decisionAt : ℤ} {item : FeatureMarket}
    (h : issueDecision d mode features computeLatency computedAt bound = .ok decision)
    (hat : decision.decisionAt = some decisionAt) (hitem : item ∈ features) :
    ∃ knownAt, item.marketKnowledgeAt = some knownAt ∧ knownAt ≤ decisionAt := by
  obtain ⟨instant, hinstant, h⟩ := Except.bind_eq_ok.mp h
  cases Except.pure_eq_ok.mp h
  simp only [decisionFacts] at hat
  split at hat
  · obtain ⟨⟨at', reasons⟩, rfl, rfl⟩ := Option.map_eq_some_iff.mp hat
    cases hmarket : decisionMarketKnowledgeAt features with
    | none =>
        rw [hmarket] at hinstant
        cases hinstant
    | some marketKnowledgeAt =>
        rw [hmarket] at hinstant
        obtain ⟨instant, hok, hinstant⟩ := Except.bind_eq_ok.mp hinstant
        cases Except.pure_eq_ok.mp hinstant
        unfold decisionMarketKnowledgeAt at hmarket
        split at hmarket
        · cases hmarket
        · rename_i hall
          cases hknown : item.marketKnowledgeAt with
          | none => exact absurd (List.any_eq_true.mpr ⟨item, hitem, by rw [hknown]; rfl⟩) hall
          | some knownAt =>
              refine ⟨knownAt, rfl, ?_⟩
              exact ((max?_eq_some.mp hmarket).2 knownAt
                (List.mem_filterMap.mpr ⟨item, hitem, hknown⟩)).trans (le_decisionInstant hok)
  · cases hat

end Decision

/-! ## The whole chain -/

structure FeatureInput where
  observations : List ObservationInput
  eventAt : DateTime
deriving DecidableEq

def featureOf (d : Digests) (feature : FeatureInput) : Except Exn FeatureKnowledgeV1 := do
  let items ← feature.observations.mapM (deriveObservationKnowledgeV1 d)
  propagateFeatureKnowledgeV1 d items feature.eventAt

inductive DecisionRequest where
  | historicalReplay (computeLatency : DeclaredComputeLatencyV1)
  | live (computedAt : DateTime) (computedAtClockBound : HostClockBoundV1)

def decisionTimeV1 (d : Digests) (features : List FeatureKnowledgeV1) :
    DecisionRequest → Except Exn DecisionTimeV1
  | .historicalReplay computeLatency => historicalDecisionTimeV1 d features computeLatency
  | .live computedAt computedAtClockBound =>
      liveDecisionTimeV1 d features computedAt computedAtClockBound

def decisionOf (d : Digests) (request : DecisionRequest) (features : List FeatureInput) :
    Except Exn DecisionTimeV1 := do
  decisionTimeV1 d (← features.mapM (featureOf d)) request

section Chain

variable {request : DecisionRequest} {feature feature' : FeatureInput}
  {features features' : List FeatureInput} {issued : FeatureKnowledgeV1}
  {decision : DecisionTimeV1}

theorem propagateFeatureKnowledgeV1_eq_ok {inputs : List ObservationKnowledgeV1}
    {eventAt : DateTime} :
    propagateFeatureKnowledgeV1 d inputs eventAt = .ok issued ↔
      ∃ at' recordedAt, eventAt = .aware at' ∧
        (inputs.map ObservationKnowledgeV1.platformRecordedAt).max? = some recordedAt ∧
        (∀ item ∈ inputs, item.integrityVerified d = true) ∧
        issued = issueFeature d
          (featureFacts (inputs.map ObservationKnowledgeV1.toObservationMarket) at') recordedAt := by
  unfold propagateFeatureKnowledgeV1
  simp only [Except.bind_eq_ok, requireAware_eq_ok]
  constructor
  · rintro ⟨at', rfl, h⟩
    split at h
    · cases h
    · rename_i recordedAt hmax
      split at h
      · cases h
      · rename_i hintact
        refine ⟨at', recordedAt, rfl, hmax, fun item hitem => ?_, (Except.pure_eq_ok.mp h).symm⟩
        by_contra hbroken
        exact hintact (List.any_eq_true.mpr ⟨item, hitem, by simpa using hbroken⟩)
  · rintro ⟨at', recordedAt, rfl, hmax, hintact, rfl⟩
    refine ⟨at', rfl, ?_⟩
    rw [hmax]
    dsimp only
    rw [if_neg]
    · rfl
    · intro hany
      obtain ⟨item, hitem, hbroken⟩ := List.any_eq_true.mp hany
      rw [hintact item hitem] at hbroken
      cases hbroken

theorem integrityVerified_of_derive {input : ObservationInput} {item : ObservationKnowledgeV1}
    (h : deriveObservationKnowledgeV1 d input = .ok item) : item.integrityVerified d = true := by
  obtain ⟨_, _, _, _, _, -, -, -, -, rfl⟩ := deriveObservationKnowledgeV1_eq_ok h
  exact decide_eq_true ⟨rfl, rfl, rfl, rfl⟩

theorem integrityVerified_issueFeature (inputs : List ObservationMarket) (eventAt recordedAt : ℤ) :
    (issueFeature d (featureFacts inputs eventAt) recordedAt).integrityVerified d = true :=
  decide_eq_true ⟨rfl, rfl, rfl, rfl⟩

theorem decisionTimeV1_eq_ok {items : List FeatureKnowledgeV1}
    (h : decisionTimeV1 d items request = .ok decision) :
    ∃ mode computeLatency computedAt bound,
      issueDecision d mode (items.map FeatureKnowledgeV1.toFeatureMarket) computeLatency computedAt
        bound = .ok decision ∧
      ∀ items' : List FeatureKnowledgeV1, items' ≠ [] →
        (∀ item ∈ items', item.integrityVerified d = true) →
        decisionTimeV1 d items' request =
          issueDecision d mode (items'.map FeatureKnowledgeV1.toFeatureMarket) computeLatency
            computedAt bound := by
  have hcheck : ∀ items' : List FeatureKnowledgeV1, items' ≠ [] →
      (∀ item ∈ items', item.integrityVerified d = true) → checkFeatures d items' = .ok () := by
    intro items' hne hintact
    unfold checkFeatures
    rw [if_neg hne, if_neg]
    intro hany
    obtain ⟨item, hitem, hbroken⟩ := List.any_eq_true.mp hany
    rw [hintact item hitem] at hbroken
    cases hbroken
  cases request with
  | historicalReplay latency =>
      obtain ⟨⟨⟩, -, h⟩ := Except.bind_eq_ok.mp h
      obtain ⟨⟨⟩, hvalid, h⟩ := Except.bind_eq_ok.mp h
      refine ⟨_, _, _, _, h, fun items' hne hintact => ?_⟩
      simp only [decisionTimeV1, historicalDecisionTimeV1, hcheck items' hne hintact,
        Except.ok_bind, hvalid]
  | live computedAt bound =>
      obtain ⟨⟨⟩, -, h⟩ := Except.bind_eq_ok.mp h
      obtain ⟨instant, hinstant, h⟩ := Except.bind_eq_ok.mp h
      obtain ⟨⟨⟩, hvalid, h⟩ := Except.bind_eq_ok.mp h
      refine ⟨_, _, _, _, h, fun items' hne hintact => ?_⟩
      simp only [decisionTimeV1, liveDecisionTimeV1, hcheck items' hne hintact, Except.ok_bind,
        hinstant, hvalid]

/-- Two features of one evidence: the same observations in any order, recorded at any times. -/
structure SameFeature (feature feature' : FeatureInput) : Prop where
  eventAt : feature'.eventAt = feature.eventAt
  observations : ∃ l, feature.observations.Perm l ∧ List.Forall₂ SameEvidence l feature'.observations

def Reordered (features features' : List FeatureInput) : Prop :=
  ∃ l, features.Perm l ∧ List.Forall₂ SameFeature l features'

theorem map_eq_of_forall₂ {α β γ : Type} {f : α → γ} {g : β → γ} {l : List α} {l' : List β}
    (h : List.Forall₂ (fun a b => f a = g b) l l') : l.map f = l'.map g := by
  induction h with
  | nil => rfl
  | cons hab _ ih => rw [List.map_cons, List.map_cons, hab, ih]

theorem SameFeature.featureOf (hsame : SameFeature feature feature')
    (h : featureOf d feature = .ok issued) :
    ∃ issued', KnowledgeTime.featureOf d feature' = .ok issued' ∧
      issued.toFeatureMarket = issued'.toFeatureMarket := by
  obtain ⟨items, hitems, h⟩ := Except.bind_eq_ok.mp h
  obtain ⟨eventAt, recordedAt, hevent, hmax, -, rfl⟩ := propagateFeatureKnowledgeV1_eq_ok.mp h
  obtain ⟨l, hperm, hrel⟩ := hsame.observations
  obtain ⟨items₁, hitems₁, hperm₁⟩ := Except.mapM_perm hperm hitems
  obtain ⟨items₂, hitems₂, hmarket⟩ :=
    Except.mapM_forall₂ (fun _ _ _ hsame hderive => hsame.derive hderive) hrel hitems₁
  have hmarkets : (items.map ObservationKnowledgeV1.toObservationMarket).Perm
      (items₂.map ObservationKnowledgeV1.toObservationMarket) := by
    rw [← map_eq_of_forall₂ hmarket]
    exact hperm₁.map _
  have hne : items₂ ≠ [] := by
    rintro rfl
    rw [List.map_nil] at hmarkets
    rw [List.map_eq_nil_iff.mp hmarkets.eq_nil] at hmax
    cases hmax
  obtain ⟨recordedAt', hmax'⟩ : ∃ recordedAt',
      (items₂.map ObservationKnowledgeV1.platformRecordedAt).max? = some recordedAt' := by
    rw [← Option.ne_none_iff_exists', Ne, List.max?_eq_none_iff, List.map_eq_nil_iff]
    exact hne
  refine ⟨issueFeature d (featureFacts (items₂.map ObservationKnowledgeV1.toObservationMarket)
    eventAt) recordedAt', ?_, ?_⟩
  · unfold KnowledgeTime.featureOf
    rw [hitems₂, Except.ok_bind]
    refine propagateFeatureKnowledgeV1_eq_ok.mpr
      ⟨eventAt, recordedAt', hsame.eventAt.trans hevent, hmax', fun item hitem => ?_, rfl⟩
    obtain ⟨input, -, hderive⟩ := Except.mem_of_mapM hitems₂ hitem
    exact integrityVerified_of_derive hderive
  · rw [featureFacts_perm hmarkets]
    rfl

theorem integrityVerified_of_featureOf (h : featureOf d feature = .ok issued) :
    issued.integrityVerified d = true := by
  obtain ⟨_, -, h⟩ := Except.bind_eq_ok.mp h
  obtain ⟨_, _, -, -, -, rfl⟩ := propagateFeatureKnowledgeV1_eq_ok.mp h
  exact integrityVerified_issueFeature _ _ _

theorem decision_invariant (h : decisionOf d request features = .ok decision)
    (hsame : Reordered features features') : decisionOf d request features' = .ok decision := by
  obtain ⟨issued, hissued, h⟩ := Except.bind_eq_ok.mp h
  obtain ⟨l, hperm, hrel⟩ := hsame
  obtain ⟨issued₁, hissued₁, hperm₁⟩ := Except.mapM_perm hperm hissued
  obtain ⟨issued₂, hissued₂, hmarket⟩ :=
    Except.mapM_forall₂ (fun _ _ _ hsame hfeature => hsame.featureOf hfeature) hrel hissued₁
  have hmarkets : (issued.map FeatureKnowledgeV1.toFeatureMarket).Perm
      (issued₂.map FeatureKnowledgeV1.toFeatureMarket) := by
    rw [← map_eq_of_forall₂ hmarket]
    exact hperm₁.map _
  have hne : issued₂ ≠ [] := by
    rintro rfl
    rw [List.map_nil] at hmarkets
    rw [List.map_eq_nil_iff.mp hmarkets.eq_nil] at h
    cases request <;> cases h
  have hintact : ∀ item ∈ issued₂, item.integrityVerified d = true := by
    intro item hitem
    obtain ⟨feature, -, hfeature⟩ := Except.mem_of_mapM hissued₂ hitem
    exact integrityVerified_of_featureOf hfeature
  obtain ⟨mode, computeLatency, computedAt, bound, hissue, hall⟩ := decisionTimeV1_eq_ok h
  unfold decisionOf
  rw [hissued₂, Except.ok_bind, hall issued₂ hne hintact, ← issueDecision_perm hmarkets]
  exact hissue

/-- An admissible decision comes after its inputs and their events, and claims no more than
their verdicts allow. -/
theorem admissible_after_inputs (h : decisionOf d request features = .ok decision)
    (hadmissible : decision.isAdmissible d = true) :
    ∃ decisionAt, decision.decisionAt = some decisionAt ∧
      ∀ feature ∈ features,
        (∃ eventAt, feature.eventAt = .aware eventAt ∧ eventAt ≤ decisionAt) ∧
        ∀ input ∈ feature.observations,
          (∃ item knownAt, deriveObservationKnowledgeV1 d input = .ok item ∧
            item.marketKnowledgeAt = some knownAt ∧ item.eventAt ≤ knownAt ∧
            knownAt ≤ decisionAt) ∧
          decision.claimCeiling ≤ input.verdict.claim d := by
  unfold DecisionTimeV1.isAdmissible at hadmissible
  simp only [Bool.and_eq_true] at hadmissible
  obtain ⟨decisionAt, hat⟩ := Option.isSome_iff_exists.mp hadmissible.1.1.2
  refine ⟨decisionAt, hat, fun feature hfeature => ?_⟩
  obtain ⟨issued, hissued, h⟩ := Except.bind_eq_ok.mp h
  obtain ⟨item, hitem, hof⟩ := Except.exists_of_mem_mapM hissued hfeature
  obtain ⟨mode, computeLatency, computedAt, bound, hissue, -⟩ := decisionTimeV1_eq_ok h
  have hmem : item.toFeatureMarket ∈ issued.map FeatureKnowledgeV1.toFeatureMarket :=
    List.mem_map.mpr ⟨item, hitem, rfl⟩
  obtain ⟨knownAt, hknown, hle⟩ := issueDecision_decisionAt hissue hat hmem
  have hclaim := issueDecision_claimCeiling_le hissue hmem
  obtain ⟨inputs, hinputs, hof⟩ := Except.bind_eq_ok.mp hof
  obtain ⟨eventAt, recordedAt, hevent, -, -, rfl⟩ := propagateFeatureKnowledgeV1_eq_ok.mp hof
  obtain ⟨heventLe, hall⟩ := featureFacts_marketKnowledgeAt hknown
  refine ⟨⟨eventAt, hevent, heventLe.trans hle⟩, fun input hinput => ?_⟩
  obtain ⟨observation, hobservation, hderive⟩ := Except.exists_of_mem_mapM hinputs hinput
  have hmarket : observation.toObservationMarket ∈
      inputs.map ObservationKnowledgeV1.toObservationMarket :=
    List.mem_map.mpr ⟨observation, hobservation, rfl⟩
  obtain ⟨t, ht, htle⟩ := hall _ hmarket
  refine ⟨⟨observation, t, hderive, ht, eventAt_le_marketKnowledgeAt hderive ht,
    htle.trans hle⟩, ?_⟩
  exact hclaim.trans ((featureFacts_claimCeiling_le hmarket).trans (claimCeiling_le hderive))

def sampleDigests : Digests where
  verdict facts := facts.tier
  verdictId _ := 0
  observation facts := facts.observationReference
  feature facts := String.join facts.inputKnowledgeHashes
  audit market recordedAt := market ++ toString recordedAt
  decision facts := String.join facts.featureKnowledgeHashes
  uuid5 := String.length

def sampleVerdict (tier : String) (professional : Bool) (lag : Option ℤ) :
    EvidenceTierVerdictV1 where
  schemaVersion := EvidenceTierVerdictV1.schemaVersionCurrent
  tier := tier
  reasons := []
  datasetVersionId := 1
  datasetContentHash := some "content"
  sourceId := some 2
  timingAuthority := "contract"
  timingContractContentHash := some "timing"
  provenanceEvidenceId := some 3
  provenanceProvenReal := true
  professionalEvidenceEligible := professional
  conditionalResearchEligible := !professional
  descriptiveResearchEligible := true
  declaredPublicationLagNanos := lag
  publicationLagAssumptionReference := lag.map fun _ => "lag"
  contentHash := tier
  evidenceId := 0

def captured (recordedAt : ℤ) : ObservationInput where
  verdict := sampleVerdict "T4_FIRST_PARTY_CAPTURE" true none
  datasetVersionId := 1
  datasetContentHash := "content"
  observationReference := "captured"
  eventAt := .aware 90
  platformRecordedAt := .aware recordedAt
  publicationAt := none
  arrivalAt := some (.aware 100)
  arrivalClockBound := some ⟨1500, "clock"⟩

def published (recordedAt : ℤ) : ObservationInput where
  verdict := sampleVerdict "T2_EVENT_TIME" false (some 2000)
  datasetVersionId := 1
  datasetContentHash := "content"
  observationReference := "published"
  eventAt := .aware 80
  platformRecordedAt := .aware recordedAt
  publicationAt := none
  arrivalAt := none
  arrivalClockBound := none

def sampleFeatures : List FeatureInput :=
  [⟨[captured 100, published 95], .aware 95⟩, ⟨[published 95], .aware 80⟩]

def sampleFeatures' : List FeatureInput :=
  [⟨[published 900], .aware 80⟩, ⟨[published 900, captured 900], .aware 95⟩]

theorem sameEvidence_captured {s t : ℤ} (hs : 100 ≤ s) (ht : 100 ≤ t) :
    SameEvidence (captured s) (captured t) where
  same := ⟨.aware t, rfl⟩
  recorded := ⟨s, rfl, fun _ a ha => by cases ha; exact hs⟩
  recorded' := ⟨t, rfl, fun _ a ha => by cases ha; exact ht⟩

theorem sameEvidence_published (s t : ℤ) : SameEvidence (published s) (published t) where
  same := ⟨.aware t, rfl⟩
  recorded := ⟨s, rfl, fun _ a ha => by cases ha⟩
  recorded' := ⟨t, rfl, fun _ a ha => by cases ha⟩

theorem reordered_sampleFeatures : Reordered sampleFeatures sampleFeatures' := by
  refine ⟨[⟨[published 95], .aware 80⟩, ⟨[captured 100, published 95], .aware 95⟩],
    .swap _ _ _, .cons ⟨rfl, _, .refl _, ?_⟩ (.cons ⟨rfl, _, .swap _ _ _, ?_⟩ .nil)⟩
  · exact .cons (sameEvidence_published _ _) .nil
  · exact .cons (sameEvidence_published _ _)
      (.cons (sameEvidence_captured (by decide) (by decide)) .nil)

end Chain

end TradePlatform.KnowledgeTime
