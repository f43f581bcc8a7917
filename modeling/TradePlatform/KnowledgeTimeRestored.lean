/-
# `TradePlatform.KnowledgeTimeRestored` — what a stored hash binds

A stored observation is derived again with its hash, and a stored feature is restored.  What a
restore takes a payload for is said apart from the reading (`Respells`):

  * `readFacts_eq_ok`        reading gives the facts that the payload respells;
  * `respells_of_canonical`  a feature's own payload, its keys in any order, respells it;
  * `Coherent`               what the reader asks of the facts, and every issued feature has
    (`coherent_of_derive`).

So the hash binds what is read of a payload, and not the payload (`persisted_iff`).
-/
import TradePlatform.KnowledgeTimePersistence

namespace TradePlatform.KnowledgeTime

variable {texts : Texts} {sha256 : Json → String} {base : Digests}

/-! ## Texts without blanks around them -/

theorem not_blank_head {blanks : Char → Bool} {text : List Char} {ch : Char} {rest : List Char}
    (h : JsonLines.strip blanks text = ch :: rest) : blanks ch = false := by
  unfold JsonLines.strip at h
  obtain ⟨last, hlast⟩ := List.rdropWhile_prefix blanks (text.dropWhile blanks)
  rw [h, List.cons_append] at hlast
  have hhead := List.head?_dropWhile_not blanks text
  rw [← hlast] at hhead
  simpa using hhead

theorem strip_strip (blanks : Char → Bool) (text : List Char) :
    JsonLines.strip blanks (JsonLines.strip blanks text) = JsonLines.strip blanks text := by
  have hdrop : (JsonLines.strip blanks text).dropWhile blanks = JsonLines.strip blanks text := by
    cases hstrip : JsonLines.strip blanks text with
    | nil => rfl
    | cons ch rest => rw [List.dropWhile_cons_of_neg (by rw [not_blank_head hstrip]; decide)]
  calc JsonLines.strip blanks (JsonLines.strip blanks text)
      = (JsonLines.strip blanks text).rdropWhile blanks := by
        rw [JsonLines.strip, hdrop]
    _ = JsonLines.strip blanks text := List.rdropWhile_idempotent blanks _

theorem all_strip (blanks : Char → Bool) (text : List Char) :
    (JsonLines.strip blanks text).all blanks = text.all blanks := by
  rw [Bool.eq_iff_iff, List.all_eq_true, List.all_eq_true]
  constructor
  · intro hall
    have hnil : JsonLines.strip blanks text = [] := by
      cases hstrip : JsonLines.strip blanks text with
      | nil => rfl
      | cons ch rest =>
          have hblank := hall ch (by rw [hstrip]; exact List.mem_cons_self)
          rw [not_blank_head hstrip] at hblank
          cases hblank
    have hrest := List.rdropWhile_eq_nil_iff.mp hnil
    intro ch hch
    rw [← List.takeWhile_append_dropWhile (p := blanks) (l := text)] at hch
    rcases List.mem_append.mp hch with hch | hch
    · exact List.mem_takeWhile_imp hch
    · exact hrest ch hch
  · intro hall ch hch
    refine hall ch ((List.dropWhile_sublist blanks).subset ?_)
    exact (List.rdropWhile_prefix blanks _).subset hch

theorem stripped_stripped (text : String) : stripped (stripped text) = stripped text := by
  rw [stripped, stripped, String.toList_ofList, strip_strip]

theorem blank_stripped (text : String) : blank (stripped text) = blank text := by
  rw [blank, stripped, String.toList_ofList, all_strip, blank]

/-! ## Observations -/

section Observation

variable {input : ObservationInput} {observation : ObservationKnowledgeV1}

def ObservationInput.identified (input : ObservationInput) : ObservationInput :=
  { input with
    datasetContentHash := stripped input.datasetContentHash
    observationReference := stripped input.observationReference }

theorem derive_identified (d : Digests) (input : ObservationInput) :
    deriveObservationKnowledgeV1 d input.identified = deriveObservationKnowledgeV1 d input := by
  have hreasons : bindingReasons d input.identified = bindingReasons d input := by
    simp only [bindingReasons, ObservationInput.identified, stripped_stripped]
    rfl
  have hfacts : observationFacts input.identified = observationFacts input := by
    funext claim eventAt publicationAt arrivalAt clock reasons
    simp only [observationFacts, ObservationInput.identified, stripped_stripped]
  unfold deriveObservationKnowledgeV1
  rw [hreasons, hfacts]
  simp only [ObservationInput.identified, blank_stripped]
  rfl

theorem lookup_of_canonical {fields fields' : List (String × Json)} {key text : String}
    (h : Json.canonical (.obj fields) = Json.canonical (.obj fields'))
    (htext : fields'.lookup key = some (.str text)) : fields.lookup key = some (.str text) := by
  obtain ⟨value, hvalue, hcanonical⟩ := Json.exists_lookup h htext
  rw [hvalue, Json.canonical_eq_str hcanonical]

theorem item_of_lookup {fields : List (String × Json)} {key : String} {value : Json}
    (h : fields.lookup key = some value) : item fields key = .ok value := by
  rw [item, h]

theorem uuidOf_uuidText (hlawful : texts.Lawful) (id : UUID) :
    uuidOf texts (.str (texts.uuidText id)) = .ok id := by
  rw [uuidOf, strOf, hlawful.uuid]

theorem identity_of_derive
    (h : deriveObservationKnowledgeV1 (digestsOf texts sha256 base) input = .ok observation) :
    (observation.verdictEvidenceId = input.verdict.evidenceId ∧
      observation.datasetVersionId = input.datasetVersionId ∧
      observation.datasetContentHash = stripped input.datasetContentHash ∧
      observation.observationReference = stripped input.observationReference) ∧
    observation.marketContentHash =
      payloadHash sha256 (observation.toObservationFacts.payload texts) := by
  obtain ⟨_, _, _, _, _, -, -, -, -, rfl⟩ := deriveObservationKnowledgeV1_eq_ok h
  exact ⟨⟨rfl, rfl, rfl, rfl⟩, rfl⟩

theorem rederive_persisted (hlawful : texts.Lawful)
    (h : deriveObservationKnowledgeV1 (digestsOf texts sha256 base) input = .ok observation) :
    ∃ persisted, persistedObservationKnowledgeV1 texts sha256 base observation = .ok persisted ∧
      ∀ stored, Json.canonical (.obj stored) = Json.canonical (.obj persisted) →
        rederiveObservationKnowledgeV1 texts sha256 base input.verdict stored input.clocks =
          .ok observation := by
  refine ⟨_, if_pos (integrityVerified_of_derive h), fun stored hstored => ?_⟩
  obtain ⟨value, hmarket, hvalue⟩ := @Json.exists_lookup _ _ "market" _ hstored rfl
  obtain ⟨market, rfl, hcanonical⟩ := Json.canonical_eq_obj hvalue
  obtain ⟨hidentity, hhash⟩ := identity_of_derive h
  have hrederived : rederived texts sha256 base input.verdict market input.clocks =
      .ok observation := by
    unfold rederived
    rw [item_of_lookup (lookup_of_canonical hcanonical rfl), Except.ok_bind,
      uuidOf_uuidText hlawful, Except.ok_bind, if_neg (not_not.mpr hidentity.1),
      item_of_lookup (lookup_of_canonical hcanonical rfl), Except.ok_bind,
      uuidOf_uuidText hlawful, Except.ok_bind,
      item_of_lookup (lookup_of_canonical hcanonical rfl), Except.ok_bind,
      item_of_lookup (lookup_of_canonical hcanonical rfl), Except.ok_bind, hidentity.2.1,
      hidentity.2.2.1, hidentity.2.2.2]
    exact (derive_identified _ input).trans h
  have hmatch : observation.marketContentHash = payloadHash sha256 market := by
    rw [hhash, payloadHash, payloadHash, hcanonical]
  rw [rederiveObservationKnowledgeV1, Json.get, hmarket, Option.getD_some]
  dsimp only
  rw [hrederived, onUnreadable, Except.ok_bind, if_neg (not_not.mpr hmatch)]
  rfl

end Observation

/-! ## What a payload is taken for -/

section Respelling

def Holds (payload : List (String × Json)) (key : String) (reads : Json → Prop) : Prop :=
  ∃ value, payload.lookup key = some value ∧ reads value

def SpellsTexts (texts : Texts) (spelled : List String) (value : Json) : Prop :=
  ∃ items, iterate value = .ok items ∧ items.map (strOf texts) = spelled

/-- A text of the instant, whatever its offset, or `null` where there is none. -/
def SpellsInstant (texts : Texts) (instant : Option ℤ) (value : Json) : Prop :=
  value = .null ∧ instant = none ∨
    ∃ text t, value = .str text ∧ texts.fromisoformat text = some (.aware t) ∧ instant = some t

def SpellsBinding (texts : Texts) (value : Json) (binding : PublicationLagBindingV1) : Prop :=
  ∃ fields, value = .obj fields ∧
    Holds fields "verdict_evidence_id" (fun value =>
      texts.uuid (strOf texts value) = some binding.verdictEvidenceId) ∧
    Holds fields "publication_lag_nanos" (fun value =>
      intOf texts value = .ok binding.publicationLagNanos) ∧
    Holds fields "publication_lag_reference" (fun value =>
      strOf texts value = binding.publicationLagReference)

structure Respells (texts : Texts) (payload : List (String × Json)) (facts : FeatureFacts) :
    Prop where
  schemaVersion : (Json.get payload "schema_version").str? = some facts.schemaVersion
  inputKnowledgeHashes : Holds payload "input_knowledge_hashes"
    (SpellsTexts texts facts.inputKnowledgeHashes)
  eventAt : Holds payload "event_at" (SpellsInstant texts (some facts.eventAt))
  marketKnowledgeAt : Holds payload "market_knowledge_at"
    (SpellsInstant texts facts.marketKnowledgeAt)
  claimCeiling : Holds payload "claim_ceiling" fun value =>
    strOf texts value = facts.claimCeiling.name
  publicationLagBindings : Holds payload "publication_lag_bindings" fun value =>
    ∃ items, iterate value = .ok items ∧
      List.Forall₂ (SpellsBinding texts) items facts.publicationLagBindings
  reasons : Holds payload "reasons" (SpellsTexts texts facts.reasons)

variable {payload : List (String × Json)} {key : String}

/-! ### Reading -/

theorem item_eq_ok {value : Json} : item payload key = .ok value ↔
    payload.lookup key = some value := by
  unfold item
  cases payload.lookup key with
  | none => simp
  | some value' => simp

theorem readTexts_eq_ok {spelled : List String} : readTexts texts payload key = .ok spelled ↔
    Holds payload key (SpellsTexts texts spelled) := by
  simp only [readTexts, Except.bind_eq_ok, Except.pure_eq_ok, item_eq_ok, Holds, SpellsTexts]

theorem parseInstant_eq_ok {value : Json} {instant : Option ℤ} :
    parseInstant texts value key = .ok instant ↔ SpellsInstant texts instant value := by
  unfold parseInstant SpellsInstant
  split
  · simp [eq_comm]
  · rename_i text
    split
    · rename_i hparse
      simp [refuse, hparse]
    · rename_i parsed hparse
      cases parsed with
      | naive wall => simp [requireAware, refuse, hparse]
      | aware t => simp [requireAware, hparse, pure, Except.pure, eq_comm]
  · rename_i hnull htext
    constructor
    · intro h
      cases h
    · rintro (⟨rfl, -⟩ | ⟨text, _, rfl, -⟩)
      · exact absurd rfl hnull
      · exact absurd rfl (htext text)

theorem readInstant_eq_ok {instant : Option ℤ} : readInstant texts payload key = .ok instant ↔
    Holds payload key (SpellsInstant texts instant) := by
  simp only [readInstant, Except.bind_eq_ok, item_eq_ok, parseInstant_eq_ok, Holds]

theorem readClaim_eq_ok {claim : ClaimCeilingV1} : readClaim texts payload = .ok claim ↔
    Holds payload "claim_ceiling" fun value => strOf texts value = claim.name := by
  simp only [readClaim, Except.bind_eq_ok, item_eq_ok, Holds]
  refine exists_congr fun value => and_congr_right fun _ => ?_
  rw [← ClaimCeilingV1.ofName?_eq_some]
  cases ClaimCeilingV1.ofName? (strOf texts value) with
  | none => simp
  | some claim' => simp

theorem uuidOf_eq_ok {value : Json} {id : UUID} : uuidOf texts value = .ok id ↔
    texts.uuid (strOf texts value) = some id := by
  unfold uuidOf
  cases texts.uuid (strOf texts value) with
  | none => simp
  | some id' => simp

theorem readBinding_eq_ok {value : Json} {binding : PublicationLagBindingV1} :
    readBinding texts value = .ok binding ↔ SpellsBinding texts value binding := by
  obtain ⟨id, nanos, reference⟩ := binding
  cases value with
  | obj fields =>
      simp only [readBinding, subscript, Except.bind_eq_ok, Except.pure_eq_ok, item_eq_ok,
        uuidOf_eq_ok, SpellsBinding, Holds, PublicationLagBindingV1.mk.injEq, Json.obj.injEq]
      constructor
      · rintro ⟨idJson, hid, _, huuid, nanosJson, hnanos, _, hint, referenceJson, href, rfl, rfl,
          rfl⟩
        exact ⟨fields, rfl, ⟨idJson, hid, huuid⟩, ⟨nanosJson, hnanos, hint⟩,
          ⟨referenceJson, href, rfl⟩⟩
      · rintro ⟨_, rfl, ⟨idJson, hid, huuid⟩, ⟨nanosJson, hnanos, hint⟩,
          ⟨referenceJson, href, rfl⟩⟩
        exact ⟨idJson, hid, id, huuid, nanosJson, hnanos, nanos, hint, referenceJson, href, rfl, rfl,
          rfl⟩
  | _ =>
      constructor
      · intro h
        cases h
      · rintro ⟨_, h, -⟩
        cases h

theorem readBindings_eq_ok {bindings : List PublicationLagBindingV1} :
    readBindings texts payload = .ok bindings ↔
      Holds payload "publication_lag_bindings" fun value =>
        ∃ items, iterate value = .ok items ∧
          List.Forall₂ (SpellsBinding texts) items bindings := by
  simp only [readBindings, Except.bind_eq_ok, item_eq_ok, Holds, Except.mapM_iff_forall₂,
    readBinding_eq_ok]

theorem onMalformed_eq_ok {α : Type} {x : Except Exn α} {a : α} :
    onMalformed x = .ok a ↔ x = .ok a := by
  cases x with
  | ok b => rfl
  | error e =>
      constructor
      · intro h
        unfold onMalformed at h
        split at h
        · rename_i hok
          cases hok
        · cases h
        · cases h
        · split at h <;> cases h
      · intro h
        cases h

theorem readFacts_eq_ok {facts : FeatureFacts}
    (hschema : (Json.get payload "schema_version").str? = some schemaVersionV1) :
    readFacts texts payload = .ok facts ↔
      Respells texts payload facts ∧ facts.inputKnowledgeHashes ≠ [] := by
  simp only [readFacts, Except.bind_eq_ok, onMalformed_eq_ok, readFeature, Except.pure_eq_ok,
    readTexts_eq_ok, readInstant_eq_ok, readClaim_eq_ok, readBindings_eq_ok]
  constructor
  · rintro ⟨_, ⟨hashes, hhashes, eventAt, hevent, knownAt, hknown, claim, hclaim, bindings,
      hbindings, reasons, hreasons, rfl⟩, h⟩
    unfold ReadFeature.facts at h
    cases eventAt with
    | none => cases h
    | some eventAt =>
        obtain ⟨hne, h⟩ := Except.of_ite_error h
        cases h
        exact ⟨⟨hschema, hhashes, hevent, hknown, hclaim, hbindings, hreasons⟩, hne⟩
  · rintro ⟨h, hne⟩
    have hversion : facts.schemaVersion = schemaVersionV1 :=
      Option.some.inj (h.schemaVersion.symm.trans hschema)
    refine ⟨_, ⟨_, h.inputKnowledgeHashes, _, h.eventAt, _, h.marketKnowledgeAt, _,
      h.claimCeiling, _, h.publicationLagBindings, _, h.reasons, rfl⟩, ?_⟩
    rw [ReadFeature.facts]
    dsimp only
    rw [if_neg hne, ← hversion]

/-! ### The payload of a feature -/

theorem holds_of_canonical {payload' : List (String × Json)} {value : Json} {reads : Json → Prop}
    (h : Json.canonical (.obj payload) = Json.canonical (.obj payload'))
    (hvalue : payload'.lookup key = some value)
    (hreads : ∀ value', Json.canonical value' = Json.canonical value → reads value') :
    Holds payload key reads := by
  obtain ⟨value', hlookup, hcanonical⟩ := Json.exists_lookup h hvalue
  exact ⟨value', hlookup, hreads value' hcanonical⟩

theorem str_of_canonical {value : Json} {text : String}
    (h : Json.canonical value = Json.canonical (.str text)) : value = .str text :=
  Json.canonical_eq_str h

theorem strs_of_canonical {items : List Json} {spelled : List String}
    (h : items.map Json.canonical = (spelled.map Json.str).map Json.canonical) :
    items = spelled.map Json.str := by
  induction items generalizing spelled with
  | nil =>
      cases spelled with
      | nil => rfl
      | cons text spelled => cases h
  | cons value items ih =>
      cases spelled with
      | nil => cases h
      | cons text spelled =>
          simp only [List.map_cons, List.cons.injEq] at h ⊢
          refine ⟨str_of_canonical h.1, ih ?_⟩
          rw [h.2]

theorem map_strOf (spelled : List String) : (spelled.map Json.str).map (strOf texts) = spelled := by
  induction spelled with
  | nil => rfl
  | cons text spelled ih => rw [List.map_cons, List.map_cons, ih, strOf]

theorem spellsTexts_of_canonical {value : Json} {spelled : List String}
    (h : Json.canonical value = Json.canonical (.arr (spelled.map .str))) :
    SpellsTexts texts spelled value := by
  rw [Json.canonical, Json.canonicalItems_eq] at h
  obtain ⟨items, rfl, hitems⟩ := Json.canonical_eq_arr h
  exact ⟨items, rfl, by rw [strs_of_canonical hitems, map_strOf]⟩

theorem spellsInstant_of_canonical (hlawful : texts.Lawful) {value : Json} {instant : Option ℤ}
    (h : Json.canonical value = Json.canonical (isoJson texts instant)) :
    SpellsInstant texts instant value := by
  cases instant with
  | none => exact .inl ⟨Json.canonical_eq_null h, rfl⟩
  | some t => exact .inr ⟨texts.isoUtc t, t, str_of_canonical h, hlawful.instant t, rfl⟩

theorem spellsBinding_of_canonical (hlawful : texts.Lawful) {value : Json}
    {binding : PublicationLagBindingV1}
    (h : Json.canonical value = Json.canonical (.obj (binding.payload texts))) :
    SpellsBinding texts value binding := by
  obtain ⟨fields, rfl, hfields⟩ := Json.canonical_eq_obj h
  refine ⟨fields, rfl, holds_of_canonical hfields rfl ?_, holds_of_canonical hfields rfl ?_,
    holds_of_canonical hfields rfl ?_⟩
  · intro value' hvalue
    rw [str_of_canonical hvalue]
    exact hlawful.uuid _
  · intro value' hvalue
    rw [Json.canonical_eq_int hvalue]
    rfl
  · intro value' hvalue
    rw [str_of_canonical hvalue]
    rfl

theorem spellsBindings_of_canonical (hlawful : texts.Lawful) {items : List Json}
    {bindings : List PublicationLagBindingV1}
    (h : items.map Json.canonical =
      (bindings.map fun binding => Json.obj (binding.payload texts)).map Json.canonical) :
    List.Forall₂ (SpellsBinding texts) items bindings := by
  induction items generalizing bindings with
  | nil =>
      cases bindings with
      | nil => exact .nil
      | cons binding bindings => cases h
  | cons value items ih =>
      cases bindings with
      | nil => cases h
      | cons binding bindings =>
          simp only [List.map_cons, List.cons.injEq] at h
          refine .cons (spellsBinding_of_canonical hlawful h.1) (ih ?_)
          rw [h.2]

theorem respells_of_canonical (hlawful : texts.Lawful) {facts : FeatureFacts}
    (h : Json.canonical (.obj payload) = Json.canonical (.obj (facts.payload texts))) :
    Respells texts payload facts where
  schemaVersion := by
    obtain ⟨value, hvalue, hcanonical⟩ := @Json.exists_lookup _ _ "schema_version" _ h rfl
    rw [Json.get, hvalue, str_of_canonical hcanonical]
    rfl
  inputKnowledgeHashes := holds_of_canonical h rfl fun _ => spellsTexts_of_canonical
  eventAt := holds_of_canonical h rfl fun _ => spellsInstant_of_canonical hlawful
  marketKnowledgeAt := holds_of_canonical h rfl fun _ => spellsInstant_of_canonical hlawful
  claimCeiling := holds_of_canonical h rfl fun value hvalue => by
    rw [str_of_canonical hvalue]
    rfl
  publicationLagBindings := holds_of_canonical h rfl fun value hvalue => by
    rw [Json.canonical, Json.canonicalItems_eq] at hvalue
    obtain ⟨items, rfl, hitems⟩ := Json.canonical_eq_arr hvalue
    exact ⟨items, rfl, spellsBindings_of_canonical hlawful hitems⟩
  reasons := holds_of_canonical h rfl fun _ => spellsTexts_of_canonical

/-! ### Other keys -/

theorem Holds.cons {reads : Json → Prop} {field : String × Json} (h : Holds payload key reads)
    (hnew : payload.lookup field.1 = none) : Holds (field :: payload) key reads := by
  obtain ⟨value, hvalue, hreads⟩ := h
  refine ⟨value, ?_, hreads⟩
  rw [Json.lookup_cons_eq, if_neg, hvalue]
  rintro rfl
  rw [hvalue] at hnew
  cases hnew

theorem Respells.cons {facts : FeatureFacts} {field : String × Json}
    (h : Respells texts payload facts) (hnew : payload.lookup field.1 = none) :
    Respells texts (field :: payload) facts where
  schemaVersion := by
    have hschema := h.schemaVersion
    rw [Json.get] at hschema ⊢
    rw [Json.lookup_cons_eq, if_neg, hschema]
    intro heq
    rw [heq, hnew] at hschema
    cases hschema
  inputKnowledgeHashes := h.inputKnowledgeHashes.cons hnew
  eventAt := h.eventAt.cons hnew
  marketKnowledgeAt := h.marketKnowledgeAt.cons hnew
  claimCeiling := h.claimCeiling.cons hnew
  publicationLagBindings := h.publicationLagBindings.cons hnew
  reasons := h.reasons.cons hnew

theorem canonical_ne {payload' : List (String × Json)}
    (h : payload.lookup key = none) (h' : payload'.lookup key ≠ none) :
    Json.canonical (.obj payload) ≠ Json.canonical (.obj payload') := by
  intro heq
  have hlookup := Json.lookup_canonical heq key
  rw [h, Option.map_none] at hlookup
  exact h' (Option.map_eq_none_iff.mp hlookup.symm)

end Respelling

/-! ## What every issued feature has -/

section Coherence

/-- A knowledge time comes with a conditional claim and a lag, or with a professional claim and
none; there is no lag without it. -/
structure Clocked (item : ObservationMarket) : Prop where
  undefined : item.marketKnowledgeAt = none → item.publicationLagNanos = none
  defined : item.marketKnowledgeAt ≠ none →
    (item.claimCeiling = .conditional ∧ item.lagBinding ≠ none) ∨
      (item.claimCeiling = .professional ∧ item.publicationLagNanos = none)

theorem tierClock_inr {verdict : EvidenceTierVerdictV1} {claim : ClaimCeilingV1}
    {eventAt recordedAt : ℤ} {publicationAt arrivalAt : Option ℤ} {bound : Option HostClockBoundV1}
    {clock : TierClock}
    (h : tierClock verdict claim eventAt recordedAt publicationAt arrivalAt bound =
      .ok (.inr clock)) :
    (claim = .conditional ∧ clock.lagNanos ≠ none ∧
      clock.lagReference = verdict.publicationLagAssumptionReference) ∨
    (claim = .professional ∧ clock.lagNanos = none) := by
  unfold tierClock at h
  split at h
  · cases h
  · cases h
  · split at h
    · cases h
    · rename_i hclaim
      split at h
      · cases h
      · split at h
        · cases h
        · obtain ⟨knownAt, -, h⟩ := Except.bind_eq_ok.mp h
          cases Except.pure_eq_ok.mp h
          exact .inl ⟨not_not.mp hclaim, Option.some_ne_none _, rfl⟩
  · split at h
    · cases h
    · rename_i hclaim
      split at h
      · cases h
      · cases h
        exact .inr ⟨not_not.mp hclaim, rfl⟩
  · split at h
    · cases h
    · rename_i hclaim
      split at h
      · cases h
      · cases h
      · split at h
        · cases h
        · obtain ⟨knownAt, -, h⟩ := Except.bind_eq_ok.mp h
          cases Except.pure_eq_ok.mp h
          exact .inr ⟨not_not.mp hclaim, rfl⟩
  · cases h

theorem reference_of_claim {d : Digests} {verdict : EvidenceTierVerdictV1}
    (h : verdict.claim d = .conditional) :
    verdict.publicationLagAssumptionReference ≠ none := by
  intro hnone
  have hnot : verdict.isConditionalResearchEvidence d = false := by
    rw [EvidenceTierVerdictV1.isConditionalResearchEvidence, hnone, Option.any_none,
      Bool.and_false]
  unfold EvidenceTierVerdictV1.claim at h
  rw [hnot] at h
  split at h
  · cases h
  · split at h
    · rename_i hcond
      cases hcond
    · split at h <;> cases h

theorem clocked_of_derive {d : Digests} {input : ObservationInput}
    {observation : ObservationKnowledgeV1}
    (h : deriveObservationKnowledgeV1 d input = .ok observation) :
    Clocked observation.toObservationMarket := by
  obtain ⟨eventAt, recordedAt, publicationAt, arrivalAt, reading, -, -, -, hreading, rfl⟩ :=
    deriveObservationKnowledgeV1_eq_ok h
  cases reading with
  | inl reason =>
      refine ⟨fun _ => ?_, fun hne => absurd ?_ hne⟩
      · simp [issueObservation, observationFacts]
      · simp [issueObservation, observationFacts]
  | inr clock =>
      by_cases hnil : bindingReasons d input ++ clockReasons eventAt (.inr clock) = []
      · refine ⟨fun hnone => ?_, fun _ => ?_⟩
        · simp [issueObservation, observationFacts, hnil] at hnone
        · rcases tierClock_inr hreading with ⟨hclaim, hlag, href⟩ | ⟨hclaim, hlag⟩
          · left
            refine ⟨?_, ?_⟩
            · simpa [issueObservation, observationFacts, hnil] using hclaim
            · have hverdict : input.verdict.claim d = .conditional := by
                split at hclaim
                · exact hclaim
                · cases hclaim
              obtain ⟨reference, hreference⟩ :=
                Option.ne_none_iff_exists'.mp (reference_of_claim hverdict)
              obtain ⟨nanos, hnanos⟩ := Option.ne_none_iff_exists'.mp hlag
              simp [issueObservation, observationFacts, hnil, ObservationMarket.lagBinding, hnanos,
                href, hreference]
          · right
            refine ⟨?_, ?_⟩
            · simpa [issueObservation, observationFacts, hnil] using hclaim
            · simpa [issueObservation, observationFacts, hnil] using hlag
      · refine ⟨fun _ => ?_, fun hne => absurd ?_ hne⟩
        · simp only [issueObservation, observationFacts, if_neg hnil]
        · simp only [issueObservation, observationFacts, if_neg hnil]

structure Coherent (facts : FeatureFacts) : Prop where
  schemaVersion : facts.schemaVersion = schemaVersionV1
  inputs : facts.inputKnowledgeHashes ≠ []
  checked : checkPersisted facts = .ok ()

theorem ClaimCeilingV1.least_mem (claims : List ClaimCeilingV1) :
    ClaimCeilingV1.least claims ∈ claims ∨
      ClaimCeilingV1.least claims = ClaimCeilingV1.professional := by
  induction claims with
  | nil => exact .inr rfl
  | cons claim claims ih =>
      have hleast : ClaimCeilingV1.least (claim :: claims) =
          min claim (ClaimCeilingV1.least claims) := rfl
      rw [hleast]
      rcases min_choice claim (ClaimCeilingV1.least claims) with hmin | hmin
      · rw [hmin]
        exact .inl List.mem_cons_self
      · rw [hmin]
        exact ih.imp_left (List.mem_cons_of_mem _)

theorem ClaimCeilingV1.le_least {claims : List ClaimCeilingV1} {bound : ClaimCeilingV1}
    (h : ∀ claim ∈ claims, bound ≤ claim) : bound ≤ ClaimCeilingV1.least claims := by
  rcases ClaimCeilingV1.least_mem claims with hmem | hprofessional
  · exact h _ hmem
  · rw [hprofessional]
    exact ClaimCeilingV1.le_professional bound

variable {inputs : List ObservationMarket} {eventAt : ℤ}

theorem defined_of_reasons (h : featureReasons inputs eventAt = []) :
    ∀ item ∈ inputs, item.marketKnowledgeAt ≠ none := by
  intro item hitem hnone
  have hmem : item ∈ inputs.filter fun item => item.marketKnowledgeAt.isNone :=
    List.mem_filter.mpr ⟨hitem, by rw [hnone]; rfl⟩
  have hrest := (List.append_eq_nil_iff.mp h).2
  rw [if_pos (List.ne_nil_of_mem hmem)] at hrest
  simp at hrest

theorem marketKnowledgeAt_eq_none (hne : inputs ≠ []) :
    (featureFacts inputs eventAt).marketKnowledgeAt = none ↔
      featureReasons inputs eventAt ≠ [] := by
  simp only [featureFacts]
  constructor
  · intro h hreasons
    rw [if_pos hreasons, List.max?_eq_none_iff] at h
    obtain ⟨item, hitem⟩ := List.exists_mem_of_ne_nil inputs hne
    obtain ⟨t, ht⟩ := Option.ne_none_iff_exists'.mp (defined_of_reasons hreasons item hitem)
    have hmem : t ∈ inputs.filterMap fun item => item.marketKnowledgeAt :=
      List.mem_filterMap.mpr ⟨item, hitem, ht⟩
    rw [h] at hmem
    cases hmem
  · intro hreasons
    rw [if_neg hreasons]

theorem orderedReasons_eq_nil {reasons : List String} :
    orderedReasons reasons = [] ↔ reasons = [] := by
  rw [List.eq_nil_iff_forall_not_mem, List.eq_nil_iff_forall_not_mem]
  exact forall_congr' fun reason => not_congr mem_sortedSet

theorem checkClocks_featureFacts (hne : inputs ≠ []) (hclocked : ∀ item ∈ inputs, Clocked item) :
    checkClocks (featureFacts inputs eventAt) = .ok () := by
  unfold checkClocks
  cases hknown : (featureFacts inputs eventAt).marketKnowledgeAt with
  | none =>
      have hreasons := (marketKnowledgeAt_eq_none hne).mp hknown
      refine if_neg (not_or.mpr ⟨?_, ?_⟩)
      · exact mt orderedReasons_eq_nil.mp hreasons
      · simp only [featureFacts, if_neg hreasons, not_lt]
        exact min_le_right _ _
  | some knownAt =>
      have hreasons : featureReasons inputs eventAt = [] := by
        by_contra hreasons
        rw [(marketKnowledgeAt_eq_none hne).mpr hreasons] at hknown
        cases hknown
      refine if_neg (not_or.mpr ⟨?_, not_or.mpr ⟨?_, ?_⟩⟩)
      · exact not_not.mpr (orderedReasons_eq_nil.mpr hreasons)
      · simp only [featureFacts, if_pos hreasons, not_lt]
        refine ClaimCeilingV1.le_least fun claim hclaim => ?_
        obtain ⟨item, hitem, rfl⟩ := List.mem_map.mp hclaim
        rcases (hclocked item hitem).defined (defined_of_reasons hreasons item hitem) with
          ⟨hconditional, -⟩ | ⟨hprofessional, -⟩
        · rw [hconditional]
        · rw [hprofessional]
          exact ClaimCeilingV1.le_professional _
      · exact not_lt.mpr (featureFacts_marketKnowledgeAt hknown).1

theorem mem_bindings {binding : PublicationLagBindingV1} :
    binding ∈ (featureFacts inputs eventAt).publicationLagBindings ↔
      ∃ item ∈ inputs, item.lagBinding = some binding := by
  simp only [featureFacts, sortedBindings, mem_sortedSet, List.mem_filterMap]

theorem checkBindings_featureFacts (hne : inputs ≠ [])
    (hclocked : ∀ item ∈ inputs, Clocked item) :
    checkBindings (featureFacts inputs eventAt) = .ok () := by
  unfold checkBindings
  rw [if_neg, if_neg]
  · rintro ⟨hclaim, hbindings⟩
    obtain ⟨binding, hbinding⟩ := List.exists_mem_of_ne_nil _ hbindings
    obtain ⟨item, hitem, hlag⟩ := mem_bindings.mp hbinding
    have hle : (featureFacts inputs eventAt).claimCeiling ≤ item.claimCeiling :=
      featureFacts_claimCeiling_le hitem
    rw [hclaim] at hle
    have hprofessional : item.claimCeiling = .professional :=
      le_antisymm (ClaimCeilingV1.le_professional _) hle
    have hnone : item.publicationLagNanos = none := by
      by_cases hknown : item.marketKnowledgeAt = none
      · exact (hclocked item hitem).undefined hknown
      · rcases (hclocked item hitem).defined hknown with ⟨hconditional, -⟩ | ⟨-, hnone⟩
        · rw [hprofessional] at hconditional
          cases hconditional
        · exact hnone
    rw [ObservationMarket.lagBinding, hnone] at hlag
    cases hlag
  · rintro ⟨hclaim, hknown, hbindings⟩
    have hreasons : featureReasons inputs eventAt = [] := by
      by_contra hreasons
      exact hknown ((marketKnowledgeAt_eq_none hne).mpr hreasons)
    simp only [featureFacts, if_pos hreasons] at hclaim
    have hmem := ClaimCeilingV1.least_mem (inputs.map fun item => item.claimCeiling)
    rw [hclaim] at hmem
    rcases hmem with hmem | h
    · obtain ⟨item, hitem, hconditional⟩ := List.mem_map.mp hmem
      rcases (hclocked item hitem).defined (defined_of_reasons hreasons item hitem) with
        ⟨-, hlag⟩ | ⟨hprofessional, -⟩
      · obtain ⟨binding, hbinding⟩ := Option.ne_none_iff_exists'.mp hlag
        have hmem : binding ∈ (featureFacts inputs eventAt).publicationLagBindings :=
          mem_bindings.mpr ⟨item, hitem, hbinding⟩
        rw [hbindings] at hmem
        cases hmem
      · rw [hprofessional] at hconditional
        cases hconditional
    · cases h

theorem checkPersisted_featureFacts (hne : inputs ≠ [])
    (hclocked : ∀ item ∈ inputs, Clocked item) :
    checkPersisted (featureFacts inputs eventAt) = .ok () := by
  unfold checkPersisted
  rw [if_neg, if_neg, checkClocks_featureFacts hne hclocked, Except.ok_bind,
    checkBindings_featureFacts hne hclocked]
  · rw [not_or]
    refine ⟨not_not.mpr ?_, not_not.mpr ?_⟩
    · exact (sortedSet_congr Function.injective_id fun _ => mem_sortedSet).symm
    · exact (sortedBindings_congr fun _ => mem_sortedSet).symm
  · exact not_not.mpr (sortedSet_congr Function.injective_id fun _ => mem_sortedSet).symm

theorem coherent_featureFacts (hne : inputs ≠ []) (hclocked : ∀ item ∈ inputs, Clocked item) :
    Coherent (featureFacts inputs eventAt) where
  schemaVersion := rfl
  inputs := by
    obtain ⟨item, hitem⟩ := List.exists_mem_of_ne_nil inputs hne
    have hmem : item.marketContentHash ∈ (featureFacts inputs eventAt).inputKnowledgeHashes :=
      mem_sortedSet.mpr (List.mem_map.mpr ⟨item, hitem, rfl⟩)
    exact List.ne_nil_of_mem hmem
  checked := checkPersisted_featureFacts hne hclocked

end Coherence

/-! ## Restoring -/

section Restore

variable {facts : FeatureFacts} {payload : List (String × Json)} {recordedAt : ℤ}

theorem facts_of_payloadHash (hlawful : texts.Lawful) (hsha : Function.Injective sha256)
    {facts' : FeatureFacts} (hschema : facts.schemaVersion = schemaVersionV1)
    (hinputs : facts.inputKnowledgeHashes ≠ []) (hinputs' : facts'.inputKnowledgeHashes ≠ [])
    (h : payloadHash sha256 (facts'.payload texts) = payloadHash sha256 (facts.payload texts)) :
    facts' = facts := by
  have hversion : (Json.get (facts.payload texts) "schema_version").str? = some schemaVersionV1 :=
    congrArg some hschema
  have hread : readFacts texts (facts.payload texts) = .ok facts :=
    (readFacts_eq_ok hversion).mpr ⟨respells_of_canonical hlawful rfl, hinputs⟩
  have hread' : readFacts texts (facts.payload texts) = .ok facts' :=
    (readFacts_eq_ok hversion).mpr ⟨respells_of_canonical hlawful (hsha h).symm, hinputs'⟩
  exact Except.ok.inj (hread'.symm.trans hread)

theorem restore_eq_ok (hlawful : texts.Lawful) (hsha : Function.Injective sha256)
    (hfacts : Coherent facts) {restored : RestoredFeatureKnowledgeV1} :
    restorePersistedFeatureKnowledgeV1 texts sha256 payload (.aware recordedAt)
        (payloadHash sha256 (facts.payload texts)) = .ok restored ↔
      Respells texts payload facts ∧
        restored = ⟨facts.inputKnowledgeHashes, facts.eventAt, facts.marketKnowledgeAt,
          facts.claimCeiling, payloadHash sha256 (facts.payload texts)⟩ := by
  unfold restorePersistedFeatureKnowledgeV1
  rw [requireAware, Except.ok_bind]
  constructor
  · intro h
    obtain ⟨hschema, h⟩ := Except.of_ite_error h
    obtain ⟨facts', hread, h⟩ := Except.bind_eq_ok.mp h
    obtain ⟨⟨⟩, -, h⟩ := Except.bind_eq_ok.mp h
    obtain ⟨hhash, h⟩ := Except.of_ite_error h
    obtain ⟨hrespells, hinputs⟩ := (readFacts_eq_ok (not_not.mp hschema)).mp hread
    cases facts_of_payloadHash hlawful hsha hfacts.schemaVersion hfacts.inputs hinputs
      (not_not.mp hhash)
    exact ⟨hrespells, (Except.pure_eq_ok.mp h).symm⟩
  · rintro ⟨hrespells, rfl⟩
    have hschema : (Json.get payload "schema_version").str? = some schemaVersionV1 := by
      rw [hrespells.schemaVersion, hfacts.schemaVersion]
    rw [if_neg (not_not.mpr hschema), (readFacts_eq_ok hschema).mpr ⟨hrespells, hfacts.inputs⟩,
      Except.ok_bind, hfacts.checked, Except.ok_bind, if_neg (not_not.mpr rfl)]
    rfl

theorem issued_of_propagate {observations : List ObservationKnowledgeV1} {eventAt : DateTime}
    {feature : FeatureKnowledgeV1}
    (hissued : ∀ observation ∈ observations, ∃ input,
      deriveObservationKnowledgeV1 (digestsOf texts sha256 base) input = .ok observation)
    (h : propagateFeatureKnowledgeV1 (digestsOf texts sha256 base) observations eventAt =
      .ok feature) :
    Coherent feature.toFeatureFacts ∧
      feature.marketContentHash = payloadHash sha256 (feature.toFeatureFacts.payload texts) := by
  obtain ⟨at', recordedAt, -, hmax, -, rfl⟩ := propagateFeatureKnowledgeV1_eq_ok.mp h
  refine ⟨coherent_featureFacts ?_ ?_, rfl⟩
  · rintro hnil
    rw [List.map_eq_nil_iff.mp hnil] at hmax
    cases hmax
  · intro item hitem
    obtain ⟨observation, hobservation, rfl⟩ := List.mem_map.mp hitem
    obtain ⟨input, hinput⟩ := hissued observation hobservation
    exact clocked_of_derive hinput

end Restore

/-! A captured observation, stored; the texts are those of instants of three digits. -/

namespace Stored

def intChars (n : ℤ) : List Char :=
  if n < 0 then '-' :: Nat.toDigits 10 n.natAbs else Nat.toDigits 10 n.natAbs

def ofIntChars : List Char → ℤ
  | '-' :: digits => -(Nat.ofDigitChars 10 digits 0)
  | digits => Nat.ofDigitChars 10 digits 0

def isIntChar (ch : Char) : Bool := ch == '-' || ch.isDigit

theorem isIntChar_of_mem {n : ℤ} {ch : Char} (h : ch ∈ intChars n) : isIntChar ch = true := by
  unfold intChars at h
  have hdigit : ∀ c ∈ Nat.toDigits 10 n.natAbs, isIntChar c = true := by
    intro c hc
    rw [isIntChar, Nat.isDigit_of_mem_toDigits (by decide) (by decide) hc, Bool.or_true]
  split at h
  · rcases List.mem_cons.mp h with rfl | h
    · rfl
    · exact hdigit ch h
  · exact hdigit ch h

theorem ofIntChars_intChars (n : ℤ) : ofIntChars (intChars n) = n := by
  unfold intChars
  split
  · rw [ofIntChars, Nat.ofDigitChars_ten_toDigits]
    omega
  · rename_i hn
    rw [ofIntChars, Nat.ofDigitChars_ten_toDigits]
    · omega
    · intro digits heq
      have hmem : '-' ∈ Nat.toDigits 10 n.natAbs := by
        rw [heq]
        exact List.mem_cons_self
      have hdigit := Nat.isDigit_of_mem_toDigits (by decide) (by decide) hmem
      cases hdigit

def epochChars : List Char := "1970-01-01T00:00:00.000".toList

def uuidChars : List Char := "00000000-0000-0000-0000-00000000000".toList

def microTexts : Texts where
  uuidText id := String.ofList (uuidChars ++ Nat.toDigits 10 id)
  uuid text := some (Nat.ofDigitChars 10 (text.toList.drop 35) 0)
  isoUtc t := String.ofList (epochChars ++ (intChars t ++ "+00:00".toList))
  fromisoformat text := some (.aware (ofIntChars ((text.toList.drop 23).takeWhile isIntChar)))
  intText := String.toInt?
  valueText _ := "None"

theorem lawful : microTexts.Lawful where
  uuid id := by
    have hdrop : (uuidChars ++ Nat.toDigits 10 id).drop 35 = Nat.toDigits 10 id :=
      List.drop_left' rfl
    simp only [microTexts, String.toList_ofList, hdrop, Nat.ofDigitChars_ten_toDigits]
  instant t := by
    have hdrop : (epochChars ++ (intChars t ++ "+00:00".toList)).drop 23 =
        intChars t ++ "+00:00".toList := List.drop_left' rfl
    have htake : (intChars t ++ "+00:00".toList).takeWhile isIntChar = intChars t := by
      rw [List.takeWhile_append_of_pos fun ch hch => isIntChar_of_mem hch]
      exact List.append_nil _
    simp only [microTexts, String.toList_ofList, hdrop, htake, ofIntChars_intChars]

def digests : Digests := digestsOf microTexts Json.codeText sampleDigests

def input : ObservationInput :=
  { captured 200 with eventAt := .aware 190, arrivalAt := some (.aware 195) }

theorem exists_observation :
    ∃ observation, deriveObservationKnowledgeV1 digests input = .ok observation :=
  Except.exists_of_isOk rfl

theorem exists_feature {observation : ObservationKnowledgeV1}
    (h : deriveObservationKnowledgeV1 digests input = .ok observation) :
    ∃ feature, propagateFeatureKnowledgeV1 digests [observation] (.aware 195) = .ok feature := by
  refine ⟨_, propagateFeatureKnowledgeV1_eq_ok.mpr ⟨195, observation.platformRecordedAt, rfl, rfl,
    fun item hitem => ?_, rfl⟩⟩
  rw [List.mem_singleton.mp hitem]
  exact integrityVerified_of_derive h

end Stored

end TradePlatform.KnowledgeTime
